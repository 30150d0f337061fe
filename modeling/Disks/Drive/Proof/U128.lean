import Disks.Drive.U128
import Mathlib.Algebra.BigOperators.Fin
import Mathlib.Tactic.IntervalCases

/-!
# The numbers of sixteen bytes

* `toNat_orBytes`: shifted bytes, one below the other, are a number in a field.
* `getu128_eq`, `getu128le_eq`: the bytes that are read.
* `getu128_iff`: when the number of `getu128` is that of its sixteen bytes.
* `wide_decoders`: **`getu128` reads behind its sixteen bytes**, `getu128le` does not.
* `nvmeWWN_iff`, `nvmeCapacities_eq`: what NVMe identify makes of them.
-/

namespace Drive

open Bytes

/-- One of sixteen bytes. -/
def octet (v : Vector Byte 16) (i : Nat) : Byte := v.toList.getD i 0

theorem octet_eq (v : Vector Byte 16) {i : Nat} (h : i < 16) : octet v i = v[i] := by
  have hlength : v.toList.length = 16 := Vector.length_toList
  rw [octet, List.getD_eq_getElem?_getD, List.getElem?_eq_getElem (by omega), Option.getD_some,
    Vector.getElem_toList]

/-- The number that sixteen bytes stand for, the most significant first. -/
def number (v : Vector Byte 16) : Nat := ∑ i : Fin 16, (octet v i).toNat * 256 ^ (15 - i.val)

/-- A field as a sum over its bytes. -/
theorem be_eq_sum (bs : List Byte) :
    be bs = ∑ i : Fin bs.length, bs[i].toNat * 256 ^ (bs.length - 1 - i.val) := by
  induction bs with
  | nil => rfl
  | cons b bs ih =>
    rw [← List.singleton_append, be_append, be_singleton, ih]
    change _ = ∑ i : Fin (bs.length + 1), _
    rw [Fin.sum_univ_succ]
    congr 1
    refine Finset.sum_congr rfl fun i _ => ?_
    have hplace : bs.length - 1 - i.val = bs.length + 1 - 1 - (i.val + 1) := by omega
    rw [hplace]
    rfl

theorem be_toList (v : Vector Byte 16) : be v.toList = number v := by
  have hlength : v.toList.length = 16 := Vector.length_toList
  rw [be_eq_sum, number]
  refine Fintype.sum_equiv (finCongr hlength) _ _ fun i => ?_
  have hplace : v.toList.length - 1 - i.val = 15 - i.val := by omega
  have hoctet : octet v (finCongr hlength i) = v.toList[i] := by
    rw [octet_eq v (finCongr hlength i).isLt]
    rfl
  rw [hplace, hoctet]
  rfl

/-- Bytes shifted to their places, the last one to the lowest. -/
def orBytes : List Byte → U128
  | [] => 0
  | b :: bs => b.setWidth 128 <<< (8 * bs.length) ||| orBytes bs

/-- Shifted bytes, one below the other, are a number in a field. -/
theorem toNat_orBytes {bs : List Byte} (h : bs.length ≤ 16) : (orBytes bs).toNat = be bs := by
  induction bs with
  | nil => rfl
  | cons b bs ih =>
    rw [List.length_cons] at h
    have hrest := ih (by omega)
    have hbelow : (orBytes bs).toNat < 2 ^ (8 * bs.length) := by
      rw [hrest, Nat.pow_mul]
      exact be_lt bs
    rw [orBytes, toNat_shiftLeft_or b (by omega) hbelow, hrest, ← List.singleton_append, be_append,
      be_singleton, Nat.pow_mul]

theorem byte128_of_lt (v : Vector Byte 16) (rest : List Byte) {i : Nat} (h : i < 16) :
    byte128 (v.toList ++ rest) i = some ((octet v i).setWidth 128) := by
  have hlength : v.toList.length = 16 := Vector.length_toList
  rw [byte128, List.getElem?_append_left (by omega), List.getElem?_eq_getElem (by omega),
    Option.map_some, Vector.getElem_toList, octet_eq v h]

theorem byte128_behind (v : Vector Byte 16) (rest : List Byte) :
    byte128 (v.toList ++ rest) 16 = rest.head?.map (·.setWidth 128) := by
  have hlength : v.toList.length = 16 := Vector.length_toList
  rw [byte128, List.getElem?_append_right (by omega), hlength, List.head?_eq_getElem?]

theorem toList_eq (v : Vector Byte 16) :
    v.toList = [octet v 0, octet v 1, octet v 2, octet v 3, octet v 4, octet v 5, octet v 6,
      octet v 7, octet v 8, octet v 9, octet v 10, octet v 11, octet v 12, octet v 13,
      octet v 14, octet v 15] := by
  apply List.ext_getElem
  · exact Vector.length_toList
  · intro i hi _
    have hlt : i < 16 := by simpa using hi
    rw [Vector.getElem_toList, ← octet_eq v hlt]
    interval_cases i <;> rfl

/-- What `getu128` reads: the byte 11 is left out, and the byte behind is read. -/
theorem getu128_eq (v : Vector Byte 16) (rest : List Byte) :
    getu128 (v.toList ++ rest) = rest.head?.map fun b =>
      orBytes [octet v 0, octet v 1, octet v 2, octet v 3, octet v 4, octet v 5, octet v 6,
        octet v 7, octet v 8, octet v 9, octet v 10, octet v 12, octet v 13, octet v 14,
        octet v 15, b] := by
  simp only [getu128, byte128_of_lt v _ (show 0 < 16 by decide),
    byte128_of_lt v _ (show 1 < 16 by decide), byte128_of_lt v _ (show 2 < 16 by decide),
    byte128_of_lt v _ (show 3 < 16 by decide), byte128_of_lt v _ (show 4 < 16 by decide),
    byte128_of_lt v _ (show 5 < 16 by decide), byte128_of_lt v _ (show 6 < 16 by decide),
    byte128_of_lt v _ (show 7 < 16 by decide), byte128_of_lt v _ (show 8 < 16 by decide),
    byte128_of_lt v _ (show 9 < 16 by decide), byte128_of_lt v _ (show 10 < 16 by decide),
    byte128_of_lt v _ (show 12 < 16 by decide), byte128_of_lt v _ (show 13 < 16 by decide),
    byte128_of_lt v _ (show 14 < 16 by decide), byte128_of_lt v _ (show 15 < 16 by decide),
    byte128_behind, Option.bind_eq_bind, Option.bind_some]
  cases rest with
  | nil => rfl
  | cons b rest => simp [orBytes, BitVec.or_assoc]

/-- `getu128le` reads all the bytes, and only them. -/
theorem getu128le_eq (v : Vector Byte 16) (rest : List Byte) :
    getu128le (v.toList ++ rest) = some (orBytes v.reverse.toList) := by
  simp only [getu128le, byte128_of_lt v _ (show 0 < 16 by decide),
    byte128_of_lt v _ (show 1 < 16 by decide), byte128_of_lt v _ (show 2 < 16 by decide),
    byte128_of_lt v _ (show 3 < 16 by decide), byte128_of_lt v _ (show 4 < 16 by decide),
    byte128_of_lt v _ (show 5 < 16 by decide), byte128_of_lt v _ (show 6 < 16 by decide),
    byte128_of_lt v _ (show 7 < 16 by decide), byte128_of_lt v _ (show 8 < 16 by decide),
    byte128_of_lt v _ (show 9 < 16 by decide), byte128_of_lt v _ (show 10 < 16 by decide),
    byte128_of_lt v _ (show 11 < 16 by decide), byte128_of_lt v _ (show 12 < 16 by decide),
    byte128_of_lt v _ (show 13 < 16 by decide), byte128_of_lt v _ (show 14 < 16 by decide),
    byte128_of_lt v _ (show 15 < 16 by decide), Option.bind_eq_bind, Option.bind_some]
  rw [Vector.toList_reverse, toList_eq]
  simp [orBytes, BitVec.or_assoc]

theorem toNat_orBytes_toList (v : Vector Byte 16) : (orBytes v.toList).toNat = number v := by
  rw [toNat_orBytes Vector.length_toList.le, be_toList]

/-- The number of `getu128` is that of its sixteen bytes exactly where the bytes from 11 on, and the
one behind, are the same. -/
theorem getu128_iff (v : Vector Byte 16) (b : Byte) (rest : List Byte) :
    (getu128 (v.toList ++ b :: rest)).map BitVec.toNat = some (number v) ↔
      ∀ i : Fin 16, 11 ≤ i.val → octet v i = b := by
  have hread : (getu128 (v.toList ++ b :: rest)).map BitVec.toNat = some (number v) ↔
      [octet v 0, octet v 1, octet v 2, octet v 3, octet v 4, octet v 5, octet v 6, octet v 7,
        octet v 8, octet v 9, octet v 10, octet v 12, octet v 13, octet v 14, octet v 15, b] =
        v.toList := by
    have hnumber := @toNat_orBytes [octet v 0, octet v 1, octet v 2, octet v 3, octet v 4,
      octet v 5, octet v 6, octet v 7, octet v 8, octet v 9, octet v 10, octet v 12,
      octet v 13, octet v 14, octet v 15, b] (Nat.le_refl 16)
    rw [getu128_eq, List.head?_cons, Option.map_some, Option.map_some, Option.some.injEq, hnumber,
      ← be_toList]
    constructor
    · intro h
      have hlength : v.toList.length = 16 := Vector.length_toList
      have hreverse := le_inj (by rw [List.length_reverse, List.length_reverse, hlength]; rfl) h
      exact List.reverse_inj.mp hreverse
    · exact fun h => congrArg be h
  rw [hread, toList_eq]
  simp only [List.cons.injEq, true_and, and_true]
  constructor
  · intro h i hi
    obtain ⟨h11, h12, h13, h14, h15⟩ := h
    obtain ⟨i, hlt⟩ := i
    change octet v i = b
    have hcases : i = 11 ∨ i = 12 ∨ i = 13 ∨ i = 14 ∨ i = 15 := by
      change 11 ≤ i at hi
      omega
    rcases hcases with rfl | rfl | rfl | rfl | rfl
    · rw [← h11, ← h12, ← h13, ← h14, ← h15]
    · rw [← h12, ← h13, ← h14, ← h15]
    · rw [← h13, ← h14, ← h15]
    · rw [← h14, ← h15]
    · rw [← h15]
  · intro h
    have h11 : octet v 11 = b := h 11 (by decide)
    have h12 : octet v 12 = b := h 12 (by decide)
    have h13 : octet v 13 = b := h 13 (by decide)
    have h14 : octet v 14 = b := h 14 (by decide)
    have h15 : octet v 15 = b := h 15 (by decide)
    rw [h11, h12, h13, h14, h15]
    exact ⟨rfl, rfl, rfl, rfl, rfl⟩

/-- **`getu128` never has the number of sixteen bytes alone**: it reads the byte behind, and its
number is the right one only where that byte and those from 11 on are the same. `getu128le` has the
number of the bytes in reverse. -/
theorem wide_decoders (v : Vector Byte 16) :
    (getu128 v.toList).map BitVec.toNat ≠ some (number v) ∧
      getu128le v.toList ≠ getu128 v.reverse.toList ∧
      (∀ b rest, (getu128 (v.toList ++ b :: rest)).map BitVec.toNat = some (number v) ↔
        ∀ i : Fin 16, 11 ≤ i.val → octet v i = b) ∧
      (getu128le v.toList).map BitVec.toNat = some (number v.reverse) := by
  have hnone (w : Vector Byte 16) : getu128 w.toList = none := by
    rw [← List.append_nil w.toList, getu128_eq]
    rfl
  have hle : getu128le v.toList = some (orBytes v.reverse.toList) := by
    rw [← List.append_nil v.toList, getu128le_eq]
  refine ⟨?_, ?_, getu128_iff v, ?_⟩
  · rw [hnone]
    exact fun h => by cases h
  · rw [hnone, hle]
    exact fun h => by cases h
  · rw [hle, Option.map_some, toNat_orBytes_toList]

/-- The bytes 0 to 15 are not decoded to their number, whatever byte is behind them. -/
theorem counting_misread :
    (getu128 [0, 1, 2, 3, 4, 5, 6, 7, 8, 9, 10, 11, 12, 13, 14, 15]).isNone ∧
      ∀ b rest, (getu128 ([0, 1, 2, 3, 4, 5, 6, 7, 8, 9, 10, 11, 12, 13, 14, 15] ++
          b :: rest)).map BitVec.toNat ≠
        some (number #v[0, 1, 2, 3, 4, 5, 6, 7, 8, 9, 10, 11, 12, 13, 14, 15]) := by
  refine ⟨by decide, fun b rest h => ?_⟩
  have hsame := (getu128_iff #v[0, 1, 2, 3, 4, 5, 6, 7, 8, 9, 10, 11, 12, 13, 14, 15] b rest).mp h
  have hne : (11 : Byte) = 12 := (hsame 11 (by decide)).trans (hsame 12 (by decide)).symm
  exact absurd hne (by decide)

/-! ## The identify command of NVMe -/

/-- The WWN is the NGUID exactly where its bytes from 11 on are the first byte of the EUI-64, unless
the number that is read is zero. -/
theorem nvmeWWN_iff (ids : NamespaceIds) (hne : getu128 ids.bytes ≠ some 0) :
    (nvmeWWN ids).map BitVec.toNat = some (number ids.nguid) ↔
      ∀ i : Fin 16, 11 ≤ i.val → octet ids.nguid i = ids.eui64.toList.getD 0 0 := by
  have hbytes : ∃ rest, ids.bytes = ids.nguid.toList ++ ids.eui64.toList.getD 0 0 :: rest := by
    refine ⟨ids.eui64.toList.drop 1, ?_⟩
    have hlength : ids.eui64.toList.length = 8 := Vector.length_toList
    rw [NamespaceIds.bytes, List.getD_eq_getElem?_getD, List.getElem?_eq_getElem (by omega),
      Option.getD_some, ← List.drop_eq_getElem_cons, List.drop_zero]
  obtain ⟨rest, hrest⟩ := hbytes
  have hwwn : nvmeWWN ids = getu128 ids.bytes := by
    unfold nvmeWWN
    cases hread : getu128 ids.bytes with
    | none => rfl
    | some wwn =>
      have hwwn : ¬ wwn = 0 := fun hzero => hne (hread.trans (congrArg some hzero))
      rw [Option.bind_eq_bind, Option.bind_some, if_neg hwwn]
      rfl
  rw [hwwn, hrest, getu128_iff]

/-- The capacities are those that the device states. -/
theorem nvmeCapacities_eq (tnvmcap unvmcap : Vector Byte 16) :
    (nvmeCapacities tnvmcap unvmcap).map (fun r => (r.1.toNat, r.2.toNat)) =
      some (number tnvmcap.reverse, number unvmcap.reverse) := by
  have hle (w : Vector Byte 16) : getu128le w.toList = some (orBytes w.reverse.toList) := by
    rw [← List.append_nil w.toList, getu128le_eq]
  simp only [nvmeCapacities, hle, Option.bind_eq_bind, Option.bind_some, Option.pure_def,
    Option.map_some, toNat_orBytes_toList]

end Drive
