import Disks.Hardware.Proof.DmiTable

/-!
# The strings of a structure

* `dmiString_eq`: the string of a number is found, and nothing is read behind the strings.
-/

namespace Dmi

open Bytes

/-- Strings with a zero behind each. -/
def stringSet (strings : List (List Byte)) : List Byte := strings.flatMap (· ++ [0])

theorem stringSet_cons (s : List Byte) (strings : List (List Byte)) :
    stringSet (s :: strings) = s ++ 0 :: stringSet strings := by
  rw [stringSet, List.flatMap_cons, List.append_assoc, List.singleton_append, stringSet]

/-- Where the strings begin, one string further. -/
theorem stringAt_next {front s rest : List Byte} (hne : s ≠ []) (hs : (0 : Byte) ∉ s) (id : Nat) :
    stringAt (front ++ (s ++ 0 :: rest)) front.length (id + 2) =
      stringAt (front ++ (s ++ 0 :: rest)) (front ++ (s ++ [0])).length (id + 1) := by
  obtain ⟨c, s, rfl⟩ := List.exists_cons_of_ne_nil hne
  have hc : c ≠ 0 := fun hzero => hs (hzero ▸ List.mem_cons_self ..)
  have hfirst : (front ++ (c :: s ++ 0 :: rest))[front.length]? = some c := by
    simp
  have hlast : (front ++ (c :: s ++ 0 :: rest))[front.length + (c :: s).length]? = some 0 := by
    rw [getElem?_front, List.getElem?_append_right (Nat.le_refl _), Nat.sub_self]
    rfl
  have hlength : (front ++ (c :: s ++ [0])).length = front.length + (c :: s).length + 1 := by
    simp
    omega
  rw [stringAt, hfirst, List.drop_left, cstr_append_zero hs, hlength]
  simp only [Option.bind_eq_bind, Option.bind_some, if_neg hc, hlast]

/-- The strings before that of a number are passed. -/
theorem stringAt_eq {strings : List (List Byte)} (h : ∀ s ∈ strings, s ≠ [] ∧ (0 : Byte) ∉ s)
    (front rest : List Byte) (id : Nat) :
    stringAt (front ++ (stringSet strings ++ 0 :: rest)) front.length (id + 1) =
      some (front ++ stringSet (strings.take id)).length := by
  induction strings generalizing front id with
  | nil =>
    cases id with
    | zero => simp [stringAt, stringSet]
    | succ id => simp [stringAt, stringSet]
  | cons s strings ih =>
    cases id with
    | zero => simp [stringAt, stringSet]
    | succ id =>
      obtain ⟨⟨hne, hs⟩, hrest⟩ := List.forall_mem_cons.mp h
      have hdata : front ++ (stringSet (s :: strings) ++ 0 :: rest) =
          front ++ (s ++ 0 :: (stringSet strings ++ 0 :: rest)) := by
        rw [stringSet_cons, List.append_assoc, List.cons_append]
      have hstring := ih hrest (front ++ (s ++ [0])) id
      simp only [List.append_assoc, List.singleton_append] at hstring
      rw [hdata, stringAt_next hne hs, hstring, List.take_succ_cons, stringSet_cons]

/-- **The string of a number** is read from the strings of the structure, and only from them. -/
theorem dmiString_eq {hdr : Header} {front rest : List Byte} {strings : List (List Byte)}
    (hdata : hdr.data = front ++ (stringSet strings ++ 0 :: rest))
    (hfront : front.length = hdr.length.toNat)
    (h : ∀ s ∈ strings, s ≠ [] ∧ (0 : Byte) ∉ s) (id : Byte) :
    dmiString hdr id = some (if id = 0 then ascii "Not Specified"
      else (strings[id.toNat - 1]?).getD (ascii "ERR")) := by
  unfold dmiString
  by_cases hid : id = 0
  · rw [if_pos hid, if_pos hid]
  · rw [if_neg hid, if_neg hid]
    obtain ⟨k, hk⟩ : ∃ k, id.toNat = k + 1 :=
      Nat.exists_eq_succ_of_ne_zero fun hzero => hid (BitVec.eq_of_toNat_eq hzero)
    rw [hk, ← hfront, hdata, stringAt_eq h, Nat.add_sub_cancel]
    have hsplit : front ++ (stringSet strings ++ 0 :: rest) =
        (front ++ stringSet (strings.take k)) ++ (stringSet (strings.drop k) ++ 0 :: rest) := by
      rw [stringSet, ← List.take_append_drop k strings, List.flatMap_append]
      simp [stringSet]
    rw [hsplit]
    cases hstring : strings[k]? with
    | none =>
      rw [List.drop_eq_nil_of_le (List.getElem?_eq_none_iff.mp hstring)]
      simp [stringSet]
    | some s =>
      obtain ⟨hlt, hs⟩ := List.getElem?_eq_some_iff.mp hstring
      obtain ⟨hne, hzero⟩ := h s (List.mem_of_getElem? hstring)
      obtain ⟨c, s', rfl⟩ := List.exists_cons_of_ne_nil hne
      have hc : c ≠ 0 := fun hc => hzero (hc ▸ List.mem_cons_self ..)
      have hbehind : stringSet (strings.drop k) ++ 0 :: rest =
          c :: s' ++ 0 :: (stringSet (strings.drop (k + 1)) ++ 0 :: rest) := by
        rw [List.drop_eq_getElem_cons hlt, hs, stringSet_cons, List.append_assoc]
        rfl
      rw [hbehind]
      generalize stringSet (strings.drop (k + 1)) ++ 0 :: rest = behind
      generalize front ++ stringSet (strings.take k) = before
      have hfirst : (before ++ (c :: s' ++ 0 :: behind))[before.length]? = some c := by simp
      have hlast : (before ++ (c :: s' ++ 0 :: behind))[before.length + (c :: s').length]? =
          some 0 := by
        rw [getElem?_front, List.getElem?_append_right (Nat.le_refl _), Nat.sub_self]
        rfl
      simp only [Option.bind_eq_bind, Option.bind_some, hfirst, if_neg hc, List.drop_left,
        cstr_append_zero hzero, hlast]
      rfl

end Dmi
