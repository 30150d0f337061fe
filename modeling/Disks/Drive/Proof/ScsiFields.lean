import Mathlib.Data.List.Induction
import Disks.Drive.Proof.Wwn

/-!
# The parameters of a log page

The loop over the parameters of a log page (`walk`) as a loop over a list of parameters, which is
read off the page.

* `fieldsFrom`: the parameters, and `length_fieldsFrom_le`: how many there are at most.
* `walk_eq`: the loop over the page is the loop over the list.
* `parseScsiNumber_eq`: a number of the page; `toNat_numberOf_of_le`: what it is.
-/

namespace Drive

open Bytes Loop

/-! ## The list -/

/-- The header at `offset`, with zeros for what is outside the buffer. -/
def fieldOf (tdata : Page) (offset : Nat) : ScsiField :=
  let b (i : Nat) : Byte := tdata.toList.getD (offset + i) 0
  ⟨(b 0).toNat * 256 + (b 1).toNat, b 2, (b 3).toNat, offset + 4⟩

/-- The parameters from `offset` on. -/
def fieldsFrom (tdata : Page) (offset : Nat) : List ScsiField :=
  if offset + 4 ≥ buffLen tdata then []
  else fieldOf tdata offset :: fieldsFrom tdata (offset + 4 + (fieldOf tdata offset).len)
termination_by buffLen tdata - offset

/-- The parameters of a page. -/
def fields (tdata : Page) : List ScsiField := fieldsFrom tdata 4

/-- A header takes four bytes, so the loop ends. -/
theorem length_fieldsFrom_le (tdata : Page) (offset : Nat) :
    4 * (fieldsFrom tdata offset).length ≤ buffLen tdata - offset := by
  fun_induction fieldsFrom tdata offset with
  | case1 offset h => simp
  | case2 offset h ih =>
    rw [List.length_cons]
    omega

theorem fieldAt_eq (tdata : Page) (offset : Nat) :
    fieldAt tdata offset = if offset + 4 ≤ 512 then some (fieldOf tdata offset) else none := by
  unfold fieldAt fieldOf
  rw [at?_eq, at?_eq, at?_eq, at?_eq]
  by_cases h : offset + 4 ≤ 512
  · rw [if_pos h, if_pos (by omega), if_pos (by omega), if_pos (by omega), if_pos (by omega)]
    rfl
  rw [if_neg h]
  by_cases h3 : offset + 3 < 512
  · omega
  rw [if_neg h3]
  cases (if offset < 512 then some (tdata.toList.getD offset 0) else none) with
  | none => rfl
  | some b0 =>
    cases (if offset + 1 < 512 then some (tdata.toList.getD (offset + 1) 0) else none) with
    | none => rfl
    | some b1 =>
      cases (if offset + 2 < 512 then some (tdata.toList.getD (offset + 2) 0) else none) with
      | none => rfl
      | some b2 => rfl

/-! ## The loop -/

section loop

variable {σ ρ : Type}

/-- The loop over a list of parameters; a header outside the buffer cannot be read. -/
def walkList (body : ScsiField → σ → Option (Turn σ ρ)) (done : σ → ρ) :
    List ScsiField → σ → Option ρ
  | [], s => some (done s)
  | f :: fs, s =>
    if f.data ≤ 512 then
      (body f s).bind fun
        | .stop r => some r
        | .next s => walkList body done fs s
    else none

/-- **The loop over a page.** -/
theorem walk_eq (tdata : Page) (body : ScsiField → σ → Option (Turn σ ρ)) (done : σ → ρ)
    (offset : Nat) (s : σ) :
    walk tdata body done offset s = walkList body done (fieldsFrom tdata offset) s := by
  induction offset using fieldsFrom.induct tdata generalizing s with
  | case1 offset h =>
    rw [walk, fieldsFrom, if_pos h, if_pos h]
    rfl
  | case2 offset h ih =>
    rw [walk, fieldsFrom, if_neg h, if_neg h, walkList, fieldAt_eq]
    by_cases hfits : offset + 4 ≤ 512
    · rw [if_pos hfits, if_pos (show (fieldOf tdata offset).data ≤ 512 from hfits)]
      simp only [Option.bind_eq_bind, Option.bind_some]
      cases body (fieldOf tdata offset) s with
      | none => rfl
      | some t =>
        cases t with
        | stop r => rfl
        | next s' => exact ih s'
    · rw [if_neg hfits, if_neg (show ¬ (fieldOf tdata offset).data ≤ 512 from hfits)]
      rfl

end loop

/-! ## Numbers -/

/-- The number of these bytes, modulo 2^64. -/
def numberOf (bs : List Byte) : U64 := bs.foldl (fun v b => (v <<< 8) + b.setWidth 64) 0

theorem toNat_numberOf (bs : List Byte) : (numberOf bs).toNat = be bs % 2 ^ 64 := by
  induction bs using List.reverseRecOn with
  | nil => rfl
  | append_singleton bs b ih =>
    have hstep : numberOf (bs ++ [b]) = (numberOf bs <<< 8) + b.setWidth 64 := by
      rw [numberOf, List.foldl_append]
      rfl
    have hb := b.isLt
    rw [hstep, be_append, be_singleton, BitVec.toNat_add, BitVec.toNat_shiftLeft, ih,
      BitVec.toNat_setWidth_of_le (by decide), Nat.shiftLeft_eq, List.length_singleton]
    omega

/-- Up to eight bytes are read as they stand. -/
theorem toNat_numberOf_of_le {bs : List Byte} (h : bs.length ≤ 8) :
    (numberOf bs).toNat = be bs := by
  have hlt : be bs < 2 ^ 64 :=
    (be_lt bs).trans_le (Nat.pow_le_pow_right (n := 256) (by decide) h : _ ≤ 256 ^ 8)
  rw [toNat_numberOf, Nat.mod_eq_of_lt hlt]

theorem slice_succ {buf : List Byte} {i n : Nat} (h : i + n < buf.length) :
    slice buf i (n + 1) = slice buf i n ++ [buf.getD (i + n) 0] := by
  have hget : (buf.drop i)[n]? = some (buf.getD (i + n) 0) := by
    rw [List.getElem?_drop, List.getD_eq_getElem?_getD, List.getElem?_eq_getElem h]
    rfl
  rw [slice, List.take_add_one, hget]
  rfl

/-- **A number is read** when its bytes are in the buffer. -/
theorem parseScsiNumber_eq (tdata : Page) (i len : Nat) : parseScsiNumber tdata i len =
    if len = 0 ∨ i + len ≤ 512 then some (numberOf (slice tdata.toList i len)) else none := by
  have hsize : tdata.toList.length = 512 := Vector.length_toList
  induction len with
  | zero =>
    rw [if_pos (.inl rfl)]
    rfl
  | succ len ih =>
    have hstep : parseScsiNumber tdata i (len + 1) =
        (parseScsiNumber tdata i len).bind fun value =>
          (tdata.at? (i + len)).bind fun b => some ((value <<< 8) + b.setWidth 64) := by
      rw [parseScsiNumber, List.range_succ, List.foldlM_append]
      simp only [List.foldlM_cons, List.foldlM_nil, Option.bind_eq_bind,
        bind_pure, parseScsiNumber]
    rw [hstep, ih, at?_eq]
    by_cases hfits : i + (len + 1) ≤ 512
    · rw [if_pos (by omega), if_pos (by omega), if_pos (.inr hfits),
        slice_succ (by omega), numberOf, numberOf, List.foldl_append]
      rfl
    · rw [if_neg (by omega : ¬ (len + 1 = 0 ∨ i + (len + 1) ≤ 512)),
        if_neg (by omega : ¬ i + len < 512)]
      split
      · rfl
      · rfl

end Drive
