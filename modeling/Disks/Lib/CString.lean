import Disks.Lib.Bytes

/-!
# C strings

A string in a buffer is what stands before the first zero byte. `strncpy` copies one and fills up
with zeros, up to `n` bytes.

* `strncpyBytes_eq`: what a copy writes; `strncpyBytes_set_last`: with a terminator put at its end.
* `strncpyBytes_eq_iff`: **a copy of bytes is exact** when nothing stands behind a zero (`Padded`).
* `Holds`: a string that is complete in a cleared buffer.
-/

namespace Bytes

/-- The string at the head of a buffer. -/
def cstr (buf : List Byte) : List Byte := buf.takeWhile (· ≠ 0)

/-- The `n` bytes that `strncpy( dst, src, n )` writes. -/
def strncpyBytes (src : List Byte) (n : Nat) : List Byte :=
  let s := cstr (src.take n)
  s ++ List.replicate (n - s.length) 0

/-- `strncpy( dst, src, n )`. -/
def strncpy (dst src : List Byte) (n : Nat) : List Byte := strncpyBytes src n ++ dst.drop n

/-- `strncpy( dst, &buff[i], n )`, which reads up to the first zero byte; `none` if that is past the
end of the buffer. -/
def strncpyAt (buff dst : List Byte) (i n : Nat) : Option (List Byte) :=
  if n = 0 ∨ i + n ≤ buff.length ∨ (buff.drop i).contains 0 then some (strncpy dst (buff.drop i) n)
  else none

theorem cstr_length_le (buf : List Byte) : (cstr buf).length ≤ buf.length :=
  (List.takeWhile_prefix _).length_le

theorem zero_notMem_cstr (buf : List Byte) : (0 : Byte) ∉ cstr buf := by
  induction buf with
  | nil => exact List.not_mem_nil
  | cons b buf ih =>
    rw [cstr, List.takeWhile_cons]
    by_cases hb : b = 0
    · rw [if_neg (by simpa using hb)]
      exact List.not_mem_nil
    · rw [if_pos (by simpa using hb), List.mem_cons, not_or]
      exact ⟨Ne.symm hb, ih⟩

/-- A string without a zero, terminated. -/
theorem cstr_append_zero {s : List Byte} (h : (0 : Byte) ∉ s) (rest : List Byte) :
    cstr (s ++ 0 :: rest) = s := by
  induction s with
  | nil => rfl
  | cons b s ih =>
    rw [List.mem_cons, not_or] at h
    rw [List.cons_append, cstr, List.takeWhile_cons, if_pos (by simpa using Ne.symm h.1)]
    exact congrArg (b :: ·) (ih h.2)

theorem cstr_of_notMem {s : List Byte} (h : (0 : Byte) ∉ s) : cstr s = s := by
  induction s with
  | nil => rfl
  | cons b s ih =>
    rw [List.mem_cons, not_or] at h
    rw [cstr, List.takeWhile_cons, if_pos (by simpa using Ne.symm h.1)]
    exact congrArg (b :: ·) (ih h.2)

/-- The string at the head of bytes with more behind them. -/
theorem cstr_append (bytes more : List Byte) :
    cstr (bytes ++ more) = if 0 ∈ bytes then cstr bytes else bytes ++ cstr more := by
  induction bytes with
  | nil => rfl
  | cons x bytes ih =>
    by_cases hx : x = 0
    · rw [hx, if_pos (List.mem_cons_self ..)]
      rfl
    · have hcons (rest : List Byte) : cstr (x :: rest) = x :: cstr rest := by
        rw [cstr, List.takeWhile_cons, if_pos (decide_eq_true hx), cstr]
      have hmem : 0 ∈ x :: bytes ↔ 0 ∈ bytes := List.mem_cons.trans (or_iff_right (Ne.symm hx))
      rw [List.cons_append, hcons, hcons, ih, if_congr hmem rfl rfl]
      split <;> rfl

theorem cstr_zeros (n : Nat) : cstr (List.replicate n 0) = [] := by
  cases n <;> rfl

theorem cstr_append_zeros (bytes : List Byte) (n : Nat) :
    cstr (bytes ++ List.replicate n 0) = cstr bytes := by
  rw [cstr_append]
  split
  · rfl
  · rename_i h
    rw [cstr_zeros, List.append_nil, cstr_of_notMem h]

/-- A string that was copied into a cleared buffer. -/
theorem cstr_strncpy (src : List Byte) (n size : Nat) :
    cstr (strncpy (List.replicate size 0) src n) = cstr (src.take n) := by
  rw [strncpy, List.drop_replicate, cstr_append_zeros, strncpyBytes, cstr_append_zeros,
    cstr_of_notMem (zero_notMem_cstr _)]

@[simp] theorem length_strncpyBytes (src : List Byte) (n : Nat) :
    (strncpyBytes src n).length = n := by
  have hle : (cstr (src.take n)).length ≤ n :=
    (cstr_length_le _).trans (List.length_take_le ..)
  rw [strncpyBytes, List.length_append, List.length_replicate]
  omega

theorem cstr_take (src : List Byte) (n : Nat) : cstr (src.take n) = (cstr src).take n := by
  induction src generalizing n with
  | nil => rw [List.take_nil, cstr, List.takeWhile_nil, List.take_nil]
  | cons b src ih =>
    cases n with
    | zero => rfl
    | succ n =>
      rw [List.take_succ_cons, cstr, cstr, List.takeWhile_cons, List.takeWhile_cons]
      by_cases hb : b = 0
      · rw [if_neg (by simpa using hb), if_neg (by simpa using hb)]
        rfl
      · rw [if_pos (by simpa using hb), if_pos (by simpa using hb), List.take_succ_cons]
        exact congrArg (b :: ·) (ih n)

/-- What a copy writes: the string, and zeros. -/
theorem strncpyBytes_eq (src : List Byte) (n : Nat) :
    strncpyBytes src n = (cstr src ++ List.replicate n 0).take n := by
  rw [strncpyBytes, cstr_take, List.take_append, List.take_replicate, List.length_take]
  congr 2
  omega

theorem take_strncpyBytes (src : List Byte) {m n : Nat} (h : m ≤ n) :
    (strncpyBytes src n).take m = strncpyBytes src m := by
  rw [strncpyBytes_eq, strncpyBytes_eq, List.take_take, Nat.min_eq_left h, List.take_append,
    List.take_append, List.take_replicate, List.take_replicate]
  congr 2
  omega

/-- A terminator in the last byte costs the last byte. -/
theorem strncpyBytes_set_last (src : List Byte) (n : Nat) :
    (strncpyBytes src (n + 1)).set n 0 = strncpyBytes src n ++ [0] := by
  have hlen := length_strncpyBytes src (n + 1)
  rw [List.set_eq_take_append_cons_drop, if_pos (by omega), take_strncpyBytes src (Nat.le_succ n),
    List.drop_of_length_le (by omega)]

/-! ## Fields -/

/-- Nothing stands behind a zero. -/
def Padded (field : List Byte) : Prop := ∀ b ∈ field.dropWhile (· ≠ 0), b = 0

instance (field : List Byte) : Decidable (Padded field) := List.decidableBAll _ _

/-- **A copy of bytes is exact** when nothing stands behind a zero. -/
theorem strncpyBytes_eq_iff {src : List Byte} {n : Nat} (h : n ≤ src.length) :
    strncpyBytes src n = src.take n ↔ Padded (src.take n) := by
  have hlen : (src.take n).length = n := by
    rw [List.length_take]
    omega
  have hsplit : src.take n = cstr (src.take n) ++ (src.take n).dropWhile (· ≠ 0) :=
    List.takeWhile_append_dropWhile.symm
  have hrest : ((src.take n).dropWhile (· ≠ 0)).length = n - (cstr (src.take n)).length := by
    have htotal := congrArg List.length hsplit
    rw [hlen, List.length_append] at htotal
    omega
  unfold strncpyBytes Padded
  refine ⟨fun heq b hb => ?_, fun hpad => ?_⟩
  · have htail := List.append_cancel_left (heq.trans hsplit)
    rw [← htail] at hb
    exact List.eq_of_mem_replicate hb
  · dsimp only
    rw [← hrest, ← List.eq_replicate_of_mem hpad]
    exact hsplit.symm

/-- A buffer of `size` bytes holds this string, terminated, and nothing else. -/
structure Holds (buf s : List Byte) (size : Nat) : Prop where
  fits : s.length < size
  bytes : buf = s ++ List.replicate (size - s.length) 0

/-- A field copied into a cleared buffer that is larger. -/
theorem holds_strncpy_iff {src : List Byte} {n size : Nat} (hsrc : n ≤ src.length)
    (hsize : n < size) :
    Holds (strncpy (List.replicate size 0) src n) (src.take n) size ↔ Padded (src.take n) := by
  have hlen : (src.take n).length = n := by
    rw [List.length_take]
    omega
  rw [← strncpyBytes_eq_iff hsrc, strncpy, List.drop_replicate]
  refine ⟨fun h => ?_, fun h => ⟨by omega, ?_⟩⟩
  · have hbytes := h.bytes
    rw [hlen] at hbytes
    exact List.append_cancel_right hbytes
  · rw [h, hlen]

/-- A field copied into a cleared buffer, with a terminator in its last byte. -/
theorem holds_strncpy_set_iff {src : List Byte} {n size : Nat} (hsrc : n + 1 ≤ src.length)
    (hsize : n + 1 < size) :
    Holds ((strncpy (List.replicate size 0) src (n + 1)).set n 0) (src.take (n + 1)) size ↔
      Padded (src.take n) ∧ src.getD n 0 = 0 := by
  have hlen : (src.take (n + 1)).length = n + 1 := by
    rw [List.length_take]
    omega
  have hcopy := length_strncpyBytes src (n + 1)
  have hlast : src.take (n + 1) = src.take n ++ [src.getD n 0] := by
    rw [List.take_succ_eq_append_getElem (by omega), List.getD_eq_getElem?_getD,
      List.getElem?_eq_getElem (by omega)]
    rfl
  rw [← strncpyBytes_eq_iff (by omega), strncpy, List.drop_replicate,
    List.set_append_left _ _ (by omega), strncpyBytes_set_last]
  refine ⟨fun h => ?_, fun ⟨hpad, hzero⟩ => ⟨by omega, ?_⟩⟩
  · have hbytes := h.bytes
    rw [hlen] at hbytes
    have hfield := List.append_cancel_right hbytes
    rw [hlast] at hfield
    obtain ⟨hfront, hend⟩ := List.append_inj' hfield rfl
    exact ⟨hfront, (List.cons.inj hend).1.symm⟩
  · rw [hlen, hlast, hpad, hzero]

end Bytes
