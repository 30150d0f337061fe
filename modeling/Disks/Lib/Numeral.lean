import Mathlib.Algebra.Group.Nat.Defs
import Mathlib.Data.Char
import Mathlib.Data.List.Lex
import Mathlib.Data.Nat.Log

/-!
# Numbers in a text

Numbers in decimal, filled up to a width, in the order of texts (by the first character that
differs).

* `padded_lt`, `padded_lt_iff`: that order is the one of the numbers up to the width, and no
  further.
* `value_padded`: the number that is read from its digits.
-/

namespace Numeral

/-- The digits of a number, filled up to a width. -/
def padded (width : Nat) (pad : Char) (n : Nat) : List Char :=
  (Nat.toDigits 10 n).leftpad width pad

/-- The number that the digits of a text make. -/
def value (text : List Char) : Nat := Nat.ofDigitChars 10 (text.filter Char.isDigit) 0

/-! ## Digits -/

theorem digitChar_lt {m n : Nat} (h : m < n) (hn : n < 10) : m.digitChar < n.digitChar := by
  rw [Char.lt_def, UInt32.lt_iff_toNat_lt]
  change m.digitChar.toNat < n.digitChar.toNat
  rw [Nat.toNat_digitChar_of_lt_ten (Nat.lt_trans h hn), Nat.toNat_digitChar_of_lt_ten hn]
  omega

/-- The last digit. -/
theorem getLast?_toDigits (n : Nat) :
    (Nat.toDigits 10 n).getLast? = some (n % 10).digitChar := by
  by_cases hn : n < 10
  · rw [Nat.toDigits_of_lt_base hn, Nat.mod_eq_of_lt hn, List.getLast?_singleton]
  · rw [Nat.toDigits_of_base_le (by decide) (Nat.le_of_not_lt hn), List.getLast?_concat]

theorem append_lt_append {l l' : List Char} (hlen : l.length = l'.length) (h : l < l')
    (s t : List Char) : l ++ s < l' ++ t := by
  induction l generalizing l' with
  | nil =>
    rw [List.eq_nil_of_length_eq_zero hlen.symm] at h
    exact absurd h (List.lt_irrefl _)
  | cons x l ih =>
    cases l' with
    | nil => cases hlen
    | cons y l' =>
      rw [List.cons_append, List.cons_append, List.cons_lt_cons_iff]
      rcases List.cons_lt_cons_iff.mp h with hxy | ⟨hxy, hl⟩
      · exact .inl hxy
      · exact .inr ⟨hxy, ih (Nat.succ.inj hlen) hl⟩

/-- Numbers with equally many digits. -/
theorem toDigits_lt {m n : Nat} (h : m < n)
    (hlen : (Nat.toDigits 10 m).length = (Nat.toDigits 10 n).length) :
    Nat.toDigits 10 m < Nat.toDigits 10 n := by
  induction n using Nat.strong_induction_on generalizing m with
  | _ n ih =>
    by_cases hn : n < 10
    · rw [Nat.toDigits_of_lt_base hn, Nat.toDigits_of_lt_base (Nat.lt_trans h hn)]
      exact List.cons_lt_cons_iff.mpr (.inl (digitChar_lt h hn))
    · have hsnoc := Nat.toDigits_of_base_le (by decide) (Nat.le_of_not_lt hn)
      have hm : 10 ≤ m := by
        by_contra hm
        have hone := Nat.toDigits_of_lt_base (Nat.lt_of_not_le hm)
        have hpos := Nat.length_toDigits_pos (b := 10) (n := n / 10)
        rw [hone, hsnoc, List.length_append, List.length_singleton, List.length_singleton] at hlen
        omega
      rw [Nat.toDigits_of_base_le (by decide) hm, hsnoc] at hlen ⊢
      have hlen : (Nat.toDigits 10 (m / 10)).length = (Nat.toDigits 10 (n / 10)).length := by
        simpa using hlen
      by_cases hdiv : m / 10 = n / 10
      · rw [hdiv]
        exact List.append_left_lt
          (List.cons_lt_cons_iff.mpr (.inl (digitChar_lt (by omega) (by omega))))
      · exact append_lt_append hlen (ih (n / 10) (by omega) (by omega) hlen) _ _

theorem length_toDigits_mono {m n : Nat} (h : m ≤ n) :
    (Nat.toDigits 10 m).length ≤ (Nat.toDigits 10 n).length := by
  have hpos : 0 < (Nat.toDigits 10 n).length := Nat.length_toDigits_pos
  rw [Nat.length_toDigits_le_iff (by decide) hpos]
  exact Nat.lt_of_le_of_lt h ((Nat.length_toDigits_le_iff (by decide) hpos).mp (Nat.le_refl _))

/-- The leading digit. -/
theorem head?_toDigits {n k : Nat} (hlow : 10 ^ k ≤ n) (hhigh : n < 10 ^ (k + 1)) :
    (Nat.toDigits 10 n).head? = some (n / 10 ^ k).digitChar := by
  induction k generalizing n with
  | zero =>
    have hlt : n < 10 := hhigh
    rw [Nat.toDigits_of_lt_base hlt, Nat.pow_zero, Nat.div_one, List.head?_singleton]
  | succ k ih =>
    have hpow : 0 < 10 ^ k := Nat.pow_pos (by decide)
    rw [Nat.pow_succ] at hlow hhigh
    have hhead := ih (n := n / 10) (by omega) (by omega)
    rw [Nat.toDigits_of_base_le (by decide) (by omega), List.head?_append, hhead, Option.some_or,
      Nat.div_div_eq_div_mul, Nat.pow_succ, Nat.mul_comm]

/-- A number that is not zero is not led by a zero. -/
theorem zero_lt_head {n : Nat} (hn : 0 < n) :
    ∃ x rest, Nat.toDigits 10 n = x :: rest ∧ '0' < x := by
  obtain ⟨k, hlow, hhigh⟩ : ∃ k, 10 ^ k ≤ n ∧ n < 10 ^ (k + 1) :=
    ⟨Nat.log 10 n, Nat.pow_log_le_self 10 (by omega), Nat.lt_pow_succ_log_self (by decide) n⟩
  have hpow : 0 < 10 ^ k := Nat.pow_pos (by decide)
  obtain ⟨rest, hrest⟩ := List.head?_eq_some_iff.mp (head?_toDigits hlow hhigh)
  refine ⟨_, rest, hrest, digitChar_lt (Nat.div_pos hlow hpow) ?_⟩
  rw [Nat.div_lt_iff_lt_mul hpow]
  rwa [Nat.pow_succ, Nat.mul_comm] at hhigh

/-! ## The order of the texts -/

theorem padded_eq {width : Nat} (pad : Char) {n : Nat}
    (h : width ≤ (Nat.toDigits 10 n).length) : padded width pad n = Nat.toDigits 10 n := by
  rw [padded, List.leftpad, Nat.sub_eq_zero_of_le h, List.replicate_zero, List.nil_append]

/-- **The order of the texts is that of the numbers up to the width.** -/
theorem padded_lt {width : Nat} {pad : Char} (hpad : pad ≤ '0') {m n : Nat} (h : m < n)
    (hn : n < 10 ^ max width 1) : padded width pad m < padded width pad n := by
  have hmono := length_toDigits_mono (Nat.le_of_lt h)
  have hmpos : 0 < (Nat.toDigits 10 m).length := Nat.length_toDigits_pos
  have hfits := (Nat.length_toDigits_le_iff (by decide) (by omega)).mpr hn
  unfold padded List.leftpad
  rcases Nat.lt_or_eq_of_le hmono with hlt | heq
  · -- where the longer one has its leading digit, the shorter one is still filled up
    obtain ⟨x, rest, hx, hzero⟩ := zero_lt_head (Nat.zero_lt_of_lt h)
    have hmore : width - (Nat.toDigits 10 m).length =
        (width - (Nat.toDigits 10 n).length) +
          ((Nat.toDigits 10 n).length - (Nat.toDigits 10 m).length - 1 + 1) := by omega
    rw [hmore, ← List.replicate_append_replicate, List.append_assoc, List.replicate_succ, hx]
    exact List.append_left_lt (List.cons_lt_cons_iff.mpr (.inl (lt_of_le_of_lt hpad hzero)))
  · rw [heq]
    exact List.append_left_lt (toDigits_lt h heq)

/-- The first number that is longer than the width comes before the last one that is not. -/
theorem padded_pow_lt (width : Nat) (pad : Char) :
    padded width pad (10 ^ max width 1) < padded width pad (10 ^ max width 1 - 1) := by
  obtain ⟨k, hk⟩ : ∃ k, max width 1 = k + 1 := ⟨max width 1 - 1, by omega⟩
  have hpow : 0 < 10 ^ k := Nat.pow_pos (by decide)
  rw [hk]
  have hsucc : 10 ^ (k + 1) = 10 ^ k * 10 := Nat.pow_succ ..
  have hlong : k + 1 < (Nat.toDigits 10 (10 ^ (k + 1))).length := by
    rw [← Nat.not_le, Nat.length_toDigits_le_iff (by decide) (by omega)]
    exact Nat.lt_irrefl _
  have hfull : k < (Nat.toDigits 10 (10 ^ (k + 1) - 1)).length := by
    rcases Nat.eq_zero_or_pos k with hzero | hpos
    · rw [hzero]
      exact Nat.length_toDigits_pos
    · rw [← Nat.not_le, Nat.length_toDigits_le_iff (by decide) hpos]
      omega
  rw [padded_eq pad (by omega), padded_eq pad (by omega)]
  have hone : (Nat.toDigits 10 (10 ^ (k + 1))).head? = some (Nat.digitChar 1) := by
    rw [head?_toDigits (Nat.le_refl _) (Nat.pow_lt_pow_right (by decide) (by omega)),
      Nat.div_self (by omega)]
  have hnine : (Nat.toDigits 10 (10 ^ (k + 1) - 1)).head? = some (Nat.digitChar 9) := by
    rw [head?_toDigits (k := k) (by omega) (by omega)]
    have hdiv : (10 ^ (k + 1) - 1) / 10 ^ k = 9 := by
      rw [Nat.div_eq_iff hpow, hsucc]
      omega
    rw [hdiv]
  obtain ⟨rest, hrest⟩ := List.head?_eq_some_iff.mp hone
  obtain ⟨rest', hrest'⟩ := List.head?_eq_some_iff.mp hnine
  rw [hrest, hrest']
  exact List.cons_lt_cons_iff.mpr (.inl (digitChar_lt (by decide) (by decide)))

/-- **When the order of the texts is that of the numbers**, for consecutive numbers from a digit
on. -/
theorem padded_lt_iff {width : Nat} {pad : Char} (hpad : pad ≤ '0') {start count : Nat}
    (hstart : start ≤ 9) :
    (∀ m n, m < n → n < count → padded width pad (start + m) < padded width pad (start + n)) ↔
      start + count ≤ 10 ^ max width 1 := by
  have hten : 10 ^ 1 ≤ 10 ^ max width 1 := Nat.pow_le_pow_right (by decide) (Nat.le_max_right ..)
  constructor
  · intro h
    by_contra hlong
    have hlast := h (10 ^ max width 1 - 1 - start) (10 ^ max width 1 - start) (by omega) (by omega)
    rw [Nat.add_sub_cancel' (by omega), Nat.add_sub_cancel' (by omega)] at hlast
    exact lt_asymm hlast (padded_pow_lt width pad)
  · intro h m n hmn hn
    exact padded_lt hpad (by omega) (by omega)

/-! ## The number of a text -/

theorem filter_toDigits (n : Nat) :
    (Nat.toDigits 10 n).filter Char.isDigit = Nat.toDigits 10 n := by
  rw [List.filter_eq_self]
  intro c hc
  exact Nat.isDigit_of_mem_toDigits (by decide) (by decide) hc

theorem value_append {front : List Char} (h : ∀ c ∈ front, ¬ c.isDigit) (text : List Char) :
    value (front ++ text) = value text := by
  rw [value, List.filter_append, List.filter_eq_nil_iff.mpr h, List.nil_append, value]

/-- The number is read from its digits. -/
theorem value_padded {pad : Char} (hpad : pad = '0' ∨ ¬ pad.isDigit) (width n : Nat) :
    value (padded width pad n) = n := by
  unfold padded List.leftpad
  rcases hpad with rfl | hpad
  · rw [value, List.filter_append, List.filter_replicate_of_pos (by decide), filter_toDigits,
      Nat.ofDigitChars_append, Nat.ofDigitChars_replicate_zero, Nat.mul_zero,
      Nat.ofDigitChars_ten_toDigits]
  · rw [value_append, value, filter_toDigits, Nat.ofDigitChars_ten_toDigits]
    intro c hc
    rw [List.eq_of_mem_replicate hc]
    exact hpad

end Numeral
