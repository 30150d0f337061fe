import Mathlib.Data.Nat.Digits.Defs

/-!
# Byte fields and byte buffers

Numbers as byte fields of a command block or a data buffer, least significant byte first (`le`)
or most significant byte first (`be`), and the way C code fills them: byte `k` of `x` is
`( x & 0xff << 8k ) >> 8k` (`byteAt`), stored one index after the other (`poke`).

* `le_leBytes`, `be_beBytes`: a field of `n` bytes holds the number modulo `256 ^ n`.
* `slice_poke_same`, `slice_poke_disjoint`: what a buffer holds after a store.
* `descriptor_some`: a descriptor of a list of types, lengths and values.
* `flatMap_hex`, `hex_inj`: bytes and numbers in hexadecimal.
-/

namespace Bytes

abbrev Byte := BitVec 8

/-! ## Fields -/

/-- The number in a field, least significant byte first. -/
def le (bs : List Byte) : Nat := Nat.ofDigits 256 (bs.map BitVec.toNat)

/-- The number in a field, most significant byte first. -/
def be (bs : List Byte) : Nat := le bs.reverse

/-- Byte `k` of `x`: `( x & 0xff << 8k ) >> 8k`. -/
def byteAt {w : Nat} (x : BitVec w) (k : Nat) : Byte :=
  ((x &&& (0xff#w <<< (8 * k))) >>> (8 * k)).setWidth 8

/-- The `n` low bytes of `x`, least significant first. -/
def leBytes {w : Nat} (n : Nat) (x : BitVec w) : List Byte := (List.range n).map (byteAt x)

/-- The `n` low bytes of `x`, most significant first. -/
def beBytes {w : Nat} (n : Nat) (x : BitVec w) : List Byte := (leBytes n x).reverse

@[simp] theorem le_nil : le [] = 0 := rfl

@[simp] theorem le_cons (b : Byte) (bs : List Byte) : le (b :: bs) = b.toNat + 256 * le bs := by
  simp [le, Nat.ofDigits_cons]

theorem le_append (bs cs : List Byte) : le (bs ++ cs) = le bs + 256 ^ bs.length * le cs := by
  simp [le, Nat.ofDigits_append]

theorem be_append (bs cs : List Byte) : be (bs ++ cs) = be bs * 256 ^ cs.length + be cs := by
  simp only [be, List.reverse_append, le_append, List.length_reverse]
  ring

@[simp] theorem be_singleton (b : Byte) : be [b] = b.toNat := by simp [be]

@[simp] theorem length_leBytes {w : Nat} (n : Nat) (x : BitVec w) :
    (leBytes n x).length = n := by simp [leBytes]

@[simp] theorem length_beBytes {w : Nat} (n : Nat) (x : BitVec w) :
    (beBytes n x).length = n := by simp [beBytes]

theorem byteAt_eq_extractLsb' {w : Nat} (x : BitVec w) (k : Nat) :
    byteAt x k = x.extractLsb' (8 * k) 8 := by
  apply BitVec.eq_of_getLsbD_eq
  intro j hj
  have hm : (255 : Nat).testBit j = true := by
    rw [show (255 : Nat) = 2 ^ 8 - 1 by rfl, Nat.testBit_two_pow_sub_one]
    simpa using hj
  simp only [byteAt, BitVec.getLsbD_setWidth, hj, BitVec.getLsbD_ushiftRight, BitVec.getLsbD_and,
    BitVec.getLsbD_shiftLeft, BitVec.getLsbD_extractLsb', decide_true, Bool.true_and]
  by_cases hw : 8 * k + j < w
  · have hj' : j < w := by omega
    simp [hw, hj', BitVec.getLsbD_ofNat, hm]
  · simp [BitVec.getLsbD_of_ge x _ (Nat.not_lt.1 hw)]

@[simp] theorem toNat_byteAt {w : Nat} (x : BitVec w) (k : Nat) :
    (byteAt x k).toNat = x.toNat / 256 ^ k % 256 := by
  rw [byteAt_eq_extractLsb', BitVec.extractLsb'_toNat, Nat.shiftRight_eq_div_pow, Nat.pow_mul]

/-- A byte put back in its place is `x` under a mask. -/
theorem byteAt_shiftLeft (x : BitVec 64) (k : Nat) :
    (byteAt x k).setWidth 64 <<< (8 * k) = x &&& ((0xff : BitVec 64) <<< (8 * k)) := by
  apply BitVec.eq_of_getLsbD_eq
  intro i hi
  have hm : (255#64).getLsbD (i - 8 * k) = decide (i - 8 * k < 8) := by
    rw [BitVec.getLsbD_ofNat, show (255 : Nat) = 2 ^ 8 - 1 by rfl, Nat.testBit_two_pow_sub_one,
      decide_eq_true (show i - 8 * k < 64 by omega), Bool.true_and]
  rw [byteAt_eq_extractLsb']
  simp only [BitVec.getLsbD_shiftLeft, BitVec.getLsbD_setWidth, BitVec.getLsbD_extractLsb',
    BitVec.getLsbD_and, BitVec.ofNat_eq_ofNat, hm, hi, decide_true, Bool.true_and]
  by_cases h : i < 8 * k
  · simp [h]
  · have hi' : i - 8 * k < 64 := by omega
    rw [show 8 * k + (i - 8 * k) = i by omega]
    simp only [h, hi', decide_true, decide_false, Bool.not_false, Bool.true_and, Bool.and_comm]

/-- A byte put above the bits of `y`. -/
theorem toNat_shiftLeft_or {w : Nat} (b : Byte) {k : Nat} (hk : k + 8 ≤ w) {y : BitVec w}
    (hy : y.toNat < 2 ^ k) :
    (b.setWidth w <<< k ||| y).toNat = b.toNat * 2 ^ k + y.toNat := by
  have hb : b.toNat * 2 ^ k < 2 ^ w :=
    calc b.toNat * 2 ^ k < 2 ^ 8 * 2 ^ k := Nat.mul_lt_mul_of_pos_right b.isLt (Nat.two_pow_pos k)
      _ = 2 ^ (8 + k) := (Nat.pow_add 2 8 k).symm
      _ ≤ 2 ^ w := Nat.pow_le_pow_right (by decide) (by omega)
  rw [BitVec.toNat_or, BitVec.toNat_shiftLeft, BitVec.toNat_setWidth_of_le (by omega),
    Nat.shiftLeft_eq, Nat.mod_eq_of_lt hb, ← Nat.shiftLeft_eq, Nat.shiftLeft_add_eq_or_of_lt hy]

/-- A field of `n` bytes holds `x` modulo `256 ^ n`. -/
theorem le_leBytes {w : Nat} (n : Nat) (x : BitVec w) : le (leBytes n x) = x.toNat % 256 ^ n := by
  induction n with
  | zero => simp [leBytes, Nat.mod_one]
  | succ n ih =>
    have hs : leBytes (n + 1) x = leBytes n x ++ [byteAt x n] := by
      simp [leBytes, List.range_succ]
    rw [hs, le_append, ih, length_leBytes, le_cons, le_nil, toNat_byteAt, Nat.pow_succ,
      Nat.mod_mul, Nat.mul_zero, Nat.add_zero]

theorem be_beBytes {w : Nat} (n : Nat) (x : BitVec w) : be (beBytes n x) = x.toNat % 256 ^ n := by
  rw [be, beBytes, List.reverse_reverse, le_leBytes]

/-- A field as wide as the number holds it. -/
theorem be_beBytes_of_lt {w n : Nat} {x : BitVec w} (h : x.toNat < 256 ^ n) :
    be (beBytes n x) = x.toNat := by
  rw [be_beBytes, Nat.mod_eq_of_lt h]

theorem le_leBytes_of_lt {w n : Nat} {x : BitVec w} (h : x.toNat < 256 ^ n) :
    le (leBytes n x) = x.toNat := by
  rw [le_leBytes, Nat.mod_eq_of_lt h]

theorem le_lt (bs : List Byte) : le bs < 256 ^ bs.length := by
  rw [le, ← List.length_map (f := BitVec.toNat)]
  apply Nat.ofDigits_lt_base_pow_length (by decide)
  intro x hx
  obtain ⟨b, -, rfl⟩ := List.mem_map.mp hx
  exact b.isLt

theorem be_lt (bs : List Byte) : be bs < 256 ^ bs.length := by
  rw [be, ← List.length_reverse]
  exact le_lt _

theorem le_inj {bs cs : List Byte} (hl : bs.length = cs.length) (h : le bs = le cs) : bs = cs := by
  have hbyte (bs : List Byte) : ∀ x ∈ bs.map BitVec.toNat, x < 256 := by
    intro x hx
    obtain ⟨b, -, rfl⟩ := List.mem_map.mp hx
    exact b.isLt
  apply (List.map_inj_right fun _ _ => BitVec.eq_of_toNat_eq).mp
  exact Nat.ofDigits_inj_of_len_eq (by decide) (by simpa using hl) (hbyte bs) (hbyte cs) h

/-- A field reads the same in both orders exactly when its bytes do. -/
theorem be_eq_le_iff (bs : List Byte) : be bs = le bs ↔ bs.reverse = bs := by
  refine ⟨fun h => le_inj (List.length_reverse ..) h, fun h => ?_⟩
  rw [be, h]

/-! ## Buffers -/

/-- The `n` bytes of `buf` from index `i` on. -/
def slice (buf : List Byte) (i n : Nat) : List Byte := (buf.drop i).take n

/-- `buf[i] = b₀; buf[i + 1] = b₁; …` -/
def poke (buf : List Byte) (i : Nat) : List Byte → List Byte
  | [] => buf
  | b :: bs => poke (buf.set i b) (i + 1) bs

@[simp] theorem length_poke (buf : List Byte) (i : Nat) (bs : List Byte) :
    (poke buf i bs).length = buf.length := by
  induction bs generalizing buf i with
  | nil => rfl
  | cons b bs ih => rw [poke, ih, List.length_set]

theorem getElem?_slice (buf : List Byte) (i n j : Nat) :
    (slice buf i n)[j]? = if j < n then buf[i + j]? else none := by
  rw [slice, List.getElem?_take]
  split
  · rw [List.getElem?_drop]
  · rfl

theorem getElem?_poke_of_lt {buf : List Byte} {i j : Nat} {bs : List Byte} (h : j < i) :
    (poke buf i bs)[j]? = buf[j]? := by
  induction bs generalizing buf i with
  | nil => rfl
  | cons b bs ih => rw [poke, ih (by omega), List.getElem?_set_ne (by omega)]

theorem getElem?_poke_of_ge {buf : List Byte} {i j : Nat} {bs : List Byte}
    (h : i + bs.length ≤ j) : (poke buf i bs)[j]? = buf[j]? := by
  induction bs generalizing buf i with
  | nil => rfl
  | cons b bs ih =>
    rw [List.length_cons] at h
    rw [poke, ih (by omega), List.getElem?_set_ne (by omega)]

theorem getElem?_poke_same {buf : List Byte} {i k : Nat} {bs : List Byte}
    (hk : k < bs.length) (hi : i + bs.length ≤ buf.length) :
    (poke buf i bs)[i + k]? = bs[k]? := by
  induction bs generalizing buf i k with
  | nil => simp at hk
  | cons b bs ih =>
    rw [List.length_cons] at hk hi
    cases k with
    | zero =>
      rw [poke, getElem?_poke_of_lt (by omega), Nat.add_zero,
        List.getElem?_set_self (by omega)]
      rfl
    | succ k =>
      rw [poke, show i + (k + 1) = i + 1 + k by omega,
        ih (by omega) (by rw [List.length_set]; omega), List.getElem?_cons_succ]

theorem poke_append (buf : List Byte) (i : Nat) (bs cs : List Byte) :
    poke buf i (bs ++ cs) = poke (poke buf i bs) (i + bs.length) cs := by
  induction bs generalizing buf i with
  | nil => rfl
  | cons b bs ih =>
    rw [List.cons_append, poke, ih, poke, List.length_cons, Nat.add_right_comm, Nat.add_assoc]

/-- A stored field reads back. -/
theorem slice_poke_same {buf : List Byte} {i : Nat} {bs : List Byte}
    (h : i + bs.length ≤ buf.length) : slice (poke buf i bs) i bs.length = bs := by
  apply List.ext_getElem?
  intro k
  rw [getElem?_slice]
  split
  · rename_i hk
    exact getElem?_poke_same hk h
  · rename_i hk
    rw [List.getElem?_eq_none (by omega)]

/-- A store leaves the fields it does not overlap. -/
theorem slice_poke_disjoint {buf : List Byte} {i j n : Nat} {bs : List Byte}
    (h : j + n ≤ i ∨ i + bs.length ≤ j) : slice (poke buf i bs) j n = slice buf j n := by
  apply List.ext_getElem?
  intro k
  rw [getElem?_slice, getElem?_slice]
  split
  · rcases h with h | h
    · rw [getElem?_poke_of_lt (by omega)]
    · rw [getElem?_poke_of_ge (by omega)]
  · rfl

theorem slice_take {buf : List Byte} {i n m : Nat} (h : i + n ≤ m) :
    slice (buf.take m) i n = slice buf i n := by
  apply List.ext_getElem?
  intro k
  rw [getElem?_slice, getElem?_slice]
  split
  · rw [List.getElem?_take, if_pos (by omega)]
  · rfl

/-- Stores one after the other. -/
def pokes (buf : List Byte) (ps : List (Nat × List Byte)) : List Byte :=
  ps.foldl (fun buf p => poke buf p.1 p.2) buf

theorem pokes_cons (buf : List Byte) (p : Nat × List Byte) (ps : List (Nat × List Byte)) :
    pokes buf (p :: ps) = pokes (poke buf p.1 p.2) ps := rfl

/-- Two stores do not overlap. -/
def Apart (p q : Nat × List Byte) : Prop := p.1 + p.2.length ≤ q.1 ∨ q.1 + q.2.length ≤ p.1

instance (p q : Nat × List Byte) : Decidable (Apart p q) := inferInstanceAs (Decidable (_ ∨ _))

@[simp] theorem length_pokes (buf : List Byte) (ps : List (Nat × List Byte)) :
    (pokes buf ps).length = buf.length := by
  induction ps generalizing buf with
  | nil => rfl
  | cons p ps ih => exact (ih _).trans (length_poke ..)

/-- A byte that no store covers. -/
theorem getElem?_pokes {buf : List Byte} {ps : List (Nat × List Byte)} {i : Nat}
    (h : ∀ p ∈ ps, i < p.1 ∨ p.1 + p.2.length ≤ i) : (pokes buf ps)[i]? = buf[i]? := by
  induction ps generalizing buf with
  | nil => rfl
  | cons p ps ih =>
    rw [List.forall_mem_cons] at h
    refine (ih h.2).trans ?_
    rcases h.1 with hlt | hge
    · exact getElem?_poke_of_lt hlt
    · exact getElem?_poke_of_ge hge

/-- A field that no store overlaps. -/
theorem slice_pokes {buf : List Byte} {ps : List (Nat × List Byte)} {i n : Nat}
    (h : ∀ p ∈ ps, i + n ≤ p.1 ∨ p.1 + p.2.length ≤ i) :
    slice (pokes buf ps) i n = slice buf i n := by
  induction ps generalizing buf with
  | nil => rfl
  | cons p ps ih =>
    rw [List.forall_mem_cons] at h
    exact (ih h.2).trans (slice_poke_disjoint h.1)

/-- Each of the stores that do not overlap reads back. -/
theorem slice_pokes_mem {buf : List Byte} {ps : List (Nat × List Byte)} (h : ps.Pairwise Apart)
    {p : Nat × List Byte} (hp : p ∈ ps) (hfits : p.1 + p.2.length ≤ buf.length) :
    slice (pokes buf ps) p.1 p.2.length = p.2 := by
  induction ps generalizing buf with
  | nil => cases hp
  | cons q ps ih =>
    rw [List.pairwise_cons] at h
    rw [pokes_cons]
    rcases List.mem_cons.mp hp with rfl | hp
    · exact (slice_pokes h.1).trans (slice_poke_same hfits)
    · exact ih h.2 hp (by rwa [length_poke])

/-! ## Lists of descriptors -/

/-- The first descriptor with the type `code` and `len` bytes of value in a list of descriptors:
type, length and value. Of the descriptor before it, `skip` bytes are left. -/
def descriptor (code len : Byte) : Nat → List Byte → Option (List Byte)
  | _, [] => none
  | skip + 1, _ :: bs => descriptor code len skip bs
  | 0, [_] => none
  | 0, c :: n :: bs =>
    if c = code ∧ n = len ∧ len.toNat ≤ bs.length then some (c :: n :: bs.take len.toNat)
    else descriptor code len n.toNat bs

/-- A descriptor that is found is whole. -/
theorem descriptor_some {code len : Byte} {skip : Nat} {bs d : List Byte}
    (h : descriptor code len skip bs = some d) :
    d.length ≤ bs.length ∧ ∃ value, d = code :: len :: value ∧ value.length = len.toNat := by
  fun_induction descriptor code len skip bs with
  | case1 => cases h
  | case2 skip b bs ih =>
    obtain ⟨hlen, hvalue⟩ := ih h
    exact ⟨Nat.le_succ_of_le hlen, hvalue⟩
  | case3 => cases h
  | case4 c n bs hfound =>
    obtain ⟨rfl, rfl, hlen⟩ := hfound
    cases h
    have htake : (bs.take n.toNat).length = n.toNat := List.length_take_of_le hlen
    exact ⟨by simpa [htake] using hlen, _, rfl, htake⟩
  | case5 c n bs hother ih =>
    obtain ⟨hlen, hvalue⟩ := ih h
    exact ⟨by simp only [List.length_cons]; omega, hvalue⟩

/-- The descriptor at the head. -/
theorem descriptor_head {code len : Byte} {bs : List Byte} (h : len.toNat ≤ bs.length) :
    descriptor code len 0 (code :: len :: bs) = some (code :: len :: bs.take len.toNat) := by
  rw [descriptor, if_pos ⟨rfl, rfl, h⟩]

/-! ## Hexadecimal -/

/-- The last `w` hexadecimal digits of a number. -/
def hex : Nat → Nat → List Char
  | 0, _ => []
  | w + 1, n => hex w (n / 16) ++ [n % 16 |>.digitChar]

@[simp] theorem length_hex (w n : Nat) : (hex w n).length = w := by
  induction w generalizing n with
  | zero => rfl
  | succ w ih => rw [hex, List.length_append, ih, List.length_singleton]

theorem hex_append (a b n : Nat) : hex (a + b) n = hex a (n / 16 ^ b) ++ hex b n := by
  induction b generalizing n with
  | zero => simp [hex]
  | succ b ih =>
    rw [Nat.add_succ, hex, ih, hex, Nat.div_div_eq_div_mul, ← Nat.pow_succ', List.append_assoc]

theorem digitChar_inj {a b : Nat} (ha : a < 16) (hb : b < 16) (h : a.digitChar = b.digitChar) :
    a = b := by
  have hall : ∀ a < 16, ∀ b < 16, a.digitChar = b.digitChar → a = b := by decide
  exact hall a ha b hb h

/-- Numbers of at most `w` digits are told apart. -/
theorem hex_inj {w n m : Nat} (hn : n < 16 ^ w) (hm : m < 16 ^ w) (h : hex w n = hex w m) :
    n = m := by
  induction w generalizing n m with
  | zero => omega
  | succ w ih =>
    obtain ⟨hhigh, hlow⟩ := List.append_inj' h rfl
    have hdiv := ih (by rw [Nat.pow_succ] at hn; omega) (by rw [Nat.pow_succ] at hm; omega) hhigh
    have hmod := digitChar_inj (Nat.mod_lt _ (by decide)) (Nat.mod_lt _ (by decide))
      (List.singleton_inj.mp hlow)
    omega

theorem hex_mod (w n : Nat) : hex w (n % 16 ^ w) = hex w n := by
  induction w generalizing n with
  | zero => rfl
  | succ w ih =>
    have hdiv : n % 16 ^ (w + 1) / 16 = n / 16 % 16 ^ w := by
      rw [Nat.pow_succ', Nat.mod_mul_right_div_self]
    have hmod : n % 16 ^ (w + 1) % 16 = n % 16 :=
      Nat.mod_mod_of_dvd _ (Dvd.intro_left (16 ^ w) rfl)
    rw [hex, hex, hdiv, hmod, ih]

/-- The bytes written one after the other: the number with the first as its most significant. -/
theorem flatMap_hex (bs : List Byte) :
    bs.flatMap (fun b => hex 2 b.toNat) = hex (2 * bs.length) (be bs) := by
  induction bs with
  | nil => rfl
  | cons b bs ih =>
    have hbe : be (b :: bs) = b.toNat * 256 ^ bs.length + be bs := by
      rw [← List.singleton_append, be_append, be_singleton]
    have hpow : 16 ^ (2 * bs.length) = 256 ^ bs.length := Nat.pow_mul ..
    have hlt := be_lt bs
    have hhigh : be (b :: bs) / 16 ^ (2 * bs.length) = b.toNat := by
      rw [hbe, hpow, Nat.mul_comm, Nat.mul_add_div (by positivity), Nat.div_eq_of_lt hlt,
        Nat.add_zero]
    have hlow : be (b :: bs) % 16 ^ (2 * bs.length) = be bs := by
      rw [hbe, hpow, Nat.mul_comm, Nat.mul_add_mod, Nat.mod_eq_of_lt hlt]
    rw [List.flatMap_cons, ih, List.length_cons, Nat.mul_succ, Nat.add_comm, hex_append, hhigh,
      ← hex_mod _ (be (b :: bs)), hlow]

end Bytes
