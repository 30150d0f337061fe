import Disks.Tool.Muncher

/-!
# The addresses of `muncher`

* `setUp_some`: what is set up.
* `mask_spec`, `reach_lt_step`: how far from its target an address is looked for.
* `offsetLBA_range`: an address near a target is in the range, whatever the target. `offsetLBA_lt`,
  `exists_offsetLBA_end`: when it is the end of the range.
* `getRandLBA_range`: so is a random address. `getRandLBA_onto_iff`: **the random addresses are all
  of the range, unless it ends at a power of two.**
-/

namespace Muncher

open Drive Effect

theorem randBits_eq : randBits = 31 := by
  apply le_antisymm
  · exact Nat.clog_le_of_le_pow (by decide)
  · exact (Nat.lt_clog_iff_pow_lt (by decide)).mpr (by decide)

/-! ## What is set up -/

/-- The plan for a range that is not empty. -/
structure Planned (o : Options) (totalLBACount : U64) (p : Plan) : Prop where
  start : p.startLBA = o.startLBA
  ending : p.endLBA = endOf o totalLBACount
  total : p.totalLBACount = totalLBACount
  rounds : p.roundCount = o.roundCount
  step_pos : p.ODIDCount ≠ 0 → 30 ≤ p.ODIDStep.toNat
  step_int : p.ODIDStep.toNat < 2 ^ 31

theorem stepOf_lt (o : Options) (totalLBACount : U64) :
    (stepOf o totalLBACount).toNat < 2 ^ 31 := by
  unfold stepOf
  by_cases hcount : o.ODIDCount ≠ 0
  · rw [if_pos hcount]
    dsimp only
    split
    · decide
    · rename_i hge
      rw [BitVec.toInt_eq_toNat_cond] at hge
      split at hge <;> omega
  · rw [if_neg hcount]
    decide

theorem stepOf_ge (o : Options) (totalLBACount : U64) (hcount : o.ODIDCount ≠ 0) :
    30 ≤ (stepOf o totalLBACount).toNat := by
  unfold stepOf
  rw [if_pos hcount]
  dsimp only
  split
  · decide
  · rename_i hge
    rw [BitVec.toInt_eq_toNat_cond] at hge
    split at hge <;> omega

theorem setUp_some {o : Options} {totalLBACount : U64} {p : Plan}
    (h : setUp o totalLBACount = some p) : Planned o totalLBACount p := by
  have hlt := stepOf_lt o totalLBACount
  have hge := stepOf_ge o totalLBACount
  unfold setUp at h
  dsimp only at h
  by_cases hboth : o.readTest ∧ o.writeTest
  · rw [if_pos hboth] at h
    by_cases hover : (stepOf o totalLBACount).toInt * 3 > INT_MAX.toInt
    · rw [if_pos hover] at h
      cases h
    rw [if_neg hover, Option.some.injEq] at h
    subst h
    have hmax : INT_MAX.toInt = 2147483647 := by decide
    rw [hmax, BitVec.toInt_eq_toNat_of_lt (by omega)] at hover
    have hmul : (stepOf o totalLBACount * 3).toNat = (stepOf o totalLBACount).toNat * 3 := by
      rw [BitVec.toNat_mul]
      exact Nat.mod_eq_of_lt (by change (stepOf o totalLBACount).toNat * 3 < _; omega)
    refine ⟨rfl, rfl, rfl, rfl, fun hcount => ?_, ?_⟩
    · have hthird : o.ODIDCount ≠ 0 := by
        rintro hzero
        apply hcount
        change o.ODIDCount / 3 = 0
        rw [hzero]
        rfl
      have hge := hge hthird
      change 30 ≤ (stepOf o totalLBACount * 3).toNat
      omega
    · change (stepOf o totalLBACount * 3).toNat < 2 ^ 31
      omega
  · rw [if_neg hboth, Option.some.injEq] at h
    subst h
    exact ⟨rfl, rfl, rfl, rfl, hge, hlt⟩

section plan

variable {p : Plan}

theorem toNat_step (h : p.ODIDStep.toNat < 2 ^ 31) : (step p).toNat = p.ODIDStep.toNat := by
  have hmsb : p.ODIDStep.msb = false := by
    rw [BitVec.msb_eq_false_iff_two_mul_lt]
    omega
  rw [step, BitVec.signExtend_eq_setWidth_of_msb_false hmsb, BitVec.toNat_setWidth]
  exact Nat.mod_eq_of_lt (by omega)

/-! ## How far an address is looked for -/

theorem toNat_mask (n : Nat) (h : n ≤ 31) : (INT_MAX >>> (31 - n)).toNat = 2 ^ n - 1 := by
  have hall : ∀ n ≤ 31, (INT_MAX >>> (31 - n)).toNat = 2 ^ n - 1 := by decide
  exact hall n h

/-- The distance that is added to a target at most, after half of the mask is taken off. -/
def reach (p : Plan) : Nat := (ODIDMask p).toNat - (ODIDMid p).toNat

/-- The mask, for a step: its two halves. -/
theorem mask_spec (hge : 30 ≤ p.ODIDStep.toNat) (hlt : p.ODIDStep.toNat < 2 ^ 31) :
    ∃ t, 1 ≤ t ∧ t ≤ 15 ∧ 2 ^ (2 * t) ≤ p.ODIDStep.toNat ∧ (ODIDMask p).toNat = 2 ^ t - 1 := by
  have hlog : Nat.log 2 p.ODIDStep.toNat < 31 := Nat.log_lt_of_lt_pow (by omega) hlt
  have hlog' : 4 ≤ Nat.log 2 p.ODIDStep.toNat :=
    Nat.le_log_of_pow_le (by decide) (by omega)
  have hpow : 2 ^ Nat.log 2 p.ODIDStep.toNat ≤ p.ODIDStep.toNat := Nat.pow_log_le_self 2 (by omega)
  refine ⟨Nat.log 2 p.ODIDStep.toNat >>> 1, ?_, ?_, ?_, ?_⟩
  · rw [Nat.shiftRight_one]
    omega
  · rw [Nat.shiftRight_one]
    omega
  · rw [Nat.shiftRight_one]
    exact (Nat.pow_le_pow_right (by decide) (by omega)).trans hpow
  · unfold ODIDMask
    dsimp only
    rw [randBits_eq, if_neg (by rw [Nat.shiftRight_one]; omega)]
    exact toNat_mask _ (by rw [Nat.shiftRight_one]; omega)

theorem toNat_mid : (ODIDMid p).toNat = (ODIDMask p).toNat / 2 := by
  rw [ODIDMid, BitVec.toNat_ushiftRight, Nat.shiftRight_one]

theorem mask_eq : (ODIDMask p).toNat = (ODIDMid p).toNat + reach p := by
  rw [reach, toNat_mid]
  omega

theorem mid_le_reach : (ODIDMid p).toNat ≤ reach p := by
  rw [reach, toNat_mid]
  omega

theorem reach_lt_step (hge : 30 ≤ p.ODIDStep.toNat) (hlt : p.ODIDStep.toNat < 2 ^ 31) :
    reach p < p.ODIDStep.toNat := by
  obtain ⟨t, -, -, hpow, hmask⟩ := mask_spec hge hlt
  have hsquare : 2 ^ t ≤ 2 ^ (2 * t) := Nat.pow_le_pow_right (by decide) (by omega)
  have hpos : 0 < 2 ^ t := Nat.two_pow_pos t
  rw [reach]
  omega

theorem mask_lt : (ODIDMask p).toNat < 2 ^ 31 := by
  unfold ODIDMask
  dsimp only
  rw [randBits_eq]
  split
  · decide
  · rename_i hlog
    rw [toNat_mask _ (by omega)]
    have hpow : 2 ^ (Nat.log 2 p.ODIDStep.toNat >>> 1) ≤ 2 ^ 31 :=
      Nat.pow_le_pow_right (by decide) (by omega)
    omega

/-- The value of `rand()` behind the mask. -/
theorem masked_le (r : Rand) : (r.setWidth 32 &&& ODIDMask p).toNat ≤ (ODIDMask p).toNat := by
  rw [BitVec.toNat_and]
  exact Nat.and_le_right

theorem exists_masked : ∃ r : Rand, (r.setWidth 32 &&& ODIDMask p).toNat = (ODIDMask p).toNat := by
  refine ⟨(ODIDMask p).setWidth 31, ?_⟩
  have hlt := @mask_lt p
  rw [BitVec.toNat_and, BitVec.toNat_setWidth, BitVec.toNat_setWidth,
    Nat.mod_eq_of_lt (show (ODIDMask p).toNat < 2 ^ 31 from hlt), Nat.mod_eq_of_lt (by omega),
    Nat.and_self]

/-! ## Addresses near a target -/

/-- **An address near a target is in the range.** -/
theorem offsetLBA_range (h : p.startLBA ≤ p.endLBA) (target : U64) (r : Rand) :
    p.startLBA ≤ offsetLBA p target r ∧ offsetLBA p target r ≤ p.endLBA := by
  unfold offsetLBA
  dsimp only
  split
  · exact ⟨BitVec.le_refl _, h⟩
  split
  · exact ⟨h, BitVec.le_refl _⟩
  · rename_i hge hle
    exact ⟨BitVec.not_lt.mp hge, BitVec.not_lt.mp hle⟩

/-- Where an address is looked for, before it is cut to the range. -/
def near (p : Plan) (target : U64) (r : Rand) : U64 :=
  target + (r.setWidth 32 &&& ODIDMask p).setWidth 64 - (ODIDMid p).setWidth 64

theorem offsetLBA_eq (target : U64) (r : Rand) :
    offsetLBA p target r =
      if near p target r < p.startLBA then p.startLBA
      else if near p target r > p.endLBA then p.endLBA
      else near p target r := rfl

theorem toNat_near {target : U64} (r : Rand) (hmid : (ODIDMid p).toNat ≤ target.toNat)
    (hlt : target.toNat + reach p < 2 ^ 64) :
    (near p target r).toNat =
      target.toNat + (r.setWidth 32 &&& ODIDMask p).toNat - (ODIDMid p).toNat := by
  have hmask := @mask_eq p
  have hr := @masked_le p r
  have hmidLt := (ODIDMid p).isLt
  have hrLt := (r.setWidth 32 &&& ODIDMask p).isLt
  rw [near, BitVec.toNat_sub, BitVec.toNat_add, BitVec.toNat_setWidth, BitVec.toNat_setWidth]
  omega

/-- An address near a target that is far enough from the end. -/
theorem offsetLBA_lt (hrange : p.startLBA < p.endLBA) {target : U64} (r : Rand)
    (hmid : (ODIDMid p).toNat ≤ target.toNat) (hend : target.toNat + reach p < p.endLBA.toNat) :
    offsetLBA p target r < p.endLBA := by
  have hmask := @mask_eq p
  have hr := @masked_le p r
  have hnear := toNat_near r hmid (hend.trans p.endLBA.isLt)
  have hlt : near p target r < p.endLBA := by
    rw [BitVec.lt_def]
    omega
  rw [offsetLBA_eq]
  split
  · exact hrange
  split
  · rename_i hgt
    exact absurd (BitVec.lt_trans hlt hgt) (BitVec.lt_irrefl _)
  · exact hlt

/-- A target that is too near to the end. -/
theorem exists_offsetLBA_end (hrange : p.startLBA < p.endLBA) {target : U64}
    (hmid : (ODIDMid p).toNat ≤ target.toNat) (hlt : target.toNat + reach p < 2 ^ 64)
    (hend : p.endLBA.toNat ≤ target.toNat + reach p) : ∃ r, offsetLBA p target r = p.endLBA := by
  obtain ⟨r, hr⟩ := @exists_masked p
  have hmask := @mask_eq p
  have hnear := toNat_near r hmid hlt
  rw [hr] at hnear
  have hge : p.endLBA ≤ near p target r := by
    rw [BitVec.le_def]
    omega
  have hstart : ¬ near p target r < p.startLBA := by
    rw [BitVec.lt_def] at hrange ⊢
    rw [BitVec.le_def] at hge
    omega
  refine ⟨r, ?_⟩
  rw [offsetLBA_eq, if_neg hstart]
  split
  · rfl
  · rename_i hle
    exact BitVec.le_antisymm (BitVec.not_lt.mp hle) hge

/-! ## Random addresses -/

section keeps

-- an invariant of what was accessed
variable {A : List Access → Prop}

theorem keeps_rand : Keeps (fun s => A s.accesses) rand fun _ => True := by
  intro s hs
  unfold rand
  split
  · exact ⟨hs, fun _ _ _ => trivial⟩
  · exact ⟨hs, fun _ _ _ => trivial⟩

theorem keeps_rounds (n : Nat) (wrkNum : U64) :
    Keeps (fun s => A s.accesses) (rounds n wrkNum) fun _ => True := by
  induction n generalizing wrkNum with
  | zero => exact Keeps.pure trivial
  | succ n ih => exact keeps_rand.bind fun r _ => ih _

theorem keeps_attempt : Keeps (fun s => A s.accesses) (attempt p) fun _ => True :=
  (keeps_rounds _ _).bind fun _ _ => keeps_rand.bind fun _ _ => Keeps.pure trivial

theorem again_range (fuel : Nat) :
    Keeps (fun s => A s.accesses) (again p fuel) fun x => p.startLBA ≤ x ∧ x ≤ p.endLBA := by
  induction fuel with
  | zero => exact Keeps.throw
  | succ fuel ih =>
    refine keeps_attempt.bind fun wrkNum _ => Keeps.ite (fun _ => ih) fun hin => Keeps.pure ?_
    obtain ⟨hend, hstart⟩ := not_or.mp hin
    exact ⟨BitVec.not_lt.mp hstart, BitVec.not_lt.mp hend⟩

/-- **A random address is in the range.** -/
theorem getRandLBA_range :
    Keeps (fun s => A s.accesses) (getRandLBA p) fun x => p.startLBA ≤ x ∧ x ≤ p.endLBA :=
  fun s hs => again_range _ s hs

end keeps

/-! ## Which random addresses there are -/

/-- The rounds give every number of their bits. -/
theorem rounds_onto (n : Nat) (wrkNum : U64) {y : Nat} (hy : y < 2 ^ (31 * n))
    (hfits : wrkNum.toNat * 2 ^ (31 * n) + y < 2 ^ 64) :
    ∃ rands : List Rand, rands.length = n ∧ ∀ rest accesses,
      rounds n wrkNum ⟨rands ++ rest, accesses⟩ =
        .ok (BitVec.ofNat 64 (wrkNum.toNat * 2 ^ (31 * n) + y)) ⟨rest, accesses⟩ := by
  induction n generalizing wrkNum y with
  | zero =>
    obtain rfl : y = 0 := by simpa using hy
    refine ⟨[], rfl, fun rest accesses => ?_⟩
    rw [Nat.mul_zero, Nat.pow_zero, Nat.mul_one, Nat.add_zero, BitVec.ofNat_toNat,
      BitVec.setWidth_eq]
    rfl
  | succ n ih =>
    have hpow : 2 ^ (31 * (n + 1)) = 2 ^ 31 * 2 ^ (31 * n) := by rw [← Nat.pow_add]; ring_nf
    have hpos : 0 < 2 ^ (31 * n) := Nat.two_pow_pos _
    -- the first value holds the upper bits
    have hhigh : y / 2 ^ (31 * n) < 2 ^ 31 := by
      rw [Nat.div_lt_iff_lt_mul hpos, ← hpow]
      exact hy
    have hsplit : y = y / 2 ^ (31 * n) * 2 ^ (31 * n) + y % 2 ^ (31 * n) :=
      (Nat.div_add_mod' y _).symm
    have hfirst : (wrkNum.toNat * 2 ^ 31 + y / 2 ^ (31 * n)) * 2 ^ (31 * n) + y % 2 ^ (31 * n) =
        wrkNum.toNat * 2 ^ (31 * (n + 1)) + y := by
      rw [hpow, Nat.add_mul, Nat.add_assoc, ← hsplit, Nat.mul_assoc]
    have hnext : ((wrkNum <<< randBits) +
        (BitVec.ofNat 31 (y / 2 ^ (31 * n))).setWidth 64).toNat =
        wrkNum.toNat * 2 ^ 31 + y / 2 ^ (31 * n) := by
      have hsmall : wrkNum.toNat * 2 ^ 31 + y / 2 ^ (31 * n) < 2 ^ 64 := by
        refine lt_of_le_of_lt ?_ hfits
        rw [← hfirst]
        exact (Nat.le_mul_of_pos_right _ hpos).trans (Nat.le_add_right _ _)
      rw [randBits_eq, BitVec.toNat_add, BitVec.toNat_shiftLeft, Nat.shiftLeft_eq,
        BitVec.toNat_setWidth, BitVec.toNat_ofNat, Nat.mod_eq_of_lt hhigh, ← Nat.add_mod,
        Nat.mod_eq_of_lt hsmall]
    obtain ⟨rands, hlen, hrun⟩ := @ih ((wrkNum <<< randBits) +
      (BitVec.ofNat 31 (y / 2 ^ (31 * n))).setWidth 64) (y % 2 ^ (31 * n)) (Nat.mod_lt _ hpos)
      (by rw [hnext, hfirst]; exact hfits)
    refine ⟨BitVec.ofNat 31 (y / 2 ^ (31 * n)) :: rands, by rw [List.length_cons, hlen],
      fun rest accesses => ?_⟩
    have hrun := hrun rest accesses
    rw [hnext, hfirst] at hrun
    exact hrun

/-- An attempt gives every number of `LBABits`. -/
theorem attempt_onto {x : U64} (hx : x.toNat < 2 ^ LBABits p) :
    ∃ rands : List Rand, rands.length = LBARounds p + 1 ∧ ∀ rest accesses,
      attempt p ⟨rands ++ rest, accesses⟩ = .ok x ⟨rest, accesses⟩ := by
  have hlast : LBALastBits p < 31 := by
    rw [LBALastBits, randBits_eq]
    exact Nat.mod_lt _ (by decide)
  have hbitsEq : LBABits p = 31 * LBARounds p + LBALastBits p := by
    rw [LBARounds, LBALastBits, randBits_eq, Nat.div_add_mod]
  have hpos : 0 < 2 ^ LBALastBits p := Nat.two_pow_pos _
  have hhigh : x.toNat / 2 ^ LBALastBits p < 2 ^ (31 * LBARounds p) := by
    rw [Nat.div_lt_iff_lt_mul hpos, ← Nat.pow_add, ← hbitsEq]
    exact hx
  have hhighLt : x.toNat / 2 ^ LBALastBits p < 2 ^ 64 :=
    (Nat.div_le_self _ _).trans_lt x.isLt
  obtain ⟨rands, hlen, hrun⟩ := rounds_onto (LBARounds p) 0 hhigh (by simpa using hhighLt)
  have hlow : x.toNat % 2 ^ LBALastBits p < 2 ^ LBALastBits p := Nat.mod_lt _ hpos
  have hlowLt : x.toNat % 2 ^ LBALastBits p < 2 ^ 31 :=
    hlow.trans_le (Nat.pow_le_pow_right (by decide) hlast.le)
  have hmasked : ((BitVec.ofNat 31 (x.toNat % 2 ^ LBALastBits p)).setWidth 32 &&&
      LBALastMask p).toNat = x.toNat % 2 ^ LBALastBits p := by
    rw [LBALastMask, randBits_eq, BitVec.toNat_and, toNat_mask _ hlast.le, BitVec.toNat_setWidth,
      BitVec.toNat_ofNat, Nat.mod_eq_of_lt hlowLt, Nat.mod_eq_of_lt (by omega),
      Nat.and_two_pow_sub_one_eq_mod, Nat.mod_mod]
  refine ⟨rands ++ [BitVec.ofNat 31 (x.toNat % 2 ^ LBALastBits p)], by simp [hlen],
    fun rest accesses => ?_⟩
  have hrun := hrun (BitVec.ofNat 31 (x.toNat % 2 ^ LBALastBits p) :: rest) accesses
  have hx' : ((BitVec.ofNat 64 (x.toNat / 2 ^ LBALastBits p)) <<< LBALastBits p) +
      ((BitVec.ofNat 31 (x.toNat % 2 ^ LBALastBits p)).setWidth 32 &&& LBALastMask p).setWidth 64 =
        x := by
    apply BitVec.eq_of_toNat_eq
    have hsum : x.toNat / 2 ^ LBALastBits p * 2 ^ LBALastBits p +
        x.toNat % 2 ^ LBALastBits p = x.toNat := Nat.div_add_mod' _ _
    rw [BitVec.toNat_add, BitVec.toNat_shiftLeft, Nat.shiftLeft_eq, BitVec.toNat_setWidth, hmasked,
      BitVec.toNat_ofNat, Nat.mod_eq_of_lt hhighLt, ← Nat.add_mod, hsum, Nat.mod_eq_of_lt x.isLt]
  have hzero : (0 : U64).toNat * 2 ^ (31 * LBARounds p) + x.toNat / 2 ^ LBALastBits p =
      x.toNat / 2 ^ LBALastBits p := by
    rw [show (0 : U64).toNat = 0 by rfl, Nat.zero_mul, Nat.zero_add]
  rw [hzero] at hrun
  rw [List.append_assoc, List.singleton_append]
  refine (bind_ok hrun).trans ?_
  exact congrArg (EStateM.Result.ok · _) hx'

theorem rounds_lt (n : Nat) (wrkNum : U64) (hfits : (wrkNum.toNat + 1) * 2 ^ (31 * n) ≤ 2 ^ 64)
    {s s' : Run} {x : U64} (h : rounds n wrkNum s = .ok x s') :
    x.toNat < (wrkNum.toNat + 1) * 2 ^ (31 * n) := by
  induction n generalizing wrkNum s with
  | zero =>
    cases h
    rw [Nat.mul_zero, Nat.pow_zero, Nat.mul_one]
    exact Nat.lt_succ_self _
  | succ n ih =>
    obtain ⟨r, t, -, hrest⟩ := bind_eq_ok.mp h
    have hpow : 2 ^ (31 * (n + 1)) = 2 ^ 31 * 2 ^ (31 * n) := by rw [← Nat.pow_add]; ring_nf
    have hpos : 0 < 2 ^ (31 * n) := Nat.two_pow_pos _
    have hroom : (wrkNum.toNat + 1) * 2 ^ 31 ≤ 2 ^ 64 := by
      refine le_trans ?_ hfits
      rw [hpow, ← Nat.mul_assoc]
      exact Nat.le_mul_of_pos_right _ hpos
    have hnext : ((wrkNum <<< randBits) + r.setWidth 64).toNat =
        wrkNum.toNat * 2 ^ 31 + r.toNat := by
      have hr := r.isLt
      rw [randBits_eq, BitVec.toNat_add, BitVec.toNat_shiftLeft, Nat.shiftLeft_eq,
        BitVec.toNat_setWidth, ← Nat.add_mod]
      exact Nat.mod_eq_of_lt (by omega)
    have hstep : (((wrkNum <<< randBits) + r.setWidth 64).toNat + 1) * 2 ^ (31 * n) ≤
        (wrkNum.toNat + 1) * 2 ^ (31 * (n + 1)) := by
      rw [hnext, hpow, ← Nat.mul_assoc]
      have hr := r.isLt
      exact Nat.mul_le_mul_right _ (by omega)
    exact (ih _ (hstep.trans hfits) hrest).trans_le hstep

/-- An attempt gives no other number. -/
theorem attempt_lt (hbits : LBABits p ≤ 64) {s s' : Run} {x : U64} (h : attempt p s = .ok x s') :
    x.toNat < 2 ^ LBABits p := by
  obtain ⟨wrkNum, t, hrounds, hrest⟩ := bind_eq_ok.mp h
  obtain ⟨r, t', -, hx⟩ := bind_eq_ok.mp hrest
  cases hx
  have hlast : LBALastBits p < 31 := by
    rw [LBALastBits, randBits_eq]
    exact Nat.mod_lt _ (by decide)
  have hbitsEq : LBABits p = 31 * LBARounds p + LBALastBits p := by
    rw [LBARounds, LBALastBits, randBits_eq, Nat.div_add_mod]
  have hpow : 2 ^ LBABits p = 2 ^ (31 * LBARounds p) * 2 ^ LBALastBits p := by
    rw [hbitsEq, Nat.pow_add]
  have hpos : 0 < 2 ^ LBALastBits p := Nat.two_pow_pos _
  have hroom : 2 ^ LBABits p ≤ 2 ^ 64 := Nat.pow_le_pow_right (by decide) hbits
  have hwork : wrkNum.toNat < 2 ^ (31 * LBARounds p) := by
    have hlt := rounds_lt (LBARounds p) 0 (by
      rw [show (0 : U64).toNat + 1 = 1 by rfl, Nat.one_mul]
      exact le_trans (by rw [hpow]; exact Nat.le_mul_of_pos_right _ hpos) hroom) hrounds
    rwa [show (0 : U64).toNat + 1 = 1 by rfl, Nat.one_mul] at hlt
  have hmasked : (r.setWidth 32 &&& LBALastMask p).toNat < 2 ^ LBALastBits p := by
    rw [LBALastMask, randBits_eq, BitVec.toNat_and, toNat_mask _ hlast.le,
      Nat.and_two_pow_sub_one_eq_mod]
    exact Nat.mod_lt _ hpos
  have hshifted : (wrkNum.toNat + 1) * 2 ^ LBALastBits p ≤ 2 ^ LBABits p := by
    rw [hpow]
    exact Nat.mul_le_mul_right _ hwork
  rw [Nat.add_mul, Nat.one_mul] at hshifted
  rw [BitVec.toNat_add, BitVec.toNat_shiftLeft, Nat.shiftLeft_eq, BitVec.toNat_setWidth,
    ← Nat.add_mod]
  refine lt_of_le_of_lt (Nat.mod_le _ _) ?_
  omega

theorem LBABits_le : LBABits p ≤ 64 := Nat.clog_le_of_le_pow p.endLBA.isLt.le

/-- What comes back is an attempt. -/
theorem again_attempt {fuel : Nat} {s s' : Run} {x : U64} (h : again p fuel s = .ok x s') :
    ∃ t t', attempt p t = .ok x t' := by
  induction fuel generalizing s with
  | zero => cases h
  | succ fuel ih =>
    obtain ⟨wrkNum, t, hattempt, hrest⟩ := bind_eq_ok.mp h
    by_cases hout : wrkNum > p.endLBA ∨ wrkNum < p.startLBA
    · rw [if_pos hout] at hrest
      exact ih hrest
    · rw [if_neg hout] at hrest
      cases hrest
      exact ⟨s, _, hattempt⟩

/-- A random address that is found at the first attempt. -/
theorem getRandLBA_first {x : U64} (hstart : p.startLBA ≤ x) (hend : x ≤ p.endLBA)
    (hx : x.toNat < 2 ^ LBABits p) :
    ∃ rands : List Rand, ∀ rest accesses,
      getRandLBA p ⟨rands ++ rest, accesses⟩ = .ok x ⟨rest, accesses⟩ := by
  obtain ⟨rands, -, hrun⟩ := attempt_onto hx
  refine ⟨rands, fun rest accesses => (bind_ok (hrun rest accesses)).trans ?_⟩
  rw [if_neg (not_or.mpr ⟨BitVec.not_lt.mpr hend, BitVec.not_lt.mpr hstart⟩)]
  rfl

/-- The end of the range is a power of two. -/
def PowerEnd (p : Plan) : Prop := p.endLBA.toNat = 2 ^ LBABits p

theorem lt_pow_LBABits (h : ¬ PowerEnd p) {x : U64} (hx : x ≤ p.endLBA) :
    x.toNat < 2 ^ LBABits p := by
  have hle : p.endLBA.toNat ≤ 2 ^ LBABits p := Nat.le_pow_clog (by decide) _
  rw [BitVec.le_def] at hx
  unfold PowerEnd at h
  omega

/-- **The random addresses are all of the range**, unless it ends at a power of two. -/
theorem getRandLBA_onto_iff (hrange : p.startLBA < p.endLBA) :
    (∀ x, p.startLBA ≤ x → x ≤ p.endLBA → ∃ rands s', getRandLBA p ⟨rands, []⟩ = .ok x s') ↔
      ¬ PowerEnd p := by
  refine ⟨fun h hpower => ?_, fun h x hstart hend => ?_⟩
  · obtain ⟨rands, s', hrun⟩ := h p.endLBA (BitVec.le_of_lt hrange) (BitVec.le_refl _)
    obtain ⟨t, t', hattempt⟩ := again_attempt hrun
    have hlt := attempt_lt LBABits_le hattempt
    rw [hpower] at hlt
    exact Nat.lt_irrefl _ hlt
  · obtain ⟨rands, hrun⟩ := getRandLBA_first hstart hend (lt_pow_LBABits h hend)
    have hrun := hrun [] []
    rw [List.append_nil] at hrun
    exact ⟨rands, _, hrun⟩

end plan

end Muncher
