import Disks.Tool.Proof.MuncherSweep
import Mathlib.Data.Int.GCD

/-!
# Where `muncher` reads and writes

* `sees_end`: a run that accesses the end of the range first of all.
* `exists_multiple_iff`: which residues the multiples of a number come to.
* `sweepsEnd_iff`: **when the sweeps end.**
* `addressing_iff`: **when every address is on the disk, the sweeps end and every address of the
  range comes up.**
* `max_lba_off_by_one`: without options the end of the range is one sector behind the disk.
-/

namespace Muncher

open Drive Effect

section plan

variable {p : Plan}

/-! ## The end of the range -/

/-- A random address that comes up. -/
theorem sees_seeks {fails : Nat → Bool} {ignoreErrors : Bool} {x : U64} (write : Bool)
    (hcount : p.randSeekCount ≠ 0) {rands : List Rand}
    (hget : ∀ rest accesses, getRandLBA p ⟨rands ++ rest, accesses⟩ = .ok x ⟨rest, accesses⟩) :
    Sees x (times (seek p fails ignoreErrors write) p.randSeekCount.toNat) ⟨rands, []⟩ := by
  obtain ⟨n, hn⟩ := Nat.exists_eq_succ_of_ne_zero (show p.randSeekCount.toNat ≠ 0 from
    fun hzero => hcount (BitVec.eq_of_toNat_eq hzero))
  have hfirst := hget [] []
  rw [List.append_nil] at hfirst
  rw [hn, times]
  have hseek : Sees x (seek p fails ignoreErrors write) ⟨rands, []⟩ :=
    Leads.of_ok hfirst (sees_access rfl (Keeps.pure trivial))
  exact hseek.bind fun _ => Keeps.times fun _ => kept_seen_seek write

/-- Each test begins with its own random seeks. -/
theorem sees_munch_seek (o : Options) (htest : o.readTest ∨ o.writeTest) {fails : Nat → Bool}
    {x : U64} (hround : p.roundCount ≠ 0) (hcount : p.randSeekCount ≠ 0) {rands : List Rand}
    (hget : ∀ rest accesses, getRandLBA p ⟨rands ++ rest, accesses⟩ = .ok x ⟨rest, accesses⟩) :
    ∃ rands, Sees x (munch o p fails) ⟨rands, []⟩ := by
  apply sees_munch o hround rands
  have hseeks (write : Bool) := @sees_seeks p fails o.ignoreErrors x write hcount rands hget
  have hsweeps : Kept (Seen x) (do
      sweepReads p fails o.ignoreErrors o.readTest
      sweepWrites p fails o.ignoreErrors o.writeTest
      mixed p fails o.ignoreErrors o.readTest o.writeTest) :=
    (kept_sweepReads fun _ => kept_seen_idod (Keeps.pure trivial) _).bind fun _ _ =>
      (kept_sweepWrites fun _ => kept_seen_idod (Keeps.pure trivial) _).bind fun _ _ =>
      kept_mixed (fun write _ => kept_seen_seek write) fun _ => kept_seen_idod kept_flipCoin _
  cases hread : o.readTest with
  | true =>
    rw [hread] at hsweeps
    have hreads : Sees x (randomReads p fails o.ignoreErrors true) ⟨rands, []⟩ := hseeks false
    exact hreads.bind fun _ =>
      (kept_randomWrites fun _ => kept_seen_seek true).bind fun _ _ => hsweeps
  | false =>
    rw [hread] at hsweeps htest
    have hwrite : o.writeTest = true := htest.resolve_left Bool.false_ne_true
    rw [hwrite] at hsweeps ⊢
    have hwrites : Sees x (randomWrites p fails o.ignoreErrors true) ⟨rands, []⟩ := hseeks true
    exact Leads.of_ok rfl (hwrites.bind fun _ => hsweeps)

/-- Without random seeks each test begins with its sweeps. -/
theorem sees_munch_idod (o : Options) (htest : o.readTest ∨ o.writeTest) {fails : Nat → Bool}
    {x : U64} (hround : p.roundCount ≠ 0) (hcount : p.randSeekCount = 0) (hodid : p.ODIDCount ≠ 0)
    {r : Rand} (hr : offsetLBA p (step p) r = x)
    (hruns : step p < p.endLBA - step p ∨ p.FullODIDCount ≠ 0) :
    ∃ rands, Sees x (munch o p fails) ⟨rands, []⟩ := by
  apply sees_munch o hround [r]
  have hskip (m : Munch Unit) (s : Run) : times m p.randSeekCount.toNat s = .ok () s := by
    rw [hcount]
    rfl
  have hreads : randomReads p fails o.ignoreErrors o.readTest ⟨[r], []⟩ = .ok () ⟨[r], []⟩ := by
    unfold randomReads
    split
    · exact hskip _ _
    · rfl
  have hwrites : randomWrites p fails o.ignoreErrors o.writeTest ⟨[r], []⟩ = .ok () ⟨[r], []⟩ := by
    unfold randomWrites
    split
    · exact hskip _ _
    · rfl
  have hsweeps (sweeps : Munch Unit) (h : Sees x sweeps ⟨[r], []⟩) :
      Sees x (unlessDisabled p sweeps) ⟨[r], []⟩ := by
    rw [unlessDisabled, if_pos hodid]
    exact h
  have hmixed : Kept (Seen x) (mixed p fails o.ignoreErrors o.readTest o.writeTest) :=
    kept_mixed (fun write _ => kept_seen_seek write) fun _ => kept_seen_idod kept_flipCoin _
  refine Leads.of_ok hreads (Leads.of_ok hwrites ?_)
  cases hread : o.readTest with
  | true =>
    rw [hread] at hmixed
    have hsees : Sees x (sweepReads p fails o.ignoreErrors true) ⟨[r], []⟩ :=
      hsweeps _ (sees_idod hr hruns true _ [] [])
    exact hsees.bind fun _ =>
      (kept_sweepWrites fun _ => kept_seen_idod (Keeps.pure trivial) _).bind fun _ _ => hmixed
  | false =>
    rw [hread] at hmixed htest
    have hwrite : o.writeTest = true := htest.resolve_left Bool.false_ne_true
    rw [hwrite] at hmixed ⊢
    have hsees : Sees x (sweepWrites p fails o.ignoreErrors true) ⟨[r], []⟩ :=
      hsweeps _ (sees_idod hr hruns false _ [] [])
    exact Leads.of_ok rfl (hsees.bind fun _ => hmixed)

/-- **A run that accesses the end of the range**, unless the run stays clear of it. -/
theorem sees_end (o : Options) (htest : o.readTest ∨ o.writeTest) (hrange : p.startLBA < p.endLBA)
    (hge : p.ODIDCount ≠ 0 → 30 ≤ p.ODIDStep.toNat) (hlt : p.ODIDStep.toNat < 2 ^ 31)
    (hpower : ¬ PowerEnd p) (hround : p.roundCount ≠ 0) (hclear : ¬ Clear p)
    (fails : Nat → Bool) : ∃ rands, Sees p.endLBA (munch o p fails) ⟨rands, []⟩ := by
  by_cases hcount : p.randSeekCount = 0
  swap
  · obtain ⟨rands, hget⟩ := getRandLBA_first (BitVec.le_of_lt hrange) (BitVec.le_refl _)
      (lt_pow_LBABits hpower (BitVec.le_refl p.endLBA))
    exact sees_munch_seek o htest hround hcount hget
  have hodid : p.ODIDCount ≠ 0 := fun hzero => hclear ⟨hcount, fun h => absurd hzero h⟩
  have hge := hge hodid
  have hstep := toNat_step hlt
  have hreach := reach_lt_step hge hlt
  have hmid := @mid_le_reach p
  have hend := p.endLBA.isLt
  -- the first step is too near to the end, or behind it
  have hnear : p.endLBA.toNat ≤ (step p).toNat + reach p ∧
      (step p < p.endLBA - step p ∨ p.FullODIDCount ≠ 0) := by
    by_cases hle : step p ≤ p.endLBA
    · have hfull : ¬ (p.FullODIDCount ≠ 0 → (step p).toNat + reach p < p.endLBA.toNat) :=
        fun hfull => hclear ⟨hcount, fun _ => ⟨hle, hfull⟩⟩
      rw [Classical.not_imp] at hfull
      exact ⟨Nat.not_lt.mp hfull.2, .inr hfull.1⟩
    · rw [BitVec.le_def] at hle
      refine ⟨by omega, .inl ?_⟩
      rw [BitVec.lt_def, BitVec.toNat_sub]
      omega
  obtain ⟨r, hr⟩ := exists_offsetLBA_end hrange (by omega) (by omega) hnear.1
  exact sees_munch_idod o htest hround hcount hodid hr hnear.2

end plan

/-! ## Multiples -/

/-- The multiples of a number come to one of the last residues. -/
theorem exists_multiple_iff {N s c : Nat} (hs : 0 < s) (hN : 0 < N) (hcN : c ≤ N) :
    (∃ k, N - c ≤ (k + 1) * s % N) ↔ Nat.gcd s N ≤ c := by
  have hpos : 0 < Nat.gcd s N := Nat.gcd_pos_of_pos_left N hs
  refine ⟨fun ⟨k, hk⟩ => ?_, fun h => ?_⟩
  · -- the gap above a multiple is a multiple of the divisor
    have hlt : (k + 1) * s % N < N := Nat.mod_lt _ hN
    have hdvd : Nat.gcd s N ∣ (k + 1) * s % N :=
      (Nat.dvd_mod_iff (Nat.gcd_dvd_right s N)).mpr (Dvd.dvd.mul_left (Nat.gcd_dvd_left s N) _)
    have hgap := Nat.le_of_dvd (by omega) (Nat.dvd_sub (Nat.gcd_dvd_right s N) hdvd)
    omega
  · by_cases hlt : Nat.gcd s N < N
    · obtain ⟨m, -, hm⟩ := Nat.exists_mul_mod_eq_gcd hlt
      have hmpos : 0 < m := by
        rcases Nat.eq_zero_or_pos m with rfl | hmpos
        · rw [Nat.mul_zero, Nat.zero_mod] at hm
          omega
        · exact hmpos
      -- `N - 1` times as far is one step below
      obtain ⟨k, hk⟩ := Nat.exists_eq_succ_of_ne_zero
        (Nat.mul_pos hmpos (show 0 < N - 1 by omega)).ne'
      refine ⟨k, ?_⟩
      have hvalue : (k + 1) * s % N = N - Nat.gcd s N := by
        obtain ⟨e, he⟩ := Nat.exists_eq_succ_of_ne_zero hpos.ne'
        obtain ⟨n, rfl⟩ : ∃ n, N = n + 1 := ⟨N - 1, by omega⟩
        have hproduct : s * m = (n + 1) * (s * m / (n + 1)) + (e + 1) := by
          rw [← Nat.succ_eq_add_one e, ← he, ← hm]
          exact (Nat.div_add_mod _ _).symm
        have hsplit : (k + 1) * s = (n + 1) * (n * (s * m / (n + 1)) + e) + (n - e) := by
          calc (k + 1) * s = n * (s * m) := by
                rw [← Nat.succ_eq_add_one k, ← hk, Nat.add_sub_cancel]
                ring
            _ = n * ((n + 1) * (s * m / (n + 1)) + (e + 1)) := by rw [← hproduct]
            _ = (n + 1) * (n * (s * m / (n + 1)) + e) + (n - e) := by
                have hle : e ≤ n := by omega
                obtain ⟨f, rfl⟩ := Nat.exists_eq_add_of_le hle
                rw [Nat.add_sub_cancel_left]
                ring
        rw [hsplit, Nat.mul_add_mod, Nat.mod_eq_of_lt (by omega), he]
        omega
      omega
    · exact ⟨0, by omega⟩

/-! ## The sweeps -/

section sweeps

variable {p : Plan}

/-- How many values a run has left. -/
def left (s : Run) : Nat := s.rands.length

theorem costs_rand : Costs left 1 rand := by
  rintro ⟨rands, accesses⟩ hs
  cases rands with
  | nil => cases hs
  | cons r rands => exact ⟨r, ⟨rands, accesses⟩, rfl, Nat.le_refl _⟩

theorem costs_getOffsetLBA (target : U64) : Costs left 1 (getOffsetLBA p target) :=
  costs_rand.bind fun _ => Costs.pure _

/-- An access of a disk without errors. -/
theorem costs_access {ignoreErrors write : Bool} {c : Nat} {LBA : Munch U64}
    (h : Costs left c LBA) : Costs left c (access (fun _ => false) ignoreErrors write LBA) := by
  have hbind : Costs left (c + 0) (access (fun _ => false) ignoreErrors write LBA) :=
    h.bind fun lba s _ => ⟨(), ⟨s.rands, s.accesses ++ [⟨write, lba⟩]⟩, rfl, Nat.le_refl _⟩
  exact hbind

/-- What decides between reading and writing. -/
inductive Reads : Munch Bool → Prop
  | read : Reads (pure true)
  | write : Reads (pure false)
  | mixed : Reads flipCoin

theorem Reads.costs {reads : Munch Bool} (h : Reads reads) : Costs left 1 reads := by
  cases h with
  | read => exact fun s _ => ⟨true, s, rfl, Nat.le_succ _⟩
  | write => exact fun s _ => ⟨false, s, rfl, Nat.le_succ _⟩
  | mixed => exact costs_rand.bind fun _ => Costs.pure _

theorem costs_pair {ignoreErrors : Bool} {reads : Munch Bool} (h : Reads reads)
    (wrkLBA wrkLBA2 : U64) :
    Costs left 3 (pair p (fun _ => false) ignoreErrors reads wrkLBA wrkLBA2) := by
  refine h.costs.bind (d := 2) fun read => ?_
  cases read with
  | true =>
    exact (costs_access (costs_getOffsetLBA _)).bind fun _ => costs_access (costs_getOffsetLBA _)
  | false =>
    exact (costs_access (costs_getOffsetLBA _)).bind fun _ => costs_access (costs_getOffsetLBA _)

/-- **The sweeps end**, on a disk without errors, once there are values enough. -/
def SweepsEnd (p : Plan) : Prop :=
  ∀ ignoreErrors reads far, Reads reads → ∃ n, ∀ s : Run, n ≤ s.rands.length →
    ∃ s', idod p (fun _ => false) ignoreErrors reads far s = .ok () s'

/-- The cursor of a loop after some turns. -/
theorem toNat_cursor (k : Nat) :
    ((fun wrk => wrk + step p)^[k] (step p)).toNat = (k + 1) * (step p).toNat % 2 ^ 64 := by
  induction k with
  | zero =>
    rw [Function.iterate_zero, id, Nat.zero_add, Nat.one_mul]
    exact (Nat.mod_eq_of_lt (step p).isLt).symm
  | succ k ih =>
    rw [Function.iterate_succ_apply', BitVec.toNat_add, ih, Nat.mod_add_mod, Nat.succ_mul (k + 1)]

/-- The loops end where a cursor comes behind the bound. -/
theorem sweepsEnd_iff_cursor :
    SweepsEnd p ↔ ∃ k, (p.endLBA - step p).toNat ≤ (k + 1) * (step p).toNat % 2 ^ 64 := by
  have hcond (k : Nat) :
      decide ((fun wrk => wrk + step p)^[k] (step p) < p.endLBA - step p) = false ↔
        (p.endLBA - step p).toNat ≤ (k + 1) * (step p).toNat % 2 ^ 64 := by
    rw [decide_eq_false_iff_not, BitVec.lt_def, toNat_cursor, Nat.not_lt]
  refine ⟨fun h => ?_, fun ⟨k, hk⟩ ignoreErrors reads far hreads => ?_⟩
  · by_contra hnever
    rw [not_exists] at hnever
    obtain ⟨n, hn⟩ := h false (pure true) 0 Reads.read
    obtain ⟨s', hs'⟩ := hn ⟨List.replicate n 0, []⟩ (by rw [List.length_replicate])
    obtain ⟨_, t, hsweep, -⟩ := bind_eq_ok.mp hs'
    refine forLoop_spins (fun k => ?_) _ _ _ hsweep
    by_contra hstop
    exact hnever k ((hcond k).mp (Bool.eq_false_of_not_eq_true hstop))
  · have hsweep {turn : U64 → Munch Unit} (hturn : ∀ wrk, Costs left 3 (turn wrk)) :
        Costs left (k * 3) (sweep p turn) := by
      intro s hs
      refine Costs.forLoop hturn ((hcond k).mpr hk) ?_ s hs
      unfold left at hs
      omega
    have hidod := (hsweep fun wrk => @costs_pair p ignoreErrors _ hreads (step p) wrk).bind fun _ =>
      ((@costs_pair p ignoreErrors _ hreads (step p) far).times p.FullODIDCount.toNat).bind fun _ =>
        hsweep fun wrk => @costs_pair p ignoreErrors _ hreads wrk far
    refine ⟨k * 3 + (p.FullODIDCount.toNat * 3 + k * 3), fun s hs => ?_⟩
    obtain ⟨_, s', hs', -⟩ := hidod s hs
    exact ⟨s', hs'⟩

/-- **When the sweeps end**: the step is not beyond the range, or it comes, around the range of the
words, to one of the last of them. -/
theorem sweepsEnd_iff (hge : 30 ≤ (step p).toNat) :
    SweepsEnd p ↔ step p ≤ p.endLBA ∨
      Nat.gcd (step p).toNat (2 ^ 64) ≤ (step p).toNat - p.endLBA.toNat := by
  have hstep := (step p).isLt
  rw [sweepsEnd_iff_cursor]
  by_cases hle : step p ≤ p.endLBA
  · refine iff_of_true ?_ (.inl hle)
    rw [BitVec.toNat_sub_of_le hle]
    rw [BitVec.le_def] at hle
    -- the first multiple behind the bound
    refine ⟨(p.endLBA.toNat - (step p).toNat) / (step p).toNat, ?_⟩
    have hdiv := Nat.div_add_mod (p.endLBA.toNat - (step p).toNat) (step p).toNat
    have hmod := Nat.mod_lt (p.endLBA.toNat - (step p).toNat) (show 0 < (step p).toNat by omega)
    have hend := p.endLBA.isLt
    rw [Nat.add_mul, Nat.one_mul, Nat.mul_comm, Nat.mod_eq_of_lt (by omega)]
    omega
  · have hbound : (p.endLBA - step p).toNat = 2 ^ 64 - ((step p).toNat - p.endLBA.toNat) := by
      rw [BitVec.le_def] at hle
      rw [BitVec.toNat_sub]
      omega
    rw [or_iff_right hle, hbound]
    rw [BitVec.le_def] at hle
    exact exists_multiple_iff (by omega) (by decide) (by omega)

end sweeps

/-! ## All of it -/

/-- **What is asked of the addresses**: in every run each is in the range and on the disk, the
sweeps of its rounds end, and every address of the range comes up at random. -/
structure Addressed (o : Options) (totalLBACount : U64) (p : Plan) : Prop where
  inside : ∀ fails rands, ∀ a ∈ (final (munch o p fails ⟨rands, []⟩)).accesses,
    p.startLBA ≤ a.LBA ∧ a.LBA ≤ p.endLBA ∧ a.LBA < totalLBACount
  ends : p.roundCount ≠ 0 → p.ODIDCount ≠ 0 → SweepsEnd p
  onto : ∀ x, p.startLBA ≤ x → x ≤ p.endLBA → ∃ rands s', getRandLBA p ⟨rands, []⟩ = .ok x s'

/-- **When they are so**: there are no rounds, or the range ends before the disk does or nothing is
accessed near its end, and the step is not beyond the range or its multiples come around to the end
of the words; and the range does not end at a power of two. -/
structure Sound (totalLBACount : U64) (p : Plan) : Prop where
  below : p.endLBA < totalLBACount ∨ p.roundCount = 0 ∨ Clear p
  steps : p.roundCount = 0 ∨ (p.ODIDCount ≠ 0 → step p ≤ p.endLBA ∨
    Nat.gcd (step p).toNat (2 ^ 64) ≤ (step p).toNat - p.endLBA.toNat)
  power : ¬ PowerEnd p

theorem endOf_le (o : Options) (totalLBACount : U64) : endOf o totalLBACount ≤ totalLBACount := by
  unfold endOf
  split
  · exact BitVec.le_refl _
  split
  · exact BitVec.le_refl _
  · rename_i hgt
    exact BitVec.not_lt.mp hgt

theorem addressed_iff_sound {o : Options} {totalLBACount : U64} {p : Plan}
    (htest : o.readTest ∨ o.writeTest) (hrange : o.startLBA < endOf o totalLBACount)
    (hp : setUp o totalLBACount = some p) :
    Addressed o totalLBACount p ↔ Sound totalLBACount p := by
  obtain ⟨hstart, hending, htotal, -, hge, hlt⟩ := setUp_some hp
  rw [← hstart, ← hending] at hrange
  have hle : p.endLBA ≤ totalLBACount := hending ▸ endOf_le o totalLBACount
  have hstepGe (hcount : p.ODIDCount ≠ 0) : 30 ≤ (step p).toNat := by
    rw [toNat_step hlt]
    exact hge hcount
  refine ⟨fun h => ?_, fun h => ⟨fun fails rands a ha => ?_, fun hround hcount => ?_, ?_⟩⟩
  · have hpower := (getRandLBA_onto_iff hrange).mp h.onto
    refine ⟨?_, or_iff_not_imp_left.mpr fun hround hcount =>
      (sweepsEnd_iff (hstepGe hcount)).mp (h.ends hround hcount), hpower⟩
    by_contra hbelow
    rw [not_or, not_or] at hbelow
    obtain ⟨hwhole, hround, hclear⟩ := hbelow
    obtain ⟨rands, a, ha, hend⟩ :=
      sees_end o htest hrange hge hlt hpower hround hclear fun _ => false
    have hinside := (h.inside _ rands a ha).2.2
    rw [hend] at hinside
    exact hwhole hinside
  · have hin := (@kept_range p fails o (BitVec.le_of_lt hrange) ⟨rands, []⟩ nofun).1 a ha
    refine ⟨hin.1, hin.2, ?_⟩
    by_cases hwhole : p.endLBA < totalLBACount
    · rw [BitVec.lt_def] at hwhole ⊢
      exact (BitVec.le_def.mp hin.2).trans_lt hwhole
    · have hsame : totalLBACount = p.endLBA := BitVec.le_antisymm (BitVec.not_lt.mp hwhole) hle
      have hbelow := @kept_below p fails o hrange (htotal.trans hsame) hge hlt
        (h.below.resolve_left hwhole) ⟨rands, []⟩ nofun
      rw [hsame]
      exact hbelow.1 a ha
  · exact (sweepsEnd_iff (hstepGe hcount)).mpr (h.steps.resolve_left hround hcount)
  · exact (getRandLBA_onto_iff hrange).mpr h.power

/-- **When every address is on the disk, the sweeps end and every address of the range comes up**,
for the options that are accepted, with the start of the range below its end. -/
theorem addressing_iff (o : Options) (totalLBACount : U64) (htest : o.readTest ∨ o.writeTest)
    (hrange : o.startLBA < endOf o totalLBACount) :
    (∃ p, setUp o totalLBACount = some p ∧ Addressed o totalLBACount p) ↔
      ∃ p, setUp o totalLBACount = some p ∧ Sound totalLBACount p :=
  exists_congr fun _ => and_congr_right fun hp => addressed_iff_sound htest hrange hp

/-- A range that ends with the last sector of a disk of 100. -/
theorem addressing_last_sector :
    ∃ p, setUp { endLBA := 99 } 100 = some p ∧ Addressed { endLBA := 99 } 100 p := by
  refine (addressing_iff { endLBA := 99 } 100 (by decide) (by decide)).mpr ⟨_, rfl, ?_⟩
  refine ⟨.inl (by decide), .inr fun _ => .inl (by decide), fun hpower => ?_⟩
  have hbits : (99 : Nat) = 2 ^ Nat.clog 2 99 := hpower
  revert hbits
  decide

/-- Without options the range of a disk of 100 sectors ends at the address 100. -/
theorem max_lba_off_by_one : ¬ ∃ p, setUp {} 100 = some p ∧ Addressed {} 100 p := by
  rintro ⟨p, hp, haddressed⟩
  have hsound := (addressed_iff_sound (by decide) (by decide) hp).mp haddressed
  cases hp
  rcases hsound.below with hlt | hround | hclear
  · exact absurd hlt (by decide)
  · exact absurd hround (by decide)
  · exact absurd hclear.seeks (by decide)

end Muncher
