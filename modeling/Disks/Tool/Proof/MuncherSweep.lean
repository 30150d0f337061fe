import Disks.Tool.Proof.MuncherRange

/-!
# The runs of `muncher`

* `keeps_munch`: an invariant of what was accessed, from what the seeks and the sweeps may access.
* `keeps_range`: **every address is in the range.** `keeps_below`: when none is at its end.
* `leads_seek`, `leads_idod`: runs that access the end of the range first of all.
* `sweepsEnd_iff`: **when the sweeps end.**
-/

namespace Muncher

open Drive Effect

/-! ## What a run may access -/

section keeps

variable {p : Plan} {fails : Nat → Bool} {ignoreErrors : Bool}
  {A : List Access → Prop} {Q : U64 → Prop}

/-- Accesses of addresses with `Q` keep `A`. -/
def Grows (A : List Access → Prop) (Q : U64 → Prop) : Prop :=
  ∀ accesses a, A accesses → Q a.LBA → A (accesses ++ [a])

/-- `A` is kept. -/
abbrev Kept (A : List Access → Prop) {α : Type} (m : Munch α) : Prop :=
  Keeps (fun s => A s.accesses) m fun _ => True

theorem kept_access (hA : Grows A Q) {write : Bool} {LBA : Munch U64}
    (h : Keeps (fun s => A s.accesses) LBA Q) : Kept A (access fails ignoreErrors write LBA) := by
  refine h.bind fun lba hlba => ?_
  have hrecord : Kept A (record fails write lba) :=
    fun s hs => ⟨hA s.accesses ⟨write, lba⟩ hs hlba, fun _ _ _ => trivial⟩
  refine hrecord.bind fun failed _ => Keeps.ite (fun _ => ?_) fun _ => Keeps.pure trivial
  exact h.bind fun _ _ => Keeps.ite (fun _ => Keeps.pure trivial) fun _ => Keeps.throw

theorem keeps_getOffsetLBA (target : U64) :
    Keeps (fun s => A s.accesses) (getOffsetLBA p target)
      fun x => ∃ r, x = offsetLBA p target r :=
  keeps_rand.bind fun r _ => Keeps.pure ⟨r, rfl⟩

theorem kept_flipCoin : Kept A flipCoin := keeps_rand.bind fun _ _ => Keeps.pure trivial

/-- All addresses near a target have `Q`. -/
def Near (p : Plan) (Q : U64 → Prop) (target : U64) : Prop := ∀ r, Q (offsetLBA p target r)

theorem kept_pair (hA : Grows A Q) {reads : Munch Bool} (hreads : Kept A reads)
    {wrkLBA wrkLBA2 : U64} (h : Near p Q wrkLBA) (h2 : Near p Q wrkLBA2) :
    Kept A (pair p fails ignoreErrors reads wrkLBA wrkLBA2) := by
  have hnear {target : U64} (h : Near p Q target) :
      Keeps (fun s => A s.accesses) (getOffsetLBA p target) Q :=
    (keeps_getOffsetLBA target).mono fun x ⟨r, hr⟩ => hr ▸ h r
  refine hreads.bind fun read _ => Keeps.ite (fun _ => ?_) fun _ => ?_
  · exact (kept_access hA (hnear h)).bind fun _ _ => kept_access hA (hnear h2)
  · exact (kept_access hA (hnear h)).bind fun _ _ => kept_access hA (hnear h2)

theorem kept_sweep {J : U64 → Prop} (hstart : J (step p))
    (hnext : ∀ wrk, J wrk → wrk < p.endLBA - step p → J (wrk + step p)) {turn : U64 → Munch Unit}
    (hturn : ∀ wrk, J wrk → wrk < p.endLBA - step p → Kept A (turn wrk)) :
    Kept A (sweep p turn) := by
  intro s hs
  refine Keeps.forLoop (I := fun s => A s.accesses) (J := J) (fun wrk hwrk hcond => ?_)
    (fun wrk hwrk hcond => ?_) _ hstart s hs
  · exact hnext wrk hwrk (of_decide_eq_true hcond)
  · exact hturn wrk hwrk (of_decide_eq_true hcond)

/-- What the sweeps may access: near the cursor of a loop, the first step and the far end, each
where it is used. -/
structure SweepsNear (p : Plan) (Q : U64 → Prop) (J : U64 → Prop) (far : U64) : Prop where
  start : J (step p)
  next : ∀ wrk, J wrk → wrk < p.endLBA - step p → J (wrk + step p)
  cursor : ∀ wrk, J wrk → wrk < p.endLBA - step p → Near p Q wrk
  first : (∃ wrk, J wrk ∧ wrk < p.endLBA - step p) ∨ p.FullODIDCount ≠ 0 → Near p Q (step p)
  far : (∃ wrk, J wrk ∧ wrk < p.endLBA - step p) ∨ p.FullODIDCount ≠ 0 → Near p Q far

theorem kept_idod (hA : Grows A Q) {reads : Munch Bool} (hreads : Kept A reads) {J : U64 → Prop}
    {far : U64} (h : SweepsNear p Q J far) : Kept A (idod p fails ignoreErrors reads far) := by
  have hfull (hcount : p.FullODIDCount.toNat ≠ 0) : p.FullODIDCount ≠ 0 :=
    fun hzero => hcount (by rw [hzero]; rfl)
  refine (kept_sweep h.start h.next fun wrk hwrk hlt => ?_).bind fun _ _ =>
    (Keeps.times fun hcount => ?_).bind fun _ _ =>
      kept_sweep h.start h.next fun wrk hwrk hlt => ?_
  · exact kept_pair hA hreads (h.first (.inl ⟨wrk, hwrk, hlt⟩)) (h.cursor wrk hwrk hlt)
  · exact kept_pair hA hreads (h.first (.inr (hfull hcount))) (h.far (.inr (hfull hcount)))
  · exact kept_pair hA hreads (h.cursor wrk hwrk hlt) (h.far (.inl ⟨wrk, hwrk, hlt⟩))

theorem kept_seek (hA : Grows A Q) (h : ∀ x, p.startLBA ≤ x → x ≤ p.endLBA → Q x) (write : Bool) :
    Kept A (seek p fails ignoreErrors write) :=
  getRandLBA_range.bind fun x hx => kept_access hA (Keeps.pure (h x hx.1 hx.2))

/-! ### The parts of a round -/

section parts

variable {readTest writeTest : Bool}

theorem ne_of_toNat_ne {count : U32} (h : count.toNat ≠ 0) : count ≠ 0 :=
  fun hzero => h (by rw [hzero]; rfl)

theorem kept_pattern : Kept A (pattern writeTest) :=
  Keeps.ite (fun _ => keeps_rand.bind fun _ _ => Keeps.pure trivial) fun _ => Keeps.pure trivial

theorem kept_seeks {m : Munch Unit} (h : p.randSeekCount ≠ 0 → Kept A m) :
    Kept A (times m p.randSeekCount.toNat) :=
  Keeps.times fun hcount => h (ne_of_toNat_ne hcount)

theorem kept_unlessDisabled {sweeps : Munch Unit} (h : p.ODIDCount ≠ 0 → Kept A sweeps) :
    Kept A (unlessDisabled p sweeps) := Keeps.ite h fun _ => Keeps.pure trivial

theorem kept_randomReads (h : p.randSeekCount ≠ 0 → Kept A (seek p fails ignoreErrors false)) :
    Kept A (randomReads p fails ignoreErrors readTest) :=
  Keeps.ite (fun _ => kept_seeks h) fun _ => Keeps.pure trivial

theorem kept_randomWrites (h : p.randSeekCount ≠ 0 → Kept A (seek p fails ignoreErrors true)) :
    Kept A (randomWrites p fails ignoreErrors writeTest) :=
  Keeps.ite (fun _ => kept_seeks h) fun _ => Keeps.pure trivial

theorem kept_sweepReads (h : p.ODIDCount ≠ 0 → Kept A (readSweeps p fails ignoreErrors)) :
    Kept A (sweepReads p fails ignoreErrors readTest) :=
  Keeps.ite (fun _ => kept_unlessDisabled h) fun _ => Keeps.pure trivial

theorem kept_sweepWrites (h : p.ODIDCount ≠ 0 → Kept A (writeSweeps p fails ignoreErrors)) :
    Kept A (sweepWrites p fails ignoreErrors writeTest) :=
  Keeps.ite (fun _ => kept_unlessDisabled h) fun _ => Keeps.pure trivial

theorem kept_mixed (h : ∀ write, p.randSeekCount ≠ 0 → Kept A (seek p fails ignoreErrors write))
    (hsweeps : p.ODIDCount ≠ 0 → Kept A (mixedSweeps p fails ignoreErrors)) :
    Kept A (mixed p fails ignoreErrors readTest writeTest) := by
  refine Keeps.ite (fun _ => ?_) fun _ => Keeps.pure trivial
  refine (kept_seeks fun hcount => ?_).bind fun _ _ => kept_unlessDisabled hsweeps
  exact kept_flipCoin.bind fun read _ => h _ hcount

end parts

/-- **What a run may access**: at random and in the sweeps, as far as there are any. -/
theorem kept_munch (hA : Grows A Q) (o : Options)
    (hseek : p.roundCount ≠ 0 → p.randSeekCount ≠ 0 → ∀ x, p.startLBA ≤ x → x ≤ p.endLBA → Q x)
    (hsweeps : p.roundCount ≠ 0 → p.ODIDCount ≠ 0 → ∀ reads far, Kept A reads →
      far = p.totalLBACount - step p ∨ far = p.endLBA - step p →
        Kept A (idod p fails o.ignoreErrors reads far)) : Kept A (munch o p fails) := by
  refine Keeps.times fun hround => ?_
  have hround := ne_of_toNat_ne hround
  have hseek (write : Bool) (hcount : p.randSeekCount ≠ 0) :
      Kept A (seek p fails o.ignoreErrors write) := kept_seek hA (hseek hround hcount) write
  have hpure (read : Bool) : Kept A (pure read : Munch Bool) := Keeps.pure trivial
  refine kept_pattern.bind fun _ _ => (kept_randomReads (hseek false)).bind fun _ _ =>
    (kept_randomWrites (hseek true)).bind fun _ _ => ?_
  refine (kept_sweepReads fun hcount => ?_).bind fun _ _ =>
    (kept_sweepWrites fun hcount => ?_).bind fun _ _ => kept_mixed hseek fun hcount => ?_
  · exact hsweeps hround hcount _ _ (hpure true) (.inl rfl)
  · exact hsweeps hround hcount _ _ (hpure false) (.inr rfl)
  · exact hsweeps hround hcount _ _ kept_flipCoin (.inr rfl)

end keeps

/-! ## The range -/

section range

variable {p : Plan} {fails : Nat → Bool}

/-- All addresses have `Q`. -/
def All (Q : U64 → Prop) (accesses : List Access) : Prop := ∀ a ∈ accesses, Q a.LBA

theorem grows_all (Q : U64 → Prop) : Grows (All Q) Q := by
  intro accesses a haccesses ha b hb
  rcases List.mem_append.mp hb with hb | hb
  · exact haccesses b hb
  · rw [List.mem_singleton.mp hb]
    exact ha

/-- **Every address is in the range.** -/
theorem kept_range (o : Options) (h : p.startLBA ≤ p.endLBA) :
    Kept (All fun x => p.startLBA ≤ x ∧ x ≤ p.endLBA) (munch o p fails) := by
  have hnear (target : U64) : Near p (fun x => p.startLBA ≤ x ∧ x ≤ p.endLBA) target :=
    fun r => offsetLBA_range h target r
  refine kept_munch (grows_all _) o (fun _ _ x hstart hend => ⟨hstart, hend⟩) ?_
  intro _ _ reads far hreads _
  apply kept_idod (J := fun _ => True) (grows_all _) hreads
  exact ⟨trivial, fun _ _ _ => trivial, fun _ _ _ => hnear _, fun _ => hnear _, fun _ => hnear _⟩

/-- When no address is the end of a range that is all of the disk: there are no rounds, or no seeks,
and no sweep comes near. -/
structure Clear (p : Plan) : Prop where
  seeks : p.randSeekCount = 0
  sweeps : p.ODIDCount ≠ 0 → step p ≤ p.endLBA ∧
    (p.FullODIDCount ≠ 0 → (step p).toNat + reach p < p.endLBA.toNat)

/-- The sweeps of a range that they do not come near the end of. -/
theorem sweepsNear_below (hrange : p.startLBA < p.endLBA) (hge : 30 ≤ p.ODIDStep.toNat)
    (hlt : p.ODIDStep.toNat < 2 ^ 31) (hstep : step p ≤ p.endLBA)
    (hfull : p.FullODIDCount ≠ 0 → (step p).toNat + reach p < p.endLBA.toNat) :
    SweepsNear p (· < p.endLBA) (step p ≤ ·) (p.endLBA - step p) := by
  have hstepNat := toNat_step hlt
  have hreach := reach_lt_step hge hlt
  have hmid := @mid_le_reach p
  have hend := p.endLBA.isLt
  have hsub : (p.endLBA - step p).toNat = p.endLBA.toNat - (step p).toNat :=
    BitVec.toNat_sub_of_le hstep
  have hfirst (h : (∃ wrk, step p ≤ wrk ∧ wrk < p.endLBA - step p) ∨ p.FullODIDCount ≠ 0) :
      (step p).toNat + reach p < p.endLBA.toNat := by
    rcases h with ⟨wrk, hwrk, hlt⟩ | hcount
    · rw [BitVec.le_def] at hwrk
      rw [BitVec.lt_def, hsub] at hlt
      omega
    · exact hfull hcount
  rw [BitVec.le_def] at hstep
  refine ⟨BitVec.le_refl _, fun wrk hwrk hlt => ?_, fun wrk hwrk hlt r => ?_, fun h r => ?_,
    fun h r => ?_⟩
  · rw [BitVec.le_def] at hwrk
    rw [BitVec.lt_def, hsub] at hlt
    rw [BitVec.le_def, BitVec.toNat_add, Nat.mod_eq_of_lt (by omega)]
    omega
  · rw [BitVec.le_def] at hwrk
    rw [BitVec.lt_def, hsub] at hlt
    exact offsetLBA_lt hrange r (by omega) (by omega)
  · exact offsetLBA_lt hrange r (by omega) (hfirst h)
  · have hfirst := hfirst h
    exact offsetLBA_lt hrange r (by omega) (by omega)

/-- No address is the end of the range. -/
theorem kept_below (o : Options) (hrange : p.startLBA < p.endLBA)
    (hwhole : p.totalLBACount = p.endLBA) (hge : p.ODIDCount ≠ 0 → 30 ≤ p.ODIDStep.toNat)
    (hlt : p.ODIDStep.toNat < 2 ^ 31) (hclear : p.roundCount = 0 ∨ Clear p) :
    Kept (All (· < p.endLBA)) (munch o p fails) := by
  have hclear (hround : p.roundCount ≠ 0) : Clear p := hclear.resolve_left hround
  refine kept_munch (grows_all _) o (fun hround hcount => absurd (hclear hround).seeks hcount) ?_
  intro hround hcount reads far hreads hfar
  obtain ⟨hstep, hfull⟩ := (hclear hround).sweeps hcount
  obtain rfl : far = p.endLBA - step p := by
    rcases hfar with rfl | rfl
    · rw [hwhole]
    · rfl
  exact kept_idod (grows_all _) hreads (sweepsNear_below hrange (hge hcount) hlt hstep hfull)

end range

/-! ## The end of the range -/

section leads

variable {p : Plan} {fails : Nat → Bool} {ignoreErrors : Bool} {x : U64} {s s' : Run}

/-- An address was accessed. -/
def Seen (x : U64) (accesses : List Access) : Prop := ∃ a ∈ accesses, a.LBA = x

theorem grows_seen (x : U64) : Grows (Seen x) fun _ => True := by
  rintro accesses a ⟨b, hb, hx⟩ -
  exact ⟨b, List.mem_append_left _ hb, hx⟩

/-- What comes after an address was accessed. -/
abbrev Sees (x : U64) {α : Type} (m : Munch α) (s : Run) : Prop :=
  Leads (fun s => Seen x s.accesses) m s

theorem kept_seen_pair {reads : Munch Bool} (hreads : Kept (Seen x) reads) (wrkLBA wrkLBA2 : U64) :
    Kept (Seen x) (pair p fails ignoreErrors reads wrkLBA wrkLBA2) :=
  kept_pair (grows_seen x) hreads (fun _ => trivial) fun _ => trivial

theorem kept_seen_sweep {turn : U64 → Munch Unit} (hturn : ∀ wrk, Kept (Seen x) (turn wrk)) :
    Kept (Seen x) (sweep p turn) :=
  kept_sweep (J := fun _ => True) trivial (fun _ _ _ => trivial) fun wrk _ _ => hturn wrk

theorem kept_seen_seek (write : Bool) : Kept (Seen x) (seek p fails ignoreErrors write) :=
  kept_seek (grows_seen x) (fun _ _ _ => trivial) write

theorem kept_seen_idod {reads : Munch Bool} (hreads : Kept (Seen x) reads) (far : U64) :
    Kept (Seen x) (idod p fails ignoreErrors reads far) := by
  apply kept_idod (Q := fun _ => True) (J := fun _ => True) (grows_seen x) hreads
  exact ⟨trivial, fun _ _ _ => trivial, fun _ _ _ _ => trivial, fun _ _ => trivial,
    fun _ _ => trivial⟩

theorem sees_access {write : Bool} {LBA : Munch U64} (hLBA : LBA s = .ok x s')
    (hkept : Kept (Seen x) LBA) : Sees x (access fails ignoreErrors write LBA) s := by
  refine Leads.of_ok hLBA (Leads.of_ok rfl (Leads.of_keeps (Q := fun _ => True) ?_ ?_))
  · refine Keeps.ite (fun _ => hkept.bind fun _ _ => ?_) fun _ => Keeps.pure trivial
    exact Keeps.ite (fun _ => Keeps.pure trivial) fun _ => Keeps.throw
  · exact ⟨_, List.mem_append_right _ (List.mem_singleton_self _), rfl⟩

/-- A turn of a sweep whose first address is the one looked for. -/
theorem sees_pair {r : Rand} {wrkLBA : U64} (hr : offsetLBA p wrkLBA r = x) (reads : Bool)
    (wrkLBA2 : U64) (rest : List Rand) (accesses : List Access) :
    Sees x (pair p fails ignoreErrors (pure reads) wrkLBA wrkLBA2) ⟨r :: rest, accesses⟩ := by
  have hget : getOffsetLBA p wrkLBA ⟨r :: rest, accesses⟩ = .ok x ⟨rest, accesses⟩ := by
    rw [← hr]
    rfl
  have hoffset (target : U64) : Kept (Seen x) (getOffsetLBA p target) :=
    keeps_rand.bind fun _ _ => Keeps.pure trivial
  refine Leads.of_ok (a := reads) rfl ?_
  cases reads with
  | true =>
    exact (sees_access hget (hoffset _)).bind fun _ => kept_access (grows_seen x) (hoffset _)
  | false =>
    exact (sees_access hget (hoffset _)).bind fun _ => kept_access (grows_seen x) (hoffset _)

/-- The sweeps access the end of the range first of all: the first loop runs past it, or the first
step is near it. -/
theorem sees_idod {r : Rand} (hr : offsetLBA p (step p) r = x)
    (hruns : step p < p.endLBA - step p ∨ p.FullODIDCount ≠ 0) (reads : Bool) (far : U64)
    (rest : List Rand) (accesses : List Access) :
    Sees x (idod p fails ignoreErrors (pure reads) far) ⟨r :: rest, accesses⟩ := by
  have hpure : Kept (Seen x) (pure reads : Munch Bool) := Keeps.pure trivial
  have hrest : Kept (Seen x)
      (sweep p fun wrkLBA => pair p fails ignoreErrors (pure reads) wrkLBA far) :=
    kept_seen_sweep fun wrk => kept_seen_pair hpure _ _
  by_cases hfirst : step p < p.endLBA - step p
  · have hsweep : Sees x (sweep p fun wrkLBA2 =>
        pair p fails ignoreErrors (pure reads) (step p) wrkLBA2) ⟨r :: rest, accesses⟩ := by
      unfold Sees Leads sweep forLoop
      dsimp only
      rw [if_pos (decide_eq_true hfirst)]
      refine Leads.bind (R := fun _ => True) (sees_pair hr reads _ rest accesses) fun _ => ?_
      exact Keeps.forLoop (J := fun _ => True) (fun _ _ _ => trivial)
        (fun wrk _ _ => kept_seen_pair hpure _ _) _ trivial
    exact hsweep.bind fun _ =>
      (Keeps.times fun _ => kept_seen_pair hpure _ _).bind fun _ _ => hrest
  · have hskip : sweep p (fun wrkLBA2 => pair p fails ignoreErrors (pure reads) (step p) wrkLBA2)
        ⟨r :: rest, accesses⟩ = .ok () ⟨r :: rest, accesses⟩ := by
      unfold sweep forLoop
      dsimp only
      rw [if_neg (by simpa using hfirst)]
      rfl
    obtain ⟨n, hn⟩ := Nat.exists_eq_succ_of_ne_zero (show p.FullODIDCount.toNat ≠ 0 by
      intro hzero
      exact hruns.resolve_left hfirst (BitVec.eq_of_toNat_eq hzero))
    refine Leads.of_ok hskip ?_
    rw [hn, times]
    exact ((sees_pair hr reads far rest accesses).bind fun _ =>
      Keeps.times fun _ => kept_seen_pair hpure _ _).bind fun _ => hrest

/-- The first values are for the pattern of the write test. -/
theorem pattern_ok (writeTest : Bool) : ∃ first : List Rand, ∀ rest accesses,
    pattern writeTest ⟨first ++ rest, accesses⟩ = .ok () ⟨rest, accesses⟩ := by
  cases writeTest with
  | true => exact ⟨[0], fun _ _ => rfl⟩
  | false => exact ⟨[], fun _ _ => rfl⟩

/-- A run whose first round accesses an address after its pattern. -/
theorem sees_munch (o : Options) (hround : p.roundCount ≠ 0) (rands : List Rand)
    (h : Sees x (do
      randomReads p fails o.ignoreErrors o.readTest
      randomWrites p fails o.ignoreErrors o.writeTest
      sweepReads p fails o.ignoreErrors o.readTest
      sweepWrites p fails o.ignoreErrors o.writeTest
      mixed p fails o.ignoreErrors o.readTest o.writeTest) ⟨rands, []⟩) :
    ∃ rands, Sees x (munch o p fails) ⟨rands, []⟩ := by
  obtain ⟨first, hfirst⟩ := pattern_ok o.writeTest
  obtain ⟨n, hn⟩ := Nat.exists_eq_succ_of_ne_zero (show p.roundCount.toNat ≠ 0 from
    fun hzero => hround (BitVec.eq_of_toNat_eq hzero))
  refine ⟨first ++ rands, ?_⟩
  rw [munch, hn, times]
  have hkept : Kept (Seen x) (times (round p fails o.ignoreErrors o.readTest o.writeTest) n) := by
    refine Keeps.times fun _ => kept_pattern.bind fun _ _ =>
      (kept_randomReads fun _ => kept_seen_seek false).bind fun _ _ =>
      (kept_randomWrites fun _ => kept_seen_seek true).bind fun _ _ =>
      (kept_sweepReads fun _ => kept_seen_idod (Keeps.pure trivial) _).bind fun _ _ =>
      (kept_sweepWrites fun _ => kept_seen_idod (Keeps.pure trivial) _).bind fun _ _ =>
      kept_mixed (fun write _ => kept_seen_seek write) fun _ => kept_seen_idod kept_flipCoin _
  exact (Leads.of_ok (hfirst rands []) h).bind fun _ => hkept

end leads

end Muncher
