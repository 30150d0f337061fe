import Disks.Drive.Wire
import Disks.Tool.WipeDrive

/-!
# The chunks of a trim

The calls of `trim` that `doTrimWipe` makes for a request, for every way they may turn out.

* `Chunked`: what the calls have to be: consecutive, not empty, up to the end of the range if all of
  them succeed - or the request itself.
* `turn_progress`: what one turn keeps.
* `doTrimWipe_chunked_iff`: **the calls tile the range, whatever fails, exactly when** the sizes are
  `Chunkable`.
-/

namespace WipeDrive

open Bytes Loop Drive

/-! ## The calls -/

/-- The calls so far: start and count. -/
abbrev Calls := List (U64 × U64)

/-- A `trim` that answers by the calls before, and what was asked. -/
def recorded (answer : Calls → U64 → U64 → Int) (start count : U64) (calls : Calls) :
    Option (Int × Calls) :=
  some (answer calls start count, calls ++ [(start, count)])

/-- The blocks of the calls. -/
def ranges (calls : Calls) : List (Span Nat) := calls.map fun (start, count) =>
  blocks start.toNat count.toNat

theorem ranges_snoc (calls : Calls) (start count : U64) :
    ranges (calls ++ [(start, count)]) = ranges calls ++ [blocks start.toNat count.toNat] :=
  List.map_append

/-- The end of a request; a count of 0 stands for all that is left of the disk. -/
def requestEnd (LBACount : U64) (start count : Int) : Int :=
  if count = 0 then LBACount.toNat else start + count

/-- **The calls of a request are right**: they tile `[start, ending)` - up to the call that fails,
if one does - or they are the request itself. -/
def Chunked (LBACount : U64) (start count : Int) (rc : Int) (calls : Calls) : Prop :=
  (count = 0 ∧ calls = [(.ofInt 64 start, 0)]) ∨
  ∃ stop : Nat, Span.Tiles (ranges calls) start.toNat stop ∧
    (stop : Int) ≤ max start (requestEnd LBACount start count) ∧
    (rc = 0 → (stop : Int) = max start (requestEnd LBACount start count))

/-- A size for all of it, or nothing to be trimmed, or a chunk size from 1 on with which neither the
end nor a cursor overflows. -/
def Chunkable (LBACount : U64) (start count chunkSize : Int) : Prop :=
  if chunkSize = 0 then 0 ≤ count
  else requestEnd LBACount start count ≤ start ∨
    (0 < chunkSize ∧ requestEnd LBACount start count < 2 ^ 63 ∧
      ∀ k : Nat, start + k * chunkSize < requestEnd LBACount start count →
        start + (k + 1) * chunkSize < 2 ^ 63)

/-! ## One turn -/

theorem toNat_ofInt {n : Int} (h₀ : 0 ≤ n) (h : n < 2 ^ 63) :
    (BitVec.ofInt 64 n).toNat = n.toNat := by
  rw [BitVec.toNat_ofInt]
  congr 1
  exact Int.emod_eq_of_lt h₀ (by omega)

theorem addLL_eq_some {a b : Int} (ha : 0 ≤ a) (hb : 0 ≤ b) (h : a + b < 2 ^ 63) :
    addLL a b = some (a + b) := if_pos ⟨by omega, h⟩

theorem addLL_eq_none {a b : Int} (h : 2 ^ 63 ≤ a + b) : addLL a b = none :=
  if_neg fun hfits => by omega

section chunks

variable {start endingLBA chunk : Int}

/-- What the turns keep: the calls tile what is before the cursor, which is on the grid of the
chunks until it gets to the end, and no cursor so far overflowed. -/
structure TrimProgress (start endingLBA chunk cur size : Int) (calls : Calls) : Prop where
  lower : start ≤ cur
  upper : cur ≤ endingLBA
  tiles : Span.Tiles (ranges calls) start.toNat cur.toNat
  grid : cur < endingLBA → size = chunk ∧ ∃ k : Nat, cur = start + k * chunk
  fits : ∀ k : Nat, start + k * chunk < cur → start + (k + 1) * chunk < 2 ^ 63

theorem TrimProgress.init (hchunk : 0 < chunk) (hle : start ≤ endingLBA) :
    TrimProgress start endingLBA chunk start chunk [] where
  lower := le_refl _
  upper := hle
  tiles := rfl
  grid _ := ⟨rfl, 0, by simp⟩
  fits k hk := by
    have hpos : 0 ≤ (k : Int) * chunk := by positivity
    omega

/-- Two points of the grid in one chunk are the same. -/
theorem grid_unique {i k : Nat} (hchunk : 0 < chunk) (hlo : i * chunk ≤ k * chunk)
    (hhi : k * chunk < i * chunk + chunk) : k = i := by
  have hlt : (k : Int) * chunk < (i + 1) * chunk := by
    rw [add_mul, one_mul]
    exact hhi
  have hik : (i : Int) ≤ k := le_of_mul_le_mul_right hlo hchunk
  have hki : (k : Int) < i + 1 := lt_of_mul_lt_mul_right hlt hchunk.le
  omega

/-- **One turn** makes a call up to the next cursor, unless the sum with the chunk size
overflows. -/
theorem turn_progress (answer : Calls → U64 → U64 → Int) {cur size : Int} {calls : Calls}
    (hstart : 0 ≤ start) (hend : endingLBA < 2 ^ 63) (hchunk : 0 < chunk) (hlt : cur < endingLBA)
    (h : TrimProgress start endingLBA chunk cur size calls) :
    (2 ^ 63 ≤ cur + chunk ∧
      trimWipeTurn (recorded answer) endingLBA (cur, size, calls) = none) ∨
    ∃ cur' size' calls', cur < cur' ∧ TrimProgress start endingLBA chunk cur' size' calls' ∧
      (trimWipeTurn (recorded answer) endingLBA (cur, size, calls) =
          some (.stop (GENERAL_ERROR, calls')) ∧
          answer calls (.ofInt 64 cur) (.ofInt 64 size') ≠ 0 ∨
        trimWipeTurn (recorded answer) endingLBA (cur, size, calls) =
          some (.next (cur', size', calls')) ∧
          answer calls (.ofInt 64 cur) (.ofInt 64 size') = 0) := by
  obtain ⟨rfl, i, hi⟩ := h.grid hlt
  have hcur : 0 ≤ cur := hstart.trans h.lower
  by_cases hover : cur + size < 2 ^ 63
  swap
  · refine .inl ⟨not_lt.mp hover, ?_⟩
    simp only [trimWipeTurn, if_pos hlt, addLL_eq_none (not_lt.mp hover)]
    rfl
  right
  let size' := if cur + size > endingLBA then endingLBA - cur else size
  have hsize : 0 < size' ∧ size' ≤ size ∧ cur + size' ≤ endingLBA ∧
      (cur + size' < endingLBA → size' = size) := by
    simp only [size']
    split
    · exact ⟨by omega, by omega, by omega, by omega⟩
    · exact ⟨hchunk, le_refl _, by omega, fun _ => rfl⟩
  obtain ⟨hpos, hle, hin, hwhole⟩ := hsize
  refine ⟨cur + size', size', calls ++ [(.ofInt 64 cur, .ofInt 64 size')], by omega, ?_, ?_⟩
  · refine ⟨by have := h.lower; omega, hin, ?_, fun hmore => ⟨hwhole hmore, i + 1, ?_⟩, ?_⟩
    · rw [ranges_snoc, toNat_ofInt hcur (by omega), toNat_ofInt hpos.le (by omega)]
      have hspan : blocks cur.toNat size'.toNat = ⟨cur.toNat, (cur + size').toNat⟩ := by
        rw [blocks, ← Int.toNat_add hcur hpos.le]
      rw [hspan]
      exact h.tiles.snoc (by omega)
    · rw [hwhole hmore, hi]
      push_cast
      ring
    · intro k hk
      by_cases hbefore : start + k * size < cur
      · exact h.fits k hbefore
      · obtain rfl : k = i := grid_unique hchunk (by omega) (by omega)
        rw [add_mul, one_mul]
        omega
  · have hturn : trimWipeTurn (recorded answer) endingLBA (cur, size, calls) =
        if answer calls (.ofInt 64 cur) (.ofInt 64 size') ≠ 0 then
          some (.stop (GENERAL_ERROR, calls ++ [(.ofInt 64 cur, .ofInt 64 size')]))
        else (addLL cur size').bind fun curLBA =>
          some (.next (curLBA, size', calls ++ [(.ofInt 64 cur, .ofInt 64 size')])) := by
      simp only [trimWipeTurn, if_pos hlt, addLL_eq_some hcur hchunk.le hover, recorded]
      rfl
    by_cases hanswer : answer calls (.ofInt 64 cur) (.ofInt 64 size') = 0
    · right
      rw [hturn, if_neg (not_not.mpr hanswer), addLL_eq_some hcur hpos.le (by omega)]
      exact ⟨rfl, hanswer⟩
    · left
      rw [hturn, if_pos hanswer]
      exact ⟨rfl, hanswer⟩

/-- **The loop** ends where no cursor overflows, and its calls tile the range up to the one that
fails. -/
theorem chunks_end (answer : Calls → U64 → U64 → Int) (hstart : 0 ≤ start)
    (hend : endingLBA < 2 ^ 63) (hchunk : 0 < chunk) (hle : start ≤ endingLBA)
    (hfits : ∀ k : Nat, start + k * chunk < endingLBA → start + (k + 1) * chunk < 2 ^ 63)
    {n : Nat} (hn : (endingLBA - start).toNat < n) :
    ∃ r, run (trimWipeTurn (recorded answer) endingLBA) n (start, chunk, []) = some r ∧
      ∃ stop : Nat, Span.Tiles (ranges r.2) start.toNat stop ∧ (stop : Int) ≤ endingLBA ∧
        (r.1 = 0 → (stop : Int) = endingLBA) := by
  refine run_total (I := fun s => TrimProgress start endingLBA chunk s.1 s.2.1 s.2.2)
    (fun s => (endingLBA - s.1).toNat) ?_ ?_ hn
  · rintro ⟨cur, size, calls⟩ h
    have hcur : 0 ≤ cur := hstart.trans h.lower
    by_cases hlt : cur < endingLBA
    · rcases turn_progress answer hstart hend hchunk hlt h with
        ⟨hover, -⟩ | ⟨cur', size', calls', hmore, h', ⟨hturn, -⟩ | ⟨hturn, -⟩⟩
      · obtain ⟨-, i, rfl⟩ := h.grid hlt
        have hnext := hfits i hlt
        rw [add_mul, one_mul] at hnext
        omega
      · refine .inl ⟨_, hturn, cur'.toNat, h'.tiles, ?_, fun hrc => by cases hrc⟩
        have hupper := h'.upper
        omega
      · refine .inr ⟨_, hturn, h', ?_⟩
        dsimp only at hmore ⊢
        omega
    · refine .inl ⟨(0, calls), if_neg hlt, cur.toNat, h.tiles, ?_⟩
      have hupper := h.upper
      dsimp only at hupper hlt
      exact ⟨by omega, fun _ => by omega⟩
  · exact .init hchunk hle

/-- A run in which all calls succeed is over only if no cursor overflowed. -/
theorem fits_of_run (hstart : 0 ≤ start) (hend : endingLBA < 2 ^ 63) (hchunk : 0 < chunk)
    (hle : start ≤ endingLBA) {n : Nat} {r : Int × Calls}
    (h : run (trimWipeTurn (recorded fun _ _ _ => 0) endingLBA) n (start, chunk, []) = some r) :
    ∀ k : Nat, start + k * chunk < endingLBA → start + (k + 1) * chunk < 2 ^ 63 := by
  refine run_inv (I := fun s : Int × Int × Calls =>
      TrimProgress start endingLBA chunk s.1 s.2.1 s.2.2)
    (Q := fun _ => ∀ k : Nat, start + k * chunk < endingLBA → start + (k + 1) * chunk < 2 ^ 63)
    ?_ ?_ (.init hchunk hle) h
  · rintro ⟨cur, size, calls⟩ s' hs hturn
    by_cases hlt : cur < endingLBA
    · rcases turn_progress (fun _ _ _ => 0) hstart hend hchunk hlt hs with
        ⟨-, hnone⟩ | ⟨cur', size', calls', -, h', ⟨-, hfailed⟩ | ⟨hnext, -⟩⟩
      · rw [hnone] at hturn
        cases hturn
      · exact absurd rfl hfailed
      · rw [hnext] at hturn
        cases hturn
        exact h'
    · rw [trimWipeTurn, if_neg hlt] at hturn
      cases hturn
  · rintro ⟨cur, size, calls⟩ r hs hturn
    by_cases hlt : cur < endingLBA
    · rcases turn_progress (fun _ _ _ => 0) hstart hend hchunk hlt hs with
        ⟨-, hnone⟩ | ⟨cur', size', calls', -, h', ⟨-, hfailed⟩ | ⟨hnext, -⟩⟩
      · rw [hnone] at hturn
        cases hturn
      · exact absurd rfl hfailed
      · rw [hnext] at hturn
        cases hturn
    · exact fun k hk => hs.fits k (hk.trans_le (not_lt.mp hlt))

end chunks

/-! ## The requests -/

section requests

variable {LBACount : U64} {start count chunkSize : Int}

/-- **All calls are right**, whichever of them fail. -/
def ChunksRight (LBACount : U64) (start count chunkSize : Int) : Prop :=
  ∀ answer, ∃ n r, doTrimWipe (recorded answer) n LBACount start count chunkSize [] = some r ∧
    Chunked LBACount start count r.1 r.2

theorem doTrimWipe_chunks (answer : Calls → U64 → U64 → Int) (n : Nat) (hchunk : chunkSize ≠ 0) :
    doTrimWipe (recorded answer) n LBACount start count chunkSize [] =
      (trimEnding LBACount start count).bind fun endingLBA =>
        run (trimWipeTurn (recorded answer) endingLBA) n (start, chunkSize, []) :=
  if_pos hchunk

theorem trimEnding_eq (hstart : 0 ≤ start) (hcount : - 2 ^ 63 ≤ count)
    (hend : requestEnd LBACount start count < 2 ^ 63) :
    trimEnding LBACount start count = some (requestEnd LBACount start count) := by
  unfold requestEnd at *
  unfold trimEnding
  split
  · rename_i hzero
    rw [if_pos hzero] at hend
    rw [BitVec.toInt_eq_toNat_of_lt (by omega)]
  · rename_i hzero
    rw [if_neg hzero] at hend
    exact if_pos ⟨by omega, hend⟩

/-- A request in one call. -/
theorem chunksRight_single_iff (hstart : 0 ≤ start) (hstart' : start < 2 ^ 63)
    (hcount' : count < 2 ^ 63) : ChunksRight LBACount start count 0 ↔ 0 ≤ count := by
  have hrun (answer : Calls → U64 → U64 → Int) (n : Nat) :
      doTrimWipe (recorded answer) n LBACount start count 0 [] =
        some (if answer [] (.ofInt 64 start) (.ofInt 64 count) ≠ 0 then GENERAL_ERROR else 0,
          [(.ofInt 64 start, .ofInt 64 count)]) := rfl
  refine ⟨fun h => ?_, fun hcount answer => ⟨0, _, hrun answer 0, ?_⟩⟩
  · by_contra hneg
    obtain ⟨n, r, hr, hchunked⟩ := h fun _ _ _ => 0
    rw [hrun] at hr
    cases hr
    rcases hchunked with ⟨hzero, -⟩ | ⟨stop, htiles, hstop, -⟩
    · omega
    · obtain ⟨-, hlt, hend⟩ := htiles
      have hend : (BitVec.ofInt 64 start).toNat + (BitVec.ofInt 64 count).toNat = stop := hend
      rw [requestEnd, if_neg (by omega)] at hstop
      have hlt : start.toNat <
        (BitVec.ofInt 64 start).toNat + (BitVec.ofInt 64 count).toNat := hlt
      omega
  · by_cases hzero : count = 0
    · subst hzero
      exact .inl ⟨rfl, rfl⟩
    · refine .inr ⟨start.toNat + count.toNat, ?_, ?_, fun _ => ?_⟩
      · have hpos : start.toNat < start.toNat + count.toNat := by omega
        simpa [ranges, blocks, Span.Tiles, toNat_ofInt hstart hstart', toNat_ofInt hcount hcount']
          using hpos
      · rw [requestEnd, if_neg hzero]
        omega
      · rw [requestEnd, if_neg hzero]
        omega

/-- A request for nothing. -/
theorem chunksRight_of_empty (hstart : 0 ≤ start) (hstart' : start < 2 ^ 63)
    (hcount : - 2 ^ 63 ≤ count) (hchunk : chunkSize ≠ 0)
    (hend : requestEnd LBACount start count ≤ start) :
    ChunksRight LBACount start count chunkSize := by
  intro answer
  refine ⟨1, (0, []), ?_, .inr ⟨start.toNat, rfl, by omega, fun _ => by omega⟩⟩
  rw [doTrimWipe_chunks answer 1 hchunk, trimEnding_eq hstart hcount (by omega), Option.bind_some]
  exact run_stop (if_neg (not_lt.mpr hend))

/-- A request in chunks of a size from 1 on. -/
theorem chunksRight_chunks_iff (hstart : 0 ≤ start) (hcount : - 2 ^ 63 ≤ count)
    (hchunk : 0 < chunkSize) (hend : requestEnd LBACount start count < 2 ^ 63)
    (hmore : start < requestEnd LBACount start count) :
    ChunksRight LBACount start count chunkSize ↔
      ∀ k : Nat, start + k * chunkSize < requestEnd LBACount start count →
        start + (k + 1) * chunkSize < 2 ^ 63 := by
  have hmax : max start (requestEnd LBACount start count) = requestEnd LBACount start count :=
    max_eq_right hmore.le
  refine ⟨fun h => ?_, fun hfits answer => ?_⟩
  · obtain ⟨n, r, hr, -⟩ := h fun _ _ _ => 0
    rw [doTrimWipe_chunks _ _ hchunk.ne', trimEnding_eq hstart hcount hend,
      Option.bind_some] at hr
    exact fits_of_run hstart hend hchunk hmore.le hr
  · obtain ⟨r, hr, stop, htiles, hle, hstop⟩ :=
      chunks_end answer hstart hend hchunk hmore.le hfits (Nat.lt_succ_self _)
    refine ⟨(requestEnd LBACount start count - start).toNat + 1, r, ?_,
      .inr ⟨stop, htiles, hle.trans_eq hmax.symm, fun hrc => ?_⟩⟩
    · rw [doTrimWipe_chunks _ _ hchunk.ne', trimEnding_eq hstart hcount hend, Option.bind_some]
      exact hr
    · exact (hstop hrc).trans hmax.symm

/-- A negative chunk size: the first call runs past every range. -/
theorem not_chunksRight_of_neg (hstart : 0 ≤ start) (hstart' : start < 2 ^ 63)
    (hcount : - 2 ^ 63 ≤ count) (hchunk : chunkSize < 0) (hchunk' : - 2 ^ 63 ≤ chunkSize)
    (hend : requestEnd LBACount start count < 2 ^ 63)
    (hmore : start < requestEnd LBACount start count) :
    ¬ ChunksRight LBACount start count chunkSize := by
  intro h
  obtain ⟨n, r, hr, hchunked⟩ := h fun _ _ _ => 1
  rw [doTrimWipe_chunks _ _ hchunk.ne, trimEnding_eq hstart hcount hend, Option.bind_some] at hr
  have hturn : trimWipeTurn (recorded fun _ _ _ => 1) (requestEnd LBACount start count)
      (start, chunkSize, []) =
        some (.stop (GENERAL_ERROR, [(.ofInt 64 start, .ofInt 64 chunkSize)])) := by
    have hsum : addLL start chunkSize = some (start + chunkSize) := if_pos ⟨by omega, by omega⟩
    have hwhole : ¬ (start + chunkSize > requestEnd LBACount start count) := by omega
    simp only [trimWipeTurn, if_pos hmore, hsum, Option.bind_eq_bind, Option.bind_some,
      if_neg hwhole, recorded]
    rfl
  have hcalls : r = (GENERAL_ERROR, [(.ofInt 64 start, .ofInt 64 chunkSize)]) := by
    cases n with
    | zero => cases hr
    | succ n => exact (Option.some.inj ((run_stop hturn).symm.trans hr)).symm
  have hsize : (BitVec.ofInt 64 chunkSize).toNat = (2 ^ 64 + chunkSize).toNat := by
    rw [BitVec.toNat_ofInt]
    congr 1
    omega
  rw [hcalls] at hchunked
  rcases hchunked with ⟨-, hself⟩ | ⟨stop, htiles, hstop, -⟩
  · have hzero : BitVec.ofInt 64 chunkSize = 0 := (Prod.mk.inj (List.cons.inj hself).1).2
    rw [hzero] at hsize
    simp only [BitVec.ofNat_eq_ofNat, BitVec.toNat_ofNat] at hsize
    omega
  · obtain ⟨-, -, hend'⟩ := htiles
    have hend' : (BitVec.ofInt 64 start).toNat + (BitVec.ofInt 64 chunkSize).toNat = stop := hend'
    rw [toNat_ofInt hstart hstart', hsize] at hend'
    omega

/-- The end overflows: there is no result, or no call. -/
theorem not_chunksRight_of_overflow (hstart : 0 ≤ start) (hstart' : start < 2 ^ 63)
    (hchunk : chunkSize ≠ 0) (hend : 2 ^ 63 ≤ requestEnd LBACount start count) :
    ¬ ChunksRight LBACount start count chunkSize := by
  intro h
  obtain ⟨n, r, hr, hchunked⟩ := h fun _ _ _ => 0
  rw [doTrimWipe_chunks _ _ hchunk] at hr
  by_cases hzero : count = 0
  · rw [requestEnd, if_pos hzero] at hend
    have hneg : LBACount.toInt < 0 := by
      rw [BitVec.toInt_eq_toNat_cond]
      split
      · omega
      · have := LBACount.isLt
        omega
    rw [trimEnding, if_pos hzero, Option.bind_some] at hr
    have hcalls : r = (0, []) := by
      cases n with
      | zero => cases hr
      | succ n =>
        have hstop : trimWipeTurn (recorded fun _ _ _ => 0) LBACount.toInt (start, chunkSize, []) =
          some (.stop (0, [])) := if_neg (by omega)
        exact (Option.some.inj ((run_stop hstop).symm.trans hr)).symm
    rw [hcalls] at hchunked
    rcases hchunked with ⟨-, hself⟩ | ⟨stop, htiles, -, hstop⟩
    · cases hself
    · have htiles : start.toNat = stop := htiles
      have hstop := hstop rfl
      rw [requestEnd, if_pos hzero] at hstop
      omega
  · rw [requestEnd, if_neg hzero] at hend
    rw [trimEnding, if_neg hzero, addLL_eq_none hend] at hr
    cases hr

end requests

theorem startOption_bounds (start : BitVec 64) :
    0 ≤ startOption start ∧ startOption start < 2 ^ 63 := by
  have hlt := start.toInt_lt
  unfold startOption
  split
  · omega
  · omega

theorem chunksRight_iff {LBACount : U64} {start count chunkSize : Int}
    (hstart : 0 ≤ start ∧ start < 2 ^ 63) (hcount : - 2 ^ 63 ≤ count ∧ count < 2 ^ 63)
    (hsize : - 2 ^ 63 ≤ chunkSize) :
    ChunksRight LBACount start count chunkSize ↔ Chunkable LBACount start count chunkSize := by
  unfold Chunkable
  by_cases hzero : chunkSize = 0
  · subst hzero
    rw [if_pos rfl]
    exact chunksRight_single_iff hstart.1 hstart.2 hcount.2
  rw [if_neg hzero]
  by_cases hempty : requestEnd LBACount start count ≤ start
  · refine iff_of_true ?_ (.inl hempty)
    exact chunksRight_of_empty hstart.1 hstart.2 hcount.1 hzero hempty
  rw [or_iff_right hempty]
  have hmore := not_le.mp hempty
  by_cases hend : requestEnd LBACount start count < 2 ^ 63
  · rcases lt_or_gt_of_ne hzero with hneg | hpos
    · refine iff_of_false ?_ fun h => absurd h.1 (not_lt.mpr hneg.le)
      exact not_chunksRight_of_neg hstart.1 hstart.2 hcount.1 hneg hsize hend hmore
    · rw [chunksRight_chunks_iff hstart.1 hcount.1 hpos hend hmore]
      exact ⟨fun h => ⟨hpos, hend, h⟩, fun h => h.2.2⟩
  · refine iff_of_false ?_ fun h => hend h.2.1
    exact not_chunksRight_of_overflow hstart.1 hstart.2 hzero (not_lt.mp hend)

/-- **The calls tile the range, whatever fails, exactly when** the sizes are `Chunkable`: for all
values of the options and every size of the disk. -/
theorem doTrimWipe_chunked_iff (LBACount : U64) (start count chunkSize : BitVec 64) :
    ChunksRight LBACount (startOption start) count.toInt chunkSize.toInt ↔
      Chunkable LBACount (startOption start) count.toInt chunkSize.toInt :=
  chunksRight_iff (startOption_bounds start) ⟨count.le_toInt, count.toInt_lt⟩ chunkSize.le_toInt

/-- A chunk size of -8 passes the check against sectors of 8 blocks. -/
theorem negative_chunk :
    ¬ ∀ (LBACount : U64) (start count chunkSize : BitVec 64),
      wholeSectors 512 4096 (startOption start) → wholeSectors 512 4096 count.toInt →
      wholeSectors 512 4096 chunkSize.toInt →
        ChunksRight LBACount (startOption start) count.toInt chunkSize.toInt := by
  intro h
  refine not_chunksRight_of_neg ?_ ?_ ?_ ?_ ?_ ?_ ?_
    (h 1024 0 0 (-8) (by decide) (by decide) (by decide))
  all_goals decide

/-! ## The tool -/

/-- A protocol that answers `CMD_TRIM`, and keeps the calls. -/
def tracing (answer : Calls → U64 → U64 → Int) : Cmd Calls := fun command _ data _ parms calls =>
  match command, parms with
  | .trim, [start, count] =>
    some ⟨answer calls start count, data.getD [], parms, calls ++ [(start, count)]⟩
  | _, _ => some ⟨-1, data.getD [], parms, calls⟩

theorem trim_tracing {drive : DeviceHandle} (hsup : drive.info.supportsTrim)
    (answer : Calls → U64 → U64 → Int) :
    trim drive (tracing answer) =
      recorded fun calls start count => if answer calls start count ≠ 0 then -1 else 0 := by
  funext start count calls
  unfold trim
  rw [if_neg (by simp [hsup])]
  rfl

/-- **The tool trims what it is asked to**, with sizes that pass its checks and are `Chunkable`. -/
theorem trimMain_chunked {drive : DeviceHandle} (hsup : drive.info.supportsTrim)
    (answer : Calls → U64 → U64 → Int) {PhysicalSectorSize : Int}
    {start count chunkSize : BitVec 64}
    (hwhole : ∀ n ∈ [startOption start, count.toInt, chunkSize.toInt],
      wholeSectors drive.info.LogicalSectorSize PhysicalSectorSize n)
    (h : Chunkable drive.info.LBACount (startOption start) count.toInt chunkSize.toInt) :
    ∃ n rc calls, trimMain drive (tracing answer) n PhysicalSectorSize start count chunkSize [] =
        some (some rc, calls) ∧
      Chunked drive.info.LBACount (startOption start) count.toInt rc calls := by
  have hright := (chunksRight_iff (startOption_bounds start) ⟨count.le_toInt, count.toInt_lt⟩
    chunkSize.le_toInt).mpr h
  obtain ⟨n, ⟨rc, calls⟩, hr, hchunked⟩ := hright _
  refine ⟨n, rc, calls, ?_, hchunked⟩
  simp only [List.mem_cons, List.not_mem_nil, or_false, forall_eq_or_imp, forall_eq] at hwhole
  unfold trimMain
  rw [trim_tracing hsup answer, if_neg (by simp [hwhole]), hr]
  rfl

end WipeDrive
