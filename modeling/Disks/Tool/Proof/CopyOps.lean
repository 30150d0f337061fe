import Mathlib.Data.List.Flatten
import Disks.Tool.Proof.DiskCopy

/-!
# A copy as a list of operations

What a copy does first (`ops`), of which some reads fail (`missedOf`), and what it then tries again
block by block (`retries`), for any pattern of failed reads.

* `chunks_run`, `retry_run`: the loops as lists of operations.
* `doCopy_eq`: a copy whose first loop takes `M` turns; `doCopy_some`: every copy with a result.
-/

namespace DiskCopy

open Bytes Drive Loop

/-! ## Operations -/

section operations

variable (fails : Nat → Bool)

/-- What fails of operations that are done in order, from read `i` on. -/
def missedOf : Nat → List Block → List Block
  | _, [] => []
  | i, b :: bs => if fails i then b :: missedOf (i + 1) bs else missedOf (i + 1) bs

/-- What does not fail. -/
def doneOf : Nat → List Block → List Block
  | _, [] => []
  | i, b :: bs => if fails i then doneOf (i + 1) bs else b :: doneOf (i + 1) bs

variable {fails}

theorem missedOf_append (i : Nat) (bs cs : List Block) :
    missedOf fails i (bs ++ cs) = missedOf fails i bs ++ missedOf fails (i + bs.length) cs := by
  induction bs generalizing i with
  | nil => rfl
  | cons b bs ih =>
    rw [List.cons_append, missedOf, missedOf, ih, List.length_cons, Nat.add_right_comm,
      Nat.add_assoc]
    split <;> rfl

theorem doneOf_append (i : Nat) (bs cs : List Block) :
    doneOf fails i (bs ++ cs) = doneOf fails i bs ++ doneOf fails (i + bs.length) cs := by
  induction bs generalizing i with
  | nil => rfl
  | cons b bs ih =>
    rw [List.cons_append, doneOf, doneOf, ih, List.length_cons, Nat.add_right_comm, Nat.add_assoc]
    split <;> rfl

/-- An operation of a list is the first, or one of the rest. -/
theorem exists_op_cons {p : Nat → Prop} {i : Nat} {b c : Block} {bs : List Block} :
    (∃ k, (c :: bs)[k]? = some b ∧ p (i + k)) ↔
      (b = c ∧ p i) ∨ ∃ k, bs[k]? = some b ∧ p (i + 1 + k) := by
  refine ⟨fun ⟨k, hk, hp⟩ => ?_, fun h => ?_⟩
  · cases k with
    | zero => exact .inl ⟨(Option.some.inj hk).symm, hp⟩
    | succ k => exact .inr ⟨k, hk, by rwa [Nat.add_right_comm]⟩
  · rcases h with ⟨rfl, hp⟩ | ⟨k, hk, hp⟩
    · exact ⟨0, rfl, hp⟩
    · exact ⟨k + 1, hk, by rwa [Nat.add_right_comm] at hp⟩

theorem mem_missedOf {i : Nat} {bs : List Block} {b : Block} :
    b ∈ missedOf fails i bs ↔ ∃ k, bs[k]? = some b ∧ fails (i + k) = true := by
  induction bs generalizing i with
  | nil => simp [missedOf]
  | cons c bs ih =>
    rw [exists_op_cons (p := fun i => fails i = true), missedOf]
    by_cases hf : fails i = true
    · simp [hf, ih]
    · simp [hf, ih]

theorem mem_doneOf {i : Nat} {bs : List Block} {b : Block} :
    b ∈ doneOf fails i bs ↔ ∃ k, bs[k]? = some b ∧ fails (i + k) = false := by
  induction bs generalizing i with
  | nil => simp [doneOf]
  | cons c bs ih =>
    rw [exists_op_cons (p := fun i => fails i = false), doneOf]
    by_cases hf : fails i = true
    · simp [hf, ih]
    · simp [hf, ih]

/-- The disks after operations. -/
def after (source : Nat → List Byte) (fails : Nat → Bool) (w : Pair) (bs : List Block) : Pair :=
  ⟨w.reads + bs.length,
    w.written ++ (doneOf fails w.reads bs).flatMap fun b => copied source b.LBA b.count⟩

theorem after_append (source : Nat → List Byte) (w : Pair) (bs cs : List Block) :
    after source fails w (bs ++ cs) = after source fails (after source fails w bs) cs := by
  simp only [after, doneOf_append, List.flatMap_append, List.append_assoc, List.length_append,
    Nat.add_assoc]

/-- One `COPY` as an operation. -/
theorem copy_op (source : Nat → List Byte) (fails : Nat → Bool) (b : Block) (w : Pair) :
    copy (reader source fails) writer b.LBA b.count w = some (
      if fails w.reads then .continued (after source fails w [b])
      else .copied (after source fails w [b])) := by
  rw [copy_pair]
  cases h : fails w.reads <;> simp [after, doneOf, h]

end operations

/-! ## The loops -/

section loops

variable {source : Nat → List Byte} {fails : Nat → Bool} {count : U16} {start ending : U64}

/-- The cursor of the first loop at turn `k`. -/
def cursor (count : U16) (start : U64) : Nat → U64
  | 0 => start
  | k + 1 => cursor count start k + count.setWidth 64

/-- The operations of `m` turns, from turn `i` on. -/
def chunkOps (count : U16) (start : U64) (i m : Nat) : List Block :=
  (List.range' i m).map fun k => ⟨cursor count start k, count⟩

/-- The first loop takes `M` turns. -/
def Turns (count : U16) (start ending : U64) (M : Nat) : Prop :=
  (∀ k < M, cursor count start k + count.setWidth 64 < ending) ∧
    ¬ cursor count start M + count.setWidth 64 < ending

/-- **The first loop.** -/
theorem chunks_run (source : Nat → List Byte) (fails : Nat → Bool) {M : Nat}
    (hM : Turns count start ending M) (m i : Nat) (him : i + m = M) (missed : List Block) (w : Pair)
    {n : Nat} (hn : m < n) :
    run (chunkTurn (reader source fails) writer count ending) n (cursor count start i, missed, w) =
      some (cursor count start M, 0, missed ++ missedOf fails w.reads (chunkOps count start i m),
        after source fails w (chunkOps count start i m)) := by
  induction m generalizing i missed w n with
  | zero =>
    obtain ⟨n, rfl⟩ : ∃ k, n = k + 1 := ⟨n - 1, by omega⟩
    obtain rfl : i = M := him
    have hturn : chunkTurn (reader source fails) writer count ending
        (cursor count start i, missed, w) = some (.stop (cursor count start i, 0, missed, w)) :=
      if_neg hM.2
    rw [run_stop hturn]
    simp [chunkOps, missedOf, after, doneOf]
  | succ m ih =>
    obtain ⟨n, rfl⟩ : ∃ k, n = k + 1 := ⟨n - 1, by omega⟩
    have hlt := hM.1 i (by omega)
    have hops : chunkOps count start i (m + 1) =
        [⟨cursor count start i, count⟩] ++ chunkOps count start (i + 1) m := by
      simp [chunkOps, List.range'_succ]
    have hturn : chunkTurn (reader source fails) writer count ending
        (cursor count start i, missed, w) = some (.next (cursor count start (i + 1),
          missed ++ missedOf fails w.reads [⟨cursor count start i, count⟩],
          after source fails w [⟨cursor count start i, count⟩])) := by
      have hcopy := copy_op source fails ⟨cursor count start i, count⟩ w
      simp only [chunkTurn, if_pos hlt, hcopy, Option.bind_eq_bind, Option.bind_some]
      cases h : fails w.reads <;> simp [missedOf, h, cursor]
    rw [run_next hturn, ih (i + 1) (by omega) _ _ (by omega), hops, missedOf_append, after_append,
      List.append_assoc]
    rfl

/-- The blocks of a range, from block `i` on. -/
def singles (b : Block) (i m : Nat) : List Block :=
  (List.range' i m).map fun j => ⟨b.LBA + .ofNat 64 j, 1⟩

/-- The blocks of a missed range that are tried again: none, where its end wraps. -/
def retried (b : Block) : List Block :=
  if b.LBA.toNat + b.count.toNat < 2 ^ 64 then singles b 0 b.count.toNat else []

theorem toNat_single {b : Block} {j : Nat} (hj : b.LBA.toNat + j < 2 ^ 64) :
    (b.LBA + BitVec.ofNat 64 j).toNat = b.LBA.toNat + j := by
  rw [BitVec.toNat_add, BitVec.toNat_ofNat]
  omega

/-- The loop over the blocks of one missed range. -/
theorem singles_run (source : Nat → List Byte) (fails : Nat → Bool) {iter : Block}
    (hwrap : iter.LBA.toNat + iter.count.toNat < 2 ^ 64) (m i : Nat)
    (him : i + m = iter.count.toNat) (failed : List Block) (w : Pair) {n : Nat} (hn : m < n) :
    run (retryTurn (reader source fails) writer iter) n
        (iter.LBA + .ofNat 64 i, 0, failed, w) =
      some (0, failed ++ missedOf fails w.reads (singles iter i m),
        after source fails w (singles iter i m)) := by
  have hstop : (iter.LBA + iter.count.setWidth 64).toNat = iter.LBA.toNat + iter.count.toNat := by
    rw [BitVec.toNat_add, BitVec.toNat_setWidth_of_le (by omega)]
    omega
  have hlt (j : Nat) (hj : j ≤ iter.count.toNat) :
      iter.LBA + .ofNat 64 j < iter.LBA + iter.count.setWidth 64 ↔ j < iter.count.toNat := by
    rw [BitVec.lt_def, hstop, toNat_single (by omega)]
    omega
  induction m generalizing i failed w n with
  | zero =>
    obtain ⟨n, rfl⟩ : ∃ k, n = k + 1 := ⟨n - 1, by omega⟩
    have hturn : retryTurn (reader source fails) writer iter
        (iter.LBA + .ofNat 64 i, 0, failed, w) = some (.stop (0, failed, w)) :=
      if_neg ((hlt i (by omega)).not.mpr (by omega))
    rw [run_stop hturn]
    simp [singles, missedOf, after, doneOf]
  | succ m ih =>
    obtain ⟨n, rfl⟩ : ∃ k, n = k + 1 := ⟨n - 1, by omega⟩
    have hops : singles iter i (m + 1) =
        [⟨iter.LBA + .ofNat 64 i, 1⟩] ++ singles iter (i + 1) m := by
      simp [singles, List.range'_succ]
    have hnext : iter.LBA + BitVec.ofNat 64 i + 1 = iter.LBA + BitVec.ofNat 64 (i + 1) := by
      rw [BitVec.add_assoc, BitVec.ofNat_add i 1]
      rfl
    have hturn : retryTurn (reader source fails) writer iter
        (iter.LBA + .ofNat 64 i, 0, failed, w) = some (.next (iter.LBA + .ofNat 64 (i + 1), 0,
          failed ++ missedOf fails w.reads [⟨iter.LBA + .ofNat 64 i, 1⟩],
          after source fails w [⟨iter.LBA + .ofNat 64 i, 1⟩])) := by
      have hcopy := copy_op source fails ⟨iter.LBA + .ofNat 64 i, 1⟩ w
      simp only [retryTurn, if_pos ((hlt i (by omega)).mpr (by omega)), hcopy,
        Option.bind_eq_bind, Option.bind_some, hnext]
      cases h : fails w.reads <;> simp [missedOf, h]
    rw [run_next hturn, ih (i + 1) (by omega) _ _ (by omega), hops, missedOf_append, after_append,
      List.append_assoc]
    rfl

/-- The loop over one missed range. -/
theorem retried_run (iter : Block) (failed : List Block) (w : Pair) {n : Nat} (hn : 2 ^ 16 ≤ n) :
    run (retryTurn (reader source fails) writer iter) n (iter.LBA, 0, failed, w) =
      some (0, failed ++ missedOf fails w.reads (retried iter),
        after source fails w (retried iter)) := by
  have hcount := iter.count.isLt
  unfold retried
  split
  · rename_i hwrap
    have hrun := singles_run source fails hwrap iter.count.toNat 0
      (by omega) failed w (show iter.count.toNat < n by omega)
    rwa [BitVec.add_zero] at hrun
  · rename_i hwrap
    obtain ⟨n, rfl⟩ : ∃ k, n = k + 1 := ⟨n - 1, by omega⟩
    have hstop : ¬ iter.LBA < iter.LBA + iter.count.setWidth 64 := by
      rw [BitVec.lt_def, BitVec.toNat_add, BitVec.toNat_setWidth_of_le (by omega)]
      have := iter.LBA.isLt
      omega
    have hturn : retryTurn (reader source fails) writer iter (iter.LBA, 0, failed, w) =
      some (.stop (0, failed, w)) := if_neg hstop
    rw [run_stop hturn]
    simp [missedOf, after, doneOf]

/-- **The loop over the missed ranges.** -/
theorem retry_run (missed failed : List Block) (w : Pair) {n : Nat} (hn : 2 ^ 16 ≤ n) :
    retry (reader source fails) writer n missed (0, failed, w) =
      some (0, failed ++ missedOf fails w.reads (missed.flatMap retried),
        after source fails w (missed.flatMap retried)) := by
  induction missed generalizing failed w with
  | nil => simp [retry, missedOf, after, doneOf]
  | cons iter rest ih =>
    simp only [retry, retried_run iter failed w hn, Option.bind_eq_bind, Option.bind_some]
    rw [ih, List.flatMap_cons, missedOf_append, after_append, List.append_assoc]
    rfl

/-! ## The whole copy -/

/-- The operations of the first pass: the chunks, and the last of them again with the rest. -/
def ops (count : U16) (start ending : U64) (M : Nat) : List Block :=
  let wrkLBA := cursor count start M - count.setWidth 64
  chunkOps count start 0 M ++ [⟨wrkLBA, (ending - wrkLBA).setWidth 16⟩]

/-- What is tried again. -/
def retries (fails : Nat → Bool) (count : U16) (start ending : U64) (M : Nat) : List Block :=
  (missedOf fails 0 (ops count start ending M)).flatMap retried

theorem length_ops (count : U16) (start ending : U64) (M : Nat) :
    (ops count start ending M).length = M + 1 := by
  simp [ops, chunkOps]

/-- **A copy whose first loop takes `M` turns.** -/
theorem doCopy_eq {M : Nat} (hM : Turns count start ending M) {n : Nat} (hn : 2 ^ 16 + M ≤ n) :
    doCopy (reader source fails) writer n count start ending ⟨0, []⟩ =
      some (0, missedOf fails (M + 1) (retries fails count start ending M),
        after source fails (after source fails ⟨0, []⟩ (ops count start ending M))
          (retries fails count start ending M)) := by
  let wrkLBA := cursor count start M - count.setWidth 64
  let rest : Block := ⟨wrkLBA, (ending - wrkLBA).setWidth 16⟩
  have hloop := chunks_run source fails hM M 0 (Nat.zero_add M) [] ⟨0, []⟩
    (show M < n by omega)
  have hrest (missed : List Block) (w : Pair) :
      remainder (reader source fails) writer rest.LBA rest.count missed w =
        some (0, missed ++ missedOf fails w.reads [rest], after source fails w [rest]) := by
    simp only [remainder, copy_op source fails rest w, Option.bind_eq_bind, Option.bind_some]
    cases h : fails w.reads <;> simp [missedOf, h]
  have hops : ops count start ending M = chunkOps count start 0 M ++ [rest] := rfl
  rw [cursor] at hloop
  have hreads : (after source fails ⟨0, []⟩ (chunkOps count start 0 M)).reads =
      0 + (chunkOps count start 0 M).length := rfl
  have hmissed : missedOf fails 0 (chunkOps count start 0 M) ++
      missedOf fails (after source fails ⟨0, []⟩ (chunkOps count start 0 M)).reads [rest] =
        missedOf fails 0 (ops count start ending M) := by
    rw [hreads, hops, missedOf_append]
  simp only [doCopy, hloop, Option.bind_eq_bind, Option.bind_some, ne_eq, not_true_eq_false,
    if_false, List.nil_append]
  rw [hrest, Option.bind_some, hmissed, ← after_append, ← hops]
  simp only [not_true_eq_false, if_false]
  have hlast : (after source fails ⟨0, []⟩ (ops count start ending M)).reads = M + 1 := by
    simp [after, length_ops]
  split
  · rename_i hnone
    simp [retries, hnone, missedOf, after, doneOf]
  · rw [retry_run _ _ _ (by omega), hlast, List.nil_append]
    rfl

/-- More fuel gives the same result. -/
theorem retry_mono {n m : Nat} (hnm : n ≤ m) (missed : List Block)
    {s r : Int × List Block × Pair}
    (h : retry (reader source fails) writer n missed s = some r) :
    retry (reader source fails) writer m missed s = some r := by
  induction missed generalizing s with
  | nil => exact h
  | cons iter rest ih =>
    obtain ⟨s', hrun, hrest⟩ := Option.bind_eq_some_iff.mp h
    exact Option.bind_eq_some_iff.mpr ⟨s', run_mono hrun hnm, ih hrest⟩

theorem doCopy_mono {n m : Nat} (hnm : n ≤ m) {w : Pair} {r : Int × List Block × Pair}
    (h : doCopy (reader source fails) writer n count start ending w = some r) :
    doCopy (reader source fails) writer m count start ending w = some r := by
  obtain ⟨s, hrun, h⟩ := Option.bind_eq_some_iff.mp h
  refine Option.bind_eq_some_iff.mpr ⟨s, run_mono hrun hnm, ?_⟩
  dsimp only at h ⊢
  split at h
  · rename_i hrc
    rw [if_pos hrc]
    exact h
  rename_i hrc
  rw [if_neg hrc]
  obtain ⟨s', hrest, h⟩ := Option.bind_eq_some_iff.mp h
  refine Option.bind_eq_some_iff.mpr ⟨s', hrest, ?_⟩
  split at h
  · rename_i hrc'
    rw [if_pos hrc']
    exact h
  rename_i hrc'
  rw [if_neg hrc']
  split at h
  · rename_i hnone
    rw [if_pos hnone]
    exact h
  · rename_i hsome
    rw [if_neg hsome]
    exact retry_mono hnm _ h

/-- The first loop never ends. -/
def Endless (count : U16) (start ending : U64) : Prop :=
  ∀ k, cursor count start k + count.setWidth 64 < ending

theorem exists_turns (h : ¬ Endless count start ending) : ∃ M, Turns count start ending M := by
  obtain ⟨k, hk⟩ := not_forall.mp h
  induction k using Nat.strong_induction_on with
  | _ k ih =>
    by_cases hall : ∀ i < k, cursor count start i + count.setWidth 64 < ending
    · exact ⟨k, hall, hk⟩
    · obtain ⟨i, hi⟩ := not_forall.mp hall
      obtain ⟨hik, hstop⟩ := Classical.not_imp.mp hi
      exact ih i hik hstop

/-- A copy whose first loop never ends has no result. -/
theorem doCopy_endless (h : Endless count start ending) (n : Nat) :
    doCopy (reader source fails) writer n count start ending ⟨0, []⟩ = none := by
  have hspins : run (chunkTurn (reader source fails) writer count ending) n
      (start, [], ⟨0, []⟩) = none := by
    refine run_spins (I := fun s => ∃ k, s.1 = cursor count start k) ?_ ⟨0, rfl⟩ n
    rintro ⟨wrkLBA, missed, w⟩ ⟨k, rfl⟩
    have hcopy := copy_op source fails ⟨cursor count start k, count⟩ w
    simp only [chunkTurn, if_pos (h k), hcopy, Option.bind_eq_bind, Option.bind_some]
    cases fails w.reads with
    | true => exact ⟨_, rfl, k + 1, rfl⟩
    | false => exact ⟨_, rfl, k + 1, rfl⟩
  simp [doCopy, hspins]

/-- **What a copy comes back with.** -/
theorem doCopy_some {n : Nat} {r : Int × List Block × Pair}
    (h : doCopy (reader source fails) writer n count start ending ⟨0, []⟩ = some r) :
    ∃ M, Turns count start ending M ∧
      r = (0, missedOf fails (M + 1) (retries fails count start ending M),
        after source fails (after source fails ⟨0, []⟩ (ops count start ending M))
          (retries fails count start ending M)) := by
  have hends : ¬ Endless count start ending := fun hendless => by
    rw [doCopy_endless hendless] at h
    cases h
  obtain ⟨M, hM⟩ := exists_turns hends
  have hmore := doCopy_mono (Nat.le_max_left n (2 ^ 16 + M)) h
  rw [doCopy_eq hM (Nat.le_max_right ..)] at hmore
  exact ⟨M, hM, (Option.some.inj hmore).symm⟩

end loops

end DiskCopy
