import Mathlib.Data.Finset.Interval
import Mathlib.Order.Interval.Finset.Nat
import Disks.Tool.Proof.CopyOps

/-!
# What a copy reports as failed

The list of failed blocks a copy comes back with, against the blocks it wrote, for any pattern of
failed reads.

* `Precise`: no reported block was written, none is reported twice, and none is left out.
* `reports_iff`: the ranges for which it is precise whatever reads fail.
-/

namespace DiskCopy

open Bytes Drive Loop

section report

variable {source : Nat → List Byte} {fails : Nat → Bool} {count : U16} {start ending : U64}

/-! ## The report -/

/-- The blocks that were written. -/
def Pair.blocks (w : Pair) : List Nat := w.written.map Prod.fst

/-- **The report is precise**: no block of it was copied, none is in it twice, and it is as long as
there are blocks of the range that were not copied. -/
structure Precise (start ending : U64) (failed : List Block) (w : Pair) : Prop where
  uncopied : ∀ b ∈ failed, b.LBA.toNat ∉ w.blocks
  once : (failed.map Block.LBA).Nodup
  total : failed.length =
    ((Finset.Ico start.toNat ending.toNat).filter fun x => x ∉ w.blocks).card

/-- Of every copy that comes back. -/
def Reports (fails : Nat → Bool) (count : U16) (start ending : U64) : Prop :=
  ∀ source n r, doCopy (reader source fails) writer n count start ending ⟨0, []⟩ = some r →
    r.1 = 0 → Precise start ending r.2.1 r.2.2

theorem Reports.precise (h : Reports fails count start ending) {M : Nat}
    (hM : Turns count start ending M) (source : Nat → List Byte) :
    Precise start ending (missedOf fails (M + 1) (retries fails count start ending M))
      (after source fails (after source fails ⟨0, []⟩ (ops count start ending M))
        (retries fails count start ending M)) :=
  h source _ _ (doCopy_eq hM (le_refl _)) rfl

theorem mem_blocks_after {source : Nat → List Byte} {w : Pair} {bs : List Block} {x : Nat} :
    x ∈ (after source fails w bs).blocks ↔
      x ∈ w.blocks ∨ ∃ b ∈ doneOf fails w.reads bs, x ∈ b.span.points := by
  have hspan (b : Block) : (∃ y, (x, y) ∈ copied source b.LBA b.count) ↔ x ∈ b.span.points := by
    refine ⟨fun ⟨y, hy⟩ => ?_, fun hx => ⟨source x, mem_copied.mpr ⟨hx.1, hx.2, rfl⟩⟩⟩
    exact ⟨(mem_copied.mp hy).1, (mem_copied.mp hy).2.1⟩
  simp only [Pair.blocks, after, List.map_append, List.mem_append, List.mem_map, List.mem_flatMap,
    Prod.exists, exists_and_right, exists_eq_right, ← hspan]
  refine or_congr_right ⟨fun h => ?_, fun h => ?_⟩
  · obtain ⟨y, b, hb, hy⟩ := h
    exact ⟨b, hb, y, hy⟩
  · obtain ⟨b, hb, y, hy⟩ := h
    exact ⟨y, b, hb, hy⟩

/-! ## A block that is reported and copied -/

theorem cursor_lt {M : Nat} (hM : Turns count start ending M) (hlt : start < ending) {k : Nat}
    (hk : k ≤ M) : cursor count start k < ending := by
  cases k with
  | zero => exact hlt
  | succ k => exact hM.1 k hk

/-- The last turn of a loop that ends: neither its chunk nor the next one wraps. -/
theorem last_turn {M : Nat} (hM : Turns count start ending M)
    (hlong : count.toNat < ending.toNat - start.toNat) :
    ∃ m, M = m + 1 ∧ 0 < count.toNat ∧
      (cursor count start m).toNat + count.toNat < ending.toNat ∧
      ending.toNat ≤ (cursor count start m).toNat + 2 * count.toNat ∧
      cursor count start M - count.setWidth 64 = cursor count start m := by
  have hc := count.isLt
  have hE := ending.isLt
  have hlt : start < ending := BitVec.lt_def.mpr (by omega)
  have hwide : (count.setWidth 64).toNat = count.toNat := BitVec.toNat_setWidth_of_le (by omega)
  have hstop := hM.2
  rw [BitVec.lt_def, BitVec.toNat_add, hwide] at hstop
  cases M with
  | zero =>
    rw [cursor] at hstop
    omega
  | succ m =>
    have hturn := hM.1 m (by omega)
    have hcur := BitVec.lt_def.mp (cursor_lt hM hlt (Nat.le_succ m))
    rw [BitVec.lt_def, BitVec.toNat_add, hwide] at hturn
    rw [cursor, BitVec.toNat_add, hwide] at hstop
    refine ⟨m, rfl, by omega, by omega, by omega, ?_⟩
    rw [cursor, BitVec.add_sub_cancel]

theorem missedOf_eq_nil {i : Nat} {bs : List Block} (h : ∀ k < bs.length, fails (i + k) = false) :
    missedOf fails i bs = [] := by
  refine List.eq_nil_iff_forall_not_mem.mpr fun b hb => ?_
  obtain ⟨k, hk, hf⟩ := mem_missedOf.mp hb
  rw [h k (List.getElem?_eq_some_iff.mp hk).1] at hf
  cases hf

theorem getElem?_ops {M i : Nat} (hi : i < M) :
    (ops count start ending M)[i]? = some ⟨cursor count start i, count⟩ := by
  have hlen : (chunkOps count start 0 M).length = M := by simp [chunkOps]
  rw [ops, List.getElem?_append_left (by omega)]
  simp [chunkOps, hi]

theorem ops_succ (m : Nat) : ops count start ending (m + 1) =
    chunkOps count start 0 m ++ ⟨cursor count start m, count⟩ ::
      [⟨cursor count start (m + 1) - count.setWidth 64,
        (ending - (cursor count start (m + 1) - count.setWidth 64)).setWidth 16⟩] := by
  simp [ops, chunkOps, List.range'_concat]

/-- Block `j` of the last chunk is read again and fails, and is part of another operation. -/
theorem not_reports_of_overlap {m : Nat} (hM : Turns count start ending (m + 1))
    (hwrap : (cursor count start m).toNat + count.toNat < 2 ^ 64) {j : Nat} (hj : j < count.toNat)
    {i : Nat} (him : i ≠ m) (hi : i ≤ m + 1) {b : Block}
    (hb : (ops count start ending (m + 1))[i]? = some b)
    (hx : (cursor count start m).toNat + j ∈ b.span.points) :
    ∃ fails, ¬ Reports fails count start ending := by
  -- the chunk is missed, and then block `j` of it
  let fails : Nat → Bool := fun k => k = m ∨ k = m + 1 + 1 + j
  refine ⟨fails, fun h => ?_⟩
  have hprecise := h.precise hM fun _ => []
  let last : Block := ⟨cursor count start m, count⟩
  have hmissed : missedOf fails 0 (ops count start ending (m + 1)) = [last] := by
    have hlen : (chunkOps count start 0 m).length = m := by simp [chunkOps]
    have hbefore : missedOf fails 0 (chunkOps count start 0 m) = [] := by
      refine missedOf_eq_nil fun k hk => ?_
      simp only [fails, decide_eq_false_iff_not]
      omega
    rw [ops_succ, missedOf_append, hbefore, hlen, List.nil_append, missedOf, missedOf, missedOf]
    have hchunk : fails (0 + m) = true := by simp [fails]
    have hrest : ¬ fails (0 + m + 1) = true := by
      simp only [fails, decide_eq_true_eq]
      omega
    rw [if_pos hchunk, if_neg hrest]
  have hretries : retries fails count start ending (m + 1) = singles last 0 count.toNat := by
    rw [retries, hmissed, List.flatMap_singleton, retried, if_pos hwrap]
  have hlisted : ⟨cursor count start m + .ofNat 64 j, 1⟩ ∈
      missedOf fails (m + 1 + 1) (retries fails count start ending (m + 1)) := by
    rw [hretries]
    refine mem_missedOf.mpr ⟨j, ?_, by simp [fails]⟩
    simp [singles, hj, last]
  have hdone : b ∈ doneOf fails 0 (ops count start ending (m + 1)) := by
    refine mem_doneOf.mpr ⟨i, hb, ?_⟩
    simp only [fails, decide_eq_false_iff_not]
    omega
  refine hprecise.uncopied _ hlisted (mem_blocks_after.mpr (.inl (mem_blocks_after.mpr (.inr ?_))))
  refine ⟨b, hdone, ?_⟩
  rwa [toNat_single (b := last) (show last.LBA.toNat + j < 2 ^ 64 by simp only [last]; omega)]

/-- **Every copy that ends has a pattern of failed reads for which its report is wrong.** -/
theorem not_reports {M : Nat} (hM : Turns count start ending M)
    (hlong : count.toNat < ending.toNat - start.toNat) :
    ∃ fails, ¬ Reports fails count start ending := by
  obtain ⟨m, rfl, hc, hturn, hend, hback⟩ := last_turn hM hlong
  have hcount := count.isLt
  have hE := ending.isLt
  have hwrap : (cursor count start m).toNat + count.toNat < 2 ^ 64 := by omega
  let rest : Block := ⟨cursor count start m, (ending - cursor count start m).setWidth 16⟩
  have hrest : (ops count start ending (m + 1))[m + 1]? = some rest := by
    have hlen : (chunkOps count start 0 (m + 1)).length = m + 1 := by simp [chunkOps]
    rw [ops, List.getElem?_append_right (by omega), hlen, Nat.sub_self, hback]
    rfl
  have hsize : rest.count.toNat = (ending.toNat - (cursor count start m).toNat) % 2 ^ 16 := by
    rw [BitVec.toNat_setWidth, BitVec.toNat_sub_of_le (BitVec.le_def.mpr (by omega))]
  by_cases hsome : 0 < rest.count.toNat
  · -- the rest begins with the last chunk
    refine not_reports_of_overlap hM hwrap hc (show m + 1 ≠ m by omega) (le_refl _) hrest ?_
    exact ⟨Nat.le_refl _, Nat.add_lt_add_left hsome _⟩
  have hlen : ending.toNat - (cursor count start m).toNat = 2 ^ 16 := by omega
  by_cases hcovered : ∃ i < m + 1, ending.toNat - 1 ∈
      (⟨cursor count start i, count⟩ : Block).span.points
  · -- the end is in an earlier chunk: the last chunk overlaps that one or the one before it
    obtain ⟨i, hi, hlo, hhi⟩ := hcovered
    have hwide : (count.setWidth 64).toNat = count.toNat := BitVec.toNat_setWidth_of_le (by omega)
    have hlt : start < ending := BitVec.lt_def.mpr (by omega)
    change (cursor count start i).toNat ≤ ending.toNat - 1 at hlo
    change ending.toNat - 1 < (cursor count start i).toNat + count.toNat at hhi
    have him : i ≠ m := by
      rintro rfl
      omega
    cases i with
    | zero =>
      rw [cursor] at hhi
      omega
    | succ i =>
      have hcur := BitVec.lt_def.mp (cursor_lt hM hlt (show i ≤ m + 1 by omega))
      have hnext : (cursor count start (i + 1)).toNat =
          (cursor count start i).toNat + count.toNat := by
        rw [cursor, BitVec.toNat_add, hwide] at hlo hhi ⊢
        omega
      by_cases hin : (cursor count start (i + 1)).toNat ≤
          (cursor count start m).toNat + (count.toNat - 1)
      · refine not_reports_of_overlap hM hwrap (show count.toNat - 1 < count.toNat by omega) him
          hi.le (getElem?_ops hi) ⟨hin, ?_⟩
        change _ < (cursor count start (i + 1)).toNat + count.toNat
        omega
      · refine not_reports_of_overlap hM hwrap (show count.toNat - 1 < count.toNat by omega)
          (show i ≠ m by omega) (show i ≤ m + 1 by omega)
          (getElem?_ops (show i < m + 1 by omega)) ⟨?_, ?_⟩
        · change (cursor count start i).toNat ≤ _
          omega
        · change _ < (cursor count start i).toNat + count.toNat
          omega
  · -- nothing of the rest is read: its last block is not copied, and not reported
    refine ⟨fun _ => false, fun h => ?_⟩
    have hprecise := h.precise hM fun _ => []
    have hmissed : missedOf (fun _ => false) 0 (ops count start ending (m + 1)) = [] :=
      missedOf_eq_nil fun _ _ => rfl
    have htotal := hprecise.total
    simp only [retries, hmissed, List.flatMap_nil, missedOf, List.length_nil] at htotal
    have hnone := Finset.card_eq_zero.mp htotal.symm
    have hmem : ending.toNat - 1 ∈ (Finset.Ico start.toNat ending.toNat).filter fun x =>
        x ∉ (after (fun _ => []) (fun _ => false) (after (fun _ => []) (fun _ => false) ⟨0, []⟩
          (ops count start ending (m + 1))) []).blocks := by
      refine Finset.mem_filter.mpr ⟨Finset.mem_Ico.mpr ⟨by omega, by omega⟩, fun hin => ?_⟩
      rcases mem_blocks_after.mp hin with hin | ⟨b, hb, -⟩
      swap
      · simp [doneOf] at hb
      rcases mem_blocks_after.mp hin with hin | ⟨b, hb, hx⟩
      · simp [Pair.blocks] at hin
      obtain ⟨k, hk, -⟩ := mem_doneOf.mp hb
      have hlength := (List.getElem?_eq_some_iff.mp hk).1
      rw [length_ops] at hlength
      rcases Nat.lt_succ_iff_lt_or_eq.mp hlength with hkm | rfl
      · rw [getElem?_ops hkm] at hk
        cases hk
        exact hcovered ⟨k, hkm, hx⟩
      · rw [hrest] at hk
        cases hk
        have hx : ending.toNat - 1 < rest.LBA.toNat + rest.count.toNat := hx.2
        change _ < (cursor count start m).toNat + rest.count.toNat at hx
        omega
    rw [hnone] at hmem
    exact absurd hmem (Finset.notMem_empty _)

/-- **The report of a range longer than a chunk is precise for every pattern of failed reads
exactly when** the first loop never ends, and there is no report. -/
theorem reports_iff (hlong : count.toNat < ending.toNat - start.toNat) :
    (∀ fails, Reports fails count start ending) ↔ Endless count start ending := by
  refine ⟨fun h => ?_, fun h fails source n r hr => ?_⟩
  · by_contra hends
    obtain ⟨M, hM⟩ := exists_turns hends
    obtain ⟨fails, hfails⟩ := not_reports hM hlong
    exact hfails (h fails)
  · rw [doCopy_endless h] at hr
    cases hr

end report

end DiskCopy
