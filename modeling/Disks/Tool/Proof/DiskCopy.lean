import Disks.Tool.DiskCopy
import Disks.Lib.Span

/-!
# What a copy leaves on the target

`doCopy` between two disks (`reader`, `writer`) of which the source may fail at any reads. `Acc`
is what every `COPY` keeps: a block of the range is still to do, written, or on the list.

* `chunks_end`, `retry_end`: what the loop over the chunks and the loop over the missed ranges keep.
* `Splits`: the ranges and chunk sizes the tool can handle.
* `doCopy_exact_iff`: **a copy ends, with every block of the range written or reported and no other
  block written, whatever reads fail, exactly when `Splits` holds.**
-/

namespace DiskCopy

open Bytes Drive Loop

/-! ## Two disks -/

/-- The disks of a copy: how many reads there were, and the blocks written on the target with what
was written there. -/
structure Pair where
  reads : Nat
  written : List (Nat × List Byte)

/-- A source with these blocks, whose read number `i` fails where `fails i` says so. -/
def reader (source : Nat → List Byte) (fails : Nat → Bool) : ReadLBA (List (List Byte)) Pair :=
  fun LBA count w => some (if fails w.reads then -1 else 0,
    (List.range count.toNat).map fun k => source (LBA.toNat + k), { w with reads := w.reads + 1 })

/-- A target that takes every write. -/
def writer : WriteLBA (List (List Byte)) Pair := fun LBA count buff w =>
  some (0, { w with written := w.written ++
    (List.range count.toNat).map fun k => (LBA.toNat + k, buff.getD k []) })

/-- The blocks one `COPY` writes. -/
def copied (source : Nat → List Byte) (LBA : U64) (count : U16) : List (Nat × List Byte) :=
  (List.range count.toNat).map fun k => (LBA.toNat + k, source (LBA.toNat + k))

theorem mem_copied {source : Nat → List Byte} {LBA : U64} {count : U16} {p : Nat × List Byte} :
    p ∈ copied source LBA count ↔
      LBA.toNat ≤ p.1 ∧ p.1 < LBA.toNat + count.toNat ∧ p.2 = source p.1 := by
  obtain ⟨x, b⟩ := p
  simp only [copied, List.mem_map, List.mem_range, Prod.mk.injEq]
  constructor
  · rintro ⟨k, hk, rfl, rfl⟩
    exact ⟨by omega, by omega, rfl⟩
  · rintro ⟨hlo, hhi, rfl⟩
    exact ⟨x - LBA.toNat, by omega, by omega, by rw [Nat.add_sub_cancel' hlo]⟩

theorem copy_pair (source : Nat → List Byte) (fails : Nat → Bool) (LBA : U64) (count : U16)
    (w : Pair) :
    copy (reader source fails) writer LBA count w = some (
      if fails w.reads then .continued { w with reads := w.reads + 1 }
      else .copied ⟨w.reads + 1, w.written ++ copied source LBA count⟩) := by
  have hbuff : ((List.range count.toNat).map fun k => (LBA.toNat + k,
      ((List.range count.toNat).map fun k => source (LBA.toNat + k)).getD k [])) =
        copied source LBA count := by
    refine List.map_congr_left fun k hk => ?_
    rw [List.mem_range] at hk
    simp [hk]
  simp only [copy, reader, writer, Option.bind_eq_bind, Option.bind_some, hbuff]
  cases fails w.reads <;> rfl

/-- The blocks of a list entry. -/
def Block.span (b : Block) : Span Nat := ⟨b.LBA.toNat, b.LBA.toNat + b.count.toNat⟩

/-! ## What every `COPY` keeps -/

/-- Every block of `[S, E)` is still `todo`, written from the same block of the source, or on the
list, and neither the list nor the target has any other block or any other content. -/
structure Acc (source : Nat → List Byte) (S E : Nat) (todo : Set Nat) (list : List Block)
    (w : Pair) : Prop where
  acc : ∀ x, S ≤ x → x < E →
    x ∈ todo ∨ (x, source x) ∈ w.written ∨ x ∈ Span.cover (list.map Block.span)
  list : ∀ b ∈ list, S ≤ b.LBA.toNat ∧ b.LBA.toNat + b.count.toNat ≤ E
  within : ∀ p ∈ w.written, S ≤ p.1 ∧ p.1 < E ∧ p.2 = source p.1

section run

variable {source : Nat → List Byte} {fails : Nat → Bool} {S E : Nat} {todo : Set Nat}
  {list : List Block} {w : Pair}

theorem Acc.mono (todo' : Set Nat) (h : Acc source S E todo list w)
    (htodo : ∀ x ∈ todo, S ≤ x → x < E → x ∈ todo') : Acc source S E todo' list w :=
  ⟨fun x hlo hhi => (h.acc x hlo hhi).imp_left fun hx => htodo x hx hlo hhi, h.list, h.within⟩

/-- One `COPY` within the range does its blocks. -/
theorem Acc.copy (fails : Nat → Bool) {LBA : U64} {count : U16}
    (h : Acc source S E (todo ∪ Set.Ico LBA.toNat (LBA.toNat + count.toNat)) list w)
    (hlo : S ≤ LBA.toNat) (hhi : LBA.toNat + count.toNat ≤ E) :
    (∃ w', DiskCopy.copy (reader source fails) writer LBA count w = some (.continued w') ∧
      Acc source S E todo (list ++ [⟨LBA, count⟩]) w') ∨
    ∃ w', DiskCopy.copy (reader source fails) writer LBA count w = some (.copied w') ∧
      Acc source S E todo list w' := by
  rw [copy_pair]
  cases fails w.reads with
  | true =>
    refine .inl ⟨_, rfl, fun x hx hx' => ?_, fun b hb => ?_, h.within⟩
    · simp only [List.map_append, Span.cover_append, Set.mem_union]
      rcases h.acc x hx hx' with (ht | hin) | hw | hl
      · exact .inl ht
      · refine .inr (.inr (.inr ?_))
        exact ⟨_, List.mem_map_of_mem (List.mem_singleton_self _), hin⟩
      · exact .inr (.inl hw)
      · exact .inr (.inr (.inl hl))
    · rcases List.mem_append.1 hb with hb | hb
      · exact h.list b hb
      · rw [List.mem_singleton] at hb
        subst hb
        exact ⟨hlo, hhi⟩
  | false =>
    refine .inr ⟨_, rfl, fun x hx hx' => ?_, h.list, fun p hp => ?_⟩
    · rcases h.acc x hx hx' with (ht | hin) | hw | hl
      · exact .inl ht
      · exact .inr (.inl (List.mem_append_right _ (mem_copied.2 ⟨hin.1, hin.2, rfl⟩)))
      · exact .inr (.inl (List.mem_append_left _ hw))
      · exact .inr (.inr hl)
    · rcases List.mem_append.1 hp with hp | hp
      · exact h.within p hp
      · obtain ⟨hp₀, hp₁, hcontent⟩ := mem_copied.1 hp
        exact ⟨hlo.trans hp₀, hp₁.trans_le hhi, hcontent⟩

/-! ## The loop over the chunks -/

variable {count : U16} {start ending : U64}

/-- How many chunks the first loop copies. -/
def lastChunk (count : U16) (start ending : U64) : Nat :=
  (ending.toNat - start.toNat - 1) / count.toNat

theorem lastChunk_mul_le (count : U16) (start ending : U64) :
    lastChunk count start ending * count.toNat ≤ ending.toNat - start.toNat - 1 :=
  Nat.div_mul_le_self ..

theorem lt_lastChunk_mul (start ending : U64) (hc : 0 < count.toNat) :
    ending.toNat - start.toNat - 1 < lastChunk count start ending * count.toNat + count.toNat :=
  Nat.lt_div_mul_add hc

/-- The cursor of turn `i`, as long as it does not wrap. -/
theorem chunk_goes_on {wrkLBA : U64} {i : Nat} (hc : 0 < count.toNat)
    (hle : start.toNat ≤ ending.toNat)
    (hwrap : start.toNat + i * count.toNat + count.toNat < 2 ^ 64)
    (hcursor : wrkLBA.toNat = start.toNat + i * count.toNat) :
    (wrkLBA + count.setWidth 64).toNat = start.toNat + (i + 1) * count.toNat ∧
      (wrkLBA + count.setWidth 64 < ending ↔ i < lastChunk count start ending) := by
  have hnext : (wrkLBA + count.setWidth 64).toNat = start.toNat + (i + 1) * count.toNat := by
    rw [BitVec.toNat_add, BitVec.toNat_setWidth_of_le (by omega), hcursor, Nat.add_mul]
    omega
  refine ⟨hnext, ?_⟩
  rw [BitVec.lt_def, hnext]
  have hlast := lastChunk_mul_le count start ending
  have hbeyond := lt_lastChunk_mul start ending hc
  constructor
  · intro hlt
    have : i * count.toNat < lastChunk count start ending * count.toNat := by
      rw [Nat.add_mul] at hlt
      omega
    exact Nat.lt_of_mul_lt_mul_right this
  · intro hlt
    have hmul : (i + 1) * count.toNat ≤ lastChunk count start ending * count.toNat :=
      Nat.mul_le_mul_right _ hlt
    have : 0 < (i + 1) * count.toNat := Nat.mul_pos (by omega) hc
    omega

/-- The first loop: it ends at the last chunk, and every block before it is written or on the
list. -/
theorem chunks_end (source : Nat → List Byte) (fails : Nat → Bool) (hc : 0 < count.toNat)
    (hle : start.toNat ≤ ending.toNat)
    (hwrap : start.toNat + lastChunk count start ending * count.toNat + count.toNat < 2 ^ 64)
    {n : Nat} (hn : ending.toNat < n) :
    ∃ wrkLBA missed w, run (chunkTurn (reader source fails) writer count ending) n
        (start, [], ⟨0, []⟩) = some (wrkLBA, 0, missed, w) ∧
      wrkLBA.toNat = start.toNat + lastChunk count start ending * count.toNat ∧
      Acc source start.toNat ending.toNat (Set.Ico wrkLBA.toNat ending.toNat) missed w := by
  have hend : ∃ r, run (chunkTurn (reader source fails) writer count ending) n
      (start, [], ⟨0, []⟩) = some r ∧ r.2.1 = 0 ∧
      r.1.toNat = start.toNat + lastChunk count start ending * count.toNat ∧
      Acc source start.toNat ending.toNat (Set.Ico r.1.toNat ending.toNat) r.2.2.1 r.2.2.2 := by
    refine run_total (I := fun s : U64 × List Block × Pair =>
      ∃ i ≤ lastChunk count start ending, s.1.toNat = start.toNat + i * count.toNat ∧
        Acc source start.toNat ending.toNat (Set.Ico s.1.toNat ending.toNat) s.2.1 s.2.2)
      (fun s => ending.toNat - s.1.toNat) ?_ ⟨0, by omega, by simp, ?_⟩ (by omega)
    · rintro ⟨wrkLBA, missed, w⟩ ⟨i, hi, hcursor, hacc⟩
      change wrkLBA.toNat = _ at hcursor
      have hmul : i * count.toNat ≤ lastChunk count start ending * count.toNat :=
        Nat.mul_le_mul_right _ hi
      obtain ⟨hnext, hgo⟩ := chunk_goes_on hc hle (by omega) hcursor
      rw [Nat.add_mul, Nat.one_mul, ← Nat.add_assoc, ← hcursor] at hnext
      simp only [chunkTurn]
      by_cases hlt : wrkLBA + count.setWidth 64 < ending
      · rw [if_pos hlt]
        have hle' : wrkLBA.toNat + count.toNat < ending.toNat := hnext ▸ BitVec.lt_def.1 hlt
        have hdone : (wrkLBA + count.setWidth 64).toNat = start.toNat + (i + 1) * count.toNat := by
          rw [hnext, hcursor, Nat.add_mul, Nat.one_mul, Nat.add_assoc]
        have hcopy := (hacc.mono (Set.Ico (wrkLBA + count.setWidth 64).toNat ending.toNat ∪
          Set.Ico wrkLBA.toNat (wrkLBA.toNat + count.toNat)) fun x hx _ _ => by
            simp only [Set.mem_union, Set.mem_Ico, hnext] at hx ⊢
            omega).copy fails (by omega) hle'.le
        have hvar : ending.toNat - (wrkLBA + count.setWidth 64).toNat <
            ending.toNat - wrkLBA.toNat := by omega
        rcases hcopy with ⟨w', hrun, hacc'⟩ | ⟨w', hrun, hacc'⟩
        · rw [hrun]
          exact .inr ⟨_, rfl, ⟨i + 1, hgo.1 hlt, hdone, hacc'⟩, hvar⟩
        · rw [hrun]
          exact .inr ⟨_, rfl, ⟨i + 1, hgo.1 hlt, hdone, hacc'⟩, hvar⟩
      · rw [if_neg hlt]
        obtain rfl : i = lastChunk count start ending := by
          have := mt hgo.2 hlt
          omega
        exact .inl ⟨_, rfl, rfl, hcursor, hacc⟩
    · exact ⟨fun x hx hx' => .inl ⟨hx, hx'⟩, by simp, by simp⟩
  obtain ⟨⟨wrkLBA, rc, missed, w⟩, hrun, rfl, hcursor, hacc⟩ := hend
  exact ⟨wrkLBA, missed, w, hrun, hcursor, hacc⟩

/-! ## The retries -/

/-- The loop over the blocks of one missed range. -/
theorem retry_range_end (fails : Nat → Bool) {iter : Block} (hlo : S ≤ iter.LBA.toNat)
    (hhi : iter.LBA.toNat + iter.count.toNat ≤ E) (hE : E < 2 ^ 64) {n : Nat} (hn : 2 ^ 16 ≤ n)
    (hacc : Acc source S E (todo ∪ iter.span.points) list w) :
    ∃ failed w', run (retryTurn (reader source fails) writer iter) n (iter.LBA, 0, list, w) =
      some (0, failed, w') ∧ Acc source S E todo failed w' := by
  have hstop : (iter.LBA + iter.count.setWidth 64).toNat = iter.LBA.toNat + iter.count.toNat := by
    rw [BitVec.toNat_add, BitVec.toNat_setWidth_of_le (by omega)]
    omega
  have hend : ∃ r, run (retryTurn (reader source fails) writer iter) n (iter.LBA, 0, list, w) =
      some r ∧ r.1 = 0 ∧ Acc source S E todo r.2.1 r.2.2 := by
    refine run_total (I := fun s : U64 × Int × List Block × Pair =>
      s.2.1 = 0 ∧ iter.LBA.toNat ≤ s.1.toNat ∧
        Acc source S E (todo ∪ Set.Ico s.1.toNat (iter.LBA.toNat + iter.count.toNat))
          s.2.2.1 s.2.2.2)
      (fun s => iter.LBA.toNat + iter.count.toNat - s.1.toNat) ?_
      ⟨rfl, Nat.le_refl _, hacc⟩ (by simp only; omega)
    rintro ⟨wrkLBA, rc, failed, w⟩ ⟨rfl, hfrom, hacc⟩
    change iter.LBA.toNat ≤ wrkLBA.toNat at hfrom
    simp only [retryTurn]
    by_cases hlt : wrkLBA < iter.LBA + iter.count.setWidth 64
    · rw [if_pos hlt]
      have hlt' : wrkLBA.toNat < iter.LBA.toNat + iter.count.toNat := hstop ▸ BitVec.lt_def.1 hlt
      have hone : (wrkLBA + 1).toNat = wrkLBA.toNat + 1 := by
        rw [BitVec.toNat_add, show (1 : U64).toNat = 1 from rfl]
        omega
      have hcopy := (hacc.mono ((todo ∪
        Set.Ico (wrkLBA + 1).toNat (iter.LBA.toNat + iter.count.toNat)) ∪
        Set.Ico wrkLBA.toNat (wrkLBA.toNat + (1 : U16).toNat)) fun x hx _ _ => by
          rcases hx with hx | hx
          · exact .inl (.inl hx)
          · simp only [Set.mem_union, Set.mem_Ico, hone] at hx ⊢
            have : (1 : U16).toNat = 1 := rfl
            omega).copy fails (by omega) (by
              have : (1 : U16).toNat = 1 := rfl
              omega)
      have hvar : iter.LBA.toNat + iter.count.toNat - (wrkLBA + 1).toNat <
          iter.LBA.toNat + iter.count.toNat - wrkLBA.toNat := by omega
      have hfrom' : iter.LBA.toNat ≤ (wrkLBA + 1).toNat := by omega
      rcases hcopy with ⟨w', hrun, hacc'⟩ | ⟨w', hrun, hacc'⟩
      · rw [hrun]
        exact .inr ⟨_, rfl, ⟨rfl, hfrom', hacc'⟩, hvar⟩
      · rw [hrun]
        exact .inr ⟨_, rfl, ⟨rfl, hfrom', hacc'⟩, hvar⟩
    · rw [if_neg hlt]
      refine .inl ⟨_, rfl, rfl, hacc.mono _ fun x hx _ _ => ?_⟩
      rw [BitVec.lt_def, hstop] at hlt
      rcases hx with hx | hx
      · exact hx
      · exact absurd (Nat.lt_of_le_of_lt hx.1 hx.2) hlt
  obtain ⟨⟨rc, failed, w'⟩, hrun, rfl, hacc'⟩ := hend
  exact ⟨failed, w', hrun, hacc'⟩

/-- The loop over the missed ranges: every block of these is written or failed. -/
theorem retry_end (fails : Nat → Bool) (hE : E < 2 ^ 64) {n : Nat} (hn : 2 ^ 16 ≤ n)
    {missed : List Block}
    (hmissed : ∀ b ∈ missed, S ≤ b.LBA.toNat ∧ b.LBA.toNat + b.count.toNat ≤ E)
    (hacc : Acc source S E (Span.cover (missed.map Block.span)) list w) :
    ∃ failed w', retry (reader source fails) writer n missed (0, list, w) =
      some (0, failed, w') ∧ Acc source S E ∅ failed w' := by
  induction missed generalizing list w with
  | nil => exact ⟨list, w, rfl, hacc.mono _ fun x hx _ _ => by simp at hx⟩
  | cons iter rest ih =>
    obtain ⟨hlo, hhi⟩ := hmissed iter (List.mem_cons_self ..)
    rw [List.map_cons, Span.cover_cons, Set.union_comm] at hacc
    obtain ⟨failed, w', hrun, hacc'⟩ := retry_range_end fails hlo hhi hE hn hacc
    obtain ⟨failed', w'', hrest, hacc''⟩ :=
      ih (fun b hb => hmissed b (List.mem_cons_of_mem _ hb)) hacc'
    refine ⟨failed', w'', ?_, hacc''⟩
    simp only [retry, hrun, Option.bind_eq_bind, Option.bind_some]
    exact hrest

/-- The last chunk again and the rest of the range. -/
theorem remainder_end (fails : Nat → Bool) (wrkLBA : U64) (count : U16) (hlo : S ≤ wrkLBA.toNat)
    (hhi : wrkLBA.toNat + count.toNat = E)
    (hacc : Acc source S E (Set.Ico wrkLBA.toNat E) list w) :
    ∃ missed w', remainder (reader source fails) writer wrkLBA count list w =
      some (0, missed, w') ∧ Acc source S E ∅ missed w' := by
  have hcopy := (hacc.mono (∅ ∪ Set.Ico wrkLBA.toNat (wrkLBA.toNat + count.toNat))
    fun x hx _ _ => .inr (hhi ▸ hx)).copy fails hlo hhi.le
  rcases hcopy with ⟨w', hrun, hacc'⟩ | ⟨w', hrun, hacc'⟩
  · exact ⟨_, w', by simp [remainder, hrun], hacc'⟩
  · exact ⟨_, w', by simp [remainder, hrun], hacc'⟩

/-- From the end of the first loop to the end of the copy. -/
theorem doCopy_end (fails : Nat → Bool) {wrkLBA : U64} {missed : List Block} {n : Nat}
    (hn : 2 ^ 16 ≤ n)
    (hrun : run (chunkTurn (reader source fails) writer count ending) n (start, [], ⟨0, []⟩) =
      some (wrkLBA, 0, missed, w))
    (hlo : start.toNat ≤ (wrkLBA - count.setWidth 64).toNat)
    (hhi : (wrkLBA - count.setWidth 64).toNat +
      ((ending - (wrkLBA - count.setWidth 64)).setWidth 16).toNat = ending.toNat)
    (hacc : Acc source start.toNat ending.toNat
      (Set.Ico (wrkLBA - count.setWidth 64).toNat ending.toNat) missed w) :
    ∃ rc failed w', doCopy (reader source fails) writer n count start ending ⟨0, []⟩ =
      some (rc, failed, w') ∧ Acc source start.toNat ending.toNat ∅ failed w' := by
  obtain ⟨missed', w', hrem, hacc'⟩ := remainder_end fails _ _ hlo hhi hacc
  simp only [doCopy, hrun, hrem, Option.bind_eq_bind, Option.bind_some, ne_eq, not_true_eq_false,
    if_false]
  by_cases hmissed : missed' = []
  · rw [if_pos hmissed]
    exact ⟨0, [], w', rfl, hmissed ▸ hacc'⟩
  · rw [if_neg hmissed]
    have htodo :
        Acc source start.toNat ending.toNat (Span.cover (missed'.map Block.span)) [] w' := by
      refine ⟨fun x hx hx' => ?_, by simp, hacc'.within⟩
      rcases hacc'.acc x hx hx' with h | h | h
      · exact absurd h (Set.notMem_empty x)
      · exact .inr (.inl h)
      · exact .inl h
    obtain ⟨failed, w'', hretry, hacc''⟩ := retry_end fails (by omega) hn hacc'.list htodo
    exact ⟨0, failed, w'', hretry, hacc''⟩

/-! ## The ranges the tool can handle -/

/-- What a copy promises, whatever reads fail: it ends; if it returns 0 then every block of the
range is written or reported; and every block written is one of the range, from the same block of
the source. -/
def CopyExact (count : U16) (start ending : U64) : Prop :=
  ∀ source fails, Ends (fun n => doCopy (reader source fails) writer n count start ending ⟨0, []⟩)
    fun r => (r.1 = 0 → ∀ x, start.toNat ≤ x → x < ending.toNat →
        (x, source x) ∈ r.2.2.written ∨ x ∈ Span.cover (r.2.1.map Block.span)) ∧
      ∀ p ∈ r.2.2.written, start.toNat ≤ p.1 ∧ p.1 < ending.toNat ∧ p.2 = source p.1

/-- An empty range and chunks of no block; or a range longer than a chunk, whose last chunk and rest
fit 16 bits together, where the cursor does not wrap. -/
def Splits (count : U16) (start ending : U64) : Prop :=
  count.toNat = 0 ∧ start = ending ∨
  0 < count.toNat ∧ count.toNat < ending.toNat - start.toNat ∧
    (ending.toNat - start.toNat - 1) % count.toNat + 1 + count.toNat < 2 ^ 16 ∧
    start.toNat + lastChunk count start ending * count.toNat + count.toNat < 2 ^ 64

instance : Decidable (Splits count start ending) :=
  inferInstanceAs (Decidable (_ ∨ _))

/-- In a range longer than a chunk, what is copied after the first loop: the last chunk again and
the rest, with 16 bits for the length. -/
theorem rest_bounds {wrkLBA : U64} (hc : 0 < count.toNat)
    (hlong : count.toNat < ending.toNat - start.toNat)
    (hcursor : wrkLBA.toNat = start.toNat + lastChunk count start ending * count.toNat) :
    (wrkLBA - count.setWidth 64).toNat = wrkLBA.toNat - count.toNat ∧
      start.toNat ≤ (wrkLBA - count.setWidth 64).toNat ∧
      (wrkLBA - count.setWidth 64).toNat +
        ((ending.toNat - start.toNat - 1) % count.toNat + 1 + count.toNat) = ending.toNat ∧
      ((ending - (wrkLBA - count.setWidth 64)).setWidth 16).toNat =
        ((ending.toNat - start.toNat - 1) % count.toNat + 1 + count.toNat) % 2 ^ 16 := by
  have hlast : count.toNat ≤ lastChunk count start ending * count.toNat :=
    Nat.le_mul_of_pos_left _ (Nat.div_pos (by omega) hc)
  have hmod : lastChunk count start ending * count.toNat +
      (ending.toNat - start.toNat - 1) % count.toNat = ending.toNat - start.toNat - 1 :=
    Nat.div_add_mod' ..
  have hback : (wrkLBA - count.setWidth 64).toNat = wrkLBA.toNat - count.toNat := by
    rw [BitVec.toNat_sub_of_le (BitVec.le_def.2 ?_)] <;>
      rw [BitVec.toNat_setWidth_of_le (by omega)]
    omega
  refine ⟨hback, by omega, by omega, ?_⟩
  rw [BitVec.toNat_setWidth, BitVec.toNat_sub_of_le (BitVec.le_def.2 (by omega)), hback]
  congr 1
  omega

/-- A range longer than a chunk is copied. -/
theorem copyExact_of_chunks (hc : 0 < count.toNat)
    (hlong : count.toNat < ending.toNat - start.toNat)
    (hrest : (ending.toNat - start.toNat - 1) % count.toNat + 1 + count.toNat < 2 ^ 16)
    (hwrap : start.toNat + lastChunk count start ending * count.toNat + count.toNat < 2 ^ 64) :
    CopyExact count start ending := by
  intro source fails
  refine ⟨ending.toNat + 2 ^ 16, fun n hn => ?_⟩
  obtain ⟨wrkLBA, missed, w, hrun, hcursor, hacc⟩ :=
    chunks_end source fails hc (by omega) hwrap (show ending.toNat < n by omega)
  obtain ⟨hback, hlo, hhi, hsize⟩ := rest_bounds hc hlong hcursor
  rw [Nat.mod_eq_of_lt hrest] at hsize
  obtain ⟨rc, failed, w', hcopy, hacc'⟩ := doCopy_end fails (by omega) hrun hlo (by omega)
    (hacc.mono _ fun x hx _ _ => ⟨by have := hx.1; omega, hx.2⟩)
  exact ⟨_, hcopy, fun _ x hx hx' => (hacc'.acc x hx hx').resolve_left (Set.notMem_empty x),
    hacc'.within⟩

/-- Nothing is copied for an empty range and chunks of no block. -/
theorem copyExact_of_empty (hc : count.toNat = 0) (hempty : start = ending) :
    CopyExact count start ending := by
  subst hempty
  obtain rfl : count = 0 := BitVec.eq_of_toNat_eq hc
  intro source fails
  refine ⟨2 ^ 16, fun n hn => ?_⟩
  have hrun : run (chunkTurn (reader source fails) writer 0 start) n (start, [], ⟨0, []⟩) =
      some (start, 0, [], ⟨0, []⟩) := by
    obtain ⟨n, rfl⟩ : ∃ k, n = k + 1 := ⟨n - 1, by omega⟩
    exact run_stop (by simp [chunkTurn])
  obtain ⟨rc, failed, w', hcopy, hacc⟩ := doCopy_end fails hn hrun (by simp) (by simp)
    ⟨fun x hx hx' => absurd hx (by omega), by simp, by simp⟩
  exact ⟨_, hcopy, fun _ x hx hx' => absurd hx (by omega), hacc.within⟩

/-! ## The ranges it cannot handle -/

/-- A copy without a failed read, along an invariant of its first loop. -/
theorem doCopy_clean {I : U64 → List (Nat × List Byte) → Prop} {n : Nat}
    {r : Int × List Block × Pair} (hstart : I start [])
    (step : ∀ wrkLBA written, I wrkLBA written → wrkLBA + count.setWidth 64 < ending →
      I (wrkLBA + count.setWidth 64) (written ++ copied source wrkLBA count))
    (h : doCopy (reader source fun _ => false) writer n count start ending ⟨0, []⟩ = some r) :
    ∃ wrkLBA written, I wrkLBA written ∧ ¬ wrkLBA + count.setWidth 64 < ending ∧ r.1 = 0 ∧
      r.2.1 = [] ∧ r.2.2.written = written ++ copied source (wrkLBA - count.setWidth 64)
        ((ending - (wrkLBA - count.setWidth 64)).setWidth 16) := by
  unfold doCopy at h
  obtain ⟨⟨wrkLBA, rc, missed, w⟩, hrun, h⟩ := Option.bind_eq_some_iff.1 h
  have hloop : I wrkLBA w.written ∧ ¬ wrkLBA + count.setWidth 64 < ending ∧ rc = 0 ∧
      missed = [] := by
    refine run_inv (I := fun s : U64 × List Block × Pair => I s.1 s.2.2.written ∧ s.2.1 = [])
      (Q := fun r : U64 × Int × List Block × Pair => I r.1 r.2.2.2.written ∧
        ¬ r.1 + count.setWidth 64 < ending ∧ r.2.1 = 0 ∧ r.2.2.1 = []) ?_ ?_ ⟨hstart, rfl⟩ hrun
    · rintro ⟨wrkLBA, missed, w⟩ s' ⟨hI, hmissed⟩ hturn
      simp only [chunkTurn, copy_pair] at hturn
      split at hturn
      · rename_i hlt
        cases hturn
        exact ⟨step _ _ hI hlt, hmissed⟩
      · cases hturn
    · rintro ⟨wrkLBA, missed, w⟩ s' ⟨hI, hmissed⟩ hturn
      simp only [chunkTurn, copy_pair] at hturn
      split at hturn
      · cases hturn
      · rename_i hlt
        cases hturn
        exact ⟨hI, hlt, rfl, hmissed⟩
  obtain ⟨hI, hexit, rfl, rfl⟩ := hloop
  refine ⟨wrkLBA, w.written, hI, hexit, ?_⟩
  simp [remainder, copy_pair] at h
  cases h
  exact ⟨rfl, rfl, rfl⟩

/-- A copy without a failed read has written the range and nothing else. -/
theorem CopyExact.clean (h : CopyExact count start ending) :
    ∃ n r, doCopy (reader (fun _ => []) fun _ => false) writer n count start ending ⟨0, []⟩ =
        some r ∧
      (r.1 = 0 → r.2.1 = [] → ∀ x, start.toNat ≤ x → x < ending.toNat → (x, []) ∈ r.2.2.written) ∧
      ∀ p ∈ r.2.2.written, start.toNat ≤ p.1 ∧ p.1 < ending.toNat := by
  obtain ⟨n, hn⟩ := h (fun _ => []) fun _ => false
  obtain ⟨r, hr, hdone, hwithin⟩ := hn n (Nat.le_refl n)
  refine ⟨n, r, hr, fun hrc hfailed x hx hx' => ?_,
    fun p hp => ⟨(hwithin p hp).1, (hwithin p hp).2.1⟩⟩
  simpa [hfailed] using hdone hrc x hx hx'

/-- Chunks of no block: the first loop does not end. -/
theorem not_copyExact_of_zero (hc : count.toNat = 0) (hlt : start.toNat < ending.toNat) :
    ¬ CopyExact count start ending := by
  intro h
  obtain ⟨n, r, hr, -, -⟩ := h.clean
  obtain rfl : count = 0 := BitVec.eq_of_toNat_eq hc
  obtain ⟨wrkLBA, written, rfl, hexit, -⟩ := doCopy_clean (I := fun wrkLBA _ => wrkLBA = start) rfl
    (fun wrkLBA written hI _ => by simp [hI]) hr
  exact hexit (BitVec.lt_def.2 (by simpa using hlt))

/-- The cursor wraps: the chunk at the end of the range is written past it. -/
theorem not_copyExact_of_wraps (hc : 0 < count.toNat) (hle : start.toNat ≤ ending.toNat)
    (hwrap : 2 ^ 64 ≤ start.toNat + lastChunk count start ending * count.toNat + count.toNat) :
    ¬ CopyExact count start ending := by
  intro h
  obtain ⟨n, r, hr, -, hwithin⟩ := h.clean
  have hlast := lastChunk_mul_le count start ending
  -- the last turn, which the wrapped end of its chunk does not stop
  have hturn (wrkLBA : U64)
      (hcursor : wrkLBA.toNat = start.toNat + lastChunk count start ending * count.toNat) :
      wrkLBA + count.setWidth 64 < ending := by
    rw [BitVec.lt_def, BitVec.toNat_add, BitVec.toNat_setWidth_of_le (by omega)]
    omega
  obtain ⟨wrkLBA, written, hI, hexit, -, -, hwritten⟩ := doCopy_clean
    (I := fun wrkLBA written => (∃ p ∈ written, p.1 = ending.toNat) ∨
      ∃ i ≤ lastChunk count start ending, wrkLBA.toNat = start.toNat + i * count.toNat)
    (.inr ⟨0, by omega, by simp⟩) (fun wrkLBA written hI hlt => by
      rcases hI with ⟨p, hp, hend⟩ | ⟨i, hi, hcursor⟩
      · exact .inl ⟨p, List.mem_append_left _ hp, hend⟩
      · rcases Nat.lt_or_eq_of_le hi with hi | rfl
        · have hmul : (i + 1) * count.toNat ≤ lastChunk count start ending * count.toNat :=
            Nat.mul_le_mul_right _ hi
          rw [Nat.add_mul, Nat.one_mul] at hmul
          exact .inr ⟨i + 1, hi, (chunk_goes_on hc hle (by omega) hcursor).1⟩
        · exact .inl ⟨(ending.toNat, []), List.mem_append_right _
            (mem_copied.2 ⟨by simp only; omega, by simp only; omega, rfl⟩), rfl⟩) hr
  rcases hI with ⟨p, hp, hend⟩ | ⟨i, hi, hcursor⟩
  · have := (hwithin p (hwritten ▸ List.mem_append_left _ hp)).2
    omega
  · rcases Nat.lt_or_eq_of_le hi with hi | rfl
    · have hmul : (i + 1) * count.toNat ≤ lastChunk count start ending * count.toNat :=
        Nat.mul_le_mul_right _ hi
      rw [Nat.add_mul, Nat.one_mul] at hmul
      exact hexit ((chunk_goes_on hc hle (by omega) hcursor).2.2 hi)
    · exact hexit (hturn wrkLBA hcursor)

/-- Where the cursor does not wrap, the first loop ends at the last chunk. -/
theorem doCopy_clean_last (hc : 0 < count.toNat) (hle : start.toNat ≤ ending.toNat)
    (hwrap : start.toNat + lastChunk count start ending * count.toNat + count.toNat < 2 ^ 64)
    {n : Nat} {r : Int × List Block × Pair}
    (h : doCopy (reader source fun _ => false) writer n count start ending ⟨0, []⟩ = some r) :
    ∃ (wrkLBA : U64) (written : List (Nat × List Byte)),
      wrkLBA.toNat = start.toNat + lastChunk count start ending * count.toNat ∧
      (∀ p ∈ written, p.1 < wrkLBA.toNat) ∧ r.1 = 0 ∧ r.2.1 = [] ∧
      r.2.2.written = written ++ copied source (wrkLBA - count.setWidth 64)
        ((ending - (wrkLBA - count.setWidth 64)).setWidth 16) := by
  have hwrap' {i : Nat} (hi : i ≤ lastChunk count start ending) :
      start.toNat + i * count.toNat + count.toNat < 2 ^ 64 := by
    have : i * count.toNat ≤ lastChunk count start ending * count.toNat :=
      Nat.mul_le_mul_right _ hi
    omega
  obtain ⟨wrkLBA, written, ⟨⟨i, hi, hcursor⟩, hbelow⟩, hexit, hr⟩ := doCopy_clean
    (I := fun wrkLBA written =>
      (∃ i ≤ lastChunk count start ending, wrkLBA.toNat = start.toNat + i * count.toNat) ∧
        ∀ p ∈ written, p.1 < wrkLBA.toNat)
    ⟨⟨0, by omega, by simp⟩, by simp⟩ (fun wrkLBA written hI hlt => by
      obtain ⟨⟨i, hi, hcursor⟩, hbelow⟩ := hI
      obtain ⟨hnext, hgo⟩ := chunk_goes_on hc hle (hwrap' hi) hcursor
      refine ⟨⟨i + 1, hgo.1 hlt, hnext⟩, fun p hp => ?_⟩
      rw [Nat.add_mul] at hnext
      rcases List.mem_append.1 hp with hp | hp
      · have := hbelow p hp
        omega
      · have := (mem_copied.1 hp).2.1
        omega) h
  have hlast := mt (chunk_goes_on hc hle (hwrap' hi) hcursor).2.2 hexit
  obtain rfl : i = lastChunk count start ending := by omega
  exact ⟨wrkLBA, written, hcursor, hbelow, hr⟩

/-- A range no longer than a chunk: the copy starts a chunk before it. -/
theorem not_copyExact_of_short (hc : 0 < count.toNat) (hle : start.toNat ≤ ending.toNat)
    (hshort : ending.toNat - start.toNat ≤ count.toNat)
    (hwrap : start.toNat + lastChunk count start ending * count.toNat + count.toNat < 2 ^ 64) :
    ¬ CopyExact count start ending := by
  intro h
  obtain ⟨n, r, hr, hdone, hwithin⟩ := h.clean
  obtain ⟨wrkLBA, written, hcursor, hbelow, hrc, hfailed, hwritten⟩ :=
    doCopy_clean_last hc hle hwrap hr
  have hlast : lastChunk count start ending = 0 := Nat.div_eq_of_lt (by omega)
  rw [hlast, Nat.zero_mul, Nat.add_zero] at hcursor
  have hback : (wrkLBA - count.setWidth 64).toNat =
      (2 ^ 64 - count.toNat + start.toNat) % 2 ^ 64 := by
    rw [BitVec.toNat_sub, BitVec.toNat_setWidth_of_le (by omega), hcursor]
  have hsize : ((ending - (wrkLBA - count.setWidth 64)).setWidth 16).toNat =
      (2 ^ 64 - (wrkLBA - count.setWidth 64).toNat + ending.toNat) % 2 ^ 64 % 2 ^ 16 := by
    rw [BitVec.toNat_setWidth, BitVec.toNat_sub]
  by_cases hnone : ((ending - (wrkLBA - count.setWidth 64)).setWidth 16).toNat = 0
  · -- 65536 blocks, for which the length is 0
    have := hdone hrc hfailed start.toNat (Nat.le_refl _) (by omega)
    rw [hwritten, List.mem_append] at this
    rcases this with hp | hp
    · have := hbelow _ hp
      simp only at this
      omega
    · obtain ⟨hp₀, hp₁, -⟩ := mem_copied.1 hp
      omega
  · have := hwithin ((wrkLBA - count.setWidth 64).toNat, [])
      (hwritten ▸ List.mem_append_right _ (mem_copied.2 ⟨Nat.le_refl _, by simp only; omega, rfl⟩))
    simp only at this
    omega

/-- A last chunk and rest of 65536 blocks or more: the end of the range is left out. -/
theorem not_copyExact_of_long (hc : 0 < count.toNat)
    (hlong : count.toNat < ending.toNat - start.toNat)
    (hrest : 2 ^ 16 ≤ (ending.toNat - start.toNat - 1) % count.toNat + 1 + count.toNat)
    (hwrap : start.toNat + lastChunk count start ending * count.toNat + count.toNat < 2 ^ 64) :
    ¬ CopyExact count start ending := by
  intro h
  obtain ⟨n, r, hr, hdone, -⟩ := h.clean
  obtain ⟨wrkLBA, written, hcursor, hbelow, hrc, hfailed, hwritten⟩ :=
    doCopy_clean_last hc (by omega) hwrap hr
  obtain ⟨hback, hlo, hhi, hsize⟩ := rest_bounds hc hlong hcursor
  have hmod_lt := Nat.mod_lt (ending.toNat - start.toNat - 1) hc
  have := hdone hrc hfailed (ending.toNat - 1) (by omega) (by omega)
  rw [hwritten, List.mem_append] at this
  rcases this with hp | hp
  · have := hbelow _ hp
    simp only at this
    omega
  · obtain ⟨hp₀, hp₁, -⟩ := mem_copied.1 hp
    simp only at hp₀ hp₁
    omega

/-- **A copy is exact, whatever reads fail, exactly when `Splits` holds.** -/
theorem doCopy_exact_iff (count : U16) (start ending : U64) (hle : start ≤ ending) :
    CopyExact count start ending ↔ Splits count start ending := by
  have hle : start.toNat ≤ ending.toNat := BitVec.le_def.1 hle
  constructor
  · intro h
    rcases Nat.eq_zero_or_pos count.toNat with hc | hc
    · refine .inl ⟨hc, BitVec.eq_of_toNat_eq ?_⟩
      by_contra hne
      exact not_copyExact_of_zero hc (by omega) h
    have hwrap : start.toNat + lastChunk count start ending * count.toNat + count.toNat <
        2 ^ 64 := by
      by_contra hwrap
      exact not_copyExact_of_wraps hc hle (by omega) h
    have hlong : count.toNat < ending.toNat - start.toNat := by
      by_contra hlong
      exact not_copyExact_of_short hc hle (by omega) hwrap h
    refine .inr ⟨hc, hlong, ?_, hwrap⟩
    by_contra hrest
    exact not_copyExact_of_long hc hlong (by omega) hwrap h
  · rintro (⟨hc, hempty⟩ | ⟨hc, hlong, hrest, hwrap⟩)
    · exact copyExact_of_empty hc hempty
    · exact copyExact_of_chunks hc hlong hrest hwrap

theorem doCopy_exact_sample :
    (100#64 ≤ 1000#64) ∧ (CopyExact 64 100 1000 ↔ Splits 64 100 1000) ∧ Splits 64 100 1000 :=
  ⟨by decide, doCopy_exact_iff 64 100 1000 (by decide), by decide⟩

/-- A range of ten blocks in chunks of 64: the copy starts at block 36. -/
theorem doCopy_short : ¬ CopyExact 64 100 110 :=
  not_copyExact_of_short (by decide) (by decide) (by decide) (by decide)

end run

end DiskCopy
