import Disks.Tool.Proof.CopyReport

/-!
# The patterns of failed reads with a precise report

Which blocks of a copy are tried again, and when: the layout of the retries in a copy whose cursor
does not wrap, and what of them has to succeed.

* `retries_split`: the chunks before the last, the last chunk, and the rest.
* `retriesFine_of_reports`, `precise_of_retriesFine`: the condition, both ways.
* **`doCopy_report_iff`**: when the report of a copy is precise.
-/

namespace DiskCopy

open Bytes Drive Loop

section report

variable {source : Nat → List Byte} {fails : Nat → Bool} {count : U16} {start ending : U64}

/-! ## Positions -/

theorem length_missedOf (i : Nat) (bs : List Block) :
    (missedOf fails i bs).length = ((List.range' i bs.length).filter fails).length := by
  induction bs generalizing i with
  | nil => rfl
  | cons b bs ih =>
    rw [missedOf, List.length_cons, List.range'_succ, List.filter_cons]
    split
    · rw [List.length_cons, List.length_cons, ih]
    · exact ih _

theorem missedOf_sublist (i : Nat) (bs : List Block) : (missedOf fails i bs).Sublist bs := by
  induction bs generalizing i with
  | nil => exact .slnil
  | cons b bs ih =>
    rw [missedOf]
    split
    · exact (ih _).cons_cons _
    · exact (ih _).cons _

theorem doneOf_sublist (i : Nat) (bs : List Block) : (doneOf fails i bs).Sublist bs := by
  induction bs generalizing i with
  | nil => exact .slnil
  | cons b bs ih =>
    rw [doneOf]
    split
    · exact (ih _).cons _
    · exact (ih _).cons_cons _

/-- The first blocks of ranges. -/
def addresses (bs : List Block) : List Nat := bs.map fun b => b.LBA.toNat

/-- What fails and what does not are different blocks, where all are. -/
theorem missed_ne_done {i : Nat} {bs : List Block} (hnodup : (addresses bs).Nodup) {b b' : Block}
    (hb : b ∈ missedOf fails i bs) (hb' : b' ∈ doneOf fails i bs) :
    b.LBA.toNat ≠ b'.LBA.toNat := by
  obtain ⟨k, hk, hf⟩ := mem_missedOf.mp hb
  obtain ⟨k', hk', hf'⟩ := mem_doneOf.mp hb'
  obtain ⟨hlt, rfl⟩ := List.getElem?_eq_some_iff.mp hk
  obtain ⟨hlt', rfl⟩ := List.getElem?_eq_some_iff.mp hk'
  intro heq
  have hk₀ : k < (addresses bs).length := by simpa [addresses]
  have hk₁ : k' < (addresses bs).length := by simpa [addresses]
  have hsame : k = k' := by
    apply hnodup.getElem_inj_iff.mp
    show (addresses bs)[k] = (addresses bs)[k']
    simpa [addresses] using heq
  rw [hsame, hf'] at hf
  cases hf

/-- A block that fails twice is in the list twice. -/
theorem not_nodup_of_twice {i p q : Nat} {bs : List Block} {b : Block} (hpq : p < q)
    (hp : bs[p]? = some b) (hq : bs[q]? = some b) (hfp : fails (i + p) = true)
    (hfq : fails (i + q) = true) : ¬ (missedOf fails i bs).Nodup := by
  obtain ⟨hlt, -⟩ := List.getElem?_eq_some_iff.mp hq
  have hsplit : bs = bs.take (p + 1) ++ bs.drop (p + 1) := (List.take_append_drop ..).symm
  have hlen : (bs.take (p + 1)).length = p + 1 := List.length_take_of_le (by omega)
  rw [hsplit, missedOf_append, List.nodup_append, hlen]
  rintro ⟨-, -, hdisjoint⟩
  refine hdisjoint b (mem_missedOf.mpr ⟨p, ?_, hfp⟩) b (mem_missedOf.mpr ⟨q - (p + 1), ?_, ?_⟩) rfl
  · rwa [List.getElem?_take_of_lt (by omega)]
  · rwa [List.getElem?_drop, show p + 1 + (q - (p + 1)) = q by omega]
  · rwa [show i + (p + 1) + (q - (p + 1)) = i + q by omega]

/-- In a precise report, a block that fails when it is tried again is tried once, and every
operation with it has failed. -/
theorem Precise.alone {M : Nat} {source : Nat → List Byte}
    (h : Precise start ending (missedOf fails (M + 1) (retries fails count start ending M))
      (after source fails (after source fails ⟨0, []⟩ (ops count start ending M))
        (retries fails count start ending M))) {p : Nat} {b : Block}
    (hp : (retries fails count start ending M)[p]? = some b) (hcount : 0 < b.count.toNat)
    (hf : fails (M + 1 + p) = true) :
    (∀ q, q ≠ p → (retries fails count start ending M)[q]? ≠ some b) ∧
      ∀ (i : Nat) (b' : Block), (ops count start ending M)[i]? = some b' →
        b.LBA.toNat ∈ b'.span.points → fails i = true := by
  have hb : b.LBA.toNat ∈ b.span.points := ⟨Nat.le_refl _, Nat.lt_add_of_pos_right hcount⟩
  have hlisted := mem_missedOf.mpr ⟨p, hp, hf⟩
  have huncopied := h.uncopied b hlisted
  have hreads : (after source fails ⟨0, []⟩ (ops count start ending M)).reads = M + 1 := by
    simp [after, length_ops]
  refine ⟨fun q hqp hq => ?_, fun i b' hi hx => ?_⟩
  · cases hfq : fails (M + 1 + q) with
    | false =>
      refine huncopied (mem_blocks_after.mpr (.inr ⟨b, ?_, hb⟩))
      rw [hreads]
      exact mem_doneOf.mpr ⟨q, hq, hfq⟩
    | true =>
      have hnodup := h.once.of_map
      rcases Nat.lt_or_gt_of_ne hqp with hlt | hlt
      · exact not_nodup_of_twice hlt hq hp hfq hf hnodup
      · exact not_nodup_of_twice hlt hp hq hf hfq hnodup
  · by_contra hgood
    refine huncopied (mem_blocks_after.mpr (.inl (mem_blocks_after.mpr (.inr ⟨b', ?_, hx⟩))))
    exact mem_doneOf.mpr ⟨i, hi, by simpa using hgood⟩

/-! ## One pattern -/

/-- The cursor does not wrap. -/
def Unwrapped (count : U16) (start ending : U64) : Prop :=
  0 < count.toNat ∧ start.toNat + lastChunk count start ending * count.toNat + count.toNat < 2 ^ 64

instance : Decidable (Unwrapped count start ending) := inferInstanceAs (Decidable (_ ∧ _))

/-- The reads of a copy without a wrap: the chunks before the last, the last, the last again with
the rest, and then the blocks of what is missed, in this order. No block of the last chunk fails
when it is tried again. -/
def RetriesFine (fails : Nat → Bool) (count : U16) (start ending : U64) : Prop :=
  let m := lastChunk count start ending - 1
  let i := m + 2 + ((List.range m).filter fails).length * count.toNat
  (fails m → ∀ j < count.toNat, fails (i + j) = false) ∧
    (fails (m + 1) → ∀ j < count.toNat,
      fails (i + (if fails m then count.toNat else 0) + j) = false)

instance : Decidable (RetriesFine fails count start ending) := inferInstanceAs (Decidable (_ ∧ _))

section unwrapped

variable (hlong : count.toNat < ending.toNat - start.toNat)
  (hwrap : Unwrapped count start ending)

include hwrap in
theorem toNat_cursor {k : Nat} (hk : k ≤ lastChunk count start ending) :
    (cursor count start k).toNat = start.toNat + k * count.toNat := by
  have hc := count.isLt
  induction k with
  | zero => simp [cursor]
  | succ k ih =>
    have hmul : (k + 1) * count.toNat ≤ lastChunk count start ending * count.toNat :=
      Nat.mul_le_mul_right _ hk
    have hbound := hwrap.2
    rw [cursor, BitVec.toNat_add, BitVec.toNat_setWidth_of_le (by omega), ih (by omega)]
    rw [Nat.add_mul, Nat.one_mul] at hmul ⊢
    omega

include hlong hwrap in
theorem turns_lastChunk : ∃ m, lastChunk count start ending = m + 1 ∧
    Turns count start ending (m + 1) := by
  have hle : start.toNat ≤ ending.toNat := by omega
  have hlast : 0 < lastChunk count start ending := Nat.div_pos (by omega) hwrap.1
  have hgo {k : Nat} (hk : k ≤ lastChunk count start ending) :
      cursor count start k + count.setWidth 64 < ending ↔ k < lastChunk count start ending := by
    have hmul : k * count.toNat ≤ lastChunk count start ending * count.toNat :=
      Nat.mul_le_mul_right _ hk
    have hbound := hwrap.2
    exact (chunk_goes_on hwrap.1 hle (by omega) (toNat_cursor hwrap hk)).2
  refine ⟨lastChunk count start ending - 1, by omega, ?_⟩
  rw [show lastChunk count start ending - 1 + 1 = lastChunk count start ending by omega]
  exact ⟨fun k hk => (hgo hk.le).mpr hk, (hgo (le_refl _)).not.mpr (lt_irrefl _)⟩

/-! ### The layout of the retries -/

theorem addresses_singles {b : Block} {i m : Nat} (hwrap : b.LBA.toNat + (i + m) ≤ 2 ^ 64) :
    addresses (singles b i m) = List.range' (b.LBA.toNat + i) m := by
  rw [addresses, singles, List.map_map]
  apply List.ext_getElem
  · simp
  · intro k hk _
    have hkm : k < m := by simpa using hk
    simp only [List.getElem_map, List.getElem_range', Function.comp_apply, Nat.one_mul]
    rw [toNat_single (by omega), Nat.add_assoc]

theorem singles_append (b : Block) (i m k : Nat) :
    singles b i (m + k) = singles b i m ++ singles b (i + m) k := by
  rw [singles, ← List.range'_append_1, List.map_append]
  rfl

/-- The last chunk, and the last chunk with the rest. -/
def lastOp (count : U16) (start : U64) (m : Nat) : Block := ⟨cursor count start m, count⟩

def restOp (count : U16) (start ending : U64) (m : Nat) : Block :=
  ⟨cursor count start m, (ending - cursor count start m).setWidth 16⟩

/-- What is tried again of the chunks before the last. -/
def early (fails : Nat → Bool) (count : U16) (start : U64) (m : Nat) : List Block :=
  (missedOf fails 0 (chunkOps count start 0 m)).flatMap retried

include hlong in
theorem ops_last {m : Nat} (hM : Turns count start ending (m + 1)) :
    ops count start ending (m + 1) =
      chunkOps count start 0 m ++ [lastOp count start m, restOp count start ending m] := by
  obtain ⟨m', hm', -, -, -, hback⟩ := last_turn hM hlong
  obtain rfl : m = m' := by omega
  rw [ops_succ, hback]
  rfl

variable {m : Nat} (hm : lastChunk count start ending = m + 1)

include hlong in
/-- The retries: of the chunks before the last, of the last, and of the last with the rest. -/
theorem retries_last (hM : Turns count start ending (m + 1)) :
    retries fails count start ending (m + 1) = early fails count start m ++
      ((if fails m then retried (lastOp count start m) else []) ++
        if fails (m + 1) then retried (restOp count start ending m) else []) := by
  have hlen : (chunkOps count start 0 m).length = m := by simp [chunkOps]
  rw [retries, ops_last hlong hM, missedOf_append, List.flatMap_append, hlen, early, missedOf,
    missedOf, missedOf, Nat.zero_add]
  congr 1
  cases fails m <;> cases fails (m + 1) <;> simp

include hwrap hm in
theorem retried_chunk {k : Nat} (hk : k ≤ m) :
    retried (⟨cursor count start k, count⟩ : Block) =
        singles ⟨cursor count start k, count⟩ 0 count.toNat ∧
      addresses (retried (⟨cursor count start k, count⟩ : Block)) =
        List.range' (start.toNat + k * count.toNat) count.toNat := by
  have hmul : (k + 1) * count.toNat ≤ lastChunk count start ending * count.toNat :=
    Nat.mul_le_mul_right _ (by omega)
  rw [Nat.add_mul, Nat.one_mul] at hmul
  have hbound := hwrap.2
  have hcursor := toNat_cursor hwrap (show k ≤ lastChunk count start ending by omega)
  have hsingles : retried (⟨cursor count start k, count⟩ : Block) =
      singles ⟨cursor count start k, count⟩ 0 count.toNat :=
    if_pos (by simp only [hcursor]; omega)
  refine ⟨hsingles, ?_⟩
  rw [hsingles, addresses_singles (by simp only [hcursor]; omega)]
  simp only [hcursor, Nat.add_zero]

include hwrap hm in
theorem addresses_chunks (k : Nat) (hk : k ≤ m) :
    addresses ((chunkOps count start 0 k).flatMap retried) =
      List.range' start.toNat (k * count.toNat) := by
  induction k with
  | zero => simp [chunkOps, addresses]
  | succ k ih =>
    have hops : chunkOps count start 0 (k + 1) =
        chunkOps count start 0 k ++ [⟨cursor count start k, count⟩] := by
      simp [chunkOps, List.range'_concat]
    rw [hops, List.flatMap_append, List.flatMap_singleton, addresses, List.map_append,
      ← addresses, ← addresses, ih (by omega), (retried_chunk hwrap hm (by omega)).2,
      List.range'_append_1, Nat.add_mul, Nat.one_mul]

include hwrap hm in
theorem addresses_early (fails : Nat → Bool) :
    (addresses (early fails count start m)).Sublist
      (List.range' start.toNat (m * count.toNat)) := by
  rw [← addresses_chunks hwrap hm m (le_refl m)]
  exact ((missedOf_sublist ..).flatMap _).map _

include hwrap hm in
theorem length_early (fails : Nat → Bool) :
    (early fails count start m).length =
      ((List.range m).filter fails).length * count.toNat := by
  have hlen : (missedOf fails 0 (chunkOps count start 0 m)).length =
      ((List.range m).filter fails).length := by
    rw [length_missedOf, List.range_eq_range']
    simp [chunkOps]
  have hall (bs : List Block) (hbs : ∀ b ∈ bs, (retried b).length = count.toNat) :
      (bs.flatMap retried).length = bs.length * count.toNat := by
    induction bs with
    | nil => simp
    | cons b bs ih =>
      rw [List.flatMap_cons, List.length_append, hbs b (List.mem_cons_self ..),
        ih fun b hb => hbs b (List.mem_cons_of_mem _ hb), List.length_cons, Nat.add_mul,
        Nat.one_mul, Nat.add_comm]
  rw [early, hall, hlen]
  intro b hb
  obtain ⟨k, hk, rfl⟩ := List.mem_map.mp ((missedOf_sublist _ _).subset hb)
  rw [(retried_chunk hwrap hm (by simp at hk; omega)).1]
  simp [singles]

include hlong hwrap hm in
/-- The last chunk with the rest, where 16 bits are enough for it. -/
theorem restOp_bounds :
    (cursor count start m).toNat = start.toNat + m * count.toNat ∧
      (cursor count start m).toNat + ((ending.toNat - start.toNat - 1) % count.toNat + 1 +
        count.toNat) = ending.toNat ∧
      (restOp count start ending m).count.toNat =
        ((ending.toNat - start.toNat - 1) % count.toNat + 1 + count.toNat) % 2 ^ 16 := by
  have hcursor := toNat_cursor hwrap (show m ≤ lastChunk count start ending by omega)
  have hmod : lastChunk count start ending * count.toNat +
      (ending.toNat - start.toNat - 1) % count.toNat = ending.toNat - start.toNat - 1 :=
    Nat.div_add_mod' ..
  rw [hm, Nat.add_mul, Nat.one_mul] at hmod
  have hend : (cursor count start m).toNat + ((ending.toNat - start.toNat - 1) % count.toNat + 1 +
      count.toNat) = ending.toNat := by omega
  refine ⟨hcursor, hend, ?_⟩
  rw [restOp, BitVec.toNat_setWidth, BitVec.toNat_sub_of_le (BitVec.le_def.mpr (by omega))]
  congr 1
  omega

include hlong hwrap hm in
theorem retried_restOp : retried (restOp count start ending m) =
    singles (restOp count start ending m) 0 (restOp count start ending m).count.toNat := by
  obtain ⟨hcursor, hend, hsize⟩ := restOp_bounds hlong hwrap hm
  have hle := Nat.mod_le ((ending.toNat - start.toNat - 1) % count.toNat + 1 + count.toNat) (2 ^ 16)
  have hE := ending.isLt
  refine if_pos ?_
  rw [hsize]
  change (cursor count start m).toNat + _ < _
  omega

theorem getElem?_singles {b : Block} {i m j : Nat} (hj : j < m) :
    (singles b i m)[j]? = some ⟨b.LBA + .ofNat 64 (i + j), 1⟩ := by
  simp [singles, hj]

/-- Block `j` of the last chunk. -/
def tail (count : U16) (start : U64) (m j : Nat) : Block := ⟨cursor count start m + .ofNat 64 j, 1⟩

include hlong hwrap hm in
/-- Where the blocks of the last chunk are tried again. -/
theorem getElem?_retries (hM : Turns count start ending (m + 1))
    (hfits : (ending.toNat - start.toNat - 1) % count.toNat + 1 + count.toNat < 2 ^ 16)
    {j : Nat} (hj : j < count.toNat) :
    (fails m = true → (retries fails count start ending (m + 1))[
        ((List.range m).filter fails).length * count.toNat + j]? = some (tail count start m j)) ∧
      (fails (m + 1) = true → (retries fails count start ending (m + 1))[
        ((List.range m).filter fails).length * count.toNat +
          (if fails m then count.toNat else 0) + j]? = some (tail count start m j)) := by
  obtain ⟨-, -, hsize⟩ := restOp_bounds hlong hwrap hm
  rw [Nat.mod_eq_of_lt hfits] at hsize
  have hlast : retried (lastOp count start m) = singles (lastOp count start m) 0 count.toNat :=
    (retried_chunk hwrap hm (le_refl m)).1
  have hlen : (singles (lastOp count start m) 0 count.toNat).length = count.toNat := by
    simp [singles]
  rw [retries_last hlong hM, hlast, retried_restOp hlong hwrap hm, Nat.add_assoc,
    ← length_early hwrap hm fails]
  refine ⟨fun hf => ?_, fun hf => ?_⟩
  · rw [List.getElem?_append_right (by omega), Nat.add_sub_cancel_left, if_pos hf,
      List.getElem?_append_left (by omega), getElem?_singles hj, Nat.zero_add]
    rfl
  · rw [List.getElem?_append_right (by omega), Nat.add_sub_cancel_left, if_pos hf]
    by_cases hfm : fails m = true
    · rw [if_pos hfm, if_pos hfm, List.getElem?_append_right (by omega), hlen,
        Nat.add_sub_cancel_left, getElem?_singles (by omega), Nat.zero_add]
      rfl
    · rw [if_neg hfm, if_neg hfm, List.nil_append, Nat.zero_add, getElem?_singles (by omega),
        Nat.zero_add]
      rfl

include hlong hwrap hm in
/-- **A precise report** has no block of the last chunk fail when it is tried again. -/
theorem retriesFine_of_reports (hM : Turns count start ending (m + 1))
    (hfits : (ending.toNat - start.toNat - 1) % count.toNat + 1 + count.toNat < 2 ^ 16)
    (h : Reports fails count start ending) : RetriesFine fails count start ending := by
  have hprecise := h.precise hM fun _ => []
  obtain ⟨hcursor, hend, hsize⟩ := restOp_bounds hlong hwrap hm
  rw [Nat.mod_eq_of_lt hfits] at hsize
  have hE := ending.isLt
  have hc := hwrap.1
  -- block `j` of the last chunk is in each of the two operations
  have haddress {j : Nat} (hj : j < count.toNat) :
      (tail count start m j).LBA.toNat = (cursor count start m).toNat + j :=
    toNat_single (b := lastOp count start m)
      (show (cursor count start m).toNat + j < 2 ^ 64 by omega)
  have hop (i : Nat) (hi : i < 2) : (ops count start ending (m + 1))[m + i]? =
      [lastOp count start m, restOp count start ending m][i]? := by
    have hlen : (chunkOps count start 0 m).length = m := by simp [chunkOps]
    rw [ops_last hlong hM, List.getElem?_append_right (by omega), hlen, Nat.add_sub_cancel_left]
  have hin {j : Nat} (hj : j < count.toNat) {b : Block} (hb : b.LBA = cursor count start m)
      (hcount : count.toNat ≤ b.count.toNat) :
      (tail count start m j).LBA.toNat ∈ b.span.points := by
    rw [haddress hj]
    have hlo : b.span.lo = (cursor count start m).toNat := congrArg BitVec.toNat hb
    have hhi : b.span.hi = (cursor count start m).toNat + b.count.toNat :=
      by
      rw [← hlo]
      rfl
    exact ⟨by omega, by omega⟩
  rw [RetriesFine, hm, Nat.add_sub_cancel]
  refine ⟨fun hf j hj => ?_, fun hf j hj => ?_⟩
  · rw [Nat.add_assoc]
    by_contra hbad
    obtain ⟨honce, hfailed⟩ := hprecise.alone ((getElem?_retries hlong hwrap hm hM hfits hj).1 hf)
      (show 0 < (1 : U16).toNat by decide) (by simpa using hbad)
    have hagain : fails (m + 1) = true :=
      hfailed (m + 1) _ (hop 1 (by omega)) (hin hj rfl (by omega))
    have htwice := (getElem?_retries hlong hwrap hm hM hfits hj).2 hagain
    rw [if_pos hf] at htwice
    exact honce _ (by omega) htwice
  · rw [Nat.add_assoc, Nat.add_assoc, ← Nat.add_assoc (_ * _)]
    by_contra hbad
    obtain ⟨honce, hfailed⟩ := hprecise.alone ((getElem?_retries hlong hwrap hm hM hfits hj).2 hf)
      (show 0 < (1 : U16).toNat by decide) (by simpa using hbad)
    have hbefore : fails m = true := hfailed m _ (hop 0 (by omega)) (hin hj rfl (le_refl _))
    rw [if_pos hbefore] at honce
    exact honce _ (by omega) ((getElem?_retries hlong hwrap hm hM hfits hj).1 hbefore)

/-- What is tried again of the last chunk, on its own and with the rest. -/
def lastAgain (fails : Nat → Bool) (count : U16) (start ending : U64) (m : Nat) : List Block :=
  (if fails m then singles (lastOp count start m) 0 count.toNat else []) ++
    if fails (m + 1) then singles (restOp count start ending m) 0 count.toNat else []

/-- What is tried again of the rest. -/
def restAgain (fails : Nat → Bool) (count : U16) (start ending : U64) (m : Nat) : List Block :=
  if fails (m + 1) then
    singles (restOp count start ending m) count.toNat
      ((restOp count start ending m).count.toNat - count.toNat)
  else []

include hlong hwrap hm in
theorem retries_split (hM : Turns count start ending (m + 1))
    (hfits : (ending.toNat - start.toNat - 1) % count.toNat + 1 + count.toNat < 2 ^ 16) :
    retries fails count start ending (m + 1) = early fails count start m ++
      (lastAgain fails count start ending m ++ restAgain fails count start ending m) := by
  obtain ⟨-, -, hsize⟩ := restOp_bounds hlong hwrap hm
  rw [Nat.mod_eq_of_lt hfits] at hsize
  have hsplit : singles (restOp count start ending m) 0 (restOp count start ending m).count.toNat =
      singles (restOp count start ending m) 0 count.toNat ++
        singles (restOp count start ending m) count.toNat
          ((restOp count start ending m).count.toNat - count.toNat) := by
    have happend := singles_append (restOp count start ending m) 0 count.toNat
      ((restOp count start ending m).count.toNat - count.toNat)
    rwa [Nat.add_sub_cancel' (by omega), Nat.zero_add] at happend
  have hlast : retried (lastOp count start m) = singles (lastOp count start m) 0 count.toNat :=
    (retried_chunk hwrap hm (le_refl m)).1
  rw [retries_last hlong hM, hlast, retried_restOp hlong hwrap hm, hsplit, lastAgain, restAgain]
  cases fails (m + 1) <;> simp

include hlong hwrap hm in
/-- Where the three parts are. -/
theorem again_bounds (fails : Nat → Bool)
    (hfits : (ending.toNat - start.toNat - 1) % count.toNat + 1 + count.toNat < 2 ^ 16) :
    (∀ b ∈ lastAgain fails count start ending m, (cursor count start m).toNat ≤ b.LBA.toNat ∧
        b.LBA.toNat < (cursor count start m).toNat + count.toNat) ∧
      (addresses (restAgain fails count start ending m)).Sublist
        (List.range' ((cursor count start m).toNat + count.toNat)
          ((restOp count start ending m).count.toNat - count.toNat)) := by
  obtain ⟨-, hend, hsize⟩ := restOp_bounds hlong hwrap hm
  rw [Nat.mod_eq_of_lt hfits] at hsize
  have hE := ending.isLt
  have hsingles {b : Block} (hLBA : b.LBA = cursor count start m) {i k : Nat}
      (hk : i + k ≤ (restOp count start ending m).count.toNat) :
      addresses (singles b i k) = List.range' ((cursor count start m).toNat + i) k := by
    rw [addresses_singles (by rw [hLBA]; omega), hLBA]
  refine ⟨fun b hb => ?_, ?_⟩
  · have hmem : b.LBA.toNat ∈ List.range' (cursor count start m).toNat count.toNat := by
      rcases List.mem_append.mp hb with hb | hb
      · rw [← Nat.add_zero (cursor count start m).toNat,
          ← hsingles (b := lastOp count start m) rfl (by omega)]
        apply List.mem_map_of_mem
        split at hb
        · exact hb
        · cases hb
      · rw [← Nat.add_zero (cursor count start m).toNat,
          ← hsingles (b := restOp count start ending m) rfl (by omega)]
        apply List.mem_map_of_mem
        split at hb
        · exact hb
        · cases hb
    exact List.mem_range'_1.mp hmem
  · rw [restAgain]
    split
    · rw [hsingles (b := restOp count start ending m) rfl (by omega)]
    · exact List.nil_sublist _

include hwrap hm in
/-- Nothing of the last chunk is reported. -/
theorem missed_lastAgain (hfine : RetriesFine fails count start ending) :
    missedOf fails (m + 2 + (early fails count start m).length)
      (lastAgain fails count start ending m) = [] := by
  rw [RetriesFine, hm, Nat.add_sub_cancel] at hfine
  obtain ⟨hlast, hrest⟩ := hfine
  have hlen (b : Block) : (singles b 0 count.toNat).length = count.toNat := by simp [singles]
  rw [length_early hwrap hm, lastAgain, missedOf_append]
  apply List.append_eq_nil_iff.mpr
  refine ⟨?_, ?_⟩
  · by_cases hf : fails m = true
    · rw [if_pos hf]
      exact missedOf_eq_nil fun j hj => hlast hf j (by rwa [hlen] at hj)
    · rw [if_neg hf]
      rfl
  · by_cases hf : fails (m + 1) = true
    · rw [if_pos hf]
      refine missedOf_eq_nil fun j hj => ?_
      have hgood := hrest hf j (by rwa [hlen] at hj)
      by_cases hfm : fails m = true
      · rw [if_pos hfm] at hgood
        rwa [if_pos hfm, hlen]
      · rw [if_neg hfm] at hgood
        rwa [if_neg hfm]
    · rw [if_neg hf]
      rfl

include hlong hwrap hm in
/-- What is reported: blocks of the chunks before the last, and of the rest. -/
theorem failed_split (hM : Turns count start ending (m + 1))
    (hfits : (ending.toNat - start.toNat - 1) % count.toNat + 1 + count.toNat < 2 ^ 16)
    (hfine : RetriesFine fails count start ending) :
    ∃ k, missedOf fails (m + 2) (retries fails count start ending (m + 1)) =
        missedOf fails (m + 2) (early fails count start m) ++
          missedOf fails k (restAgain fails count start ending m) ∧
      ∃ i, doneOf fails (m + 2) (retries fails count start ending (m + 1)) =
        doneOf fails (m + 2) (early fails count start m) ++
          (doneOf fails i (lastAgain fails count start ending m) ++
            doneOf fails k (restAgain fails count start ending m)) := by
  rw [retries_split hlong hwrap hm hM hfits]
  refine ⟨m + 2 + (early fails count start m).length +
    (lastAgain fails count start ending m).length, ?_,
    m + 2 + (early fails count start m).length, ?_⟩
  · rw [missedOf_append, missedOf_append, missed_lastAgain hwrap hm hfine, List.nil_append]
  · rw [doneOf_append, doneOf_append]

include hwrap hm in
/-- What is tried again of the chunks before the last is part of one that failed. -/
theorem mem_early {b : Block} (hb : b ∈ early fails count start m) : ∃ k < m, fails k = true ∧
    start.toNat + k * count.toNat ≤ b.LBA.toNat ∧
    b.LBA.toNat < start.toNat + (k + 1) * count.toNat := by
  obtain ⟨b', hb', hb⟩ := List.mem_flatMap.mp hb
  obtain ⟨k, hk, hf⟩ := mem_missedOf.mp hb'
  rw [Nat.zero_add] at hf
  obtain ⟨hlt, rfl⟩ := List.getElem?_eq_some_iff.mp hk
  have hkm : k < m := by simpa [chunkOps] using hlt
  have hget : (chunkOps count start 0 m)[k] = ⟨cursor count start k, count⟩ := by simp [chunkOps]
  rw [hget] at hb
  have hmem : b.LBA.toNat ∈ addresses (retried ⟨cursor count start k, count⟩) :=
    List.mem_map_of_mem hb
  rw [(retried_chunk hwrap hm hkm.le).2, List.mem_range'_1] at hmem
  refine ⟨k, hkm, hf, hmem.1, ?_⟩
  rw [Nat.add_mul, Nat.one_mul]
  omega

include hlong in
/-- What is read the first time. -/
theorem done_ops (hM : Turns count start ending (m + 1)) {b : Block}
    (hb : b ∈ doneOf fails 0 (ops count start ending (m + 1))) :
    (∃ k ≤ m, fails k = false ∧ b = ⟨cursor count start k, count⟩) ∨
      fails (m + 1) = false ∧ b = restOp count start ending m := by
  obtain ⟨k, hk, hf⟩ := mem_doneOf.mp hb
  rw [Nat.zero_add] at hf
  have hlt := (List.getElem?_eq_some_iff.mp hk).1
  rw [length_ops] at hlt
  rcases Nat.lt_succ_iff_lt_or_eq.mp hlt with hkm | rfl
  · rw [getElem?_ops hkm] at hk
    exact .inl ⟨k, by omega, hf, (Option.some.inj hk).symm⟩
  · have hlen : (chunkOps count start 0 m).length = m := by simp [chunkOps]
    rw [ops_last hlong hM, List.getElem?_append_right (by omega), hlen,
      Nat.add_sub_cancel_left] at hk
    exact .inr ⟨hf, (Option.some.inj hk).symm⟩

theorem count_retries {M : Nat} {b : Block} (hb : b ∈ retries fails count start ending M) :
    b.count = 1 := by
  obtain ⟨b', -, hb⟩ := List.mem_flatMap.mp hb
  rw [retried] at hb
  split at hb
  · obtain ⟨j, -, rfl⟩ := List.mem_map.mp hb
    rfl
  · cases hb

theorem mem_span_retries {M : Nat} {b : Block} (hb : b ∈ retries fails count start ending M)
    {x : Nat} : x ∈ b.span.points ↔ x = b.LBA.toNat := by
  have hhi : b.span.hi = b.LBA.toNat + 1 := by simp [Block.span, count_retries hb]
  refine ⟨fun hx => ?_, fun hx => ⟨?_, ?_⟩⟩
  · have hlo : b.LBA.toNat ≤ x := hx.1
    have := hx.2
    omega
  · exact hx.ge
  · omega

include hlong hwrap hm in
/-- What is reported of the chunks before the last is not read the first time. -/
theorem early_uncopied (hM : Turns count start ending (m + 1)) {b b' : Block}
    (hb : b ∈ early fails count start m)
    (hb' : b' ∈ doneOf fails 0 (ops count start ending (m + 1))) :
    b.LBA.toNat ∉ b'.span.points := by
  obtain ⟨k, hkm, hf, hlo, hhi⟩ := mem_early hwrap hm hb
  rintro ⟨hlo', hhi'⟩
  rcases done_ops hlong hM hb' with ⟨i, him, hf', rfl⟩ | ⟨-, rfl⟩
  · have hcursor := toNat_cursor hwrap (show i ≤ lastChunk count start ending by omega)
    change (cursor count start i).toNat ≤ _ at hlo'
    change _ < (cursor count start i).toNat + count.toNat at hhi'
    rcases Nat.lt_trichotomy i k with hlt | rfl | hlt
    · have hmul : (i + 1) * count.toNat ≤ k * count.toNat := Nat.mul_le_mul_right _ hlt
      rw [Nat.add_mul, Nat.one_mul] at hmul
      omega
    · rw [hf] at hf'
      cases hf'
    · have hmul : (k + 1) * count.toNat ≤ i * count.toNat := Nat.mul_le_mul_right _ hlt
      omega
  · have hcursor := toNat_cursor hwrap (show m ≤ lastChunk count start ending by omega)
    have hmul : (k + 1) * count.toNat ≤ m * count.toNat := Nat.mul_le_mul_right _ hkm
    change (cursor count start m).toNat ≤ _ at hlo'
    omega

include hlong hwrap hm in
/-- Nor is what is reported of the rest. -/
theorem rest_uncopied (hM : Turns count start ending (m + 1))
    (hfits : (ending.toNat - start.toNat - 1) % count.toNat + 1 + count.toNat < 2 ^ 16)
    {b b' : Block} (hb : b ∈ restAgain fails count start ending m)
    (hb' : b' ∈ doneOf fails 0 (ops count start ending (m + 1))) :
    b.LBA.toNat ∉ b'.span.points := by
  have hmem := (again_bounds hlong hwrap hm fails hfits).2.subset
    (List.mem_map_of_mem hb)
  have hlo := (List.mem_range'_1.mp hmem).1
  rintro ⟨-, hhi'⟩
  rcases done_ops hlong hM hb' with ⟨i, him, -, rfl⟩ | ⟨hf, rfl⟩
  · have hcursor := toNat_cursor hwrap (show i ≤ lastChunk count start ending by omega)
    have hcursor' := toNat_cursor hwrap (show m ≤ lastChunk count start ending by omega)
    have hmul : i * count.toNat ≤ m * count.toNat := Nat.mul_le_mul_right _ him
    change _ < (cursor count start i).toNat + count.toNat at hhi'
    omega
  · rw [restAgain, hf, if_neg Bool.false_ne_true] at hb
    cases hb

include hlong hwrap hm in
/-- **What is reported is not copied**, where no block of the last chunk fails when it is tried
again. -/
theorem uncopied_of_retriesFine (hM : Turns count start ending (m + 1))
    (hfits : (ending.toNat - start.toNat - 1) % count.toNat + 1 + count.toNat < 2 ^ 16)
    (hfine : RetriesFine fails count start ending) (source : Nat → List Byte) {b : Block}
    (hb : b ∈ missedOf fails (m + 2) (retries fails count start ending (m + 1))) :
    b.LBA.toNat ∉ (after source fails (after source fails ⟨0, []⟩ (ops count start ending (m + 1)))
      (retries fails count start ending (m + 1))).blocks := by
  obtain ⟨k, hmissed, i, hdone⟩ := failed_split hlong hwrap hm hM hfits hfine
  have hreads : (after source fails ⟨0, []⟩ (ops count start ending (m + 1))).reads = m + 2 := by
    simp [after, length_ops]
  have hcursor := toNat_cursor hwrap (show m ≤ lastChunk count start ending by omega)
  obtain ⟨hlast, hrest⟩ := again_bounds hlong hwrap hm fails hfits
  have hearly := addresses_early hwrap hm fails
  have hrest' {b : Block} (hb : b ∈ restAgain fails count start ending m) :
      (cursor count start m).toNat + count.toNat ≤ b.LBA.toNat :=
    (List.mem_range'_1.mp (hrest.subset (List.mem_map_of_mem hb))).1
  have hearly' {b : Block} (hb : b ∈ early fails count start m) :
      b.LBA.toNat < (cursor count start m).toNat := by
    have := (List.mem_range'_1.mp (hearly.subset (List.mem_map_of_mem hb))).2
    omega
  rw [hmissed] at hb
  intro hin
  rcases mem_blocks_after.mp hin with hin | ⟨b', hb', hx⟩
  · rcases mem_blocks_after.mp hin with hin | ⟨b', hb', hx⟩
    · cases hin
    · rcases List.mem_append.mp hb with hb | hb
      · exact early_uncopied hlong hwrap hm hM ((missedOf_sublist ..).subset hb) hb' hx
      · exact rest_uncopied hlong hwrap hm hM hfits ((missedOf_sublist ..).subset hb) hb' hx
  · rw [hreads] at hb'
    have hone := (mem_span_retries ((doneOf_sublist ..).subset hb')).mp hx
    rw [hdone] at hb'
    rcases List.mem_append.mp hb with hb | hb
    · have hlt := hearly' ((missedOf_sublist ..).subset hb)
      rcases List.mem_append.mp hb' with hb' | hb'
      · exact missed_ne_done (hearly.nodup (List.nodup_range' ..)) hb hb' hone
      rcases List.mem_append.mp hb' with hb' | hb'
      · have := (hlast b' ((doneOf_sublist ..).subset hb')).1
        omega
      · have := hrest' ((doneOf_sublist ..).subset hb')
        omega
    · have hge := hrest' ((missedOf_sublist ..).subset hb)
      rcases List.mem_append.mp hb' with hb' | hb'
      · have := hearly' ((doneOf_sublist ..).subset hb')
        omega
      rcases List.mem_append.mp hb' with hb' | hb'
      · have := (hlast b' ((doneOf_sublist ..).subset hb')).2
        omega
      · exact missed_ne_done (hrest.nodup (List.nodup_range' ..)) hb hb' hone

include hlong hwrap hm in
/-- Each block of the range is reported at most once, and nothing else is. -/
theorem addresses_failed (hM : Turns count start ending (m + 1))
    (hfits : (ending.toNat - start.toNat - 1) % count.toNat + 1 + count.toNat < 2 ^ 16)
    (hfine : RetriesFine fails count start ending) :
    (addresses (missedOf fails (m + 2) (retries fails count start ending (m + 1)))).Sublist
      (List.range' start.toNat (ending.toNat - start.toNat)) := by
  obtain ⟨k, hmissed, -⟩ := failed_split hlong hwrap hm hM hfits hfine
  obtain ⟨hcursor, hend, hsize⟩ := restOp_bounds hlong hwrap hm
  rw [Nat.mod_eq_of_lt hfits] at hsize
  have hearly : (addresses (missedOf fails (m + 2) (early fails count start m))).Sublist
      (List.range' start.toNat (m * count.toNat)) :=
    ((missedOf_sublist ..).map _).trans (addresses_early hwrap hm fails)
  have hrest : (addresses (missedOf fails k (restAgain fails count start ending m))).Sublist
      (List.range' (start.toNat + m * count.toNat)
        ((restOp count start ending m).count.toNat)) := by
    refine ((missedOf_sublist ..).map _).trans
      ((again_bounds hlong hwrap hm fails hfits).2.trans ?_)
    rw [hcursor, ← Nat.add_sub_cancel' (show count.toNat ≤ (restOp count start ending m).count.toNat
      by omega), ← List.range'_append_1, Nat.add_sub_cancel_left]
    exact List.sublist_append_right ..
  have hwhole : ending.toNat - start.toNat =
      m * count.toNat + (restOp count start ending m).count.toNat := by omega
  rw [hmissed, hwhole, ← List.range'_append_1, addresses, List.map_append]
  exact hearly.append hrest

include hlong hwrap hm in
/-- **Where no block of the last chunk fails when it is tried again**, the report is precise. -/
theorem precise_of_retriesFine (hM : Turns count start ending (m + 1))
    (hfits : (ending.toNat - start.toNat - 1) % count.toNat + 1 + count.toNat < 2 ^ 16)
    (hfine : RetriesFine fails count start ending) (source : Nat → List Byte) :
    Precise start ending (missedOf fails (m + 2) (retries fails count start ending (m + 1)))
      (after source fails (after source fails ⟨0, []⟩ (ops count start ending (m + 1)))
        (retries fails count start ending (m + 1))) := by
  have hsub := addresses_failed hlong hwrap hm hM hfits hfine
  have hnodup := hsub.nodup (List.nodup_range' ..)
  have huncopied {b : Block}
      (hb : b ∈ missedOf fails (m + 2) (retries fails count start ending (m + 1))) :=
    uncopied_of_retriesFine hlong hwrap hm hM hfits hfine source hb
  refine ⟨fun b hb => huncopied hb, List.Nodup.of_map BitVec.toNat ?_, ?_⟩
  · rwa [List.map_map]
  -- every block of the range is copied or reported
  obtain ⟨N, hN⟩ := copyExact_of_chunks hwrap.1 hlong hfits hwrap.2 source fails
  obtain ⟨r, hr, hcopied, -⟩ := hN (max N (2 ^ 16 + (m + 1))) (Nat.le_max_left ..)
  cases (doCopy_eq hM (Nat.le_max_right ..)).symm.trans hr
  have hlen : (missedOf fails (m + 2) (retries fails count start ending (m + 1))).length =
      (addresses (missedOf fails (m + 2) (retries fails count start ending (m + 1)))).length := by
    simp [addresses]
  rw [hlen, ← List.toFinset_card_of_nodup hnodup]
  congr 1
  ext x
  rw [List.mem_toFinset, Finset.mem_filter, Finset.mem_Ico]
  refine ⟨fun hx => ?_, fun ⟨⟨hlo, hhi⟩, hx⟩ => ?_⟩
  · have hrange := List.mem_range'_1.mp (hsub.subset hx)
    obtain ⟨b, hb, rfl⟩ := List.mem_map.mp hx
    exact ⟨⟨hrange.1, by omega⟩, huncopied hb⟩
  · rcases hcopied rfl x hlo hhi with h | ⟨s, hs, hin⟩
    · exact absurd (List.mem_map.mpr ⟨_, h, rfl⟩) hx
    · obtain ⟨b, hb, rfl⟩ := List.mem_map.mp hs
      have hone := (mem_span_retries ((missedOf_sublist ..).subset hb)).mp hin
      exact List.mem_map.mpr ⟨b, hb, hone.symm⟩

/-- What is tried again is part of an operation. -/
theorem retries_in_ops {M : Nat} {b : Block} (hb : b ∈ retries fails count start ending M) :
    ∃ b' ∈ ops count start ending M, b.LBA.toNat ∈ b'.span.points := by
  obtain ⟨b', hb', hb⟩ := List.mem_flatMap.mp hb
  refine ⟨b', (missedOf_sublist ..).subset hb', ?_⟩
  rw [retried] at hb
  split at hb
  · rename_i hfits
    obtain ⟨j, hj, rfl⟩ := List.mem_map.mp hb
    have hj' := (List.mem_range'_1.mp hj).2
    have haddress := toNat_single (b := b') (j := j) (by omega)
    exact ⟨by change b'.LBA.toNat ≤ (b'.LBA + .ofNat 64 j).toNat; omega,
      by change (b'.LBA + .ofNat 64 j).toNat < b'.LBA.toNat + b'.count.toNat; omega⟩
  · cases hb

/-- A precise report of blocks of the range has every block that was not copied. -/
theorem Precise.reported {failed : List Block} {w : Pair} (h : Precise start ending failed w)
    (hrange : ∀ b ∈ failed, start.toNat ≤ b.LBA.toNat ∧ b.LBA.toNat < ending.toNat) {x : Nat}
    (hlo : start.toNat ≤ x) (hhi : x < ending.toNat) (hx : x ∉ w.blocks) :
    x ∈ addresses failed := by
  have hnodup : (addresses failed).Nodup := by
    have hmap := h.once.map (f := BitVec.toNat) fun a b hab => BitVec.eq_of_toNat_eq hab
    rwa [List.map_map] at hmap
  have hlen : (addresses failed).toFinset.card = failed.length := by
    rw [List.toFinset_card_of_nodup hnodup, addresses, List.length_map]
  have hsub : (addresses failed).toFinset ⊆
      (Finset.Ico start.toNat ending.toNat).filter fun x => x ∉ w.blocks := by
    intro y hy
    obtain ⟨b, hb, rfl⟩ := List.mem_map.mp (List.mem_toFinset.mp hy)
    exact Finset.mem_filter.mpr ⟨Finset.mem_Ico.mpr (hrange b hb), h.uncopied b hb⟩
  have hall := Finset.eq_of_subset_of_card_le hsub (by rw [hlen, h.total])
  rw [← List.mem_toFinset, hall]
  exact Finset.mem_filter.mpr ⟨Finset.mem_Ico.mpr ⟨hlo, hhi⟩, hx⟩

include hlong hwrap hm in
/-- Where 16 bits are too few for the last chunk with the rest, no report is precise: the end of
the range is never read. -/
theorem not_precise_of_long (hM : Turns count start ending (m + 1))
    (hlarge : 2 ^ 16 ≤ (ending.toNat - start.toNat - 1) % count.toNat + 1 + count.toNat)
    (source : Nat → List Byte) :
    ¬ Precise start ending (missedOf fails (m + 2) (retries fails count start ending (m + 1)))
      (after source fails (after source fails ⟨0, []⟩ (ops count start ending (m + 1)))
        (retries fails count start ending (m + 1))) := by
  intro hprecise
  obtain ⟨hcursor, hend, hsize⟩ := restOp_bounds hlong hwrap hm
  have hmod := Nat.mod_lt (ending.toNat - start.toNat - 1) hwrap.1
  have hc := count.isLt
  have hops {b : Block} (hb : b ∈ ops count start ending (m + 1)) {x : Nat}
      (hx : x ∈ b.span.points) : start.toNat ≤ x ∧ x < ending.toNat - 1 := by
    have hlo : b.LBA.toNat ≤ x := hx.1
    have hhi : x < b.LBA.toNat + b.count.toNat := hx.2
    rw [ops_last hlong hM] at hb
    rcases List.mem_append.mp hb with hb | hb
    · obtain ⟨k, hk, rfl⟩ := List.mem_map.mp hb
      have hkm : k < m := by simpa using hk
      have hcur := toNat_cursor hwrap (show k ≤ lastChunk count start ending by omega)
      have hmul : (k + 1) * count.toNat ≤ m * count.toNat := Nat.mul_le_mul_right _ hkm
      rw [Nat.add_mul, Nat.one_mul] at hmul
      change (cursor count start k).toNat ≤ x at hlo
      change x < (cursor count start k).toNat + count.toNat at hhi
      omega
    · rcases List.mem_pair.mp hb with rfl | rfl
      · change (cursor count start m).toNat ≤ x at hlo
        change x < (cursor count start m).toNat + count.toNat at hhi
        omega
      · change (cursor count start m).toNat ≤ x at hlo
        change x < (cursor count start m).toNat + (restOp count start ending m).count.toNat at hhi
        omega
  have hretries {b : Block} (hb : b ∈ retries fails count start ending (m + 1)) :
      start.toNat ≤ b.LBA.toNat ∧ b.LBA.toNat < ending.toNat - 1 := by
    obtain ⟨b', hb', hx⟩ := retries_in_ops hb
    exact hops hb' hx
  have hlast : ending.toNat - 1 ∉ (after source fails (after source fails ⟨0, []⟩
      (ops count start ending (m + 1))) (retries fails count start ending (m + 1))).blocks := by
    intro hin
    rcases mem_blocks_after.mp hin with hin | ⟨b, hb, hx⟩
    · rcases mem_blocks_after.mp hin with hin | ⟨b, hb, hx⟩
      · cases hin
      · exact absurd (hops ((doneOf_sublist ..).subset hb) hx).2 (lt_irrefl _)
    · have hb := (doneOf_sublist ..).subset hb
      rw [mem_span_retries hb] at hx
      have := (hretries hb).2
      omega
  have hreported := hprecise.reported
    (fun b hb => (hretries ((missedOf_sublist ..).subset hb)).imp_right (by omega))
    (by omega) (by omega) hlast
  obtain ⟨b, hb, hx⟩ := List.mem_map.mp hreported
  have := (hretries ((missedOf_sublist ..).subset hb)).2
  omega

include hlong hwrap in
/-- **When the report for a pattern of failed reads is precise**: 16 bits are enough for the last
chunk with the rest, and no block of the last chunk fails when it is tried again. -/
theorem reports_iff_of_unwrapped : Reports fails count start ending ↔
    (ending.toNat - start.toNat - 1) % count.toNat + 1 + count.toNat < 2 ^ 16 ∧
      RetriesFine fails count start ending := by
  obtain ⟨m, hm, hM⟩ := turns_lastChunk hlong hwrap
  refine ⟨fun h => ?_, fun ⟨hfits, hfine⟩ source n r hr _ => ?_⟩
  · have hfits : (ending.toNat - start.toNat - 1) % count.toNat + 1 + count.toNat < 2 ^ 16 := by
      by_contra hlarge
      exact not_precise_of_long hlong hwrap hm hM (by omega) _ (h.precise hM fun _ => [])
    exact ⟨hfits, retriesFine_of_reports hlong hwrap hm hM hfits h⟩
  · have hmore := doCopy_mono (Nat.le_max_left n (2 ^ 16 + (m + 1))) hr
    cases (doCopy_eq hM (Nat.le_max_right ..)).symm.trans hmore
    exact precise_of_retriesFine hlong hwrap hm hM hfits hfine source

end unwrapped

/-- **A report of failed blocks.** For a range longer than a chunk it is precise for every pattern
of failed reads exactly when the first loop never ends and nothing is reported; and for one
pattern, where the cursor does not wrap, exactly when 16 bits are enough for the last chunk with the
rest and no block of the last chunk fails when it is tried again. -/
theorem doCopy_report_iff (hlong : count.toNat < ending.toNat - start.toNat) :
    ((∀ fails, Reports fails count start ending) ↔ Endless count start ending) ∧
      (Unwrapped count start ending → ∀ fails, Reports fails count start ending ↔
        (ending.toNat - start.toNat - 1) % count.toNat + 1 + count.toNat < 2 ^ 16 ∧
          RetriesFine fails count start ending) :=
  ⟨reports_iff hlong, fun hwrap _ => reports_iff_of_unwrapped hlong hwrap⟩

theorem doCopy_report_sample : Unwrapped 64 100 1000 ∧ Reports (fun k => k = 13) 64 100 1000 :=
  ⟨by decide, ((doCopy_report_iff (by decide)).2 (by decide) _).mpr (by decide)⟩

/-- The last chunk of 64 blocks is missed and read again with the rest, and then its first block
fails on its own: the block is reported, though it was copied. -/
theorem reported_though_copied : ¬ Reports (fun k => k = 13 ∨ k = 15) 64 100 1000 := by
  intro h
  obtain ⟨-, hlast, -⟩ := (reports_iff_of_unwrapped (by decide) (by decide)).mp h
  exact absurd (hlast (by decide) 0 (by decide)) (by decide)

end report

end DiskCopy
