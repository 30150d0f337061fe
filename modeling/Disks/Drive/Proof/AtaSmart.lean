import Mathlib.Data.List.Nodup
import Mathlib.Data.List.TakeWhile
import Disks.Drive.AtaSmart

/-!
# The join of SMART values and thresholds

What `CMD_SMART_ATTRIBS` answers for two pages, next to the join of the pages by id.

* `smartThresholds_eq`: the loop over the thresholds as one update of every attribute.
* `toNat_rawOf`: the raw value is the six bytes.
* `ataSmartAttribs_joined_iff`: **the answer is the join exactly when** no empty entry stands before
  a threshold that is needed.
-/

namespace Drive

open Bytes

/-! ## Entries -/

/-- The entries of the two pages. -/
def attribs (tdata : List Byte) : List AtaSmartAttrib :=
  (List.range NUM_ATA_SMART_ATTRIBS).map (attribAt tdata)

def smartLimits (tdata : List Byte) : List AtaSmartThreshold :=
  (List.range NUM_ATA_SMART_ATTRIBS).map (thresholdAt tdata)

/-- No id is in a page twice. -/
def DistinctIds (ids : List Byte) : Prop := (ids.filter (· ≠ 0)).Nodup

instance (ids : List Byte) : Decidable (DistinctIds ids) :=
  inferInstanceAs (Decidable (List.Nodup _))

/-- The raw value that is due. -/
def dueRaw (a : AtaSmartAttrib) : Nat :=
  if a.id = 190 ∨ a.id = 194 ∨ a.id = 231 then (a.rawValue.headD 0).toNat else le a.rawValue

/-- **The answer is the join of the pages**: the entries in use, in order, each once, and the
threshold of each is that of the entry with its id. -/
structure SmartJoined (values thresholds : List Byte) (out : List SmartAttribAta) : Prop where
  reported : out.map (fun a => (a.id, a.current, a.max, a.raw.toNat)) =
    ((attribs values).filter (·.id ≠ 0)).map fun a => (a.id, a.curValue, a.maxValue, dueRaw a)
  once : (out.map (·.id)).Nodup
  joined : ∀ a ∈ out, ∀ t ∈ smartLimits thresholds, t.id = a.id → a.threshold = t.threshold

/-- No empty entry stands before a threshold that is not zero, of an id in use. -/
def NoHoleBefore (values thresholds : List Byte) : Prop :=
  ∀ i < NUM_ATA_SMART_ATTRIBS, (thresholdAt thresholds i).threshold ≠ 0 →
    (thresholdAt thresholds i).id ≠ 0 →
    ((attribs values).map (·.id)).contains (thresholdAt thresholds i).id = true →
    ∀ k < i, (thresholdAt thresholds k).id ≠ 0

instance (values thresholds : List Byte) : Decidable (NoHoleBefore values thresholds) :=
  Nat.decidableBallLT _ _

/-! ## The values -/

theorem smartValues_eq (values : List Byte) :
    smartValues values = ((attribs values).filter (·.id ≠ 0)).map AtaSmartAttrib.report := by
  unfold smartValues attribs
  induction List.range NUM_ATA_SMART_ATTRIBS with
  | nil => rfl
  | cons i is ih =>
    rw [List.filterMap_cons, List.map_cons, List.filter_cons, ih]
    dsimp only
    by_cases h : (attribAt values i).id = 0
    · rw [if_pos h, if_neg (by simpa using h)]
    · rw [if_neg h, if_pos (by simpa using h)]
      rfl

theorem ids_smartValues (values : List Byte) :
    (smartValues values).map (·.id) = ((attribs values).map (·.id)).filter (· ≠ 0) := by
  rw [smartValues_eq, List.map_map, List.filter_map]
  rfl

/-- Six bytes put in their places are the number they hold. -/
theorem toNat_shifts (b0 b1 b2 b3 b4 b5 : Byte) :
    ((b5.setWidth 64 <<< 40) ||| (b4.setWidth 64 <<< 32) ||| (b3.setWidth 64 <<< 24) |||
      (b2.setWidth 64 <<< 16) ||| (b1.setWidth 64 <<< 8) ||| b0.setWidth 64 : U64).toNat =
        le [b0, b1, b2, b3, b4, b5] := by
  have hlt (b : Byte) : b.toNat < 256 := b.isLt
  have hlt0 := hlt b0
  have hlt1 := hlt b1
  have hlt2 := hlt b2
  have hlt3 := hlt b3
  have hlt4 := hlt b4
  have h0 : (b0.setWidth 64 : U64).toNat = b0.toNat := BitVec.toNat_setWidth_of_le (by decide)
  have h1 := toNat_shiftLeft_or b1 (show 8 + 8 ≤ 64 by decide) (y := b0.setWidth 64) (by omega)
  have h2 := toNat_shiftLeft_or b2 (show 16 + 8 ≤ 64 by decide)
    (y := b1.setWidth 64 <<< 8 ||| b0.setWidth 64) (by omega)
  have h3 := toNat_shiftLeft_or b3 (show 24 + 8 ≤ 64 by decide)
    (y := b2.setWidth 64 <<< 16 ||| (b1.setWidth 64 <<< 8 ||| b0.setWidth 64)) (by omega)
  have h4 := toNat_shiftLeft_or b4 (show 32 + 8 ≤ 64 by decide)
    (y := b3.setWidth 64 <<< 24 ||| (b2.setWidth 64 <<< 16 |||
      (b1.setWidth 64 <<< 8 ||| b0.setWidth 64))) (by omega)
  have h5 := toNat_shiftLeft_or b5 (show 40 + 8 ≤ 64 by decide)
    (y := b4.setWidth 64 <<< 32 ||| (b3.setWidth 64 <<< 24 ||| (b2.setWidth 64 <<< 16 |||
      (b1.setWidth 64 <<< 8 ||| b0.setWidth 64)))) (by omega)
  simp only [BitVec.or_assoc, le_cons, le_nil]
  omega

/-- **The raw value**: six bytes, or the lowest. -/
theorem toNat_rawOf (tdata : List Byte) (i : Nat) :
    (rawOf (attribAt tdata i)).toNat = dueRaw (attribAt tdata i) := by
  unfold rawOf dueRaw
  have hid : ((attribAt tdata i).id = 194 ∨ (attribAt tdata i).id = 190 ∨
      (attribAt tdata i).id = 231) ↔ ((attribAt tdata i).id = 190 ∨ (attribAt tdata i).id = 194 ∨
      (attribAt tdata i).id = 231) := by tauto
  by_cases h : (attribAt tdata i).id = 190 ∨ (attribAt tdata i).id = 194 ∨
      (attribAt tdata i).id = 231
  · rw [if_pos h]
    simp only [if_pos (hid.mpr h)]
    exact BitVec.toNat_setWidth_of_le (by decide)
  · rw [if_neg h]
    simp only [if_neg (mt hid.mp h)]
    exact toNat_shifts ..

/-! ## The thresholds -/

/-- An inner loop changes the attribute with the id. -/
theorem setThreshold_eq {as : List SmartAttribAta} (h : (as.map (·.id)).Nodup)
    (t : AtaSmartThreshold) :
    setThreshold as t =
      as.map fun a => if a.id = t.id then { a with threshold := t.threshold } else a := by
  induction as with
  | nil => rfl
  | cons a as ih =>
    rw [List.map_cons, List.nodup_cons] at h
    rw [setThreshold, List.map_cons]
    by_cases hid : a.id = t.id
    · rw [if_pos hid, if_pos hid]
      congr 1
      have hsame : ∀ a' ∈ as, (if a'.id = t.id then { a' with threshold := t.threshold }
          else a') = a' := fun a' ha' => by
        refine if_neg fun hid' => h.1 ?_
        rw [hid, ← hid']
        exact List.mem_map_of_mem ha'
      rw [List.map_congr_left hsame, List.map_id']
    · rw [if_neg hid, if_neg hid, ih h.2]

/-- The threshold for an id, `d` where there is none. -/
def limitFor (ts : List AtaSmartThreshold) (id d : Byte) : Byte :=
  ((ts.find? (·.id = id)).map (·.threshold)).getD d

theorem limitFor_cons (t : AtaSmartThreshold) (ts : List AtaSmartThreshold) (id d : Byte) :
    limitFor (t :: ts) id d = if t.id = id then t.threshold else limitFor ts id d := by
  unfold limitFor
  rw [List.find?_cons]
  by_cases h : t.id = id
  · rw [if_pos h, decide_eq_true h]
    rfl
  · rw [if_neg h, decide_eq_false h]

theorem limitFor_of_notMem {ts : List AtaSmartThreshold} {id : Byte}
    (h : id ∉ ts.map (·.id)) (d : Byte) : limitFor ts id d = d := by
  have hnone : ts.find? (·.id = id) = none := by
    refine List.find?_eq_none.mpr fun t ht => ?_
    simp only [decide_eq_true_eq]
    rintro rfl
    exact h (List.mem_map_of_mem ht)
  rw [limitFor, hnone]
  rfl

/-- With distinct ids the threshold for an id is that of its entry. -/
theorem limitFor_of_mem {ts : List AtaSmartThreshold} (hts : (ts.map (·.id)).Nodup)
    {t : AtaSmartThreshold} (ht : t ∈ ts) (d : Byte) : limitFor ts t.id d = t.threshold := by
  induction ts with
  | nil => cases ht
  | cons t' ts ih =>
    rw [List.map_cons, List.nodup_cons] at hts
    rw [limitFor_cons]
    rcases List.mem_cons.mp ht with rfl | ht
    · exact if_pos rfl
    · have hid : t'.id ≠ t.id := fun heq => hts.1 (by rw [heq]; exact List.mem_map_of_mem ht)
      rw [if_neg hid, ih hts.2 ht]

/-- **The loop over the thresholds.** -/
theorem foldl_setThreshold {ts : List AtaSmartThreshold} (hts : (ts.map (·.id)).Nodup)
    {as : List SmartAttribAta} (has : (as.map (·.id)).Nodup) :
    ts.foldl setThreshold as =
      as.map fun a => { a with threshold := limitFor ts a.id a.threshold } := by
  induction ts generalizing as with
  | nil => exact (List.map_id' as).symm
  | cons t ts ih =>
    rw [List.map_cons, List.nodup_cons] at hts
    have hids : (setThreshold as t).map (·.id) = as.map (·.id) := by
      rw [setThreshold_eq has, List.map_map]
      refine List.map_congr_left fun a _ => ?_
      rw [Function.comp_apply]
      split <;> rfl
    rw [List.foldl_cons, ih hts.2 (by rwa [hids]), setThreshold_eq has, List.map_map]
    refine List.map_congr_left fun a _ => ?_
    rw [Function.comp_apply, limitFor_cons]
    by_cases hid : a.id = t.id
    · rw [if_pos hid, if_pos hid.symm, hid, limitFor_of_notMem hts.1]
    · rw [if_neg hid, if_neg fun heq => hid heq.symm]

/-! ## The join -/

/-- The entries the loop over the thresholds reads. -/
def readLimits (thresholds : List Byte) : List AtaSmartThreshold :=
  (smartLimits thresholds).takeWhile (·.id ≠ 0)

theorem mem_takeWhile_range' (p : Nat → Bool) (s n i : Nat) :
    i ∈ (List.range' s n).takeWhile p ↔ s ≤ i ∧ i < s + n ∧ ∀ k, s ≤ k → k ≤ i → p k = true := by
  induction n generalizing s with
  | zero =>
    simp only [List.range'_zero, List.takeWhile_nil, List.not_mem_nil, false_iff]
    omega
  | succ n ih =>
    rw [List.range'_succ, List.takeWhile_cons]
    by_cases hp : p s = true
    · rw [if_pos hp, List.mem_cons, ih]
      refine ⟨?_, fun ⟨hlo, hhi, hall⟩ => ?_⟩
      · rintro (rfl | ⟨hlo, hhi, hall⟩)
        · exact ⟨le_refl _, by omega, fun k hk hk' => by rwa [show k = i by omega]⟩
        · refine ⟨by omega, by omega, fun k hk hk' => ?_⟩
          rcases Nat.eq_or_lt_of_le hk with rfl | hlt
          · exact hp
          · exact hall k hlt hk'
      · rcases Nat.eq_or_lt_of_le hlo with rfl | hlt
        · exact .inl rfl
        · exact .inr ⟨hlt, by omega, fun k hk hk' => hall k (by omega) hk'⟩
    · rw [if_neg hp]
      simp only [List.not_mem_nil, false_iff]
      exact fun ⟨hlo, _, hall⟩ => hp (hall s (le_refl _) hlo)

/-- They are those before the first empty entry. -/
theorem mem_readLimits {thresholds : List Byte} {t : AtaSmartThreshold} :
    t ∈ readLimits thresholds ↔ ∃ i < NUM_ATA_SMART_ATTRIBS, t = thresholdAt thresholds i ∧
      ∀ k ≤ i, (thresholdAt thresholds k).id ≠ 0 := by
  rw [readLimits, smartLimits, List.takeWhile_map, List.mem_map, List.range_eq_range']
  simp only [mem_takeWhile_range', Function.comp_apply, decide_eq_true_eq]
  refine ⟨fun ⟨i, ⟨_, hi, hall⟩, ht⟩ => ?_, fun ⟨i, hi, ht, hall⟩ => ?_⟩
  · exact ⟨i, by omega, ht.symm, fun k hk => hall k (Nat.zero_le k) hk⟩
  · exact ⟨i, ⟨Nat.zero_le i, by omega, fun k _ hk => hall k hk⟩, ht.symm⟩

section pages

variable {values thresholds : List Byte} (hvalues : DistinctIds ((attribs values).map (·.id)))
  (hthresholds : DistinctIds ((smartLimits thresholds).map (·.id)))

include hvalues in
theorem nodup_smartValues : ((smartValues values).map (·.id)).Nodup := by
  rw [ids_smartValues]
  exact hvalues

include hthresholds in
theorem nodup_readLimits : ((readLimits thresholds).map (·.id)).Nodup := by
  have hsub : (readLimits thresholds).Sublist
      ((smartLimits thresholds).filter (·.id ≠ 0)) := by
    have hself : (readLimits thresholds).filter (·.id ≠ 0) = readLimits thresholds := by
      refine List.filter_eq_self.mpr fun t ht => ?_
      rw [readLimits] at ht
      have hid := List.mem_takeWhile_imp ht
      exact hid
    rw [← hself]
    exact (List.takeWhile_sublist _).filter _
  refine List.Nodup.sublist (hsub.map _) ?_
  rwa [DistinctIds, List.filter_map] at hthresholds

include hthresholds in
theorem threshold_inj {i k : Nat} (hi : i < NUM_ATA_SMART_ATTRIBS) (hk : k < NUM_ATA_SMART_ATTRIBS)
    (hid : (thresholdAt thresholds i).id ≠ 0)
    (heq : (thresholdAt thresholds i).id = (thresholdAt thresholds k).id) : i = k := by
  rw [DistinctIds, smartLimits, List.map_map, List.filter_map] at hthresholds
  refine List.inj_on_of_nodup_map hthresholds ?_ ?_ heq
  · exact List.mem_filter.mpr ⟨List.mem_range.mpr hi, by simpa using hid⟩
  · exact List.mem_filter.mpr ⟨List.mem_range.mpr hk, by simpa using heq ▸ hid⟩

include hthresholds in
/-- **The threshold an attribute is given**: 0 behind an empty entry. -/
theorem limitFor_readLimits {i : Nat} (hi : i < NUM_ATA_SMART_ATTRIBS)
    (hid : (thresholdAt thresholds i).id ≠ 0) :
    ((∀ k < i, (thresholdAt thresholds k).id ≠ 0) →
      limitFor (readLimits thresholds) (thresholdAt thresholds i).id 0 =
        (thresholdAt thresholds i).threshold) ∧
    (¬ (∀ k < i, (thresholdAt thresholds k).id ≠ 0) →
      limitFor (readLimits thresholds) (thresholdAt thresholds i).id 0 = 0) := by
  refine ⟨fun hall => ?_, fun hhole => limitFor_of_notMem (fun hmem => hhole ?_) 0⟩
  · refine limitFor_of_mem (nodup_readLimits hthresholds) (mem_readLimits.mpr ⟨i, hi, rfl, ?_⟩) 0
    intro k hk
    rcases Nat.lt_or_eq_of_le hk with hlt | rfl
    · exact hall k hlt
    · exact hid
  · obtain ⟨t, ht, heq⟩ := List.mem_map.mp hmem
    obtain ⟨k, hk, rfl, hall⟩ := mem_readLimits.mp ht
    rw [← threshold_inj hthresholds hi hk hid heq.symm] at hall
    exact fun k' hk' => hall k' hk'.le

/-- The answer for two pages. -/
theorem smartThresholds_eq (hvalues : DistinctIds ((attribs values).map (·.id)))
    (hthresholds : DistinctIds ((smartLimits thresholds).map (·.id))) :
    smartThresholds thresholds (smartValues values) = (smartValues values).map fun a =>
      { a with threshold := limitFor (readLimits thresholds) a.id a.threshold } :=
  foldl_setThreshold (nodup_readLimits hthresholds) (nodup_smartValues hvalues)

include hvalues hthresholds in
/-- **The answer is the join exactly when** no empty entry stands before a threshold that is
needed. -/
theorem smartJoined_iff :
    SmartJoined values thresholds (smartThresholds thresholds (smartValues values)) ↔
      NoHoleBefore values thresholds := by
  have hids : (smartThresholds thresholds (smartValues values)).map (·.id) =
      (smartValues values).map (·.id) := by
    rw [smartThresholds_eq hvalues hthresholds, List.map_map]
    rfl
  have hmem {a : SmartAttribAta} : a ∈ smartThresholds thresholds (smartValues values) ↔
      ∃ v ∈ attribs values, v.id ≠ 0 ∧
        a = { v.report with threshold := limitFor (readLimits thresholds) v.id 0 } := by
    rw [smartThresholds_eq hvalues hthresholds, smartValues_eq, List.map_map, List.mem_map]
    refine exists_congr fun v => ?_
    rw [List.mem_filter, and_assoc, decide_eq_true_eq, eq_comm (a := a)]
    rfl
  refine ⟨fun h i hi hlimit hid hused => ?_, fun h => ⟨?_, ?_, fun a ha t ht hid => ?_⟩⟩
  · by_contra hhole
    obtain ⟨v, hv, hvid⟩ := List.mem_map.mp (List.contains_iff_mem.mp hused)
    have hgiven := h.joined _ (hmem.mpr ⟨v, hv, hvid ▸ hid, rfl⟩) (thresholdAt thresholds i)
      (List.mem_map_of_mem (List.mem_range.mpr hi)) hvid.symm
    have hzero := (limitFor_readLimits hthresholds hi hid).2 hhole
    rw [← hvid] at hzero
    exact hlimit (hgiven.symm.trans hzero)
  · rw [smartThresholds_eq hvalues hthresholds, smartValues_eq, List.map_map, List.map_map]
    refine List.map_congr_left fun v hv => ?_
    obtain ⟨i, -, rfl⟩ := List.mem_map.mp (List.mem_filter.mp hv).1
    have hraw := toNat_rawOf values i
    simp only [Function.comp_apply, AtaSmartAttrib.report, hraw]
  · rw [hids]
    exact nodup_smartValues hvalues
  · obtain ⟨v, hv, hvid, rfl⟩ := hmem.mp ha
    obtain ⟨i, hi, rfl⟩ := List.mem_map.mp ht
    have hi := List.mem_range.mp hi
    change (thresholdAt thresholds i).id = v.id at hid
    change limitFor (readLimits thresholds) v.id 0 = _
    rw [← hid] at hvid ⊢
    obtain ⟨hgiven, hzero⟩ := limitFor_readLimits hthresholds hi hvid
    by_cases hall : ∀ k < i, (thresholdAt thresholds k).id ≠ 0
    · exact hgiven hall
    · rw [hzero hall]
      by_contra hlimit
      refine hall (h i hi (Ne.symm hlimit) hvid ?_)
      rw [hid]
      exact List.contains_iff_mem.mpr (List.mem_map_of_mem hv)

/-- **`CMD_SMART_ATTRIBS` answers with the join of the pages exactly when** no empty entry of the
thresholds page stands before a threshold that is needed. -/
theorem ataSmartAttribs_joined_iff {W : Type} {send : Cmd W} {w : W} {dataLen : Nat}
    (hlen : sizeofSmartAttribs ≤ dataLen) {v t : Exec W}
    (hv : send .ataSmartAttribsValues .read (some zeroed) 512 [] w = some v) (hvrc : v.rc = 0)
    (ht : send .ataSmartAttribsThresholds .read (some zeroed) 512 [] v.world = some t)
    (htrc : t.rc = 0) (hvalues : DistinctIds ((attribs v.data).map (·.id)))
    (hthresholds : DistinctIds ((smartLimits t.data).map (·.id))) :
    (∃ out w', ataSmartAttribs send dataLen w = some (0, out, w') ∧
        SmartJoined v.data t.data out) ↔ NoHoleBefore v.data t.data := by
  have hrun : ataSmartAttribs send dataLen w =
      some (0, smartThresholds t.data (smartValues v.data), t.world) := by
    unfold ataSmartAttribs
    rw [if_neg (Nat.not_lt.mpr hlen), hv]
    simp only [Option.bind_eq_bind, Option.bind_some, hvrc, ne_eq, not_true_eq_false, if_false, ht,
      htrc]
  rw [hrun, ← smartJoined_iff hvalues hthresholds]
  refine ⟨fun ⟨out, w', hout, hjoined⟩ => ?_, fun h => ⟨_, _, rfl, h⟩⟩
  cases hout
  exact hjoined

end pages

/-! ## A page with a hole -/

/-- A page of values with one attribute: id 5 at 100. -/
def onePage : List Byte := poke zeroed 2 [5, 0, 0, 100, 100]

/-- A drive with these pages. -/
def twoPages (thresholds : List Byte) : Cmd Unit := fun command _ _ _ _ w =>
  some ⟨0, if command = .ataSmartAttribsValues then onePage else thresholds, [], w⟩

/-- Id 5 with threshold 10, in the first entry. -/
theorem ataSmartAttribs_joined_first :
    ∃ out w', ataSmartAttribs (twoPages (poke zeroed 2 [5, 10])) 512 () = some (0, out, w') ∧
      SmartJoined onePage (poke zeroed 2 [5, 10]) out :=
  (@ataSmartAttribs_joined_iff Unit (twoPages (poke zeroed 2 [5, 10])) () 512 (by decide)
    ⟨0, onePage, [], ()⟩ ⟨0, poke zeroed 2 [5, 10], [], ()⟩ rfl rfl rfl rfl (by decide +kernel)
    (by decide +kernel)).mpr (by decide +kernel)

/-- In the second entry, behind an empty one: the attribute has threshold 0. -/
theorem threshold_behind_hole :
    ¬ SmartJoined onePage (poke zeroed 14 [5, 10])
      (smartThresholds (poke zeroed 14 [5, 10]) (smartValues onePage)) := by
  rw [smartJoined_iff (by decide +kernel) (by decide +kernel)]
  decide +kernel

end Drive
