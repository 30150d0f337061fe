import Disks.Test.Evaluator

/-!
# What a drive is pruned for

`evaluate` looks the limits of an attribute up under the type of the drive, and takes the raw value
out of the attribute. Two of the types have no limits, and an attribute of SCSI has no raw value.

* `lookup_initial`: the attributes kept for a drive are its first ones, over any calls.
* `checkAttribs_pruned_iff`: what the loop prunes for.
* `smartAttribs_isSome_iff`: the models that have limits.
* `evaluate_prunes_iff`: **when a call prunes for the limits alone and does not raise.**
* `samsung_raises`: the first call for a drive of Samsung.
-/

namespace DiskTest

open Drive

/-- A call of `evaluate`. -/
structure Call where
  drive : TestDrive
  attribs : SmartAttribs
  operation : String

/-- The evaluator after some calls, whatever came of them. -/
def after (calls : List Call) : LocalEvaluator :=
  calls.foldl (fun self c => (self.evaluate c.drive c.attribs c.operation).1) {}

/-- The first attributes of a drive that have raw values. -/
def firstReading (drive : TestDrive) (calls : List Call) : Option AttribList :=
  calls.findSome? fun c => if c.drive = drive then (attribList c.attribs).toOption else none

/-! ## The attributes of the first time -/

/-- A call keeps the attributes of a drive that it has none of. -/
theorem lookup_evaluate (self : LocalEvaluator) (c : Call) (drive : TestDrive) :
    ((self.evaluate c.drive c.attribs c.operation).1).initial.lookup drive =
      (self.initial.lookup drive).or
        (if c.drive = drive then (attribList c.attribs).toOption else none) := by
  unfold LocalEvaluator.evaluate
  cases hlist : attribList c.attribs with
  | error e =>
    simp only [Except.toOption, ite_self, Option.or_none]
  | ok attrib_list =>
    by_cases hmem : c.drive ∈ Assoc.keys self.initial
    · simp only [hmem, if_true]
      by_cases hdrive : c.drive = drive
      · rw [hdrive] at hmem
        rw [Option.or_of_isSome (Assoc.lookup_isSome_iff.mpr hmem)]
      · rw [if_neg hdrive, Option.or_none]
    · simp only [hmem, if_false]
      exact Assoc.lookup_set_new hmem attrib_list drive

/-- **The attributes kept for a drive are its first ones.** -/
theorem lookup_initial (calls : List Call) (drive : TestDrive) :
    (after calls).initial.lookup drive = firstReading drive calls := by
  have hloop (self : LocalEvaluator) :
      ((calls.foldl (fun self c => (self.evaluate c.drive c.attribs c.operation).1)
        self).initial.lookup drive) =
          (self.initial.lookup drive).or (firstReading drive calls) := by
    induction calls generalizing self with
    | nil => exact (Option.or_none).symm
    | cons c calls ih =>
      rw [List.foldl_cons, ih, lookup_evaluate, Option.or_assoc, firstReading, firstReading,
        List.findSome?_cons]
      cases (if c.drive = drive then (attribList c.attribs).toOption else none) with
      | none => rfl
      | some first => rfl
  exact hloop {}

/-! ## The loop over the attributes -/

def Verdict.Pruned (v : Verdict) : Prop := ∃ reason report, v = .pruned reason report

def Verdict.Raised (v : Verdict) : Prop := ∃ drive_type, v = .keyError drive_type

theorem Verdict.kept_not : ¬ Verdict.kept.Pruned ∧ ¬ Verdict.kept.Raised := by
  refine ⟨fun h => ?_, fun h => ?_⟩
  · obtain ⟨reason, report, h⟩ := h
    cases h
  · obtain ⟨drive_type, h⟩ := h
    cases h

theorem Verdict.pruned_not (reason : String) (report : Bool) :
    ¬ (Verdict.pruned reason report).Raised := by
  intro h
  obtain ⟨drive_type, h⟩ := h
  cases h

/-- An attribute is above its greatest value, or above its first value by more than its rate. -/
def Exceeds (limits : Limits) (initial : AttribList) (attrib : AttrKey) (value : Int) : Prop :=
  ∃ id limit, limitOf limits attrib = some (id, limit) ∧
    (limit.max < value ∨ ∃ first, initial.lookup attrib = some first ∧ limit.rate < value - first)

/-- With limits, the loop prunes for them alone. -/
theorem checkAttribs_pruned_iff {drive_type : DriveType} {limits : Limits}
    (h : SMART_ATTRIBS drive_type = some limits) (operation : String)
    (initial attrib_list : AttribList) :
    ((checkAttribs operation drive_type initial attrib_list).Pruned ↔
        ∃ item ∈ attrib_list, Exceeds limits initial item.1 item.2) ∧
      ¬ (checkAttribs operation drive_type initial attrib_list).Raised := by
  induction attrib_list with
  | nil =>
    refine ⟨iff_of_false Verdict.kept_not.1 fun h => ?_, Verdict.kept_not.2⟩
    obtain ⟨item, hitem, -⟩ := h
    exact absurd hitem List.not_mem_nil
  | cons item attrib_list ih =>
    obtain ⟨attrib, value⟩ := item
    simp only [checkAttribs, h, List.exists_mem_cons_iff]
    -- the attribute in front is within its limits
    have hrest (hwithin : ¬ Exceeds limits initial attrib value) :
        ((checkAttribs operation drive_type initial attrib_list).Pruned ↔
            Exceeds limits initial attrib value ∨
              ∃ item ∈ attrib_list, Exceeds limits initial item.1 item.2) ∧
          ¬ (checkAttribs operation drive_type initial attrib_list).Raised := by
      rw [or_iff_right hwithin]
      exact ih
    cases hlimit : limitOf limits attrib with
    | none =>
      apply hrest
      rintro ⟨id, limit, hsome, -⟩
      rw [hlimit] at hsome
      cases hsome
    | some found =>
      obtain ⟨id, limit⟩ := found
      have hexceeds : Exceeds limits initial attrib value ↔ limit.max < value ∨
          ∃ first, initial.lookup attrib = some first ∧ limit.rate < value - first := by
        unfold Exceeds
        rw [hlimit]
        simp
      by_cases hmax : value > limit.max
      · simp only [hmax, if_true]
        exact ⟨iff_of_true ⟨_, _, rfl⟩ (.inl (hexceeds.mpr (.inl hmax))), Verdict.pruned_not _ _⟩
      · simp only [hmax, if_false]
        cases hfirst : initial.lookup attrib with
        | none =>
          apply hrest
          rw [hexceeds, hfirst]
          simp [hmax]
        | some first =>
          by_cases hrate : value - first > limit.rate
          · simp only [hrate, if_true]
            exact ⟨iff_of_true ⟨_, _, rfl⟩ (.inl (hexceeds.mpr (.inr ⟨first, hfirst, hrate⟩))),
              Verdict.pruned_not _ _⟩
          · simp only [hrate, if_false]
            apply hrest
            rw [hexceeds, hfirst]
            simp [hmax, hrate]

/-! ## The types with limits -/

/-- The models of the two types that have no limits. -/
def Unlimited (model : Manager.Text) : Prop :=
  "hd".toList <+: lower model ∨ "samsung".toList <+: lower model ∨
    "intel ssd".toList <+: lower model

/-- Two fronts of one text, of which neither starts with the other. -/
theorem not_front {s t l : Manager.Text} (hs : s <+: l) (hle : s.length ≤ t.length)
    (hne : ¬ s <+: t) : ¬ t <+: l :=
  fun ht => hne (List.prefix_of_prefix_length_le hs ht hle)

/-- What has limits starts with none of the three. -/
theorem limited_of_front {s : String} {model : Manager.Text} (hs : s.toList <+: lower model)
    (h : s = "st" ∨ s = "wd" ∨ s = "hu") : ¬ Unlimited model := by
  unfold Unlimited
  rw [not_or, not_or]
  rcases h with rfl | rfl | rfl
  · exact ⟨not_front hs (by decide) (by decide), not_front hs (by decide) (by decide),
      not_front hs (by decide) (by decide)⟩
  · exact ⟨not_front hs (by decide) (by decide), not_front hs (by decide) (by decide),
      not_front hs (by decide) (by decide)⟩
  · exact ⟨not_front hs (by decide) (by decide), not_front hs (by decide) (by decide),
      not_front hs (by decide) (by decide)⟩

/-- **The models that have limits.** -/
theorem smartAttribs_isSome_iff (model : Manager.Text) :
    (SMART_ATTRIBS (getType model)).isSome ↔ ¬ Unlimited model := by
  unfold getType
  by_cases hst : "st".toList <+: lower model
  · simp only [hst, decide_true, if_true]
    exact iff_of_true rfl (limited_of_front hst (.inl rfl))
  by_cases hwd : "wd".toList <+: lower model
  · simp only [hst, hwd, decide_false, decide_true, if_true, Bool.false_eq_true, if_false]
    exact iff_of_true rfl (limited_of_front hwd (.inr (.inl rfl)))
  simp only [hst, hwd, decide_false, Bool.false_eq_true, if_false]
  by_cases hsamsung : "hd".toList <+: lower model ∨ "samsung".toList <+: lower model
  · simp only [Bool.or_eq_true, decide_eq_true_eq, hsamsung, if_true]
    exact iff_of_false (by decide) (not_not.mpr (hsamsung.imp_right .inl))
  simp only [Bool.or_eq_true, decide_eq_true_eq, hsamsung, if_false]
  rw [not_or] at hsamsung
  have hlimited (h : ¬ "intel ssd".toList <+: lower model) : ¬ Unlimited model := by
    rintro (h' | h' | h')
    · exact hsamsung.1 h'
    · exact hsamsung.2 h'
    · exact h h'
  by_cases hhitachi : "hu".toList <+: lower model ∨ "hitachi".toList <+: lower model
  · simp only [hhitachi, if_true]
    refine iff_of_true rfl (hlimited fun hintel => ?_)
    rcases hhitachi with hhu | hhitachi
    · exact not_front hhu (by decide) (by decide) hintel
    · exact not_front hhitachi (by decide) (by decide) hintel
  simp only [hhitachi, if_false]
  by_cases hintel : "intel ssd".toList <+: lower model
  · simp only [hintel, if_true]
    exact iff_of_false (by decide) (not_not.mpr (.inr (.inr hintel)))
  simp only [hintel, if_false]
  refine iff_of_true ?_ (hlimited hintel)
  split <;> rfl

/-! ## A call -/

/-- The attributes with their raw values. -/
def rawValues (tmp_list : Assoc.Dict AttrKey AttrValue) : AttribList :=
  tmp_list.filterMap fun attr => (rawValue attr.2).map (attr.1, ·)

theorem mapM_rawValue {tmp_list : Assoc.Dict AttrKey AttrValue}
    (h : ∀ attr ∈ tmp_list, (rawValue attr.2).isSome) :
    (tmp_list.mapM fun attr => (rawValue attr.2).map (attr.1, ·)) = some (rawValues tmp_list) := by
  induction tmp_list with
  | nil => rfl
  | cons attr tmp_list ih =>
    obtain ⟨hattr, h⟩ := List.forall_mem_cons.mp h
    obtain ⟨raw, hraw⟩ := Option.isSome_iff_exists.mp hattr
    rw [List.mapM_cons, hraw, ih h]
    simp [rawValues, hraw]

theorem mapM_none {tmp_list : Assoc.Dict AttrKey AttrValue}
    (h : ¬ ∀ attr ∈ tmp_list, (rawValue attr.2).isSome) :
    (tmp_list.mapM fun attr => (rawValue attr.2).map (attr.1, ·)) = none := by
  induction tmp_list with
  | nil => exact absurd (List.forall_mem_nil _) h
  | cons attr tmp_list ih =>
    rw [List.mapM_cons]
    cases hraw : rawValue attr.2 with
    | none => rfl
    | some raw =>
      have hrest : ¬ ∀ attr ∈ tmp_list, (rawValue attr.2).isSome := fun hrest =>
        h (List.forall_mem_cons.mpr ⟨Option.isSome_iff_exists.mpr ⟨raw, hraw⟩, hrest⟩)
      rw [ih hrest]
      rfl

theorem attribList_ok {attribs : SmartAttribs} {tmp_list : Assoc.Dict AttrKey AttrValue}
    (hlist : smartAttrs attribs = .ok tmp_list) (h : ∀ attr ∈ tmp_list, (rawValue attr.2).isSome) :
    attribList attribs = .ok (rawValues tmp_list) := by
  rw [attribList, hlist]
  simp only [mapM_rawValue h]

theorem attribList_error {attribs : SmartAttribs} {tmp_list : Assoc.Dict AttrKey AttrValue}
    (hlist : smartAttrs attribs = .ok tmp_list)
    (h : ¬ ∀ attr ∈ tmp_list, (rawValue attr.2).isSome) : ∃ e, attribList attribs = .error e := by
  rw [attribList, hlist]
  simp only [mapM_none h]
  exact ⟨_, rfl⟩

/-- An attribute without a raw value is one of SCSI, and so are the others. -/
theorem rawValues_nil {attribs : SmartAttribs} {tmp_list : Assoc.Dict AttrKey AttrValue}
    (hlist : smartAttrs attribs = .ok tmp_list)
    (h : ¬ ∀ attr ∈ tmp_list, (rawValue attr.2).isSome) : rawValues tmp_list = [] := by
  cases attribs with
  | ata attribs =>
    cases hlist
    refine absurd (fun attr hattr => ?_) h
    obtain ⟨a, -, rfl⟩ := List.mem_map.mp (Assoc.mem_ofPairs hattr)
    rfl
  | scsi attribs =>
    cases hlist
    refine List.filterMap_eq_nil_iff.mpr fun attr hattr => ?_
    obtain ⟨a, -, rfl⟩ := List.mem_map.mp (Assoc.mem_ofPairs hattr)
    rfl
  | nvme =>
    cases hlist
    rfl
  | unknown protocol => cases hlist

/-- What a call does, by the attributes that it takes. -/
theorem evaluate_verdict {calls : List Call} {c : Call} {attrib_list : AttribList}
    (hlist : attribList c.attribs = .ok attrib_list) :
    ((after calls).evaluate c.drive c.attribs c.operation).2 =
      checkAttribs c.operation (getType c.drive.model)
        ((firstReading c.drive (calls ++ [c])).getD []) attrib_list := by
  have hlookup : firstReading c.drive (calls ++ [c]) =
      ((after calls).evaluate c.drive c.attribs c.operation).1.initial.lookup c.drive := by
    rw [lookup_evaluate, lookup_initial, firstReading, firstReading, List.findSome?_append,
      List.findSome?_singleton]
  rw [hlookup]
  unfold LocalEvaluator.evaluate
  simp only [hlist]

/-- A monitored attribute of the drive is above its limits. -/
def Failing (calls : List Call) (c : Call) (tmp_list : Assoc.Dict AttrKey AttrValue) : Prop :=
  ∃ limits, SMART_ATTRIBS (getType c.drive.model) = some limits ∧ ∃ item ∈ rawValues tmp_list,
    Exceeds limits ((firstReading c.drive (calls ++ [c])).getD []) item.1 item.2

/-- **When a call prunes for the limits alone, and does not raise**: the drive gave no attributes,
or they are not those of SCSI and the type of the drive has limits. -/
theorem evaluate_prunes_iff (calls : List Call) (c : Call)
    (tmp_list : Assoc.Dict AttrKey AttrValue) (hlist : smartAttrs c.attribs = .ok tmp_list) :
    ((((after calls).evaluate c.drive c.attribs c.operation).2.Pruned ↔
          Failing calls c tmp_list) ∧
        ¬ ((after calls).evaluate c.drive c.attribs c.operation).2.Raised) ↔
      tmp_list = [] ∨
        (∀ attr ∈ tmp_list, (rawValue attr.2).isSome) ∧ ¬ Unlimited c.drive.model := by
  have hfailing (h : rawValues tmp_list = []) : ¬ Failing calls c tmp_list := by
    rintro ⟨limits, -, item, hitem, -⟩
    rw [h] at hitem
    exact absurd hitem List.not_mem_nil
  by_cases hraw : ∀ attr ∈ tmp_list, (rawValue attr.2).isSome
  · rw [evaluate_verdict (attribList_ok hlist hraw), and_iff_right hraw]
    by_cases hlimited : Unlimited c.drive.model
    · -- no limits, so that the loop raises at the first attribute
      have hnone : SMART_ATTRIBS (getType c.drive.model) = none := by
        rw [← Option.not_isSome_iff_eq_none, smartAttribs_isSome_iff, not_not]
        exact hlimited
      cases tmp_list with
      | nil =>
        exact iff_of_true ⟨iff_of_false Verdict.kept_not.1 (hfailing rfl), Verdict.kept_not.2⟩
          (.inl rfl)
      | cons attr tmp_list =>
        refine iff_of_false (fun h => h.2 ?_) fun h => h.elim (by simp) fun h => h hlimited
        obtain ⟨raw, hattr⟩ := Option.isSome_iff_exists.mp (hraw attr (List.mem_cons_self ..))
        rw [rawValues, List.filterMap_cons, hattr]
        simp only [Option.map_some, checkAttribs, hnone]
        exact ⟨_, rfl⟩
    · obtain ⟨limits, hlimits⟩ :=
        Option.isSome_iff_exists.mp ((smartAttribs_isSome_iff _).mpr hlimited)
      have hloop := checkAttribs_pruned_iff hlimits c.operation
        ((firstReading c.drive (calls ++ [c])).getD []) (rawValues tmp_list)
      refine iff_of_true ⟨hloop.1.trans ?_, hloop.2⟩ (.inr hlimited)
      unfold Failing
      rw [hlimits]
      simp
  · have hne : tmp_list ≠ [] := by
      rintro rfl
      exact hraw (List.forall_mem_nil _)
    refine iff_of_false (fun h => ?_) fun h => h.elim hne fun h => hraw h.1
    -- the exception is taken for a failing drive
    obtain ⟨e, he⟩ := attribList_error hlist hraw
    apply hfailing (rawValues_nil hlist hraw)
    apply h.1.mp
    unfold LocalEvaluator.evaluate
    simp only [he]
    exact ⟨_, _, rfl⟩

/-- A drive of a model, with one attribute of ATA. -/
def oneAttribute (model : String) (id raw : Nat) : Call where
  drive := ⟨⟨.ATA 0, "sda".toList, none, "/dev/sda".toList, none⟩, model.toList⟩
  attribs := .ata [⟨BitVec.ofNat 8 id, 100, 100, 0, BitVec.ofNat 64 raw⟩]
  operation := "Initial"

/-- The spin retry count of a drive of Seagate is above 5. -/
theorem evaluate_prunes_seagate :
    ((((after []).evaluate (oneAttribute "ST2000" 10 6).drive (oneAttribute "ST2000" 10 6).attribs
          (oneAttribute "ST2000" 10 6).operation).2.Pruned ↔
          Failing [] (oneAttribute "ST2000" 10 6) [(.id 10, .ata 100 100 0 6)]) ∧
        ¬ ((after []).evaluate (oneAttribute "ST2000" 10 6).drive
          (oneAttribute "ST2000" 10 6).attribs (oneAttribute "ST2000" 10 6).operation).2.Raised) ↔
      [(AttrKey.id 10, AttrValue.ata 100 100 0 6)] = [] ∨
        (∀ attr ∈ [(AttrKey.id 10, AttrValue.ata 100 100 0 6)], (rawValue attr.2).isSome) ∧
          ¬ Unlimited (oneAttribute "ST2000" 10 6).drive.model :=
  evaluate_prunes_iff [] (oneAttribute "ST2000" 10 6) [(.id 10, .ata 100 100 0 6)] rfl

/-- Any attribute of a drive of Samsung. -/
theorem samsung_raises :
    ((after []).evaluate (oneAttribute "SAMSUNG HD103SJ" 1 0).drive
        (oneAttribute "SAMSUNG HD103SJ" 1 0).attribs
        (oneAttribute "SAMSUNG HD103SJ" 1 0).operation).2 = .keyError .Samsung := by
  decide

end DiskTest
