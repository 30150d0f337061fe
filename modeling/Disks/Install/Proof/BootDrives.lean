import Disks.Install.Proof.Turns
import Mathlib.Data.List.Nodup

/-!
# The boot drives

`_targetsWithMount` looks for the array or the partition mounted at a point. Arrays have their
members by number, but `bcache` devices and volume groups count their members by numbers of their
own in the same key `group`: a member of another kind with the number of the array is taken too.

* `targetsWithMount_exact`: the targets found are those that carry the mount point, each once, where
  the items with its number are members of the array on drives of their own (`Separate`).
* `partition_calls`: the reservations come first, then a partition for each item with `target`.
* `boot_drives_iff`: **when each boot drive is found, and gets its reservation, exactly once.**
* `dual_lvm_reserves_twice`: a recipe of the installer, where each boot drive is found twice.
-/

namespace Filesystem

open Fold

/-! ## What is mounted -/

/-- The items for a mount point. -/
def itemsAt (recipe : List Item) (mount_point : String) : List Item :=
  recipe.filter fun i => i.mount_point = some (some mount_point)

/-- The array mounted at a point: of several items the last. -/
def arrayAt (recipe : List Item) (mount_point : String) : Option Int :=
  ((itemsAt recipe mount_point).filterMap (·.md)).getLast?

/-- The drive of the last item for a mount point that has one. -/
def driveAt (recipe : List Item) (mount_point : String) : Option Int :=
  ((itemsAt recipe mount_point).filterMap (·.target)).getLast?

/-- The types of items with `target` that are not file systems. -/
def unmounted : List String := ["swap", "blank", "empty", "md", "bcache", "pv"]

/-- The drive of the partition mounted at a point. -/
def plainAt (recipe : List Item) (mount_point : String) : Option Int :=
  (((itemsAt recipe mount_point).filter fun i => ∀ t ∈ i.type, t ∉ unmounted).filterMap
    (·.target)).getLast?

/-- A target has a member of the array mounted at a point, or the partition. -/
def Carries (recipe : List Item) (mount_point : String) (target : Int) : Prop :=
  (∃ id, arrayAt recipe mount_point = some id ∧
    ∃ i ∈ recipe, i.type = some "md" ∧ i.group = some id ∧ i.target = some target) ∨
  plainAt recipe mount_point = some target

/-- The items of the drives with a number, whatever they are members of. -/
def numbered (recipe : List Item) (id : Int) : List Item :=
  recipe.filter fun i => i.group = some id ∧ i.target.isSome

/-- For an array, the items with its number are all members of it, each in a place of its own; for
a partition, the last item for the mount point is in its place. -/
def Separate {δ : Type} (place : Int → δ) (recipe : List Item) (mount_point : String) : Prop :=
  match arrayAt recipe mount_point, driveAt recipe mount_point with
  | some id, none =>
    (∀ i ∈ numbered recipe id, i.type = some "md") ∧
      ((numbered recipe id).filterMap fun i => i.target.map place).Nodup
  | none, some target => ∃ t, plainAt recipe mount_point = some t ∧ place t = place target
  | _, _ => True

/-! ## `_targetsWithMount` -/

theorem plainAt_of_driveAt {recipe : List Item} {mount_point : String}
    (h : driveAt recipe mount_point = none) : plainAt recipe mount_point = none := by
  simp only [driveAt, plainAt, List.getLast?_eq_none_iff, List.filterMap_eq_nil_iff,
    List.mem_filter] at h ⊢
  exact fun i hi => h i hi.1

/-- Of things in places of their own, all have a property where its places are all places. -/
theorem places_exact {α δ : Type} {xs : List α} {place : α → Option δ} {p : α → Prop}
    (hplace : ∀ a ∈ xs, (place a).isSome) (hnodup : (xs.filterMap place).Nodup) :
    (∀ y, y ∈ xs.filterMap place ↔ ∃ a ∈ xs, p a ∧ place a = some y) ↔ ∀ a ∈ xs, p a := by
  have hmap : xs.map place = (xs.filterMap place).map some := by
    rw [List.map_filterMap, ← List.filterMap_eq_map]
    refine List.filterMap_congr fun a ha => ?_
    obtain ⟨y, hy⟩ := Option.isSome_iff_exists.mp (hplace a ha)
    simp [hy]
  have hinj : ∀ a ∈ xs, ∀ b ∈ xs, place a = place b → a = b := by
    intro a ha b hb hab
    refine List.inj_on_of_nodup_map (f := place) ?_ ha hb hab
    rw [hmap]
    exact hnodup.map fun _ _ h => Option.some.inj h
  constructor
  · intro h a ha
    obtain ⟨y, hy⟩ := Option.isSome_iff_exists.mp (hplace a ha)
    obtain ⟨b, hb, hpb, hby⟩ := (h y).mp (List.mem_filterMap.mpr ⟨a, ha, hy⟩)
    rwa [hinj a ha b hb (hy.trans hby.symm)]
  · intro h y
    rw [List.mem_filterMap]
    constructor
    · intro hy
      obtain ⟨a, ha, hy⟩ := hy
      exact ⟨a, ha, h a ha, hy⟩
    · intro hy
      obtain ⟨a, ha, -, hy⟩ := hy
      exact ⟨a, ha, hy⟩

/-- The members of an array are the items with its number that are members of arrays. -/
theorem carries_array {recipe : List Item} {mount_point : String} {id : Int}
    (harray : arrayAt recipe mount_point = some id) (hdrive : driveAt recipe mount_point = none)
    {δ : Type} (place : Int → δ) (y : δ) :
    (∃ t, Carries recipe mount_point t ∧ place t = y) ↔
      ∃ i ∈ numbered recipe id, i.type = some "md" ∧ i.target.map place = some y := by
  simp only [Carries, harray, plainAt_of_driveAt hdrive, Option.some.injEq, exists_eq_left',
    reduceCtorEq, or_false, numbered, List.mem_filter, decide_eq_true_eq, Option.map_eq_some_iff]
  constructor
  · intro h
    obtain ⟨t, ⟨i, hi, htype, hgroup, ht⟩, hy⟩ := h
    exact ⟨i, ⟨hi, hgroup, by simp [ht]⟩, htype, t, ht, hy⟩
  · intro h
    obtain ⟨i, ⟨hi, hgroup, -⟩, htype, t, ht, hy⟩ := h
    exact ⟨t, ⟨i, hi, htype, hgroup, ht⟩, hy⟩

theorem targetsWithMount_eq (recipe : List Item) (mount_point : String) :
    targetsWithMount recipe mount_point =
      match arrayAt recipe mount_point, driveAt recipe mount_point with
      | none, none => .ok []
      | some _, some _ => raise ("Confused as to where \"" ++ mount_point ++ "\" goes")
      | some id, none => .ok ((numbered recipe id).filterMap (·.target))
      | none, some target => .ok [target] := by
  have hnumbered (id : Int) : (recipe.filter fun i => i.group = some id).filterMap (·.target) =
      (numbered recipe id).filterMap (·.target) := by
    rw [numbered, List.filterMap_filter, List.filterMap_filter]
    refine List.filterMap_congr fun i _ => ?_
    cases i.target <;> simp
  have hcode : targetsWithMount recipe mount_point =
      match arrayAt recipe mount_point, driveAt recipe mount_point with
      | none, none => .ok []
      | some _, some _ => raise ("Confused as to where \"" ++ mount_point ++ "\" goes")
      | some id, none => .ok ((recipe.filter fun i => i.group = some id).filterMap (·.target))
      | none, some target => .ok [target] := rfl
  rw [hcode]
  cases arrayAt recipe mount_point with
  | none => cases driveAt recipe mount_point <;> rfl
  | some id =>
    cases driveAt recipe mount_point with
    | none => exact congrArg _ (hnumbered id)
    | some target => rfl

/-- **The targets found are those that carry the mount point, each in a place of its own.** -/
theorem targetsWithMount_exact {recipe : List Item} {mount_point : String} {disks : List Int}
    (h : targetsWithMount recipe mount_point = .ok disks) {δ : Type} (place : Int → δ) :
    ((disks.map place).Nodup ∧
      ∀ y, y ∈ disks.map place ↔ ∃ t, Carries recipe mount_point t ∧ place t = y) ↔
      Separate place recipe mount_point := by
  rw [targetsWithMount_eq] at h
  unfold Separate
  cases harray : arrayAt recipe mount_point with
  | none =>
    cases hdrive : driveAt recipe mount_point with
    | none =>
      simp only [harray, hdrive, Except.ok.injEq] at h
      subst h
      simp [Carries, harray, plainAt_of_driveAt hdrive]
    | some target =>
      simp only [harray, hdrive, Except.ok.injEq] at h
      subst h
      simp only [Carries, harray, reduceCtorEq, false_and, exists_false, false_or, List.map_cons,
        List.map_nil, List.nodup_singleton, true_and, List.mem_singleton]
      constructor
      · intro hy
        exact (hy (place target)).mp rfl
      · intro h y
        obtain ⟨t, ht, hplace⟩ := h
        simp only [ht, Option.some.injEq, exists_eq_left', hplace]
        exact eq_comm
  | some id =>
    cases hdrive : driveAt recipe mount_point with
    | some target => simp [harray, hdrive] at h
    | none =>
      simp only [harray, hdrive, Except.ok.injEq] at h
      have hdisks : disks.map place =
          (numbered recipe id).filterMap fun i => i.target.map place := by
        rw [← h, List.map_filterMap]
      rw [hdisks, and_comm]
      refine and_congr_left fun hnodup => ?_
      simp only [carries_array harray hdrive]
      refine places_exact (fun i hi => ?_) hnodup
      simp only [numbered, List.mem_filter, decide_eq_true_eq] at hi
      simpa using hi.2.2

/-! ## The boot drives of a run -/

/-- Whether there are drives for a mount point. -/
def hasDrives (recipe : List Item) (mount_point : String) : Bool :=
  (driveAt recipe mount_point).isSome ||
    (arrayAt recipe mount_point).any fun id => ! (numbered recipe id).isEmpty

/-- The mount point that decides: `/boot`, or `/` where there is no `/boot`. -/
def bootPoint (recipe : List Item) : String := if hasDrives recipe "/boot" then "/boot" else "/"

theorem targetsWithMount_nil {recipe : List Item} {mount_point : String} {disks : List Int}
    (h : targetsWithMount recipe mount_point = .ok disks) :
    hasDrives recipe mount_point = true ↔ disks ≠ [] := by
  rw [targetsWithMount_eq] at h
  unfold hasDrives
  cases harray : arrayAt recipe mount_point with
  | none =>
    cases hdrive : driveAt recipe mount_point with
    | none => simp_all
    | some target =>
      simp only [harray, hdrive, Except.ok.injEq] at h
      simp [← h]
  | some id =>
    cases hdrive : driveAt recipe mount_point with
    | some target => simp [harray, hdrive] at h
    | none =>
      simp only [harray, hdrive, Except.ok.injEq] at h
      have hnil : (numbered recipe id).filterMap (·.target) = [] ↔ numbered recipe id = [] := by
        rw [List.filterMap_eq_nil_iff, List.eq_nil_iff_forall_not_mem]
        refine forall_congr' fun i => ?_
        simp only [numbered, List.mem_filter, decide_eq_true_eq]
        cases i.target <;> simp
      simp [← h, hnil]

/-- The boot drives are those of the targets found for the mount point that decides. -/
theorem bootDrives_ok {m : Machine} {recipe : List Item} {boot_drives : List String}
    (h : bootDrives m recipe = .ok boot_drives) :
    ∃ disks, targetsWithMount recipe (bootPoint recipe) = .ok disks ∧
      disks.map (index m.target_drives) = boot_drives.map .ok := by
  unfold bootDrives at h
  rw [bind_ok] at h
  obtain ⟨boot, hboot, h⟩ := h
  unfold bootPoint
  by_cases hnil : boot = []
  · rw [if_pos hnil, bind_ok] at h
    obtain ⟨disks, hdisks, h⟩ := h
    by_cases hdisks' : disks = []
    · simp [hdisks'] at h
    · simp only [hdisks', if_false, mapM_eq_ok] at h
      rw [if_neg (by simp [targetsWithMount_nil hboot, hnil])]
      exact ⟨disks, hdisks, h⟩
  · rw [if_neg hnil, bind_ok] at h
    obtain ⟨disks, hdisks, h⟩ := h
    obtain rfl := pure_ok.mp hdisks
    simp only [hnil, if_false, mapM_eq_ok] at h
    rw [if_pos ((targetsWithMount_nil hboot).mpr hnil)]
    exact ⟨boot, hboot, h⟩

/-- The drives of all targets are there. -/
theorem label_ok {m : Machine} {c : Settings} {l : List Int} {g g' : Globals}
    (h : l.foldlM (label m c) g = .ok g') {target : Int} (ht : target ∈ l) :
    ∃ drive, index m.target_drives target = .ok drive := by
  induction l generalizing g with
  | nil => simp at ht
  | cons t l ih =>
    rw [List.foldlM_cons, bind_ok] at h
    obtain ⟨g₁, hstep, hrest⟩ := h
    obtain rfl | ht := List.mem_cons.mp ht
    · unfold label at hstep
      rw [bind_ok] at hstep
      obtain ⟨drive, hdrive, -⟩ := hstep
      exact ⟨drive, hdrive⟩
    · exact ih hrest ht

theorem Carries.mem_targets {recipe : List Item} {mount_point : String} {target : Int}
    (h : Carries recipe mount_point target) : target ∈ targets recipe := by
  rw [targets, List.mem_dedup, List.mem_filterMap]
  obtain ⟨id, -, i, hi, -, -, ht⟩ | h := h
  · exact ⟨i, hi, ht⟩
  · obtain ⟨i, hi, ht⟩ := List.mem_filterMap.mp (List.mem_of_getLast? h)
    simp only [itemsAt, List.mem_filter] at hi
    exact ⟨i, hi.1.1, ht⟩

/-! ## The calls of a run -/

/-- The call for an item with `target`. -/
def Requested (m : Machine) (item : Item) (call : Call) : Prop :=
  ∃ target, item.target = some target ∧ index m.target_drives target = .ok call.block_device

theorem reserveBoot_calls {m : Machine} {c : Settings} {drives : List String} {s s' : Locals}
    (h : drives.foldlM (reserveBoot m c) s = .ok s') :
    s'.calls = s.calls ++ drives.map (reservation c) := by
  have hlog := foldlM_log (R := fun d call => reservation c d = call) Locals.calls
    (fun s d _ s' hstep => by
      obtain ⟨globals, grub_partition, rfl⟩ := reserveBoot_ok hstep
      exact ⟨_, rfl, rfl⟩) h
  obtain ⟨calls, hcalls, heach⟩ := hlog
  have heq : drives.map (reservation c) = calls :=
    List.forall₂_eq_eq_eq ▸ List.forall₂_map_left_iff.mpr heach
  rw [hcalls, heq]

theorem targetItem_calls {m : Machine} {c : Settings} {r : RefSizes} {s s' : Locals} {item : Item}
    (h : targetItem m c r s item = .ok s') :
    ∃ call, s'.calls = s.calls ++ [call] ∧ Requested m item call ∧ SizeIs r item call.size := by
  obtain ⟨target, drive, size, globals, block_device, htarget, hdrive, hsize, h⟩ := targetItem_ok h
  refine ⟨⟨drive, callType (partType c .target item), size⟩, ?_, ⟨target, htarget, hdrive⟩, hsize⟩
  obtain ⟨-, rfl⟩ | ⟨-, rfl⟩ | ⟨-, h⟩ := h
  · rfl
  · rfl
  · obtain ⟨-, _, _, -, -, rfl⟩ | ⟨-, _, _, rfl⟩ | ⟨-, _, _, -, -, rfl⟩ |
      ⟨-, _, _, _, -, -, -, rfl⟩ := placePartition_ok h <;> rfl

theorem mdItem_calls {c : Settings} {s s' : Locals} {item : Item} (h : mdItem c s item = .ok s') :
    s'.calls = s.calls := by
  obtain ⟨_, _, _, _, _, -, -, ⟨-, _, -, rfl⟩ | ⟨-, _, _, rfl⟩ | ⟨-, -, -, rfl⟩ |
    ⟨-, -, _, _, -, -, rfl⟩⟩ := mdItem_ok h <;> rfl

theorem bcacheItem_calls {m : Machine} {c : Settings} {s s' : Locals} {item : Item}
    (h : bcacheItem m c s item = .ok s') : s'.calls = s.calls := by
  obtain ⟨_, _, -, ⟨-, _, -, rfl⟩ | ⟨-, -, rfl⟩ | ⟨-, _, _, -, -, rfl⟩⟩ := bcacheItem_ok h <;> rfl

theorem addVolume_calls {c : Settings} {s s' : Locals} (h : addVolume c s = .ok s') :
    s'.calls = s.calls := by
  obtain ⟨_, _, -, -, ⟨-, rfl⟩ | ⟨-, _, _, _, _, _, -, -, -, -, -, ⟨-, _, -, rfl⟩ |
    ⟨-, _, _, -, -, rfl⟩⟩⟩ := addVolume_ok h <;> rfl

theorem volumes_calls {m : Machine} {c : Settings} {r : RefSizes} {s s' : Locals}
    (h : volumes m c r s = .ok s') : s'.calls = s.calls := by
  obtain ⟨-, rfl⟩ | ⟨-, commands, s₁, s₂, -, hvg, hlv, hadd⟩ := volumes_ok h
  · rfl
  · rw [addVolume_calls hadd]
    have h₁ : s₁.calls = s.calls := by
      refine foldlM_inv (I := fun t => t.calls = s.calls) (fun t _ _ t' hstep ht => ?_) hvg rfl
      obtain ⟨_, _, _, _, _, -, -, -, rfl⟩ := vgItem_ok hstep
      exact ht
    refine foldlM_inv (I := fun t => t.calls = s.calls) (fun t _ _ t' hstep ht => ?_) hlv h₁
    obtain ⟨_, _, _, -, -, -, rfl⟩ := lvItem_ok hstep
    exact ht

/-- The calls of a run, with the sizes after the loop over the items with `ref_size`. -/
theorem partition_sized_calls {p : Profile} {v : ValueMap} {m : Machine} {c : Settings}
    {s : Locals} {boot_drives : List String} (hc : settings p v = .ok c)
    (h : partition p v m = .ok (s, boot_drives)) :
    ∃ r items, refSizes c = .ok r ∧ s.calls = boot_drives.map (reservation c) ++ items ∧
      List.Forall₂ (fun item call => Requested m item call ∧ SizeIs r item call.size)
        (c.recipe.filter (·.target.isSome)) items := by
  obtain ⟨c', s₁, r, hc', hlayout, hvolumes⟩ := partition_ok h
  obtain rfl : c = c' := Except.ok.inj (hc.symm.trans hc')
  obtain ⟨globals, t₁, t₂, drives, t₃, -, -, hreserve, htarget, hmd, hbcache⟩ := layout_ok hlayout
  obtain ⟨items, hitems, heach⟩ := foldlM_log Locals.calls
    (fun _ _ _ _ hstep => targetItem_calls hstep) htarget
  refine ⟨r, items, layout_refSizes hlayout, ?_, heach⟩
  have h₃ : t₃.calls = t₂.calls := by
    refine foldlM_inv (I := fun t => t.calls = t₂.calls) (fun t _ _ t' hstep ht => ?_) hmd rfl
    rw [mdItem_calls hstep, ht]
  have h₁ : s₁.calls = t₂.calls := by
    refine foldlM_inv (I := fun t => t.calls = t₂.calls) (fun t _ _ t' hstep ht => ?_) hbcache h₃
    rw [bcacheItem_calls hstep, ht]
  rw [volumes_calls hvolumes, h₁, hitems, reserveBoot_calls hreserve]
  rfl

/-- **The reservations come first, then a partition for each item with `target`.** -/
theorem partition_calls {p : Profile} {v : ValueMap} {m : Machine} {c : Settings} {s : Locals}
    {boot_drives : List String} (hc : settings p v = .ok c)
    (h : partition p v m = .ok (s, boot_drives)) :
    ∃ items, s.calls = boot_drives.map (reservation c) ++ items ∧
      List.Forall₂ (Requested m) (c.recipe.filter (·.target.isSome)) items := by
  obtain ⟨r, items, -, hcalls, heach⟩ := partition_sized_calls hc h
  exact ⟨items, hcalls, heach.imp fun _ _ hcall => hcall.1⟩

/-! ## When each boot drive is found once -/

/-- A drive has a member of the array mounted at the mount point that decides, or the partition. -/
def BootDrive (m : Machine) (recipe : List Item) (drive : String) : Prop :=
  ∃ t, Carries recipe (bootPoint recipe) t ∧ index m.target_drives t = .ok drive

/-- Before the partitions of the items each boot drive gets one reservation, and no other drive. -/
def ReservedOnce (m : Machine) (c : Settings) (s : Locals) : Prop :=
  ∃ front items, s.calls = front ++ items ∧
    List.Forall₂ (Requested m) (c.recipe.filter (·.target.isSome)) items ∧
    ∀ d, (BootDrive m c.recipe d → front.filter (·.block_device = d) = [reservation c d]) ∧
      (¬ BootDrive m c.recipe d → front.filter (·.block_device = d) = [])

theorem filter_reservations (c : Settings) (drives : List String) (d : String) :
    (drives.map (reservation c)).filter (·.block_device = d) =
      List.replicate (drives.count d) (reservation c d) := by
  have hfilter : (drives.map (reservation c)).filter (·.block_device = d) =
      (drives.filter (· = d)).map (reservation c) := by
    rw [List.filter_map]
    rfl
  rw [hfilter, List.filter_eq, List.map_replicate]

/-- Reservations of a list of drives are one for each drive of a set where the list has it once. -/
theorem reserved_iff (c : Settings) (drives : List String) (p : String → Prop) :
    (∀ d, (p d → (drives.map (reservation c)).filter (·.block_device = d) = [reservation c d]) ∧
      (¬ p d → (drives.map (reservation c)).filter (·.block_device = d) = [])) ↔
      drives.Nodup ∧ ∀ d, d ∈ drives ↔ p d := by
  simp only [filter_reservations]
  have hone (d : String) : List.replicate (drives.count d) (reservation c d) = [reservation c d] ↔
      drives.count d = 1 := by
    constructor
    · intro h
      simpa using congrArg List.length h
    · intro h
      rw [h]
      rfl
  simp only [hone, List.replicate_eq_nil_iff, List.count_eq_zero]
  constructor
  · intro h
    have hmem (d : String) : d ∈ drives ↔ p d := by
      constructor
      · intro hd
        by_contra hp
        exact (h d).2 hp hd
      · intro hp
        exact List.count_pos_iff.mp (by rw [(h d).1 hp]; exact Nat.one_pos)
    refine ⟨List.nodup_iff_count_le_one.mpr fun d => ?_, hmem⟩
    by_cases hd : d ∈ drives
    · exact ((h d).1 ((hmem d).mp hd)).le
    · rw [List.count_eq_zero.mpr hd]
      exact Nat.zero_le 1
  · intro h d
    obtain ⟨hnodup, hmem⟩ := h
    exact ⟨fun hp => List.count_eq_one_of_mem hnodup ((hmem d).mpr hp),
      fun hp hd => hp ((hmem d).mp hd)⟩

/-- **When each boot drive is found, and gets its reservation, exactly once**: where the items with
the number of its array are members of the array, on drives of their own. -/
theorem boot_drives_iff (recipe : List Item) (mount_point : String) :
    (∀ disks, targetsWithMount recipe mount_point = .ok disks →
      ((disks.Nodup ∧ ∀ t, t ∈ disks ↔ Carries recipe mount_point t) ↔
        Separate id recipe mount_point)) ∧
    ∀ p v m c s boot_drives, settings p v = .ok c → c.recipe = recipe →
      bootPoint recipe = mount_point → partition p v m = .ok (s, boot_drives) →
      (ReservedOnce m c s ↔ Separate (index m.target_drives) recipe mount_point) := by
  constructor
  · intro disks h
    simpa using targetsWithMount_exact h id
  · intro p v m c s boot_drives hc hrecipe hpoint h
    subst hpoint hrecipe
    obtain ⟨items, hcalls, hitems⟩ := partition_calls hc h
    obtain ⟨c', s₁, r, hc', hlayout, -⟩ := partition_ok h
    obtain rfl : c = c' := Except.ok.inj (hc.symm.trans hc')
    obtain ⟨globals, -, -, -, -, hboot, hlabel, -⟩ := layout_ok hlayout
    obtain ⟨disks, hdisks, hdrives⟩ := bootDrives_ok hboot
    have hfront : ReservedOnce m c s ↔ boot_drives.Nodup ∧ ∀ d, d ∈ boot_drives ↔
        BootDrive m c.recipe d := by
      rw [← reserved_iff c]
      constructor
      · intro hreserved
        obtain ⟨front, items', hcalls', hitems', heach⟩ := hreserved
        have hlength : items.length = items'.length :=
          hitems.length_eq.symm.trans hitems'.length_eq
        rw [(List.append_inj' (hcalls.symm.trans hcalls') hlength).1]
        exact heach
      · intro heach
        exact ⟨_, items, hcalls, hitems, heach⟩
    rw [hfront, ← targetsWithMount_exact hdisks (index m.target_drives), hdrives]
    have hinj : Function.Injective (Except.ok : String → Run String) := fun _ _ h =>
      Except.ok.inj h
    rw [List.nodup_map_iff hinj]
    refine and_congr_right fun _ => ?_
    constructor
    · intro hmem y
      constructor
      · intro hy
        obtain ⟨d, hd, rfl⟩ := List.mem_map.mp hy
        exact (hmem d).mp hd
      · intro hy
        obtain ⟨t, ht, rfl⟩ := hy
        obtain ⟨d, hd⟩ := label_ok hlabel ht.mem_targets
        rw [hd]
        exact List.mem_map_of_mem ((hmem d).mpr ⟨t, ht, hd⟩)
    · intro hmem d
      rw [BootDrive, ← hmem, List.mem_map_of_injective hinj]

/-- A recipe of the installer whose arrays share their numbers with nothing. -/
theorem mirror_boot_drives :
    ∃ recipe, partitionRecipes "mirror" = some recipe ∧
      ([0, 1] : List Int).Nodup ∧ ∀ t, t ∈ ([0, 1] : List Int) ↔ Carries recipe "/boot" t := by
  refine ⟨_, rfl, ((boot_drives_iff _ "/boot").1 [0, 1] rfl).mpr ?_⟩
  have hmembers : ∀ i ∈ numbered ((partitionRecipes "mirror").getD []) 0, i.type = some "md" := by
    decide
  exact ⟨hmembers, by decide⟩

/-- In this recipe of the installer the members of the volume group have the number of the array of
`/boot`: each boot drive is found twice, and has two partitions reserved for the boot loader. -/
theorem dual_lvm_reserves_twice :
    ∃ recipe s boot_drives, partitionRecipes "dual-lvm" = some recipe ∧
      targetsWithMount recipe "/boot" = .ok [0, 1, 0, 1] ∧ ¬ ([0, 1, 0, 1] : List Int).Nodup ∧
      partition plainProfile { partition_scheme := some "dual-lvm" }
        (plainMachine ["/dev/sda", "/dev/sdb"]) = .ok (s, boot_drives) ∧
      boot_drives = ["/dev/sda", "/dev/sdb", "/dev/sda", "/dev/sdb"] ∧
      (s.calls.filter fun call =>
        call.block_device = "/dev/sda" ∧ call.part_type = .bios_grub).length = 2 := by
  have hrun : (partition plainProfile { partition_scheme := some "dual-lvm" }
      (plainMachine ["/dev/sda", "/dev/sdb"])).toOption.map (fun result => (result.2,
        (result.1.calls.filter fun call =>
          call.block_device = "/dev/sda" ∧ call.part_type = .bios_grub).length)) =
      some (["/dev/sda", "/dev/sdb", "/dev/sda", "/dev/sdb"], 2) := by
    decide +kernel
  obtain ⟨⟨s, boot_drives⟩, hok, hseen⟩ := toOption_map hrun
  obtain ⟨hdrives, hcount⟩ := Prod.mk.inj hseen
  exact ⟨_, s, boot_drives, rfl, rfl, by decide, hok, hdrives, hcount⟩

end Filesystem
