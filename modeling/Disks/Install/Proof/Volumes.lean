import Disks.Install.Proof.Independence

/-!
# When each volume is made

What makes a volume stands after the loop over the items with `lv`, in the handler of a missing
`mkfs_options`: it is done once, for the last item, or not at all. Of that item it takes the type of
the entry from the defaults, and where the item says `defaults` the options of an earlier one.

* `volumes_iff`: **each volume is made and gets its entry exactly when there is none, and nothing is
  made, or one, without `mkfs_options` and of the default type** (`OneVolume`).
* `first_volume_lost`: a recipe with two volumes.
-/

namespace Filesystem

open Fold

/-! ## What is asked about -/

/-- The entries that there are before the volumes. -/
def layoutEntries (m : Machine) (c : Settings) : List Entry :=
  match layout m c with
  | .ok (s, _, _) => s.filesystem_list
  | .error _ => []

/-- The name of the volume group of an item. -/
def groupName (s : Locals) (item : Item) : Option String := item.lv.bind s.vg_names.get

/-- An `lvcreate` for an item: with its name, in its volume group. -/
def MadeFor (s : Locals) (item : Item) (made : String × LvSize × String) : Prop :=
  item.name = some made.1 ∧ groupName s item = some made.2.2

/-- The options of a volume, where `defaults` stands for none. -/
def volumeOptions (m : Machine) (c : Settings) (item : Item) : List String :=
  (own c item).getD [] ++ trimmed (capable m c (.lv, item)) (partType c .lv item)

/-- An entry for an item: for its device, with its own type and options. -/
structure EntryFor (m : Machine) (c : Settings) (s : Locals) (item : Item) (e : Entry) : Prop where
  block_device : ∃ vg_name name, groupName s item = some vg_name ∧ item.name = some name ∧
    e.block_device = volumeDevice vg_name name
  type : e.type = partType c .lv item
  mkfs_options : e.mkfs_options = some (mkfsOptions c (partType c .lv item) item)
  mount_point : partType c .lv item ≠ "swap" → e.mount_point = item.mount_point
  mount_options : partType c .lv item ≠ "swap" →
    e.mount_options.bind (s.lists[·]?) = some (volumeOptions m c item)

/-- **Each item with `lv`, in the order of the recipe, causes one `lvcreate` and one entry.** -/
structure VolumesMade (m : Machine) (c : Settings) (s : Locals) : Prop where
  commands : List.Forall₂ (MadeFor s) (lvs c.recipe) (s.commands.filterMap Command.volume)
  entries : ∃ es, s.filesystem_list = layoutEntries m c ++ es ∧
    List.Forall₂ (EntryFor m c s) (lvs c.recipe) es

/-- The options that the items before the volumes leave in the variable. -/
def inherited (m : Machine) (c : Settings) : Option (List String) :=
  Shared.current none ((work c.recipe).map (itemOp m c))

/-- No volume, and nothing that is made for one; or one volume of the default type, or a swap,
without `mkfs_options`. -/
def OneVolume (m : Machine) (c : Settings) : Prop :=
  match lvs c.recipe with
  | [] => NoVolumes c ∨ ∃ i, lastItem c.recipe = some i ∧ i.mkfs_options.isSome
  | [i] => ¬ NoVolumes c ∧ i.mkfs_options = none ∧
      (partType c .lv i = "swap" ∨ (partType c .lv i = c.fs_type ∧
        (i.mount_options = some "defaults" → inherited m c = some [])))
  | _ :: _ :: _ => False

/-! ## When it is so -/

theorem volumesMade_iff {m : Machine} {c : Settings} {s : Locals}
    {made : List (String × LvSize × String)} {es : List Entry}
    (hmade : s.commands.filterMap Command.volume = made)
    (hes : s.filesystem_list = layoutEntries m c ++ es) :
    VolumesMade m c s ↔ List.Forall₂ (MadeFor s) (lvs c.recipe) made ∧
      List.Forall₂ (EntryFor m c s) (lvs c.recipe) es := by
  constructor
  · intro h
    obtain ⟨hcommands, es', hes', hentries⟩ := h
    obtain rfl : es = es' := List.append_cancel_left (hes.symm.trans hes')
    exact ⟨hmade ▸ hcommands, hentries⟩
  · intro h
    exact ⟨hmade.symm ▸ h.1, es, hes, h.2⟩

/-- Where nothing is made there must be no volumes. -/
theorem nothing_made_iff {m : Machine} {c : Settings} {s : Locals}
    (hmade : s.commands.filterMap Command.volume = [])
    (hes : s.filesystem_list = layoutEntries m c) : VolumesMade m c s ↔ lvs c.recipe = [] := by
  rw [volumesMade_iff hmade (hes.trans (List.append_nil _).symm), List.forall₂_nil_right_iff,
    List.forall₂_nil_right_iff, and_self]

/-- Where one thing is made there must be one volume. -/
theorem one_made_iff {m : Machine} {c : Settings} {s : Locals} {made : String × LvSize × String}
    {e : Entry} (hmade : s.commands.filterMap Command.volume = [made])
    (hes : s.filesystem_list = layoutEntries m c ++ [e]) :
    VolumesMade m c s ↔ ∃ i, lvs c.recipe = [i] ∧ MadeFor s i made ∧ EntryFor m c s i e := by
  rw [volumesMade_iff hmade hes]
  constructor
  · intro h
    obtain ⟨hcommands, hentries⟩ := h
    cases hlvs : lvs c.recipe with
    | nil =>
      rw [hlvs] at hcommands
      cases hcommands
    | cons i items =>
      rw [hlvs] at hcommands hentries
      obtain ⟨hi, hitems⟩ := List.forall₂_cons.mp hcommands
      obtain ⟨hentry, -⟩ := List.forall₂_cons.mp hentries
      rw [List.forall₂_nil_right_iff.mp hitems]
      exact ⟨i, rfl, hi, hentry⟩
  · intro h
    obtain ⟨i, hlvs, hi, hentry⟩ := h
    rw [hlvs]
    exact ⟨.cons hi .nil, .cons hentry .nil⟩

/-- The options of the entry, which are those of the variable at the end, are the volume's own. -/
theorem own_options_iff {m : Machine} {c : Settings} {i : Item} (hlvs : lvs c.recipe = [i])
    (hno : ¬ NoVolumes c) (hmkfs : i.mkfs_options = none) (hswap : partType c .lv i ≠ "swap")
    (hinherited : i.mount_options = some "defaults" → (inherited m c).isSome) :
    Shared.current none (ops m c) = some (volumeOptions m c i) ↔
      (i.mount_options = some "defaults" → inherited m c = some []) := by
  obtain ⟨hitem, htype, hgroup⟩ := last_of_lvs (c := c) (i := i) (by rw [hlvs]; rfl)
  have hcapable : capable m c (.lv, i) = volumeTrims m c := by
    rw [volumeTrims, hgroup]
    rfl
  have hlastOp : lastOp m c = ⟨none, trimmed (volumeTrims m c) (partType c .lv i)⟩ := by
    simp [lastOp, hitem, htype, hmkfs, hswap]
  have hop : itemOp m c (.lv, i) = ⟨own c i, []⟩ := by
    simp [itemOp, op, role]
  have hcurrent : Shared.current none (ops m c) = ((own c i).or (inherited m c)).map
      (· ++ trimmed (capable m c (.lv, i)) (partType c .lv i)) := by
    rw [ops, if_neg hno, hlvs, Shared.current_append, Shared.current_append, List.map_singleton,
      hop, hlastOp, hcapable, inherited]
    simp [Shared.current]
  rw [hcurrent, volumeOptions]
  by_cases hdefaults : i.mount_options = some "defaults"
  · have hown : own c i = none := by simp [own, hdefaults]
    obtain ⟨xs, hxs⟩ := Option.isSome_iff_exists.mp (hinherited hdefaults)
    simp [hown, hxs, hdefaults]
  · obtain ⟨xs, hxs⟩ := Option.isSome_iff_exists.mp ((own_isSome_iff (c := c)).mpr hdefaults)
    simp [hxs, hdefaults]

/-- The list of the variable at the end of a run. -/
theorem final_held {p : Profile} {v : ValueMap} {m : Machine} {c : Settings} {s : Locals}
    {boot_drives : List String} (hc : settings p v = .ok c)
    (h : partition p v m = .ok (s, boot_drives)) :
    s.mount_options.bind (s.lists[·]?) = Shared.current none (ops m c) := by
  have hheld := Shared.Store.held_run (startScope_sound m c boot_drives).valid (ops m c)
  rw [← (final_scope hc h).1] at hheld
  exact hheld

/-- A volume has been made for an item. -/
structure Added (c : Settings) (s s' : Locals) (item : Item) (part_type vg_name name : String)
    (size : LvSize) (e : Entry) : Prop where
  group : s.vg.bind s.vg_names.get = some vg_name
  named : item.name = some name
  vg_names : s'.vg_names = s.vg_names
  var : s'.mount_options = s.mount_options
  commands : s'.commands.filterMap Command.volume =
    s.commands.filterMap Command.volume ++ [(name, size, vg_name)]
  filesystem_list : s'.filesystem_list = s.filesystem_list ++ [e]
  block_device : e.block_device = volumeDevice vg_name name
  mkfs_options : e.mkfs_options = some (c.mkfs_options part_type)
  swap : part_type = "swap" → e.type = "swap"
  mounted : part_type ≠ "swap" → e.type = c.fs_type ∧ e.mount_point = item.mount_point ∧
    e.mount_options = s.mount_options ∧ s.mount_options.isSome

theorem addVolume_added {c : Settings} {s s' : Locals} (h : addVolume c s = .ok s') {item : Item}
    {part_type : String} (hitem : s.item = some item) (htype : s.part_type = some part_type)
    (hmkfs : item.mkfs_options = none) :
    ∃ vg_name name size e, Added c s s' item part_type vg_name name size e := by
  obtain ⟨item', part_type', hitem', htype', h⟩ := addVolume_ok h
  obtain rfl : item = item' := Option.some.inj (hitem.symm.trans hitem')
  obtain rfl : part_type = part_type' := Option.some.inj (htype.symm.trans htype')
  obtain ⟨hskip, -⟩ | ⟨-, vg, vg_name, name, size, disks, hvg, hgroup, hname, -, -, h⟩ := h
  · simp [hmkfs] at hskip
  have hgroup' : s.vg.bind s.vg_names.get = some vg_name := by rw [hvg, Option.bind_some, hgroup]
  obtain ⟨hswap, priority, -, rfl⟩ | ⟨hswap, mount_point, r, hmount, hr, rfl⟩ := h
  · refine ⟨vg_name, name, size, _, hgroup', hname, rfl, rfl, ?_, rfl, rfl, rfl, fun _ => rfl,
      fun hne => absurd hswap hne⟩
    simp [Locals.addEntry, Locals.execute, Command.volume]
  · refine ⟨vg_name, name, size, _, hgroup', hname, rfl, ?_, ?_, rfl, rfl, rfl,
      fun heq => absurd heq hswap, fun _ => ⟨rfl, hmount.symm, hr.symm, by rw [hr]; rfl⟩⟩
    · exact Shared.Store.append_var s.store _
    · simp [Locals.addEntry, Locals.execute, Locals.withStore, Command.volume]

/-- When the entry of the one volume is for its item. -/
theorem entryFor_iff {m : Machine} {c : Settings} {s s' : Locals} {i : Item} {vg_name name : String}
    {size : LvSize} {e : Entry} (h : Added c s s' i (partType c .lv i) vg_name name size e)
    (hlvs : lvs c.recipe = [i]) (hvg : s.vg = i.lv) (hno : ¬ NoVolumes c)
    (hmkfs : i.mkfs_options = none)
    (hheld : s'.mount_options.bind (s'.lists[·]?) = Shared.current none (ops m c))
    (hinherited : s.mount_options.isSome → i.mount_options = some "defaults" →
      (inherited m c).isSome) :
    MadeFor s' i (name, size, vg_name) ∧
      (EntryFor m c s' i e ↔ partType c .lv i = "swap" ∨ (partType c .lv i = c.fs_type ∧
        (i.mount_options = some "defaults" → inherited m c = some []))) := by
  have hgroup : groupName s' i = some vg_name := by
    rw [groupName, ← hvg, h.vg_names, h.group]
  have hdevice : ∃ vg_name name, groupName s' i = some vg_name ∧ i.name = some name ∧
      e.block_device = volumeDevice vg_name name := ⟨vg_name, name, hgroup, h.named, h.block_device⟩
  have hoptions : e.mkfs_options = some (mkfsOptions c (partType c .lv i) i) := by
    rw [h.mkfs_options]
    simp [mkfsOptions, hmkfs]
  refine ⟨⟨h.named, hgroup⟩, ?_⟩
  by_cases hswap : partType c .lv i = "swap"
  · refine ⟨fun _ => .inl hswap, fun _ => ⟨hdevice, ?_, hoptions, fun hne => absurd hswap hne,
      fun hne => absurd hswap hne⟩⟩
    rw [h.swap hswap, hswap]
  · obtain ⟨htype, hmount, hvar, hsome⟩ := h.mounted hswap
    rw [← own_options_iff hlvs hno hmkfs hswap (hinherited hsome), ← hheld, h.var, ← hvar]
    constructor
    · intro hentry
      exact .inr ⟨hentry.type.symm.trans htype, hentry.mount_options hswap⟩
    · intro hown
      obtain hown | ⟨heq, hlists⟩ := hown
      · exact absurd hown hswap
      · exact ⟨hdevice, htype.trans heq.symm, hoptions, fun _ => hmount, fun _ => hlists⟩

/-- An item that says `defaults` has the options of the items before the volumes. -/
theorem inherited_isSome {m : Machine} {c : Settings} {s s₂ : Locals} {boot_drives : List String}
    (hscope : s.scope = (startScope m c boot_drives).run m c (work c.recipe))
    (hbefore : BeforeVolume m c s s₂) {i : Item} (hlvs : lvs c.recipe = [i])
    (hvar : s₂.mount_options.isSome) (hdefaults : i.mount_options = some "defaults") :
    (inherited m c).isSome := by
  obtain ⟨r, hr⟩ := Option.isSome_iff_exists.mp hvar
  have hstore : s₂.scope.store = (startScope m c boot_drives).store.run
      ((work c.recipe).map (itemOp m c) ++ [itemOp m c (.lv, i)]) := by
    rw [hbefore.scope, run_store, (groups_keeps _ _).2.1, hscope, run_store, hlvs,
      Shared.Store.run_append]
    rfl
  have hheld : s₂.scope.store.held = inherited m c := by
    have hown : own c i = none := by simp [own, hdefaults]
    rw [hstore, Shared.Store.held_run (startScope_sound m c boot_drives).valid,
      Shared.current_append]
    simp [Shared.current, itemOp, op, role, hown, inherited, startScope, Shared.Store.held]
  have hlt : r < s₂.scope.store.lists.length := hbefore.sound.valid r hr
  have hlist : s₂.scope.store.held = s₂.scope.store.lists[r]? := by
    show s₂.mount_options.bind _ = _
    rw [hr]
    rfl
  rw [← hheld, hlist, List.getElem?_eq_getElem hlt]
  rfl

/-- **When each volume is made, and gets its entry.** -/
theorem volumes_iff {p : Profile} {v : ValueMap} {m : Machine} {c : Settings} {s : Locals}
    {boot_drives : List String} (hc : settings p v = .ok c)
    (h : partition p v m = .ok (s, boot_drives)) : VolumesMade m c s ↔ OneVolume m c := by
  have hheld := final_held hc h
  obtain ⟨c', s₁, r, hc', hlayout, hvolumes⟩ := partition_ok h
  obtain rfl : c = c' := Except.ok.inj (hc.symm.trans hc')
  obtain ⟨hscope, hsound, hpv, hnone⟩ := layout_scope hlayout
  have hfront : s₁.filesystem_list = layoutEntries m c := by simp [layoutEntries, hlayout]
  have huntouched := layout_untouched hlayout
  obtain ⟨hnil, rfl⟩ | ⟨hnil, s₂, hbefore, hadd⟩ := volumes_turns hvolumes hsound hpv
    huntouched.vg_disks
  · have hno := hnone.mp hnil
    rw [nothing_made_iff huntouched.commands hfront, OneVolume]
    cases lvs c.recipe with
    | nil => simp [hno]
    | cons i items => cases items <;> simp [hno]
  have hno : ¬ NoVolumes c := fun hno => hnil (hnone.mpr hno)
  obtain ⟨hitem, htype⟩ := last_item m c boot_drives
  rw [← hscope, ← hbefore.scope] at hitem htype
  change s₂.item = _ at hitem
  change s₂.part_type = _ at htype
  obtain ⟨item, part_type, hitem', htype', hcase⟩ := addVolume_ok hadd
  have hlast : lastItem c.recipe = some item := hitem.symm.trans hitem'
  -- where there is one volume it is the last item
  have hone (i : Item) (hlvs : lvs c.recipe = [i]) : item = i ∧
      part_type = partType c .lv i := by
    obtain ⟨hi, ht, -⟩ := last_of_lvs (c := c) (i := i) (by rw [hlvs]; rfl)
    exact ⟨Option.some.inj (hlast.symm.trans hi),
      Option.some.inj (htype'.symm.trans (htype.trans ht))⟩
  cases hmkfs : item.mkfs_options with
  | some options =>
    obtain ⟨-, rfl⟩ | ⟨hmkfs', -⟩ := hcase
    · rw [nothing_made_iff (hbefore.commands.trans huntouched.commands)
        (hbefore.filesystem_list.trans hfront), OneVolume]
      cases hlvs : lvs c.recipe with
      | nil => simp [hlast, hmkfs]
      | cons i items =>
        cases items with
        | nil =>
          obtain ⟨rfl, -⟩ := hone i hlvs
          simp [hmkfs]
        | cons i' items => simp
    · simp [hmkfs] at hmkfs'
  | none =>
    obtain ⟨vg_name, name, size, e, hadded⟩ := addVolume_added hadd hitem' htype' hmkfs
    have hmade : s.commands.filterMap Command.volume = [(name, size, vg_name)] := by
      rw [hadded.commands, hbefore.commands, huntouched.commands, List.nil_append]
    have hes : s.filesystem_list = layoutEntries m c ++ [e] := by
      rw [hadded.filesystem_list, hbefore.filesystem_list, hfront]
    rw [one_made_iff hmade hes, OneVolume]
    cases hlvs : lvs c.recipe with
    | nil => simp [hno, hlast, hmkfs]
    | cons i items =>
      cases items with
      | cons i' items => simp
      | nil =>
        obtain ⟨rfl, rfl⟩ := hone i hlvs
        obtain ⟨hmadeFor, hentry⟩ := entryFor_iff hadded hlvs
          (hbefore.vg item (by rw [hlvs]; rfl)) hno hmkfs hheld
          (inherited_isSome hscope hbefore hlvs)
        simp only [← hentry, hno, hmkfs, not_false_eq_true, true_and]
        constructor
        · intro hex
          obtain ⟨i, hi, -, hfor⟩ := hex
          obtain rfl := List.singleton_inj.mp hi
          exact hfor
        · intro hfor
          exact ⟨item, rfl, hmadeFor, hfor⟩

/-- The recipe of the installer with one volume. -/
theorem single_lvm_made : ∃ c s boot_drives,
    settings plainProfile { partition_scheme := some "single-lvm" } = .ok c ∧
      partition plainProfile { partition_scheme := some "single-lvm" }
        (plainMachine ["/dev/sda"]) = .ok (s, boot_drives) ∧
      VolumesMade (plainMachine ["/dev/sda"]) c s := by
  have hrun : (partition plainProfile { partition_scheme := some "single-lvm" }
      (plainMachine ["/dev/sda"])).toOption.map (·.2) = some ["/dev/sda"] := by
    decide +kernel
  have hone : (settings plainProfile { partition_scheme := some "single-lvm" }).toOption.map
      (fun c : Settings => (decide (NoVolumes c), (lvs c.recipe).map fun i =>
        (i.mkfs_options, i.mount_options, decide (partType c .lv i = c.fs_type)))) =
      some (false, [(none, none, true)]) := by
    decide +kernel
  obtain ⟨⟨s, boot_drives⟩, hok, -⟩ := toOption_map hrun
  obtain ⟨c, hc, hseen⟩ := toOption_map hone
  obtain ⟨hno, hlvs⟩ := Prod.mk.inj hseen
  refine ⟨c, s, boot_drives, hc, hok, (volumes_iff hc hok).mpr ?_⟩
  obtain ⟨i, hi, hkeys⟩ := List.map_eq_singleton_iff.mp hlvs
  obtain ⟨hmkfs, hkeys⟩ := Prod.mk.inj hkeys
  obtain ⟨hoptions, htype⟩ := Prod.mk.inj hkeys
  rw [OneVolume, hi]
  refine ⟨of_decide_eq_false hno, hmkfs, .inr ⟨of_decide_eq_true htype, fun hdefaults => ?_⟩⟩
  rw [hoptions] at hdefaults
  cases hdefaults

/-- A recipe with volumes for `/` and `/home`. -/
def twoVolumes : ValueMap where
  partition_scheme := some "custom"
  partition_recipe := some [
    { target := some 0, mount_point := some (some "/boot"), size := some (.megabytes 512) },
    { target := some 0, type := some "pv", group := some 0, size := some .rest },
    { vg := some 0, name := some "VG0" },
    { lv := some 0, name := some "root", mount_point := some (some "/")
      size := some (.percent "50%" 50) },
    { lv := some 0, name := some "home", mount_point := some (some "/home")
      size := some (.percent "40%" 40) }]

/-- The first volume is neither made nor mounted. -/
theorem first_volume_lost : ∃ c s boot_drives, settings plainProfile twoVolumes = .ok c ∧
    partition plainProfile twoVolumes (plainMachine ["/dev/sda"]) = .ok (s, boot_drives) ∧
    (lvs c.recipe).map (·.name) = [some "root", some "home"] ∧
    (s.commands.filterMap Command.volume).map (·.1) = ["home"] ∧
    ¬ VolumesMade (plainMachine ["/dev/sda"]) c s := by
  have hrun : (partition plainProfile twoVolumes (plainMachine ["/dev/sda"])).toOption.map
      (fun result => (result.1.commands.filterMap Command.volume).map (·.1)) =
      some ["home"] := by
    decide +kernel
  have hnames : (settings plainProfile twoVolumes).toOption.map
      (fun c : Settings => (lvs c.recipe).map (·.name)) = some [some "root", some "home"] := by
    decide +kernel
  obtain ⟨⟨s, boot_drives⟩, hok, hmade⟩ := toOption_map hrun
  obtain ⟨c, hc, hnames⟩ := toOption_map hnames
  refine ⟨c, s, boot_drives, hc, hok, hnames, hmade, fun hvolumes => ?_⟩
  have hitems := congrArg List.length hnames
  have hcommands := congrArg List.length hmade
  rw [List.length_map] at hitems hcommands
  have hlength := hvolumes.commands.length_eq
  rw [hitems, hcommands] at hlength
  cases hlength

end Filesystem
