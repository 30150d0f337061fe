import Disks.Install.Mounting
import Disks.Install.Proof.Scope

/-!
# What `mkfs`, `mount` and `writefstab` need of the entries

A file system is made by the type and the options of its entry, a swap is written with its
priority, a mount with its options. `partition` appends its entries in eight places, each with keys
of its own.

* `consumers_ok_iff`: the three functions come back where every line is `Ready`.
* `entries_formed_iff`: **they come back after a run exactly when the recipe is `Formed`.**
* `bcache_var_raises`: a recipe of the installer after which `mkfs` raises.
-/

namespace Filesystem

open Fold

/-! ## The later functions -/

/-- What is needed of a line. -/
structure Ready (l : Line) : Prop where
  type : l.type ∈ mkfsTypes
  mkfs_options : l.mkfs_options.isSome
  priority : l.type = "swap" → l.priority.isSome

theorem mkfsMap_isSome (type mkfs_options block_device : String) :
    (mkfsMap type mkfs_options block_device).isSome ↔ type ∈ mkfsTypes := by
  unfold mkfsMap
  split <;> simp_all [mkfsTypes]

/-- The entry with the UUID that `blkid` prints. -/
def withUuid (blkid : String → String) (fs : Entry) : Entry :=
  { fs with uuid := some (blkid fs.block_device) }

theorem mkfsEntry_ok {blkid : String → String} {fs : Entry} {result : String × Entry}
    (h : mkfsEntry blkid fs = .ok result) :
    (fs.type ∈ mkfsTypes ∧ fs.mkfs_options.isSome) ∧ result.2 = withUuid blkid fs := by
  unfold mkfsEntry at h
  simp only [bind_ok, key_ok, pure_ok] at h
  obtain ⟨text, htext, mkfs_options, hoptions, command, -, rfl⟩ := h
  refine ⟨⟨?_, by simp [hoptions]⟩, rfl⟩
  rw [← mkfsMap_isSome fs.type "" "", htext]
  rfl

theorem mkfsEntry_total (blkid : String → String) {fs : Entry} (htype : fs.type ∈ mkfsTypes)
    (hoptions : fs.mkfs_options.isSome) : ∃ result, mkfsEntry blkid fs = .ok result := by
  obtain ⟨mkfs_options, hmkfs⟩ := Option.isSome_iff_exists.mp hoptions
  obtain ⟨text, htext⟩ := Option.isSome_iff_exists.mp ((mkfsMap_isSome fs.type "" "").mpr htype)
  obtain ⟨command, hcommand⟩ := Option.isSome_iff_exists.mp
    ((mkfsMap_isSome fs.type mkfs_options fs.block_device).mpr htype)
  refine ⟨(command, withUuid blkid fs), ?_⟩
  simp only [mkfsEntry, bind_ok, key_ok, pure_ok]
  exact ⟨text, htext, mkfs_options, hmkfs, command, hcommand, rfl⟩

theorem mkfs_made {blkid : String → String} {filesystem_list made : List Entry}
    {commands : List String} (h : mkfs blkid filesystem_list = .ok (commands, made)) :
    made = filesystem_list.map (withUuid blkid) := by
  unfold mkfs at h
  simp only [bind_ok, pure_ok, Prod.mk.injEq] at h
  obtain ⟨results, hresults, -, rfl⟩ := h
  exact mapM_view (fun _ _ hok => (mkfsEntry_ok hok).2) hresults

/-- `mkfs` comes back where each entry has a known type and its options. -/
theorem mkfs_ok_iff (blkid : String → String) (filesystem_list : List Entry) :
    (∃ commands, mkfs blkid filesystem_list =
        .ok (commands, filesystem_list.map (withUuid blkid))) ↔
      ∀ fs ∈ filesystem_list, fs.type ∈ mkfsTypes ∧ fs.mkfs_options.isSome := by
  unfold mkfs
  simp only [bind_ok, pure_ok, Prod.mk.injEq]
  constructor
  · intro h fs hfs
    obtain ⟨commands, made, hmade, -⟩ := h
    obtain ⟨result, hresult⟩ := mapM_ok_iff.mp ⟨made, hmade⟩ fs hfs
    exact (mkfsEntry_ok hresult).1
  · intro h
    obtain ⟨made, hmade⟩ := mapM_ok_iff.mpr fun fs hfs =>
      mkfsEntry_total blkid (h fs hfs).1 (h fs hfs).2
    exact ⟨made.map (·.1), made, hmade, rfl, mapM_view (fun _ _ hok => (mkfsEntry_ok hok).2) hmade⟩

/-- An entry with a mount point refers to its options. -/
def Wired (lists : List (List String)) (fs : Entry) : Prop :=
  fs.mount_point.isSome → ∃ r options, fs.mount_options = some r ∧ lists[r]? = some options

theorem optionsOf_ok {lists : List (List String)} {fs : Entry} (h : Wired lists fs)
    (hmount : fs.mount_point.isSome) : ∃ options, optionsOf lists fs = .ok options := by
  obtain ⟨r, options, hr, hoptions⟩ := h hmount
  exact ⟨options, by simp only [optionsOf, bind_ok, key_ok, bound_ok]; exact ⟨r, hr, hoptions⟩⟩

/-- `mount` comes back where the options are there. -/
theorem mount_ok (efi : Bool) (extra : List ExtraMount) (mount_point : String)
    {lists : List (List String)} {filesystem_list : List Entry}
    (h : ∀ fs ∈ filesystem_list, Wired lists fs) :
    ∃ mounts, mount efi extra mount_point lists filesystem_list = .ok mounts := by
  unfold mount
  simp only [bind_ok, pure_ok]
  have hloop : ∃ mount_points, filesystem_list.foldlM (mountEntry lists) (extraMounts efi extra) =
      .ok mount_points ∧ True := by
    refine foldlM_ok (I := fun _ => True) (fun d fs hfs _ => ?_) trivial
    unfold mountEntry
    split
    · next point hpoint =>
      obtain ⟨options, hoptions⟩ := optionsOf_ok (h fs hfs) (by simp [hpoint])
      exact ⟨_, by rw [hoptions]; rfl, trivial⟩
    · exact ⟨d, rfl, trivial⟩
  obtain ⟨mount_points, hpoints, -⟩ := hloop
  exact ⟨_, mount_points, hpoints, rfl⟩

theorem mem_set {α : Type} {d : MountPoints α} {point : String} {a : α} {p : String × α}
    (h : p ∈ d.set point a) : p ∈ d ∨ p = (point, a) := by
  unfold MountPoints.set at h
  split at h
  · obtain ⟨q, hq, rfl⟩ := List.mem_map.mp h
    by_cases hqp : q.1 = point
    · simp [hqp]
    · simp [hqp, hq]
  · simpa using h

/-- The entries by mount point are entries of the list. -/
theorem mem_mountedEntries {filesystem_list : List Entry} {p : String × Entry}
    (h : p ∈ mountedEntries filesystem_list) :
    p.2 ∈ filesystem_list ∧ p.2.mount_point = some (some p.1) := by
  have hinv : ∀ p ∈ mountedEntries filesystem_list,
      p.2 ∈ filesystem_list ∧ p.2.mount_point = some (some p.1) := by
    refine foldl_inv (I := fun d : MountPoints Entry => ∀ p ∈ d,
      p.2 ∈ filesystem_list ∧ p.2.mount_point = some (some p.1)) (fun d fs hfs hd p hp => ?_)
      (by simp)
    split at hp
    · next point hpoint =>
      obtain hp | rfl := mem_set hp
      · exact hd p hp
      · exact ⟨hfs, hpoint⟩
    · exact hd p hp
  exact hinv p h

theorem swapLine_ok_iff {fs : Entry} (huuid : fs.uuid.isSome) :
    (∃ lines, swapLine fs = .ok lines) ↔ (fs.type = "swap" → fs.priority.isSome) := by
  obtain ⟨uuid, huuid⟩ := Option.isSome_iff_exists.mp huuid
  unfold swapLine
  by_cases hswap : fs.type = "swap"
  · simp only [hswap, if_true, forall_const, bind_ok, key_ok, pure_ok, huuid]
    cases fs.priority <;> simp
  · simp [hswap, pure_ok]

theorem mountLine_ok {lists : List (List String)} {fs : Entry} (h : Wired lists fs)
    (hmount : fs.mount_point.isSome) (huuid : fs.uuid.isSome) (point : String) :
    ∃ text, mountLine lists point fs = .ok text := by
  obtain ⟨options, hoptions⟩ := optionsOf_ok h hmount
  obtain ⟨uuid, huuid⟩ := Option.isSome_iff_exists.mp huuid
  simp only [mountLine, bind_ok, key_ok, pure_ok]
  exact ⟨_, options, hoptions, uuid, huuid, rfl⟩

/-- `writefstab` comes back where the swaps have a priority. -/
theorem writefstab_ok_iff (preamble : List String) {lists : List (List String)}
    {filesystem_list : List Entry} (h : ∀ fs ∈ filesystem_list, Wired lists fs)
    (huuid : ∀ fs ∈ filesystem_list, fs.uuid.isSome) :
    (∃ lines, writefstab preamble lists filesystem_list = .ok lines) ↔
      ∀ fs ∈ filesystem_list, fs.type = "swap" → fs.priority.isSome := by
  have hswaps : (∃ lines, filesystem_list.mapM swapLine = .ok lines) ↔
      ∀ fs ∈ filesystem_list, fs.type = "swap" → fs.priority.isSome := by
    rw [mapM_ok_iff]
    exact forall₂_congr fun fs hfs => swapLine_ok_iff (huuid fs hfs)
  obtain ⟨mounts, hmounts⟩ := mapM_ok_iff.mpr fun p
      (hp : p ∈ mountOrder (mountedEntries filesystem_list)) => by
    obtain ⟨hmem, hmount⟩ := mem_mountedEntries (List.mem_mergeSort.mp hp)
    exact mountLine_ok (h p.2 hmem) (by simp [hmount]) (huuid p.2 hmem) p.1
  rw [← hswaps]
  unfold writefstab
  simp only [bind_ok, pure_ok]
  constructor
  · intro hok
    obtain ⟨lines, swaps, hswaps, -⟩ := hok
    exact ⟨swaps, hswaps⟩
  · intro hok
    obtain ⟨swaps, hswaps⟩ := hok
    exact ⟨_, swaps, hswaps, mounts, hmounts, rfl⟩

/-- `mkfs`, `mount` and `writefstab` come back, one after the other. -/
def Consumable (s : Locals) : Prop :=
  ∀ blkid efi extra mount_point preamble, ∃ commands made mounts lines,
    mkfs blkid s.filesystem_list = .ok (commands, made) ∧
    mount efi extra mount_point s.lists made = .ok mounts ∧
    writefstab preamble s.lists made = .ok lines

theorem Sound.wired {s : Locals} (h : Sound s.scope) {fs : Entry} (hfs : fs ∈ s.filesystem_list) :
    Wired s.lists fs := by
  intro hmount
  obtain ⟨r, hr, hlt⟩ := h.options fs.line (List.mem_map_of_mem hfs) hmount
  exact ⟨r, s.lists[r], hr, List.getElem?_eq_getElem hlt⟩

/-- **The three functions come back where every line is `Ready`.** -/
theorem consumers_ok_iff {s : Locals} (h : Sound s.scope) :
    Consumable s ↔ ∀ l ∈ s.scope.lines, Ready l := by
  have hwired (blkid : String → String) :
      ∀ fs ∈ s.filesystem_list.map (withUuid blkid), Wired s.lists fs := by
    intro fs hfs
    obtain ⟨fs', hfs', rfl⟩ := List.mem_map.mp hfs
    have hw : Wired s.lists fs' := h.wired hfs'
    exact hw
  have huuid (blkid : String → String) :
      ∀ fs ∈ s.filesystem_list.map (withUuid blkid), fs.uuid.isSome := by
    intro fs hfs
    obtain ⟨fs', -, rfl⟩ := List.mem_map.mp hfs
    rfl
  constructor
  · intro hok l hl
    obtain ⟨fs, hfs, rfl⟩ := List.mem_map.mp hl
    obtain ⟨commands, made, mounts, lines, hmkfs, -, hfstab⟩ := hok (fun _ => "") true [] "" []
    obtain rfl := mkfs_made hmkfs
    obtain ⟨htype, hoptions⟩ := (mkfs_ok_iff _ _).mp ⟨commands, hmkfs⟩ fs hfs
    refine ⟨htype, hoptions, fun hswap => ?_⟩
    exact (writefstab_ok_iff [] (hwired _) (huuid _)).mp ⟨lines, hfstab⟩ (withUuid _ fs)
      (List.mem_map_of_mem hfs) hswap
  · intro hready blkid efi extra mount_point preamble
    have hline {fs : Entry} (hfs : fs ∈ s.filesystem_list) : Ready fs.line :=
      hready fs.line (List.mem_map_of_mem hfs)
    obtain ⟨commands, hmkfs⟩ := (mkfs_ok_iff blkid _).mpr fun fs hfs =>
      ⟨(hline hfs).type, (hline hfs).mkfs_options⟩
    obtain ⟨mounts, hmounts⟩ := mount_ok efi extra mount_point (hwired blkid)
    obtain ⟨lines, hlines⟩ := (writefstab_ok_iff preamble (hwired blkid) (huuid blkid)).mpr
      fun fs hfs hswap => by
        obtain ⟨fs', hfs', rfl⟩ := List.mem_map.mp hfs
        exact (hline hfs').priority hswap
    exact ⟨commands, _, mounts, lines, hmkfs, hmounts, hlines⟩

/-! ## The lines of a run -/

/-- What is needed of the line of an item: a mounted file system has a known type, and options for
`mkfs`. -/
def Fits (c : Settings) (kind : Kind) (item : Item) : Prop :=
  role c kind item = .mounted → partType c kind item ∈ mkfsTypes ∧ kind ≠ .bcache

instance (c : Settings) (kind : Kind) (item : Item) : Decidable (Fits c kind item) :=
  inferInstanceAs (Decidable (_ → _))

/-- What is needed of a line, but for the priority. -/
structure Fit (l : Line) : Prop where
  type : l.type ∈ mkfsTypes
  mkfs_options : l.mkfs_options.isSome
  unmounted : l.type = "swap" → l.mount_point = none

theorem role_mounted_ne_swap {c : Settings} {kind : Kind} {item : Item}
    (h : role c kind item = .mounted) : partType c kind item ≠ "swap" := by
  intro hswap
  unfold role at h
  cases kind <;> simp [hswap] at h

theorem line_fit {c : Settings} {kind : Kind} {item : Item} {mount_options : Option Nat}
    {priority : Option Int} :
    (∀ l ∈ line c kind item mount_options priority, Fit l) ↔ Fits c kind item := by
  unfold line Fits
  cases hrole : role c kind item with
  | none => simp
  | swap =>
    simp only [List.forall_mem_singleton, reduceCtorEq, false_implies, iff_true]
    exact ⟨by simp [mkfsTypes], rfl, fun _ => rfl⟩
  | mounted =>
    simp only [List.forall_mem_singleton, true_implies]
    constructor
    · intro hfit
      refine ⟨hfit.type, fun hkind => ?_⟩
      have hoptions := hfit.mkfs_options
      simp [hkind] at hoptions
    · intro hfits
      exact ⟨hfits.1, by simp [hfits.2], fun hswap => absurd hswap (role_mounted_ne_swap hrole)⟩

theorem run_fit (m : Machine) (c : Settings) (items : List (Kind × Item)) (v : Scope) :
    (∀ l ∈ (v.run m c items).lines, Fit l) ↔
      (∀ l ∈ v.lines, Fit l) ∧ ∀ w ∈ items, Fits c w.1 w.2 := by
  induction items generalizing v with
  | nil => simp [Scope.run]
  | cons w items ih =>
    have hturn : (∀ l ∈ (v.turn c w.1 (trims m c w.1 w.2) w.2).lines, Fit l) ↔
        (∀ l ∈ v.lines, Fit l) ∧ Fits c w.1 w.2 := by
      simp only [Scope.turn, List.forall_mem_append, line_fit]
    show (∀ l ∈ ((v.turn c w.1 (trims m c w.1 w.2) w.2).run m c items).lines, Fit l) ↔ _
    rw [ih, hturn, List.forall_mem_cons, and_assoc]

/-- The lines with a mount point have no priority. -/
def Flat (v : Scope) : Prop := ∀ l ∈ v.lines, l.mount_point.isSome → l.priority = none

theorem line_flat {c : Settings} {kind : Kind} {item : Item} {mount_options : Option Nat}
    {priority : Option Int} :
    ∀ l ∈ line c kind item mount_options priority, l.mount_point.isSome → l.priority = none := by
  unfold line
  cases role c kind item <;> simp

theorem Flat.run {v : Scope} (h : Flat v) (m : Machine) (c : Settings)
    (items : List (Kind × Item)) : Flat (v.run m c items) := by
  refine foldl_inv (I := Flat) (fun v w _ hv l hl => ?_) h
  obtain hl | hl := List.mem_append.mp hl
  · exact hv l hl
  · exact line_flat l hl

theorem Flat.groups {v : Scope} (h : Flat v) (items : List Item) : Flat (v.groups items) := by
  intro l hl
  rw [(groups_keeps items v).1] at hl
  exact h l hl

theorem startScope_flat (m : Machine) (c : Settings) (boot_drives : List String) :
    Flat (startScope m c boot_drives) := by
  intro l hl _
  obtain ⟨-, -, hl⟩ := List.mem_flatMap.mp hl
  obtain rfl := mem_bootLines hl
  rfl

theorem startScope_fit (m : Machine) (c : Settings) (boot_drives : List String) :
    ∀ l ∈ (startScope m c boot_drives).lines, Fit l := by
  intro l hl
  obtain ⟨-, -, hl⟩ := List.mem_flatMap.mp hl
  obtain rfl := mem_bootLines hl
  exact ⟨by simp [Entry.line, reservedEntry, mkfsTypes], rfl, by simp [Entry.line, reservedEntry]⟩

/-- Where the mounted lines have no priority, that a swap has one is a matter of its mount point. -/
theorem ready_iff_fit {v : Scope} (hsound : Sound v) (hflat : Flat v) :
    (∀ l ∈ v.lines, Ready l) ↔ ∀ l ∈ v.lines, Fit l := by
  refine forall₂_congr fun l hl => ?_
  constructor
  · intro hready
    refine ⟨hready.type, hready.mkfs_options, fun hswap => ?_⟩
    by_contra hmount
    have hnone := hflat l hl (Option.isSome_iff_ne_none.mpr hmount)
    have hsome := hready.priority hswap
    simp [hnone] at hsome
  · intro hfit
    exact ⟨hfit.type, hfit.mkfs_options, fun hswap =>
      hsound.priority l hl (hfit.unmounted hswap) hswap⟩

/-! ## The line of the last volume -/

theorem Flat.finish {v : Scope} (h : Flat v) (c : Settings) (supportsTrim : Bool) :
    Flat (v.finish c supportsTrim) := by
  unfold Scope.finish
  split
  · split
    · exact h
    · split
      · intro l hl hmount
        obtain hl | hl := List.mem_append.mp hl
        · exact h l hl hmount
        · rw [List.mem_singleton] at hl
          simp [hl] at hmount
      · intro l hl hmount
        obtain hl | hl := List.mem_append.mp hl
        · exact h l hl hmount
        · rw [List.mem_singleton] at hl
          rw [hl]
  · exact h

/-- The line of the last volume fits where it is a swap, or the default type is not. -/
theorem finish_fit {c : Settings} {supportsTrim : Bool} {v : Scope}
    (htypes : c.fs_type ∈ mkfsTypes) (hsound : Sound (v.finish c supportsTrim)) :
    (∀ l ∈ (v.finish c supportsTrim).lines, Fit l) ↔ (∀ l ∈ v.lines, Fit l) ∧
      (c.fs_type = "swap" → ∀ i t, v.item = some i → v.part_type = some t →
        i.mkfs_options = none → t = "swap") := by
  cases hitem : v.item with
  | none => simp [Scope.finish, hitem]
  | some i =>
    cases htype : v.part_type with
    | none => simp [Scope.finish, hitem, htype]
    | some t =>
      cases hmkfs : i.mkfs_options with
      | some options => simp [Scope.finish, hitem, htype, hmkfs]
      | none =>
        by_cases hswap : t = "swap"
        · subst hswap
          rw [finish_swap hitem htype hmkfs, List.forall_mem_append, List.forall_mem_singleton]
          refine and_congr_right fun _ => ?_
          simp only [Option.some.injEq]
          constructor
          · intro _ _ i' t' _ ht _
            exact ht.symm
          · intro _
            exact ⟨by simp [mkfsTypes], rfl, fun _ => rfl⟩
        · rw [finish_mounted hitem htype hmkfs hswap] at hsound ⊢
          rw [List.forall_mem_append, List.forall_mem_singleton]
          refine and_congr_right fun _ => ?_
          simp only [Option.some.injEq]
          constructor
          · intro hfit hfs
            have hnone := hfit.unmounted hfs
            have hpriority := hsound.priority _
              (List.mem_append_right _ (List.mem_singleton_self _)) hnone hfs
            simp at hpriority
          · intro hvolume
            refine ⟨htypes, rfl, fun hfs => ?_⟩
            exact absurd (hvolume hfs i t rfl rfl hmkfs) hswap

/-! ## When the entries are well formed -/

/-- Mounted items have a type that `mkfs` knows, and are no `bcache` devices; where volumes are made
of a default type `swap`, the last one is a swap. -/
structure Formed (c : Settings) : Prop where
  items : ∀ w ∈ work c.recipe, Fits c w.1 w.2
  volume : ¬ NoVolumes c → c.fs_type = "swap" → ∀ i t, lastItem c.recipe = some i →
    lastType c = some t → i.mkfs_options = none → t = "swap"

/-- **`mkfs`, `mount` and `writefstab` come back after a run exactly when the recipe is
`Formed`.** -/
theorem entries_formed_iff {p : Profile} {v : ValueMap} {m : Machine} {c : Settings} {s : Locals}
    {boot_drives : List String} (hc : settings p v = .ok c)
    (h : partition p v m = .ok (s, boot_drives)) : Consumable s ↔ Formed c := by
  obtain ⟨hsound, hnone, hvolumes⟩ := partition_scope hc h
  obtain ⟨hitem, htype⟩ := last_item m c boot_drives
  have hwork := run_fit m c (work c.recipe) (startScope m c boot_drives)
  rw [consumers_ok_iff hsound]
  by_cases hno : NoVolumes c
  · rw [hnone hno] at hsound ⊢
    rw [ready_iff_fit hsound ((startScope_flat m c boot_drives).run m c _), hwork]
    constructor
    · intro hfit
      exact ⟨hfit.2, fun hvolumes => absurd hno hvolumes⟩
    · intro hformed
      exact ⟨startScope_fit m c boot_drives, hformed.items⟩
  · rw [hvolumes hno] at hsound ⊢
    have hflat := (((startScope_flat m c boot_drives).run m c (work c.recipe)).groups
      (vgs c.recipe)).run m c ((lvs c.recipe).map (Kind.lv, ·))
    rw [ready_iff_fit hsound (hflat.finish c _), Scope.volumes,
      finish_fit (settings_valid hc).1 hsound, hitem, htype, run_fit, (groups_keeps _ _).1, hwork]
    have hlvs : ∀ w ∈ (lvs c.recipe).map (Kind.lv, ·), Fits c w.1 w.2 := by
      intro w hw
      obtain ⟨i, -, rfl⟩ := List.mem_map.mp hw
      intro hrole
      cases hrole
    constructor
    · intro hfit
      exact ⟨hfit.1.1.2, fun _ => hfit.2⟩
    · intro hformed
      exact ⟨⟨⟨startScope_fit m c boot_drives, hformed.items⟩, hlvs⟩, hformed.volume hno⟩

/-- The entries of the recipe for one drive. -/
theorem single_consumable : ∃ s boot_drives,
    partition plainProfile {} (plainMachine ["/dev/sda"]) = .ok (s, boot_drives) ∧
      Consumable s := by
  have hrun : (partition plainProfile {} (plainMachine ["/dev/sda"])).toOption.map (·.2) =
      some ["/dev/sda"] := by
    decide +kernel
  have hformed : (settings plainProfile {}).toOption.map (fun c : Settings =>
      (decide (∀ w ∈ work c.recipe, Fits c w.1 w.2), c.fs_type)) = some (true, "ext4") := by
    decide +kernel
  obtain ⟨⟨s, boot_drives⟩, hok, -⟩ := toOption_map hrun
  obtain ⟨c, hc, hseen⟩ := toOption_map hformed
  obtain ⟨hitems, htype⟩ := Prod.mk.inj hseen
  refine ⟨s, boot_drives, hok, (entries_formed_iff hc hok).mpr ⟨of_decide_eq_true hitems, ?_⟩⟩
  intro _ hswap
  simp [htype] at hswap

/-- In this recipe of the installer the entry of a `bcache` device lacks its `mkfs_options`. -/
theorem bcache_var_raises : ∃ s boot_drives,
    partition plainProfile { partition_scheme := some "bcache-var" }
      (plainMachine ["/dev/sda", "/dev/sdb", "/dev/sdc"]) = .ok (s, boot_drives) ∧
      ∀ blkid, ∃ e, mkfs blkid s.filesystem_list = .error e := by
  have hrun : (partition plainProfile { partition_scheme := some "bcache-var" }
      (plainMachine ["/dev/sda", "/dev/sdb", "/dev/sdc"])).toOption.map (fun result =>
        decide (∃ fs ∈ result.1.filesystem_list, fs.mkfs_options = none)) = some true := by
    decide +kernel
  obtain ⟨⟨s, boot_drives⟩, hok, hseen⟩ := toOption_map hrun
  obtain ⟨fs, hfs, hnone⟩ := of_decide_eq_true hseen
  refine ⟨s, boot_drives, hok, fun blkid => ?_⟩
  cases hmkfs : mkfs blkid s.filesystem_list with
  | error e => exact ⟨e, rfl⟩
  | ok result =>
    have hmade : mkfs blkid s.filesystem_list =
        .ok (result.1, s.filesystem_list.map (withUuid blkid)) := by
      rw [hmkfs, ← mkfs_made hmkfs]
    have hsome := ((mkfs_ok_iff blkid _).mp ⟨result.1, hmade⟩ fs hfs).2
    simp [hnone] at hsome

end Filesystem
