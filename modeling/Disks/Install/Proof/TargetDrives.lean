import Disks.Install.TargetDrives
import Disks.Lib.Fold

/-!
# What the targets get

Which drive a target stands for, and when two targets get different ones.

* `Selects`: a drive that a target can stand for.
* `targetBlock_ok`, `targetBlock_error`: what a turn of the loop gives or raises.
* `target_drives`: **each target gets a drive that it selects, and targets that select no common
  drive get different ones.**
* `same_disk_twice`: a path and a location of one disk.
-/

namespace Filesystem

open Manager

section targets

variable {re : Text → Option (Text → Bool)} {dm : DriveManager}

/-- A target selects the block device of a drive: by its name, by the location of its port or by its
device path, or as a pattern for one of these two. -/
def Selects (re : Text → Option (Text → Bool)) (dm : DriveManager) (target block : Text) : Prop :=
  ∃ d ∈ dm.drives, d.block_path = some block ∧
    (target = block ∨ d.port.location = target ∨ d.devpath = some target ∨
      ∃ search, re target = some search ∧
        (search d.port.location ∨ ∃ path, d.devpath = some path ∧ search path))

/-! ## The maps -/

theorem joinOne_dev (b : Name) : Path.joinOne "/dev".toList b.text = dev b.text := by
  have hhead : b.text.head? ≠ some '/' := fun h => b.clean (List.mem_of_head? h)
  rw [Path.joinOne, if_neg hhead]
  rfl

theorem mem_blockList {block : Text} :
    block ∈ blockList dm ↔ ∃ d ∈ dm.drives, d.block_path = some block := by
  simp only [blockList, List.mem_insertionSort, DriveManager.block_map, Assoc.mem_keys_ofPairs,
    DriveManager.drive_list, List.mem_map, List.mem_filterMap, Option.map_eq_some_iff,
    joinOne_dev, Manager.Drive.block_path]
  constructor
  · intro h
    obtain ⟨p, ⟨d, hd, b, hb, rfl⟩, rfl⟩ := h
    exact ⟨d, hd, b, hb, rfl⟩
  · intro h
    obtain ⟨d, hd, b, hb, rfl⟩ := h
    exact ⟨_, ⟨d, hd, b, hb, rfl⟩, rfl⟩

theorem mem_portBlocks {location : Text} {block : Option Text}
    (h : (location, block) ∈ portBlocks dm) :
    ∃ d ∈ dm.drives, d.port.location = location ∧ d.block_path = block := by
  obtain ⟨p, hp, hdrive⟩ := List.mem_filterMap.mp h
  obtain ⟨d, hd, heq⟩ := Option.map_eq_some_iff.mp hdrive
  obtain ⟨rfl, rfl⟩ := Prod.mk.inj heq
  obtain ⟨slot, hslot, rfl⟩ := List.mem_map.mp (Assoc.mem_ofPairs hp)
  have hmem : slot ∈ dm.ports := (List.mem_insertionSort _).mp hslot
  refine ⟨d, ?_, ?_, rfl⟩
  · rw [dm.drives_eq]
    exact List.mem_filterMap.mpr ⟨slot, hmem, hd⟩
  · rw [dm.wired slot hmem d hd]

theorem mem_devpathBlocks {path block : Option Text} (h : (path, block) ∈ devpathBlocks dm) :
    ∃ d ∈ dm.drives, d.devpath = path ∧ d.block_path = block := by
  obtain ⟨p, hp, heq⟩ := List.mem_map.mp h
  obtain ⟨rfl, rfl⟩ := Prod.mk.inj heq
  obtain ⟨d, hd, rfl⟩ := List.mem_map.mp (Assoc.mem_ofPairs hp)
  exact ⟨d, (List.mem_insertionSort _).mp hd, rfl, rfl⟩

theorem searchKey_ok {drive : Text} {key value v : Option Text}
    (h : searchKey re drive key value = .ok (some v)) :
    ∃ search i, re drive = some search ∧ key = some i ∧ search i ∧ value = v := by
  unfold searchKey at h
  split at h
  · cases h
  · cases h
  · rename_i search i hre
    split at h
    · rename_i hsearch
      cases h
      exact ⟨search, i, hre, rfl, hsearch, rfl⟩
    · cases h

theorem searchKey_error {drive : Text} {key value : Option Text} {e : TargetError}
    (h : searchKey re drive key value = .error e) :
    (e = .reError ∧ re drive = none) ∨ key = none := by
  unfold searchKey at h
  split at h
  · rename_i hre
    cases h
    exact .inl ⟨rfl, hre⟩
  · exact .inr rfl
  · cases h

theorem mem_found {drive : Text} {items : List (Option Text × Option Text)}
    {values : List (Option Text)} (h : found re drive items = .ok values) {v : Option Text}
    (hv : v ∈ values) : ∃ search i, re drive = some search ∧ search i ∧ (some i, v) ∈ items := by
  obtain ⟨all, hall, hvalues⟩ := Fold.bind_ok.mp h
  rw [← Fold.pure_ok.mp hvalues] at hv
  obtain ⟨o, ho, hid⟩ := List.mem_filterMap.mp hv
  rw [id] at hid
  obtain ⟨p, hp, hturn⟩ := (Fold.mem_mapM hall o).mp ho
  rw [hid] at hturn
  obtain ⟨search, i, hre, hkey, hsearch, hvalue⟩ := searchKey_ok hturn
  refine ⟨search, i, hre, hsearch, ?_⟩
  rw [← hkey, ← hvalue]
  exact hp

theorem found_error {drive : Text} {items : List (Option Text × Option Text)} {e : TargetError}
    (h : found re drive items = .error e) :
    (e = .reError ∧ re drive = none) ∨ ∃ value, (none, value) ∈ items := by
  rcases Fold.bind_error.mp h with h | ⟨_, -, h⟩
  · obtain ⟨p, hp, hturn⟩ := Fold.mapM_error h
    refine (searchKey_error hturn).imp_right fun hkey => ⟨p.2, ?_⟩
    rw [← hkey]
    exact hp
  · cases h

/-! ## One target -/

theorem some_of_join_head? {values : List (Option Text)} {block : Text}
    (h : values.head?.join = some block) : some block ∈ values :=
  List.mem_of_head? (Option.join_eq_some_iff.mp h)

theorem targetBlock_ok {target block : Text} (h : targetBlock re dm target = .ok block) :
    Selects re dm target block := by
  unfold targetBlock at h
  split at h
  · rename_i hmem
    cases h
    obtain ⟨d, hd, hblock⟩ := mem_blockList.mp (List.contains_iff_mem.mp hmem)
    exact ⟨d, hd, hblock, .inl rfl⟩
  split at h
  · rename_i b hport
    cases h
    obtain ⟨d, hd, hlocation, hblock⟩ :=
      mem_portBlocks (Assoc.mem_of_lookup (Option.join_eq_some_iff.mp hport))
    exact ⟨d, hd, hblock, .inr (.inl hlocation)⟩
  split at h
  · rename_i b hdevpath
    cases h
    obtain ⟨d, hd, hpath, hblock⟩ :=
      mem_devpathBlocks (Assoc.mem_of_lookup (Option.join_eq_some_iff.mp hdevpath))
    exact ⟨d, hd, hblock, .inr (.inr (.inl hpath))⟩
  obtain ⟨values, hports, h⟩ := Fold.bind_ok.mp h
  split at h
  · rename_i b hhead
    cases h
    obtain ⟨search, i, hre, hsearch, hmem⟩ := mem_found hports (some_of_join_head? hhead)
    obtain ⟨p, hp, heq⟩ := List.mem_map.mp hmem
    obtain ⟨hi, hvalue⟩ := Prod.mk.inj heq
    obtain ⟨d, hd, hlocation, hblock⟩ := mem_portBlocks hp
    refine ⟨d, hd, hblock.trans hvalue, .inr (.inr (.inr ⟨search, hre, .inl ?_⟩))⟩
    rw [hlocation, Option.some.inj hi]
    exact hsearch
  obtain ⟨values', hdevpaths, h⟩ := Fold.bind_ok.mp h
  split at h
  · rename_i b hhead
    cases h
    obtain ⟨search, i, hre, hsearch, hmem⟩ := mem_found hdevpaths (some_of_join_head? hhead)
    obtain ⟨d, hd, hpath, hblock⟩ := mem_devpathBlocks hmem
    exact ⟨d, hd, hblock, .inr (.inr (.inr ⟨search, hre, .inr ⟨i, hpath, hsearch⟩⟩))⟩
  · cases h

theorem targetBlock_error {target : Text} {e : TargetError}
    (h : targetBlock re dm target = .error e) :
    (e = .missingDrives target ∧ ∀ d ∈ dm.drives, d.block_path ≠ some target) ∨
      (e = .reError ∧ re target = none) ∨ ∃ d ∈ dm.drives, d.devpath = none := by
  unfold targetBlock at h
  split at h
  · cases h
  rename_i hmem
  have hnone : ∀ d ∈ dm.drives, d.block_path ≠ some target := fun d hd hblock =>
    hmem (List.contains_iff_mem.mpr (mem_blockList.mpr ⟨d, hd, hblock⟩))
  split at h
  · cases h
  split at h
  · cases h
  rcases Fold.bind_error.mp h with h | ⟨values, -, h⟩
  · rcases found_error h with h | ⟨value, hp⟩
    · exact .inr (.inl h)
    · obtain ⟨p, -, heq⟩ := List.mem_map.mp hp
      cases heq
  split at h
  · cases h
  rcases Fold.bind_error.mp h with h | ⟨values', -, h⟩
  · rcases found_error h with h | ⟨value, hp⟩
    · exact .inr (.inl h)
    · obtain ⟨d, hd, hpath, -⟩ := mem_devpathBlocks hp
      exact .inr (.inr ⟨d, hd, hpath⟩)
  split at h
  · cases h
  · cases h
    exact .inl ⟨rfl, hnone⟩

/-! ## All targets -/

/-- Two targets that select no common drive. -/
def Apart (re : Text → Option (Text → Bool)) (dm : DriveManager) (target target' : Text) : Prop :=
  ∀ block, Selects re dm target block → ¬ Selects re dm target' block

/-- **What `_getTargetDrives` answers**: without targets all block devices; for each target, in
order, one that it selects, and different ones for targets that select no common one; or
`MissingDrives` for a target, or the error of a target that is no pattern. Drives without a device
path are left out. -/
def Answers (re : Text → Option (Text → Bool)) (dm : DriveManager) (targets : List Text) :
    Except TargetError (List Text × Assoc.Dict Text (Option Manager.Drive)) → Prop
  | .ok (result, _) =>
    (targets = [] → result.Nodup ∧
      ∀ block, block ∈ result ↔ ∃ d ∈ dm.drives, d.block_path = some block) ∧
    (targets ≠ [] → List.Forall₂ (Selects re dm) targets result ∧
      (targets.Pairwise (Apart re dm) → result.Nodup))
  | .error e =>
    (∃ target ∈ targets, e = .missingDrives target ∧
      ∀ d ∈ dm.drives, d.block_path ≠ some target) ∨
    (∃ target ∈ targets, e = .reError ∧ re target = none) ∨ ∃ d ∈ dm.drives, d.devpath = none

/-- Each of the results is selected by a target. -/
theorem selected_of_mem {targets result : List Text}
    (h : List.Forall₂ (Selects re dm) targets result) {block : Text} (hblock : block ∈ result) :
    ∃ target ∈ targets, Selects re dm target block := by
  induction h with
  | nil => exact absurd hblock List.not_mem_nil
  | cons hselects _ ih =>
    rcases List.mem_cons.mp hblock with rfl | hblock
    · exact ⟨_, .head _, hselects⟩
    · obtain ⟨target, htarget, hselects⟩ := ih hblock
      exact ⟨target, .tail _ htarget, hselects⟩

theorem nodup_of_apart {targets result : List Text}
    (h : List.Forall₂ (Selects re dm) targets result) (hapart : targets.Pairwise (Apart re dm)) :
    result.Nodup := by
  induction h with
  | nil => exact List.nodup_nil
  | @cons target block targets result hselects hrest ih =>
    obtain ⟨hhead, htail⟩ := List.pairwise_cons.mp hapart
    refine List.nodup_cons.mpr ⟨fun hmem => ?_, ih htail⟩
    obtain ⟨target', htarget', hselects'⟩ := selected_of_mem hrest hmem
    exact hhead target' htarget' block hselects hselects'

/-- **Each target gets a drive that it selects.** -/
theorem target_drives (re : Text → Option (Text → Bool)) (dm : DriveManager)
    (targets : List Text) : Answers re dm targets (getTargetDrives re dm targets) := by
  unfold getTargetDrives
  dsimp only
  split
  · rename_i hnil
    refine ⟨fun _ => ⟨?_, fun _ => mem_blockList⟩, fun h => absurd hnil h⟩
    exact (List.perm_insertionSort _ _).nodup_iff.mpr (Assoc.nodup_keys_ofPairs _)
  · rename_i hne
    cases hall : targets.mapM (targetBlock re dm) with
    | ok result =>
      have hselects := Fold.mapM_forall₂ (fun _ _ => targetBlock_ok) hall
      exact ⟨fun h => absurd h hne, fun _ => ⟨hselects, nodup_of_apart hselects⟩⟩
    | error e =>
      obtain ⟨target, htarget, herror⟩ := Fold.mapM_error hall
      rcases targetBlock_error herror with h | h | h
      · exact .inl ⟨target, htarget, h⟩
      · exact .inr (.inl ⟨target, htarget, h⟩)
      · exact .inr (.inr h)

end targets

/-- A host with one disk, at the first ATA port. -/
def oneDisk : DriveManager :=
  rescan { ata := [(.ATA 0, some ⟨['s', 'd', 'a'], by decide, by decide⟩)] }

/-- Its path and its location give the disk to two targets. -/
theorem same_disk_twice : (getTargetDrives (fun _ => none) oneDisk
    ["/dev/sda".toList, "ATA 0".toList]).map (·.1) =
      .ok ["/dev/sda".toList, "/dev/sda".toList] := by
  decide +kernel

end Filesystem
