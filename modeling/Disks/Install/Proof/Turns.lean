import Disks.Install.Partition
import Disks.Lib.Fold
import Disks.Lib.Shared

/-!
# The turns of `partition`

What a turn of each loop of `partition` does that comes back: the state it leaves, with the
`mount_options` as a list behind a variable (`Shared.Store`). The later modules take from these what
they follow through a run.

* `reserveBoot_ok`, `targetItem_ok` with `placePartition_ok`, `mdItem_ok`, `bcacheItem_ok`,
  `vgItem_ok`, `lvItem_ok`, `addVolume_ok`: the turns.
* `settings_valid`: the types that the settings give are known to `mkfs`.
* `layout_ok`, `volumes_ok`, `partition_ok`: the loops of a run.
* `plainProfile`, `plainMachine`: what the runs on fixed recipes are given.
-/

namespace Filesystem

open Fold

/-! ## Steps -/

@[simp] theorem key_ok {α : Type} {name : String} {o : Option α} {a : α} :
    key name o = .ok a ↔ o = some a := by
  cases o <;> simp [key]

@[simp] theorem bound_ok {α : Type} {name : String} {o : Option α} {a : α} :
    bound name o = .ok a ↔ o = some a := by
  cases o <;> simp [bound]

@[simp] theorem raise_ok {α : Type} {text : String} {a : α} : raise text = .ok a ↔ False := by
  simp [raise]

/-- A call of `_addPartition` that comes back is noted. -/
theorem add_ok {block_device name : String} {part_type : PartType} {size : Rat} {s s' : Locals}
    (h : add block_device part_type size s = .ok (name, s')) :
    ∃ globals, s' = { s with
      globals := globals, calls := s.calls ++ [⟨block_device, part_type, size⟩] } := by
  unfold add at h
  cases hadd : addPartition block_device part_type size s.globals with
  | error e => simp [hadd] at h
  | ok result =>
    simp only [hadd, Except.ok.injEq, Prod.mk.injEq] at h
    exact ⟨result.2, h.2.symm⟩

/-! ## The list of the options -/

/-- The variable `mount_options` and the lists. -/
def Locals.store (s : Locals) : Shared.Store String := ⟨s.lists, s.mount_options⟩

def Locals.withStore (s : Locals) (store : Shared.Store String) : Locals :=
  { s with lists := store.lists, mount_options := store.var }

/-- The loops over the items, by the key that an item has for them. -/
inductive Kind
  | target
  | md
  | bcache
  | lv
deriving DecidableEq

/-- The type of an item. -/
def partType (c : Settings) (kind : Kind) (item : Item) : String :=
  match item.type with
  | some type => type
  | none =>
    if kind = .target ∧ item.mount_point = some (some "/boot") then c.boot_fs_type else c.fs_type

/-- The options an item assigns; `defaults` assigns none. -/
def own (c : Settings) (item : Item) : Option (List String) :=
  match item.mount_options with
  | some text => if text ≠ "defaults" then some (text.splitOn ",") else none
  | none => some c.default_mounting_options

/-- What is appended to the options. -/
def trimmed (supportsTrim : Bool) (part_type : String) : List String :=
  if supportsTrim ∧ part_type ∈ FS_WITH_TRIM then ["discard"] else []

theorem setMountOptions_eq (c : Settings) (item : Item) (s : Locals) :
    setMountOptions c item s = s.withStore (s.store.assign (own c item)) := by
  unfold setMountOptions own
  cases item.mount_options with
  | none => rfl
  | some text => by_cases htext : text = "defaults" <;> simp [htext] <;> rfl

theorem withStore_store (s : Locals) : s.withStore s.store = s := rfl

theorem discard_ok {supportsTrim : Bool} {part_type : String} {s s' : Locals}
    (h : discard supportsTrim part_type s = .ok s') :
    s' = s.withStore (s.store.append (trimmed supportsTrim part_type)) := by
  unfold discard at h
  unfold trimmed
  by_cases htrim : supportsTrim ∧ part_type ∈ FS_WITH_TRIM
  · simp only [htrim, and_self, if_true, bind_ok, bound_ok, pure_ok] at h
    obtain ⟨r, hr, rfl⟩ := h
    simp [htrim, Locals.withStore, Locals.store, Shared.Store.append, hr]
  · simp only [htrim, if_false, pure_ok] at h
    rw [if_neg htrim, Shared.Store.append_nil, withStore_store, h]

/-! ## The partitions of the drives -/

/-- The reservation on a boot drive. -/
def reservation (c : Settings) (drive : String) : Call :=
  ⟨drive, if c.partition_type = "gpt" then .bios_grub else .blank, c.boot_rsvd_size⟩

/-- The entry of a reserved partition. -/
def reservedEntry (m : Machine) (c : Settings) (grub_partition : String) : Entry :=
  { type := "vfat", block_device := grub_partition, mkfs_options := some (c.mkfs_options "vfat"),
    mount_point := if m.efi then some (some "/boot/efi") else none,
    mount_options := if m.efi then some 0 else none }

theorem reserveBoot_ok {m : Machine} {c : Settings} {s s' : Locals} {drive : String}
    (h : reserveBoot m c s drive = .ok s') :
    ∃ globals grub_partition, s' = { s with
      globals := globals, calls := s.calls ++ [reservation c drive]
      filesystem_list := s.filesystem_list ++
        if c.partition_type = "gpt" then [reservedEntry m c grub_partition] else [] } := by
  unfold reserveBoot at h
  by_cases hgpt : c.partition_type = "gpt"
  · simp only [hgpt, if_true, bind_ok, pure_ok] at h
    obtain ⟨⟨grub_partition, s₁⟩, hadd, rfl⟩ := h
    obtain ⟨globals, rfl⟩ := add_ok hadd
    refine ⟨globals, grub_partition, ?_⟩
    cases hefi : m.efi <;> simp [hgpt, reservation, reservedEntry, Locals.addEntry, hefi]
  · simp only [hgpt, if_false, bind_ok, pure_ok] at h
    obtain ⟨⟨grub_partition, s₁⟩, hadd, rfl⟩ := h
    obtain ⟨globals, rfl⟩ := add_ok hadd
    exact ⟨globals, grub_partition, by simp [hgpt, reservation]⟩

/-- What `_addPartition` is asked for. -/
def callType (part_type : String) : PartType :=
  if part_type = "swap" then .swap
  else if part_type = "blank" then .blank
  else if part_type = "empty" then .empty
  else .fs

theorem targetType_ok {c : Settings} {item : Item} {part_type : String}
    (h : targetType c item = .ok part_type) : part_type = partType c .target item := by
  unfold targetType at h
  unfold partType
  cases htype : item.type with
  | some type =>
    rw [htype] at h
    exact (pure_ok.mp h).symm
  | none =>
    simp only [htype, bind_ok, key_ok, pure_ok] at h
    obtain ⟨mount_point, hmount, rfl⟩ := h
    simp [hmount]

/-- A turn of the loop over the items with `target`, until the partition is there. -/
def opened (c : Settings) (item : Item) (globals : Globals) (drive : String) (size : Rat)
    (s : Locals) : Locals :=
  { s.withStore (s.store.assign (own c item)) with
    globals := globals
    calls := s.calls ++ [⟨drive, callType (partType c .target item), size⟩]
    item := some item, part_type := some (partType c .target item)
    priority := some (item.priority.getD 0), size := some (.number size) }

/-- The size of an item comes to a number. -/
def SizeIs (r : RefSizes) (item : Item) (size : Rat) : Prop :=
  ∃ asked, item.size = some asked ∧ targetSize r asked = .ok size

/-- The types of a partition that is neither a swap nor kept for later. -/
def Plain (part_type : String) : Prop :=
  part_type ≠ "swap" ∧ part_type ≠ "blank" ∧ part_type ≠ "empty"

theorem targetItem_ok {m : Machine} {c : Settings} {r : RefSizes} {s s' : Locals} {item : Item}
    (h : targetItem m c r s item = .ok s') :
    ∃ target drive size globals block_device, item.target = some target ∧
      index m.target_drives target = .ok drive ∧ SizeIs r item size ∧
      let part_type := partType c .target item
      let s₁ := opened c item globals drive size s
      (part_type = "swap" ∧ s' = s₁.addEntry {
          type := "swap", priority := some (item.priority.getD 0), block_device := block_device,
          mkfs_options := some (mkfsOptions c part_type item) }) ∨
        ((part_type = "blank" ∨ part_type = "empty") ∧ s' = s₁) ∨
        (Plain part_type ∧ placePartition m drive block_device part_type
          (mkfsOptions c part_type item) item s₁ = .ok s') := by
  unfold targetItem at h
  simp only [bind_ok, key_ok] at h
  obtain ⟨target, htarget, drive, hdrive, size', hsize', size, hsize, part_type, htype, h⟩ := h
  obtain rfl := targetType_ok htype
  rw [setMountOptions_eq] at h
  by_cases hswap : partType c .target item = "swap"
  · simp only [hswap, if_true, bind_ok, pure_ok] at h
    obtain ⟨⟨block_device, s₁⟩, hadd, rfl⟩ := h
    obtain ⟨globals, rfl⟩ := add_ok hadd
    refine ⟨target, drive, size, globals, block_device, htarget, hdrive, ⟨size', hsize', hsize⟩,
      .inl ⟨hswap, ?_⟩⟩
    simp [opened, hswap, callType, Locals.withStore]
  by_cases hblank : partType c .target item = "blank" ∨ partType c .target item = "empty"
  · simp only [hswap, hblank, if_false, if_true, bind_ok, pure_ok] at h
    obtain ⟨⟨block_device, s₁⟩, hadd, rfl⟩ := h
    obtain ⟨globals, rfl⟩ := add_ok hadd
    refine ⟨target, drive, size, globals, block_device, htarget, hdrive, ⟨size', hsize', hsize⟩,
      .inr (.inl ⟨hblank, ?_⟩)⟩
    obtain hb | he := hblank
    · simp [opened, hb, callType, Locals.withStore]
    · simp [opened, he, callType, Locals.withStore]
  · simp only [hswap, hblank, if_false, bind_ok] at h
    obtain ⟨⟨block_device, s₁⟩, hadd, hplace⟩ := h
    obtain ⟨globals, rfl⟩ := add_ok hadd
    obtain ⟨hnblank, hnempty⟩ := not_or.mp hblank
    refine ⟨target, drive, size, globals, block_device, htarget, hdrive,
      ⟨size', hsize', hsize⟩,
      .inr (.inr ⟨⟨hswap, hnblank, hnempty⟩, ?_⟩)⟩
    simpa [opened, hswap, hnblank, hnempty, callType, Locals.withStore] using hplace

theorem addBcacheDevice_ok {item : Item} {block_device : String} {s s' : Locals}
    (h : addBcacheDevice item block_device s = .ok s') :
    ∃ cache backing, s' = { s with
      bcache_cache_list := cache, bcache_backing_list := backing } := by
  unfold addBcacheDevice at h
  simp only [bind_ok, key_ok] at h
  obtain ⟨as, -, h⟩ := h
  split at h
  · simp only [bind_ok, pure_ok] at h
    obtain ⟨group, -, rfl⟩ := h
    exact ⟨_, _, rfl⟩
  · split at h
    · simp only [bind_ok, pure_ok] at h
      obtain ⟨group, -, rfl⟩ := h
      exact ⟨_, _, rfl⟩
    · rw [pure_ok] at h
      exact ⟨_, _, h.symm⟩

/-- The types of the members of arrays, `bcache` devices and volume groups. -/
def memberTypes : List String := ["md", "bcache", "pv"]

theorem placePartition_ok {m : Machine} {target_drive block_device part_type mkfs_options : String}
    {item : Item} {s s' : Locals}
    (h : placePartition m target_drive block_device part_type mkfs_options item s = .ok s') :
    (part_type = "md" ∧ ∃ group drive, item.group = some group ∧
        m.drive_map target_drive = some drive ∧
        s' = { s with md_list := s.md_list.push group (block_device, drive) }) ∨
      (part_type = "bcache" ∧ ∃ cache backing, s' = { s with
        bcache_cache_list := cache, bcache_backing_list := backing }) ∨
      (part_type = "pv" ∧ ∃ group drive, item.group = some group ∧
        m.drive_map target_drive = some drive ∧
        s' = { s with pv_list := s.pv_list.push group (block_device, drive) }) ∨
      (part_type ∉ memberTypes ∧ ∃ drive mount_point r, m.drive_map target_drive = some drive ∧
        item.mount_point = some mount_point ∧ s.mount_options = some r ∧
        s' = (s.withStore (s.store.append (trimmed drive.supportsTrim part_type))).addEntry {
          mount_point := some mount_point, type := part_type, mount_options := some r,
          block_device := block_device, mkfs_options := some mkfs_options }) := by
  unfold placePartition at h
  by_cases hmd : part_type = "md"
  · simp only [hmd, if_true, bind_ok, key_ok, pure_ok] at h
    obtain ⟨group, hgroup, drive, hdrive, rfl⟩ := h
    exact .inl ⟨hmd, group, drive, hgroup, hdrive, rfl⟩
  by_cases hbcache : part_type = "bcache"
  · rw [if_neg hmd, if_pos hbcache] at h
    exact .inr (.inl ⟨hbcache, addBcacheDevice_ok h⟩)
  by_cases hpv : part_type = "pv"
  · rw [if_neg hmd, if_neg hbcache, if_pos hpv] at h
    simp only [bind_ok, key_ok, pure_ok] at h
    obtain ⟨group, hgroup, drive, hdrive, rfl⟩ := h
    exact .inr (.inr (.inl ⟨hpv, group, drive, hgroup, hdrive, rfl⟩))
  · rw [if_neg hmd, if_neg hbcache, if_neg hpv] at h
    simp only [bind_ok, key_ok, bound_ok, pure_ok] at h
    obtain ⟨drive, hdrive, s₁, hdiscard, mount_point, hmount, r, hr, rfl⟩ := h
    obtain rfl := discard_ok hdiscard
    have hvar : s.mount_options = some r := by
      rw [← hr]
      exact (Shared.Store.append_var s.store _).symm
    refine .inr (.inr (.inr ⟨by simp [memberTypes, hmd, hbcache, hpv], drive, mount_point, r,
      hdrive, hmount, hvar, rfl⟩))

/-! ## Arrays and `bcache` devices -/

/-- The volume that a command makes. -/
def Command.volume : Command → Option (String × LvSize × String)
  | .lvcreate name size vg => some (name, size, vg)
  | _ => none

theorem partType_of_ne_target (c : Settings) (kind : Kind) (item : Item) (h : kind ≠ .target) :
    partType c kind item = item.type.getD c.fs_type := by
  unfold partType
  cases item.type <;> simp [h]

theorem addSwap_ok {block_device mkfs_options : String} {s s' : Locals}
    (h : addSwap block_device mkfs_options s = .ok s') :
    ∃ priority, s.priority = some priority ∧ s' = s.addEntry {
      type := "swap", priority := some priority, block_device := block_device,
      mkfs_options := some mkfs_options } := by
  unfold addSwap at h
  simp only [bind_ok, bound_ok, pure_ok] at h
  obtain ⟨priority, hpriority, rfl⟩ := h
  exact ⟨priority, hpriority, rfl⟩

theorem addRAID_ok {id md_type : Int} {member_list : List String}
    {meta_version block_device : String}
    {s s' : Locals} (h : addRAID id member_list md_type meta_version s = .ok (block_device, s')) :
    s' = s.execute [.mdadm ("/dev/md" ++ toString id) meta_version md_type member_list] := by
  unfold addRAID at h
  split at h
  · simp at h
  · split at h
    · simp at h
    · cases h
      rfl

/-- A turn of a later loop, until the device is there. -/
def assigned (c : Settings) (kind : Kind) (item : Item) (s : Locals) : Locals :=
  { s.withStore (s.store.assign (own c item)) with
    item := some item, part_type := some (partType c kind item) }

theorem mdItem_ok {c : Settings} {s s' : Locals} {item : Item} (h : mdItem c s item = .ok s') :
    ∃ md members level meta_version block_device, item.md = some md ∧
      s.md_list.get md = some members ∧
      let part_type := partType c .md item
      let s₁ := (assigned c .md item s).execute
        [.mdadm ("/dev/md" ++ toString md) meta_version level (members.map (·.1))]
      (part_type = "swap" ∧ ∃ priority, s.priority = some priority ∧ s' = s₁.addEntry {
          type := "swap", priority := some priority, block_device := block_device,
          mkfs_options := some (mkfsOptions c part_type item) }) ∨
        (part_type = "bcache" ∧ ∃ cache backing, s' = { s₁ with
          bcache_cache_list := cache, bcache_backing_list := backing }) ∨
        (part_type ≠ "swap" ∧ part_type ≠ "bcache" ∧ item.mount_point = none ∧ s' = s₁) ∨
        (part_type ≠ "swap" ∧ part_type ≠ "bcache" ∧ ∃ mount_point r,
          item.mount_point = some mount_point ∧ s₁.mount_options = some r ∧
          s' = (s₁.withStore (s₁.store.append
            (trimmed (members.all (·.2.supportsTrim)) part_type))).addEntry {
              mount_point := some mount_point, type := part_type, mount_options := some r,
              block_device := block_device, mkfs_options := some (mkfsOptions c part_type item),
              members := some (members.map (·.1)) }) := by
  unfold mdItem at h
  rw [← partType_of_ne_target c .md item (by decide)] at h
  simp only [bind_ok, key_ok, setMountOptions_eq] at h
  obtain ⟨md, hmd, members, hmembers, level, -, ⟨block_device, s₁⟩, hraid, h⟩ := h
  obtain rfl := addRAID_ok hraid
  refine ⟨md, members, level, item.meta_version.getD c.md_meta_version, block_device, hmd, hmembers,
    ?_⟩
  by_cases hswap : partType c .md item = "swap"
  · rw [if_pos hswap] at h
    exact .inl ⟨hswap, addSwap_ok h⟩
  by_cases hbcache : partType c .md item = "bcache"
  · rw [if_neg hswap, if_pos hbcache] at h
    exact .inr (.inl ⟨hbcache, addBcacheDevice_ok h⟩)
  · rw [if_neg hswap, if_neg hbcache] at h
    cases hmount : item.mount_point with
    | none =>
      simp only [hmount, pure_ok] at h
      exact .inr (.inr (.inl ⟨hswap, hbcache, rfl, h.symm⟩))
    | some mount_point =>
      simp only [hmount, bind_ok, bound_ok, pure_ok] at h
      obtain ⟨s₂, hdiscard, r, hr, rfl⟩ := h
      obtain rfl := discard_ok hdiscard
      refine .inr (.inr (.inr ⟨hswap, hbcache, mount_point, r, rfl, ?_, rfl⟩))
      rw [← hr]
      exact (Shared.Store.append_var _ _).symm

theorem addBCache_eq (m : Machine) (id : Int) (backing_dev cache_dev : String)
    (mode : Option String) (s : Locals) :
    ∃ commands, commands.filterMap Command.volume = [] ∧
      addBCache m id backing_dev cache_dev mode s =
        ("/dev/bcache" ++ toString id, s.execute commands) := by
  refine ⟨_, ?_, rfl⟩
  rw [List.filterMap_append]
  split <;> rfl

theorem bcacheItem_ok {m : Machine} {c : Settings} {s s' : Locals} {item : Item}
    (h : bcacheItem m c s item = .ok s') :
    ∃ commands block_device, commands.filterMap Command.volume = [] ∧
      let part_type := partType c .bcache item
      let s₁ := (assigned c .bcache item s).execute commands
      (part_type = "swap" ∧ ∃ priority, s.priority = some priority ∧ s' = s₁.addEntry {
          type := "swap", priority := some priority, block_device := block_device,
          mkfs_options := some (mkfsOptions c part_type item) }) ∨
        (part_type ≠ "swap" ∧ item.mount_point = none ∧ s' = s₁) ∨
        (part_type ≠ "swap" ∧ ∃ mount_point r,
          item.mount_point = some mount_point ∧ s₁.mount_options = some r ∧ s' = s₁.addEntry {
            mount_point := some mount_point, type := part_type, mount_options := some r,
            block_device := block_device }) := by
  unfold bcacheItem at h
  rw [← partType_of_ne_target c .bcache item (by decide)] at h
  simp only [bind_ok, key_ok, setMountOptions_eq] at h
  obtain ⟨id, -, backing, -, cache, -, h⟩ := h
  obtain ⟨commands, hcommands, hadd⟩ := addBCache_eq m id backing cache item.mode
    (assigned c .bcache item s)
  refine ⟨commands, "/dev/bcache" ++ toString id, hcommands, ?_⟩
  simp only [assigned] at hadd
  rw [hadd] at h
  by_cases hswap : partType c .bcache item = "swap"
  · rw [if_pos hswap] at h
    exact .inl ⟨hswap, addSwap_ok h⟩
  · rw [if_neg hswap] at h
    cases hmount : item.mount_point with
    | none =>
      simp only [hmount, pure_ok] at h
      exact .inr (.inl ⟨hswap, rfl, h.symm⟩)
    | some mount_point =>
      simp only [hmount, bind_ok, bound_ok, pure_ok] at h
      obtain ⟨r, hr, rfl⟩ := h
      exact .inr (.inr ⟨hswap, mount_point, r, rfl, hr, rfl⟩)

/-! ## Volumes -/

theorem vgItem_ok {m : Machine} {s s' : Locals} {item : Item} (h : vgItem m s item = .ok s') :
    ∃ vg name members commands vg_extents, item.vg = some vg ∧ s.pv_list.get vg = some members ∧
      commands.filterMap Command.volume = [] ∧ s' = { s with
        commands := s.commands ++ commands, item := some item, vg := some vg
        vg_names := s.vg_names.set vg name, vg_extents := vg_extents
        vg_disks := s.vg_disks.set vg (members.map (·.2)) } := by
  unfold vgItem at h
  simp only [bind_ok, key_ok] at h
  obtain ⟨vg, hvg, name, -, members, hmembers, h⟩ := h
  split at h
  · simp at h
  · simp at h
  · rw [pure_ok] at h
    subst h
    refine ⟨vg, name, members, [.vgcreate name (members.map (·.1)), .vgdisplay name],
      ((m.total_pe name).map (s.vg_extents.set vg)).getD s.vg_extents, hvg, hmembers, rfl, ?_⟩
    cases m.total_pe name <;> rfl

theorem lvItem_ok {c : Settings} {r : RefSizes} {s s' : Locals} {item : Item}
    (h : lvItem c r s item = .ok s') :
    ∃ vg item_size size, item.lv = some vg ∧ item.size = some item_size ∧
      volumeSize r s.vg_extents vg item_size = .ok size ∧
      s' = { assigned c .lv item s with vg := some vg, size := some size } := by
  unfold lvItem at h
  rw [← partType_of_ne_target c .lv item (by decide)] at h
  simp only [bind_ok, key_ok, setMountOptions_eq, pure_ok] at h
  obtain ⟨vg, hvg, item_size, hitem_size, size, hsize, rfl⟩ := h
  exact ⟨vg, item_size, size, hvg, hitem_size, hsize, rfl⟩

/-- The device of a volume. -/
def volumeDevice (vg_name name : String) : String := "/dev/mapper/" ++ vg_name ++ "-" ++ name

theorem addVolume_ok {c : Settings} {s s' : Locals} (h : addVolume c s = .ok s') :
    ∃ item part_type, s.item = some item ∧ s.part_type = some part_type ∧
      ((item.mkfs_options.isSome ∧ s' = s) ∨
        (item.mkfs_options = none ∧ ∃ vg vg_name name size disks, s.vg = some vg ∧
          s.vg_names.get vg = some vg_name ∧ item.name = some name ∧ s.size = some size ∧
          s.vg_disks.get vg = some disks ∧
          let s₁ := s.execute [.lvcreate name size vg_name]
          ((part_type = "swap" ∧ ∃ priority, s.priority = some priority ∧ s' = s₁.addEntry {
              type := "swap", priority := some priority
              block_device := volumeDevice vg_name name
              mkfs_options := some (c.mkfs_options part_type) }) ∨
            (part_type ≠ "swap" ∧ ∃ mount_point r, item.mount_point = some mount_point ∧
              s.mount_options = some r ∧ s' = (s₁.withStore (s₁.store.append
                (trimmed (disks.all (·.supportsTrim)) part_type))).addEntry {
                  mount_point := some mount_point, type := c.fs_type, mount_options := some r
                  block_device := volumeDevice vg_name name
                  mkfs_options := some (c.mkfs_options part_type) })))) := by
  unfold addVolume at h
  simp only [bind_ok, bound_ok] at h
  obtain ⟨item, hitem, part_type, htype, h⟩ := h
  refine ⟨item, part_type, hitem, htype, ?_⟩
  cases hmkfs : item.mkfs_options with
  | some options =>
    simp only [hmkfs, pure_ok] at h
    exact .inl ⟨rfl, h.symm⟩
  | none =>
    simp only [hmkfs, bind_ok, bound_ok, key_ok] at h
    obtain ⟨vg, hvg, vg_name, hvg_name, name, hname, size, hsize, disks, hdisks, h⟩ := h
    refine .inr ⟨rfl, vg, vg_name, name, size, disks, hvg, hvg_name, hname, hsize, hdisks, ?_⟩
    by_cases hswap : part_type = "swap"
    · rw [if_pos hswap] at h
      exact .inl ⟨hswap, addSwap_ok h⟩
    · rw [if_neg hswap] at h
      simp only [bind_ok, bound_ok, key_ok, pure_ok] at h
      obtain ⟨s₁, hdiscard, mount_point, hmount, r, hr, rfl⟩ := h
      obtain rfl := discard_ok hdiscard
      refine .inr ⟨hswap, mount_point, r, hmount, ?_, rfl⟩
      rw [← hr]
      exact (Shared.Store.append_var s.store _).symm

/-! ## Runs -/

/-- A check that has not raised. -/
theorem guard_ok {α : Type} {p : Prop} [Decidable p] {e : PartitionError} {next : PUnit → Run α}
    {rest : Run α} {a : α} (h : (if p then (.error e : Run PUnit) >>= next else rest) = .ok a) :
    ¬ p ∧ rest = .ok a := by
  by_cases hp : p
  · rw [if_pos hp] at h
    cases h
  · exact ⟨hp, by rwa [if_neg hp] at h⟩

/-- The types that the settings give are known to `mkfs`. -/
theorem settings_valid {p : Profile} {v : ValueMap} {c : Settings} (h : settings p v = .ok c) :
    c.fs_type ∈ mkfsTypes ∧ c.boot_fs_type ∈ mkfsTypes := by
  unfold settings at h
  obtain ⟨-, h⟩ := guard_ok h
  obtain ⟨hfs, h⟩ := guard_ok h
  obtain ⟨hboot, h⟩ := guard_ok h
  simp only [bind_ok, pure_ok] at h
  obtain ⟨recipe, -, rfl⟩ := h
  exact ⟨not_not.mp hfs, not_not.mp hboot⟩

/-- The targets of a recipe. -/
def targets (recipe : List Item) : List Int := (recipe.filterMap (·.target)).dedup

/-- The loop over the items with `ref_size`. -/
def refSizes (c : Settings) : Run RefSizes :=
  (c.recipe.filter (·.ref_size.isSome)).foldlM (refSize c) ⟨c.boot_size, c.swap_size, none⟩

theorem layout_refSizes {m : Machine} {c : Settings} {s : Locals} {r : RefSizes}
    {boot_drives : List String} (h : layout m c = .ok (s, r, boot_drives)) :
    refSizes c = .ok r := by
  unfold layout at h
  simp only at h
  split at h
  · simp at h
  · obtain ⟨-, h⟩ := guard_ok h
    simp only [bind_ok, pure_ok, Prod.mk.injEq] at h
    obtain ⟨-, -, -, -, -, -, r', hr, -, -, -, -, -, -, -, -, -, rfl, -⟩ := h
    exact hr

theorem layout_ok {m : Machine} {c : Settings} {s : Locals} {r : RefSizes}
    {boot_drives : List String} (h : layout m c = .ok (s, r, boot_drives)) :
    ∃ globals s₁ s₂ drives s₃, bootDrives m c.recipe = .ok boot_drives ∧
      (targets c.recipe).foldlM (label m c) (start c).globals = .ok globals ∧
      boot_drives.foldlM (reserveBoot m c) { start c with globals := globals } = .ok s₁ ∧
      (c.recipe.filter (·.target.isSome)).foldlM (targetItem m c r) s₁ = .ok s₂ ∧
      (c.recipe.filter (·.md.isSome)).foldlM (mdItem c) (runParted drives s₂) = .ok s₃ ∧
      (c.recipe.filter (·.bcache.isSome)).foldlM (bcacheItem m c) s₃ = .ok s := by
  unfold layout at h
  simp only at h
  split at h
  · simp at h
  · obtain ⟨-, h⟩ := guard_ok h
    simp only [bind_ok, pure_ok, Prod.mk.injEq] at h
    obtain ⟨boot_drives', hboot, globals, hlabel, s₁, hreserve, r', -, s₂, htarget, drives, -,
      s₃, hmd, s₄, hbcache, rfl, rfl, rfl⟩ := h
    exact ⟨globals, s₁, s₂, drives.dedup, s₃, hboot, hlabel, hreserve, htarget, hmd, hbcache⟩

theorem partition_ok {p : Profile} {v : ValueMap} {m : Machine} {s : Locals}
    {boot_drives : List String} (h : partition p v m = .ok (s, boot_drives)) :
    ∃ c s₁ r, settings p v = .ok c ∧ layout m c = .ok (s₁, r, boot_drives) ∧
      volumes m c r s₁ = .ok s := by
  unfold partition at h
  simp only [bind_ok, pure_ok, Prod.mk.injEq] at h
  obtain ⟨c, hc, ⟨s₁, r, boot_drives'⟩, hlayout, s', hvolumes, rfl, rfl⟩ := h
  exact ⟨c, s₁, r, hc, hlayout, hvolumes⟩

/-- The volumes, where there are members of volume groups. -/
theorem volumes_ok {m : Machine} {c : Settings} {r : RefSizes} {s s' : Locals}
    (h : volumes m c r s = .ok s') :
    (s.pv_list = [] ∧ s' = s) ∨
      (s.pv_list ≠ [] ∧ ∃ commands s₁ s₂, commands.filterMap Command.volume = [] ∧
        (c.recipe.filter (·.vg.isSome)).foldlM (vgItem m)
          { s.execute commands with vg := s.pv_list.getLast?.map (·.1) } = .ok s₁ ∧
        (c.recipe.filter (·.lv.isSome)).foldlM (lvItem c r) s₁ = .ok s₂ ∧
        addVolume c s₂ = .ok s') := by
  unfold volumes at h
  by_cases hpv : s.pv_list = []
  · rw [if_pos hpv, pure_ok] at h
    exact .inl ⟨hpv, h.symm⟩
  · rw [if_neg hpv] at h
    simp only [bind_ok] at h
    obtain ⟨s₁, hvg, s₂, hlv, hadd⟩ := h
    refine .inr ⟨hpv, _, s₁, s₂, ?_, hvg, hlv, hadd⟩
    simp [List.filterMap_flatMap, Function.comp_def, Command.volume]

/-! ## A machine -/

/-- A profile without options for `mkfs`. -/
def plainProfile : Profile where
  partition_type := "gpt"
  fs_type := "ext4"
  boot_fs_type := "ext2"
  md_meta_version := "1.2"
  mkfs_options _ := none

/-- A machine with drives that can trim, booted without EFI. -/
def plainMachine (target_drives : List String) : Machine where
  target_drives := target_drives
  drive_map _ := some ⟨true⟩
  efi := false
  bcache := true
  total_pe _ := some 1000

end Filesystem
