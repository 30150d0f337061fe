import Disks.Install.Filesystem
import Mathlib.Data.List.Dedup
import Mathlib.Data.Rat.Defs

/-!
# Partitioning after a recipe (`linux-installer/root/installer/filesystem.py`)

`partition` works through the items of a recipe: the partitions of the target drives, then arrays,
`bcache` devices and volumes on them, and leaves the `filesystem_list` for `mkfs`, `mount` and
`writefstab`. The variables of the function keep their values from one item to the next, and the
`mount_options` of an entry are a list that the variable may still refer to: `Locals.lists` holds
the lists, the variable and the entries their numbers. Commands are taken to succeed; where the
drives are and what `vgdisplay` prints is given by a `Machine`.
-/

namespace Filesystem

/-! ## Recipes -/

/-- A `size` of a recipe: `end`, `boot`, `- boot`, `swap`, `- swap`, a percentage as it is written
and its number, megabytes, or a string that is none of these. -/
inductive Size
  | rest
  | boot
  | minusBoot
  | swap
  | minusSwap
  | percent (text : String) (n : Rat)
  | megabytes (n : Rat)
  | other (text : String)

structure Sizes where
  swap : Rat
  boot : Rat
  boot_rsvd : Rat

/-- An item of a recipe; a missing key is `none`. -/
structure Item where
  target : Option Int := none
  type : Option String := none
  group : Option Int := none
  as : Option String := none
  size : Option Size := none
  mount_point : Option (Option String) := none
  mount_options : Option String := none
  mkfs_options : Option String := none
  priority : Option Int := none
  md : Option Int := none
  level : Option Int := none
  meta_version : Option String := none
  bcache : Option Int := none
  mode : Option String := none
  vg : Option Int := none
  lv : Option Int := none
  name : Option String := none
  ref_size : Option String := none
  lambda : Option (Sizes → Rat) := none

/-- `partition_recipes`. -/
def partitionRecipes (scheme : String) : Option (List Item) :=
  let part (target : Int) (mount_point : String) (size : Size) : Item :=
    { target := some target, mount_point := some (some mount_point), size := some size }
  let swap (target : Int) (size : Size) : Item :=
    { target := some target, type := some "swap", size := some size }
  let member (target : Int) (type : String) (group : Int) (size : Size) : Item :=
    { target := some target, type := some type, group := some group, size := some size }
  let md (id level : Int) (mount_point : String) : Item :=
    { md := some id, level := some level, mount_point := some (some mount_point) }
  -- the first two drives have `/boot`, the other two the swap
  let larger : List Item :=
    [{ ref_size := some "boot", lambda := some fun sizes =>
        if sizes.swap > sizes.boot then sizes.swap else sizes.boot },
      { ref_size := some "swap", lambda := some fun sizes =>
        if sizes.swap > sizes.boot then sizes.swap - sizes.boot_rsvd
        else sizes.boot - sizes.boot_rsvd }]
  let raid (level : Int) : List Item :=
    [member 0 "md" 0 .boot, member 1 "md" 0 .boot, swap 2 .swap, swap 3 .swap,
      member 0 "md" 1 .rest, member 1 "md" 1 .rest, member 2 "md" 1 .rest, member 3 "md" 1 .rest,
      md 0 1 "/boot", md 1 level "/"] ++ larger
  match scheme with
  | "single" => some [part 0 "/boot" .boot, part 0 "/" .minusSwap, swap 0 .rest]
  | "mirror" => some
      [member 0 "md" 0 .boot, member 1 "md" 0 .boot, member 0 "md" 1 .minusSwap,
        member 1 "md" 1 .minusSwap, swap 0 .rest, swap 1 .rest, md 0 1 "/boot", md 1 1 "/"]
  | "raid10" => some (raid 10)
  | "raid6" => some (raid 6)
  | "single-lvm" => some
      [part 0 "/boot" .boot, member 0 "pv" 0 .minusSwap, swap 0 .rest,
        { vg := some 0, name := some "VG0" },
        { lv := some 0, name := some "root", mount_point := some (some "/"),
          size := some (.percent "100%" 100) }]
  | "dual-lvm" => some
      [member 0 "md" 0 .boot, member 1 "md" 0 .boot, member 0 "pv" 0 .minusSwap, swap 0 .rest,
        member 1 "pv" 0 .minusSwap, swap 1 .rest, md 0 1 "/boot",
        { vg := some 0, name := some "VG0" },
        { lv := some 0, name := some "root", mount_point := some (some "/"),
          size := some (.percent "95%" 95) }]
  | "bcache-var" => some
      [part 0 "/boot" .boot, part 0 "/" .minusSwap, swap 0 .rest,
        { member 1 "bcache" 0 .rest with as := some "cache" },
        { member 2 "bcache" 0 .rest with as := some "backing" },
        { bcache := some 0, mount_point := some (some "/var"), type := some "ext4",
          mode := some "writeback" }]
  | _ => none

/-! ## What a run is given -/

/-- The section `filesystem` of a profile. -/
structure Profile where
  partition_type : String
  fs_type : String
  boot_fs_type : String
  md_meta_version : String
  /-- `mkfs_.._options` -/
  mkfs_options : String → Option String

/-- The values of the configuration that are looked at. -/
structure ValueMap where
  md_meta_version : Option String := none
  swap_size : Option Int := none
  boot_size : Option Int := none
  default_mounting_options : Option String := none
  partition_scheme : Option String := none
  partition_recipe : Option (List Item) := none

structure Drive where
  supportsTrim : Bool
deriving DecidableEq, Repr

/-- What `_getTargetDrives` found, whether the machine was booted by EFI or knows `bcache`, and the
extents that `vgdisplay` prints. -/
structure Machine where
  target_drives : List String
  drive_map : String → Option Drive
  efi : Bool
  bcache : Bool
  total_pe : String → Option Nat

inductive PartitionError
  | base (e : Error)
  | fileSystemException (text : String)
  | indexError
  | valueError
  | attributeError (name : String)
  | unboundLocalError (name : String)
deriving DecidableEq, Repr

abbrev Run := Except PartitionError

def raise {α : Type} (text : String) : Run α := .error (.base (.exception text))

/-- `d[ name ]`. -/
def key {α : Type} (name : String) : Option α → Run α
  | some a => .ok a
  | none => .error (.base (.keyError name))

/-- A variable that may not have been assigned yet. -/
def bound {α : Type} (name : String) : Option α → Run α
  | some a => .ok a
  | none => .error (.unboundLocalError name)

/-- `l[ i ]`: a negative index counts from the end. -/
def index {α : Type} (l : List α) (i : Int) : Run α :=
  let i := if i < 0 then i + l.length else i
  if i < 0 then .error .indexError
  else
    match l[i.toNat]? with
    | some a => .ok a
    | none => .error .indexError

/-! ## Boot drives -/

/-- `_targetsWithMount`. -/
def targetsWithMount (recipe : List Item) (mount_point : String) : Run (List Int) :=
  let mounted := recipe.filter fun i => i.mount_point = some (some mount_point)
  let md_device := (mounted.filterMap (·.md)).getLast?
  let target_device := (mounted.filterMap (·.target)).getLast?
  match md_device, target_device with
  | none, none => .ok []
  | some _, some _ => raise ("Confused as to where \"" ++ mount_point ++ "\" goes")
  | some md_device, none =>
    .ok ((recipe.filter fun i => i.group = some md_device).filterMap (·.target))
  | none, some target_device => .ok [target_device]

/-! ## Settings -/

/-- The keys of `mkfs_map`. -/
def mkfsTypes : List String := ["ext2", "ext3", "ext4", "xfs", "vfat", "swap"]

def FS_WITH_TRIM : List String := ["ext4", "xfs"]

/-- What `partition` takes from the profile and the values. -/
structure Settings where
  partition_type : String
  fs_type : String
  boot_fs_type : String
  md_meta_version : String
  boot_rsvd_size : Rat
  swap_size : Rat
  boot_size : Rat
  default_mounting_options : List String
  recipe : List Item
  mkfs_options : String → String

/-- `value_map[ name ]` where it counts as true. -/
def given {α : Type} [DecidableEq α] (falsy : α) (value : Option α) (default : α) : α :=
  match value with
  | some a => if a = falsy then default else a
  | none => default

def findRecipe (v : ValueMap) : Run (List Item) :=
  let scheme := given "" v.partition_scheme "single"
  let unknown : Run (List Item) := raise ("Unknown partitioning scheme \"" ++ scheme ++ "\"")
  if scheme = "custom" then
    match v.partition_recipe with
    | none => raise "custom paritition_scheme specified, but recipe not found."
    | some [] => unknown
    | some recipe => .ok recipe
  else
    match partitionRecipes scheme with
    | none => unknown
    | some recipe => .ok recipe

def settings (p : Profile) (v : ValueMap) : Run Settings := do
  if p.partition_type ≠ "gpt" ∧ p.partition_type ≠ "msdos" then
    .error (.fileSystemException ("Invalid partition_type \"" ++ p.partition_type ++ "\""))
  if p.fs_type ∉ mkfsTypes then
    .error (.fileSystemException ("Invalid fs_type \"" ++ p.fs_type ++ "\""))
  if p.boot_fs_type ∉ mkfsTypes then
    .error (.fileSystemException ("Invalid boot_fs_type \"" ++ p.boot_fs_type ++ "\""))
  let recipe ← findRecipe v
  let swaps := (recipe.filter (·.type = some "swap")).length
  let swap_size : Rat := given 0 v.swap_size 512
  pure {
    partition_type := p.partition_type
    fs_type := p.fs_type
    boot_fs_type := p.boot_fs_type
    md_meta_version := given "" v.md_meta_version p.md_meta_version
    boot_rsvd_size := if p.partition_type = "gpt" then 100 else 5
    swap_size := if swaps = 0 then 0 else swap_size / swaps
    boot_size := given 0 v.boot_size 512
    default_mounting_options :=
      match v.default_mounting_options with
      | some text => if text ≠ "" ∧ text ≠ "defaults" then text.splitOn "," else []
      | none => []
    recipe := recipe
    mkfs_options := fun type => (p.mkfs_options type).getD "" }

/-! ## The variables -/

/-- An entry of `filesystem_list`; a missing key is `none`. -/
structure Entry where
  type : String
  block_device : String
  mount_point : Option (Option String) := none
  mount_options : Option Nat := none
  priority : Option Int := none
  mkfs_options : Option String := none
  members : Option (List String) := none
  uuid : Option String := none

/-- The `size` of a volume, or the number that an item of a drive has left in the variable. -/
inductive LvSize
  | extents (n : Int)
  | megabytes (n : Int)
  | number (size : Rat)

def LvSize.text : LvSize → String
  | .extents n => "--extents " ++ toString n
  | .megabytes n => "--size " ++ toString n ++ "M"
  | .number size => toString size

/-- A command that is executed, or a file that is written. -/
inductive Command
  | parted (block_device : String) (tasks : List Task)
  | mdadm (dev_name meta_version : String) (md_type : Int) (member_list : List String)
  | modprobeBcache
  | makeBcache (writeback : Bool) (backing_dev cache_dev : String)
  | register (dev : String)
  | pvcreate (block_device : String)
  | vgcreate (name : String) (block_list : List String)
  | vgdisplay (name : String)
  | lvcreate (name : String) (size : LvSize) (vg : String)

def Command.text : Command → String
  | .parted block_device tasks =>
    "/sbin/parted -s " ++ block_device ++ " -- " ++ "\\ \n".intercalate (tasks.map (·.text))
  | .mdadm dev_name meta_version md_type member_list =>
    "/sbin/mdadm " ++ dev_name ++ " --create --run --force --metadata=" ++ meta_version ++
      " --level=" ++ toString md_type ++ " --raid-devices=" ++ toString member_list.length ++ " " ++
      " ".intercalate member_list
  | .modprobeBcache => "/sbin/modprobe bcache"
  | .makeBcache writeback backing_dev cache_dev =>
    "/sbin/make-bcache --wipe-bcache " ++ (if writeback then "--writeback" else "") ++ " -B " ++
      backing_dev ++ " -C " ++ cache_dev
  | .register dev => dev
  | .pvcreate block_device => "/sbin/lvm pvcreate -ff -y " ++ block_device
  | .vgcreate name block_list => "/sbin/lvm vgcreate " ++ name ++ " " ++ " ".intercalate block_list
  | .vgdisplay name => "/sbin/lvm vgdisplay " ++ name
  | .lvcreate name size vg =>
    "/sbin/lvm lvcreate --name \"" ++ name ++ "\" " ++ size.text ++ " " ++ vg

/-- A `dict` by number, in the order of insertion. -/
abbrev Dict (α : Type) := List (Int × α)

def Dict.get {α : Type} (d : Dict α) (k : Int) : Option α := d.lookup k

def Dict.set {α : Type} (d : Dict α) (k : Int) (a : α) : Dict α :=
  if (d.get k).isSome then d.map fun p => if p.1 = k then (k, a) else p else d ++ [(k, a)]

/-- `d[ k ].append( a )`, of a new list where there is none. -/
def Dict.push {α : Type} (d : Dict (List α)) (k : Int) (a : α) : Dict (List α) :=
  d.set k (((d.get k).getD []) ++ [a])

/-- The globals and the variables of `partition`. -/
structure Locals where
  globals : Globals
  calls : List Call
  commands : List Command
  filesystem_list : List Entry
  lists : List (List String)
  md_list : Dict (List (String × Drive))
  pv_list : Dict (List (String × Drive))
  bcache_cache_list : Dict String
  bcache_backing_list : Dict String
  vg_names : Dict String
  vg_extents : Dict Nat
  vg_disks : Dict (List Drive)
  item : Option Item
  part_type : Option String
  mount_options : Option Nat
  priority : Option Int
  size : Option LvSize
  vg : Option Int

def Locals.addEntry (s : Locals) (e : Entry) : Locals :=
  { s with filesystem_list := s.filesystem_list ++ [e] }

def Locals.execute (s : Locals) (commands : List Command) : Locals :=
  { s with commands := s.commands ++ commands }

/-- `_addPartition`. -/
def add (block_device : String) (part_type : PartType) (size : Rat) (s : Locals) :
    Run (String × Locals) :=
  match addPartition block_device part_type size s.globals with
  | .error e => .error (.base e)
  | .ok (name, globals) =>
    .ok (name.getD "None",
      { s with globals := globals, calls := s.calls ++ [⟨block_device, part_type, size⟩] })

/-- The mount options of an item; `defaults` leaves the variable as it is. -/
def setMountOptions (c : Settings) (item : Item) (s : Locals) : Locals :=
  let assign (options : List String) : Locals :=
    { s with lists := s.lists ++ [options], mount_options := some s.lists.length }
  match item.mount_options with
  | some text => if text ≠ "defaults" then assign (text.splitOn ",") else s
  | none => assign c.default_mounting_options

def mkfsOptions (c : Settings) (part_type : String) (item : Item) : String :=
  match item.mkfs_options with
  | some options => c.mkfs_options part_type ++ " " ++ options
  | none => c.mkfs_options part_type

/-- `mount_options.append( 'discard' )`, where the drives can trim and the file system does. -/
def discard (supportsTrim : Bool) (part_type : String) (s : Locals) : Run Locals :=
  if supportsTrim ∧ part_type ∈ FS_WITH_TRIM then do
    let r ← bound "mount_options" s.mount_options
    pure { s with lists := s.lists.modify r (· ++ ["discard"]) }
  else pure s

/-! ## The partitions of the drives -/

/-- The room for the boot loader on each boot drive. -/
def reserveBoot (m : Machine) (c : Settings) (s : Locals) (drive : String) : Run Locals :=
  if c.partition_type = "gpt" then do
    let (grub_partition, s) ← add drive .bios_grub c.boot_rsvd_size s
    let e : Entry := {
      type := "vfat", block_device := grub_partition, mkfs_options := some (c.mkfs_options "vfat") }
    -- the list of the default options is the first one
    pure (s.addEntry (if m.efi then
      { e with mount_point := some (some "/boot/efi"), mount_options := some 0 } else e))
  else do
    let (_, s) ← add drive .blank c.boot_rsvd_size s
    pure s

/-- The sizes while the items with `ref_size` are applied, and the variable `tmp`. -/
structure RefSizes where
  boot_size : Rat
  swap_size : Rat
  tmp : Option Rat

def refSize (c : Settings) (r : RefSizes) (item : Item) : Run RefSizes := do
  let sizes : Sizes := ⟨r.swap_size, r.boot_size, c.boot_rsvd_size⟩
  let r := match item.lambda with
    | some f => { r with tmp := some (f sizes) }
    | none => r
  if item.ref_size = some "boot" then
    let tmp ← bound "tmp" r.tmp
    pure { r with boot_size := tmp }
  else if item.ref_size = some "swap" then
    let tmp ← bound "tmp" r.tmp
    pure { r with swap_size := tmp }
  else pure r

/-- The size of a partition. -/
def targetSize (r : RefSizes) : Size → Run Rat
  | .rest => pure 0
  | .boot => pure r.boot_size
  | .minusBoot => pure (-1 * r.boot_size)
  | .swap => pure r.swap_size
  | .minusSwap => pure (-1 * r.swap_size)
  | .percent text n =>
    if n / 100 = 1 then pure 0
    else if n / 100 ≤ 0 ∨ n / 100 ≥ 1 then raise ("Invalid size percentage \"" ++ text ++ "\"")
    -- a `Drive` has no attribute `drive`
    else .error (.attributeError "drive")
  | .megabytes n => pure (int n)
  | .other _ => .error .valueError

def targetType (c : Settings) (item : Item) : Run String :=
  match item.type with
  | some type => pure type
  | none => do
    let mount_point ← key "mount_point" item.mount_point
    pure (if mount_point = some "/boot" then c.boot_fs_type else c.fs_type)

/-- A device for a `bcache`. -/
def addBcacheDevice (item : Item) (block_device : String) (s : Locals) : Run Locals := do
  let as ← key "as" item.as
  if as = "cache" then
    let group ← key "group" item.group
    pure { s with bcache_cache_list := s.bcache_cache_list.set group block_device }
  else if as = "backing" then
    let group ← key "group" item.group
    pure { s with bcache_backing_list := s.bcache_backing_list.set group block_device }
  else pure s

/-- What becomes of the partition of an item: a member, or a file system. -/
def placePartition (m : Machine) (target_drive block_device part_type mkfs_options : String)
    (item : Item) (s : Locals) : Run Locals :=
  if part_type = "md" then do
    let group ← key "group" item.group
    let drive ← key target_drive (m.drive_map target_drive)
    pure { s with md_list := s.md_list.push group (block_device, drive) }
  else if part_type = "bcache" then addBcacheDevice item block_device s
  else if part_type = "pv" then do
    let group ← key "group" item.group
    let drive ← key target_drive (m.drive_map target_drive)
    pure { s with pv_list := s.pv_list.push group (block_device, drive) }
  else do
    let drive ← key target_drive (m.drive_map target_drive)
    let s ← discard drive.supportsTrim part_type s
    let mount_point ← key "mount_point" item.mount_point
    let mount_options ← bound "mount_options" s.mount_options
    pure (s.addEntry {
      mount_point := some mount_point, type := part_type, mount_options := some mount_options,
      block_device := block_device, mkfs_options := some mkfs_options })

/-- One turn of the loop over the items with `target`. -/
def targetItem (m : Machine) (c : Settings) (r : RefSizes) (s : Locals) (item : Item) :
    Run Locals := do
  let target ← key "target" item.target
  let target_drive ← index m.target_drives target
  let size ← key "size" item.size
  let size ← targetSize r size
  let part_type ← targetType c item
  let s := setMountOptions c item s
  let mkfs_options := mkfsOptions c part_type item
  let priority := item.priority.getD 0
  let s := { s with
    item := some item, part_type := some part_type, priority := some priority,
    size := some (.number size) }
  if part_type = "swap" then
    let (block_device, s) ← add target_drive .swap size s
    pure (s.addEntry {
      type := "swap", priority := some priority, block_device := block_device,
      mkfs_options := some mkfs_options })
  else if part_type = "blank" ∨ part_type = "empty" then
    let (_, s) ← add target_drive (if part_type = "blank" then .blank else .empty) size s
    pure s
  else
    let (block_device, s) ← add target_drive .fs size s
    placePartition m target_drive block_device part_type mkfs_options item s

/-! ## Arrays and `bcache` devices -/

/-- The entry of an array, a `bcache` device or a volume used as swap. -/
def addSwap (block_device mkfs_options : String) (s : Locals) : Run Locals := do
  let priority ← bound "priority" s.priority
  pure (s.addEntry {
    type := "swap", priority := some priority, block_device := block_device,
    mkfs_options := some mkfs_options })

/-- `_addRAID`. -/
def addRAID (id : Int) (member_list : List String) (md_type : Int) (meta_version : String)
    (s : Locals) : Run (String × Locals) :=
  let dev_name := "/dev/md" ++ toString id
  if (md_type = 1 ∨ md_type = 10) ∧ member_list.length % 2 ≠ 0 then
    raise ("RAID " ++ toString md_type ++ " requires even number of members")
  else if (md_type = 5 ∨ md_type = 6) ∧ member_list.length < 3 then
    raise ("RAID " ++ toString md_type ++ " requires a minimum of 3 members")
  else .ok (dev_name, s.execute [.mdadm dev_name meta_version md_type member_list])

/-- `_addBCache`. -/
def addBCache (m : Machine) (id : Int) (backing_dev cache_dev : String) (mode : Option String)
    (s : Locals) : String × Locals :=
  ("/dev/bcache" ++ toString id,
    s.execute ((if m.bcache ∨ s.commands.any (· matches .modprobeBcache) then []
        else [.modprobeBcache]) ++
      [.makeBcache (mode = some "writeback") backing_dev cache_dev, .register backing_dev,
        .register cache_dev]))

/-- One turn of the loop over the items with `md`. -/
def mdItem (c : Settings) (s : Locals) (item : Item) : Run Locals := do
  let part_type := item.type.getD c.fs_type
  let meta_version := item.meta_version.getD c.md_meta_version
  let s := setMountOptions c item s
  let mkfs_options := mkfsOptions c part_type item
  let s := { s with item := some item, part_type := some part_type }
  let md ← key "md" item.md
  let members ← key (toString md) (s.md_list.get md)
  let block_list := members.map (·.1)
  let supportsTrim := members.all (·.2.supportsTrim)
  let level ← key "level" item.level
  let (block_device, s) ← addRAID md block_list level meta_version s
  if part_type = "swap" then addSwap block_device mkfs_options s
  else if part_type = "bcache" then addBcacheDevice item block_device s
  else
    match item.mount_point with
    | none => pure s
    | some mount_point =>
      let s ← discard supportsTrim part_type s
      let mount_options ← bound "mount_options" s.mount_options
      pure (s.addEntry {
        mount_point := some mount_point, type := part_type, mount_options := some mount_options,
        block_device := block_device, mkfs_options := some mkfs_options,
        members := some block_list })

/-- One turn of the loop over the items with `bcache`. -/
def bcacheItem (m : Machine) (c : Settings) (s : Locals) (item : Item) : Run Locals := do
  let part_type := item.type.getD c.fs_type
  let s := setMountOptions c item s
  let mkfs_options := mkfsOptions c part_type item
  let s := { s with item := some item, part_type := some part_type }
  let id ← key "bcache" item.bcache
  let backing ← key (toString id) (s.bcache_backing_list.get id)
  let cache ← key (toString id) (s.bcache_cache_list.get id)
  let (block_device, s) := addBCache m id backing cache item.mode s
  if part_type = "swap" then addSwap block_device mkfs_options s
  else
    match item.mount_point with
    | none => pure s
    | some mount_point =>
      let mount_options ← bound "mount_options" s.mount_options
      -- no `mkfs_options` here
      pure (s.addEntry {
        mount_point := some mount_point, type := part_type, mount_options := some mount_options,
        block_device := block_device })

/-! ## Volumes -/

/-- One turn of the loop over the items with `vg`. -/
def vgItem (m : Machine) (s : Locals) (item : Item) : Run Locals := do
  let s := { s with item := some item }
  let vg ← key "vg" item.vg
  let name ← key "name" item.name
  let members ← key (toString vg) (s.pv_list.get vg)
  let block_list := members.map (·.1)
  let s := { s.execute [.vgcreate name block_list, .vgdisplay name] with
    vg := some vg, vg_names := s.vg_names.set vg name
    vg_disks := s.vg_disks.set vg (members.map (·.2)) }
  let s := match m.total_pe name with
    | some extents => { s with vg_extents := s.vg_extents.set vg extents }
    | none => s
  match s.vg_extents.get vg with
  | none | some 0 => raise ("Unable to get Size/Extents of VG \"" ++ name ++ "\"")
  | some _ => pure s

/-- The size of a volume. -/
def volumeSize (r : RefSizes) (vg_extents : Dict Nat) (vg : Int) : Size → Run LvSize
  | .boot => pure (.megabytes (int r.boot_size))
  | .swap => pure (.megabytes (int r.swap_size))
  | .percent text n => do
    if n / 100 = 1 then
      let extents ← key (toString vg) (vg_extents.get vg)
      pure (.extents extents)
    else if n / 100 ≤ 0 ∨ n / 100 ≥ 1 then raise ("Invalid size percentage \"" ++ text ++ "\"")
    else
      let extents ← key (toString vg) (vg_extents.get vg)
      pure (.extents (int (extents * (n / 100))))
  | .megabytes n => pure (.megabytes (int n))
  | .rest | .minusBoot | .minusSwap | .other _ => .error .valueError

/-- One turn of the loop over the items with `lv`. -/
def lvItem (c : Settings) (r : RefSizes) (s : Locals) (item : Item) : Run Locals := do
  let vg ← key "lv" item.lv
  let size ← key "size" item.size
  let size ← volumeSize r s.vg_extents vg size
  let part_type := item.type.getD c.fs_type
  let s := setMountOptions c item s
  pure { s with
    item := some item, vg := some vg, size := some size, part_type := some part_type }

/-- What follows the loop over the items with `lv`, in the handler of a missing `mkfs_options`. -/
def addVolume (c : Settings) (s : Locals) : Run Locals := do
  let item ← bound "item" s.item
  let part_type ← bound "part_type" s.part_type
  match item.mkfs_options with
  | some _ => pure s
  | none =>
    let mkfs_options := c.mkfs_options part_type
    let vg ← bound "vg" s.vg
    let vg_name ← key (toString vg) (s.vg_names.get vg)
    let name ← key "name" item.name
    let block_device := "/dev/mapper/" ++ vg_name ++ "-" ++ name
    let size ← bound "size" s.size
    let s := s.execute [.lvcreate name size vg_name]
    let disks ← key (toString vg) (s.vg_disks.get vg)
    let supportsTrim := disks.all (·.supportsTrim)
    if part_type = "swap" then addSwap block_device mkfs_options s
    else
      let s ← discard supportsTrim part_type s
      let mount_point ← key "mount_point" item.mount_point
      let mount_options ← bound "mount_options" s.mount_options
      pure (s.addEntry {
        mount_point := some mount_point, type := c.fs_type, mount_options := some mount_options,
        block_device := block_device, mkfs_options := some mkfs_options })

/-- What is done `if pv_list`. -/
def volumes (m : Machine) (c : Settings) (r : RefSizes) (s : Locals) : Run Locals :=
  if s.pv_list = [] then pure s
  else do
    let s := { s.execute (s.pv_list.flatMap fun p => p.2.map fun d => .pvcreate d.1) with
      vg := s.pv_list.getLast?.map (·.1) }
    let s ← (c.recipe.filter (·.vg.isSome)).foldlM (vgItem m) s
    let s ← (c.recipe.filter (·.lv.isSome)).foldlM (lvItem c r) s
    addVolume c s

/-! ## `partition` -/

/-- The boot drives: those of `/boot`, or else of `/`. -/
def bootDrives (m : Machine) (recipe : List Item) : Run (List String) := do
  let boot ← targetsWithMount recipe "/boot"
  let boot ← if boot = [] then targetsWithMount recipe "/" else pure boot
  if boot = [] then raise "Unable to determine the boot_drives"
  else boot.mapM (index m.target_drives)

def label (m : Machine) (c : Settings) (g : Globals) (target : Int) : Run Globals := do
  let drive ← index m.target_drives target
  let tasks := some [.mklabel c.partition_type]
  pure { g with parted_task_map := Function.update g.parted_task_map drive tasks }

def start (c : Settings) : Locals where
  globals := ⟨fun _ => none, fun _ => none, fun _ => none⟩
  calls := []
  commands := []
  filesystem_list := []
  lists := [c.default_mounting_options]
  md_list := []
  pv_list := []
  bcache_cache_list := []
  bcache_backing_list := []
  vg_names := []
  vg_extents := []
  vg_disks := []
  item := none
  part_type := none
  mount_options := none
  priority := none
  size := none
  vg := none

/-- `parted` for each target. -/
def runParted (drives : List String) (s : Locals) : Locals :=
  s.execute (drives.map fun d => .parted d ((s.globals.parted_task_map d).getD []))

/-- Everything up to the volumes: the variables, the sizes and the boot drives. -/
def layout (m : Machine) (c : Settings) : Run (Locals × RefSizes × List String) := do
  let targets : List Int := (c.recipe.filterMap (·.target)).dedup
  match targets.max? with
  | none => .error .valueError
  | some last =>
    if m.target_drives.length ≤ last then
      raise ("Not Enough Target Drives, need \"" ++ toString (last + 1) ++ "\" found \"" ++
        toString m.target_drives.length ++ "\"")
    let boot_drives ← bootDrives m c.recipe
    let globals ← targets.foldlM (label m c) (start c).globals
    let s ← boot_drives.foldlM (reserveBoot m c) { start c with globals := globals }
    let r ← (c.recipe.filter (·.ref_size.isSome)).foldlM (refSize c)
      ⟨c.boot_size, c.swap_size, none⟩
    let s ← (c.recipe.filter (·.target.isSome)).foldlM (targetItem m c r) s
    let drives ← targets.mapM (index m.target_drives)
    let s := runParted drives.dedup s
    let s ← (c.recipe.filter (·.md.isSome)).foldlM (mdItem c) s
    let s ← (c.recipe.filter (·.bcache.isSome)).foldlM (bcacheItem m c) s
    pure (s, r, boot_drives)

/-- `partition`: the variables at its end, and the boot drives. -/
def partition (p : Profile) (v : ValueMap) (m : Machine) : Run (Locals × List String) := do
  let c ← settings p v
  let (s, r, boot_drives) ← layout m c
  let s ← volumes m c r s
  pure (s, boot_drives)

end Filesystem
