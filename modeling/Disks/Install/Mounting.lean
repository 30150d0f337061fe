import Disks.Install.Partition
import Disks.Lib.Lines
import Disks.Lib.Path

/-!
# File systems and mounts (`linux-installer/root/installer/filesystem.py`)

What is done with the `filesystem_list` that `partition` leaves: `mkfs` makes the file systems and
notes their UUIDs, `mount` mounts them, `unmount` unmounts them, `writefstab` writes the `fstab` of
the installation.
Commands and `makedirs` are taken to succeed, and `blkid` to print a UUID.
-/

namespace Filesystem

/-! ## `mkfs` -/

/-- `mkfs_map[ type ]`, formatted. -/
def mkfsMap (type mkfs_options block_device : String) : Option String :=
  match type with
  | "ext2" => some ("/sbin/mkfs.ext2 -F " ++ mkfs_options ++ " -text2 " ++ block_device)
  | "ext3" => some ("/sbin/mkfs.ext2 -F " ++ mkfs_options ++ " -text3 " ++ block_device)
  | "ext4" => some ("/sbin/mkfs.ext2 -F " ++ mkfs_options ++ " -text4 " ++ block_device)
  | "xfs" => some ("/sbin/mkfs.xfs " ++ mkfs_options ++ " -f " ++ block_device)
  | "vfat" => some ("/sbin/mkfs.vfat " ++ mkfs_options ++ " " ++ block_device)
  | "swap" => some ("/sbin/mkswap " ++ mkfs_options ++ " " ++ block_device)
  | _ => none

/-- One turn of `mkfs`: the command, and the entry with the UUID that `blkid` prints. -/
def mkfsEntry (blkid : String → String) (fs : Entry) : Run (String × Entry) := do
  -- `format` looks up a type first, then the options
  let _ ← key fs.type (mkfsMap fs.type "" "")
  let mkfs_options ← key "mkfs_options" fs.mkfs_options
  let command ← key fs.type (mkfsMap fs.type mkfs_options fs.block_device)
  pure (command, { fs with uuid := some (blkid fs.block_device) })

/-- `mkfs`: the commands, and the list with the UUIDs. -/
def mkfs (blkid : String → String) (filesystem_list : List Entry) :
    Run (List String × List Entry) := do
  let made ← filesystem_list.mapM (mkfsEntry blkid)
  pure (made.map (·.1), made.map (·.2))

/-! ## `mount` -/

/-- An option `extra_mount_..` of a profile, split at its colons. -/
structure ExtraMount where
  fstype : String
  fs : String
  mount_point : String
  options : Option (List String)

/-- A `dict` by mount point, in the order of insertion. -/
abbrev MountPoints (α : Type) := List (String × α)

def MountPoints.set {α : Type} (d : MountPoints α) (point : String) (a : α) : MountPoints α :=
  if point ∈ d.map (·.1) then d.map fun p => if p.1 = point then (point, a) else p
  else d ++ [(point, a)]

/-- The mount points by the length of their names. -/
def mountOrder {α : Type} (d : MountPoints α) : MountPoints α :=
  d.mergeSort fun p q => p.1.length ≤ q.1.length

structure Mount where
  mount_point : String
  fstype : String
  fs : String
  options : List String

def Mount.text (m : Mount) : String :=
  let options := if m.options = [] then "" else "-o " ++ ",".intercalate m.options
  if m.fstype = "" then "mount " ++ options ++ " " ++ m.fs ++ " " ++ m.mount_point
  else "mount " ++ options ++ " -t " ++ m.fstype ++ " " ++ m.fs ++ " " ++ m.mount_point

/-- `mount_point.strip().rstrip( '/' )`. -/
def stripped (mount_point : String) : String :=
  String.ofList ((Lines.strip mount_point.toList).rdropWhile fun c => c = '/')

/-- The mounts of the profile. -/
def extraMounts (efi : Bool) (extra : List ExtraMount) :
    MountPoints (String × String × List String) :=
  (extra.filter fun e => ¬ (e.fstype = "efivarfs" ∧ ¬ efi)).foldl
    (fun d e => d.set e.mount_point (e.fstype, e.fs, e.options.getD [])) []

/-- The list an entry refers to. -/
def optionsOf (lists : List (List String)) (fs : Entry) : Run (List String) := do
  let r ← key "mount_options" fs.mount_options
  bound "mount_options" lists[r]?

/-- One turn of the loop over `filesystem_list` in `mount`. -/
def mountEntry (lists : List (List String)) (d : MountPoints (String × String × List String))
    (fs : Entry) : Run (MountPoints (String × String × List String)) :=
  match fs.mount_point with
  | some (some point) => do
    let options ← optionsOf lists fs
    pure (d.set point (fs.type, fs.block_device, options))
  | _ => pure d

/-- `mount`: the `mount_list` it leaves. -/
def mount (efi : Bool) (extra : List ExtraMount) (mount_point : String)
    (lists : List (List String)) (filesystem_list : List Entry) : Run (List Mount) := do
  let mount_points ← filesystem_list.foldlM (mountEntry lists) (extraMounts efi extra)
  pure ((mountOrder mount_points).map fun p =>
    ⟨stripped (mount_point ++ p.1), p.2.1, p.2.2.1, p.2.2.2⟩)

/-! ## `unmount` -/

/-- `mount_list`, sorted by the length of the mount points and reversed. -/
def unmountOrder (mount_list : List Mount) : List Mount :=
  (mount_list.mergeSort fun a b => a.mount_point.length ≤ b.mount_point.length).reverse

/-- `os.path.join( mount_point, 'etc', 'mtab' )` -/
def mtabPath (mount_point : String) : String :=
  String.ofList (Path.join mount_point.toList ["etc".toList, "mtab".toList])

/-- `unmount`: its commands; no process has a file of the target open. -/
def unmount (mount_point mtab : String) (mount_list : List Mount) : List String :=
  ["rm " ++ mtabPath mount_point,
    if mtab = "file" then "touch " ++ mtabPath mount_point
    else "ln -s " ++ mtab ++ " " ++ mtabPath mount_point] ++
  (unmountOrder mount_list).map fun mount => "/bin/umount " ++ mount.mount_point

/-! ## `writefstab` -/

/-- The line of a swap. -/
def swapLine (fs : Entry) : Run (List String) :=
  if fs.type = "swap" then do
    let uuid ← key "uuid" fs.uuid
    let priority ← key "priority" fs.priority
    pure ["UUID=" ++ uuid ++ "\tnone\tswap\tsw,pri=" ++ toString priority ++ "\t0\t0"]
  else pure []

/-- The line of a mount point. -/
def mountLine (lists : List (List String)) (point : String) (fs : Entry) : Run String := do
  let options ← optionsOf lists fs
  let options := ",".intercalate options
  let uuid ← key "uuid" fs.uuid
  pure ("UUID=" ++ uuid ++ "\t" ++ point ++ "\t" ++ fs.type ++ "\t" ++
    (if options = "" then "defaults" else options) ++ "\t0\t" ++ (if point = "/" then "1" else "2"))

/-- The entries by their mount points. -/
def mountedEntries (filesystem_list : List Entry) : MountPoints Entry :=
  filesystem_list.foldl (fun d fs =>
    match fs.mount_point with
    | some (some point) => d.set point fs
    | _ => d) []

/-- `writefstab`: the lines it writes, after those of the profile. -/
def writefstab (preamble : List String) (lists : List (List String))
    (filesystem_list : List Entry) : Run (List String) := do
  let swaps ← filesystem_list.mapM swapLine
  let mounts ← (mountOrder (mountedEntries filesystem_list)).mapM fun p => mountLine lists p.1 p.2
  pure (preamble ++ swaps.flatten ++ mounts)

end Filesystem
