import Disks.Manager.DriveManager

/-!
# The drives that are asked for (`_getTargetDrives`)

Each target is a block device, the location of a port, a device path, or a pattern for one of the
last two; the first of these that gives a block device is taken.
-/

namespace Filesystem

open Manager

inductive TargetError
  | missingDrives (drive : Text)
  | reError
  | typeError
deriving DecidableEq

section targets

/- `re.search` with a target as the pattern: `none` where it is none. -/
variable (re : Text → Option (Text → Bool)) (dm : DriveManager)

/-- The block devices, by length and then by name. -/
def blockList : List Text :=
  (Assoc.keys dm.block_map).insertionSort fun x y =>
    x.length < y.length ∨ (x.length = y.length ∧ x ≤ y)

/-- The locations with a drive, and its block device. -/
def portBlocks : List (Text × Option Text) :=
  dm.port_map.filterMap fun p => p.2.map fun d => (p.1, d.block_path)

def devpathBlocks : List (Option Text × Option Text) :=
  dm.devpath_map.map fun p => (p.1, p.2.block_path)

/-- The value of a key, if a target is found in it. -/
def searchKey (drive : Text) (key value : Option Text) :
    Except TargetError (Option (Option Text)) :=
  match re drive, key with
  | none, _ => .error .reError
  | some _, none => .error .typeError
  | some search, some i => .ok (if search i then some value else none)

/-- The values of the keys in which a target is found. -/
def found (drive : Text) (items : List (Option Text × Option Text)) :
    Except TargetError (List (Option Text)) := do
  let values ← items.mapM fun p => searchKey re drive p.1 p.2
  pure (values.filterMap id)

/-- A turn of the loop over the targets. -/
def targetBlock (drive : Text) : Except TargetError Text :=
  if (blockList dm).contains drive then .ok drive
  else match ((portBlocks dm).lookup drive).join with
  | some block => .ok block
  | none => match ((devpathBlocks dm).lookup (some drive)).join with
    | some block => .ok block
    | none => do
      let tmp ← found re drive ((portBlocks dm).map fun p => (some p.1, p.2))
      match tmp.head?.join with
      | some block => pure block
      | none =>
        let tmp ← found re drive (devpathBlocks dm)
        match tmp.head?.join with
        | some block => pure block
        | none => .error (.missingDrives drive)

/-- `_getTargetDrives`: the block devices, and the drive of each. -/
def getTargetDrives (target_drives : List Text) :
    Except TargetError (List Text × Assoc.Dict Text (Option Manager.Drive)) := do
  let drive_map := dm.block_map.map fun p => (p.1, p.2.drive)
  if target_drives = [] then pure (blockList dm, drive_map)
  else
    let result ← target_drives.mapM (targetBlock re dm)
    pure (result, drive_map)

end targets

end Filesystem
