import Mathlib.Logic.Function.Basic

/-!
# The partitions of an installation (`linux-installer/root/installer/filesystem.py`)

`addPartition` gives a device its next partition: it keeps, for each device, how many partitions
it has and where the next one starts, and the commands for `parted`. Sizes and positions are in
megabytes; a position below zero counts from the end of the device.
-/

namespace Filesystem

/-- The types `partition()` asks for; every other string raises. -/
inductive PartType
  | bios_grub
  | fs
  | empty
  | swap
  | blank
  | other (name : String)
deriving DecidableEq, Repr

/-- The `offsets` of a partition: to the end of the device (`-0`), or to a position. -/
inductive Offsets
  | rest (start : Int)
  | upto (start stop : Int)
deriving DecidableEq, Repr

def Offsets.text : Offsets → String
  | .rest start => toString start ++ "m -0"
  | .upto start stop => toString start ++ "m " ++ toString stop ++ "m"

/-- A command of `parted`. -/
inductive Task
  | mklabel (partition_type : String)
  | mkpart (fs_type : String) (offsets : Offsets)
  | setBiosGrub
deriving DecidableEq, Repr

def Task.text : Task → String
  | .mklabel partition_type => "mklabel " ++ partition_type
  | .mkpart fs_type offsets => "mkpart primary " ++ fs_type ++ " " ++ offsets.text
  | .setBiosGrub => "set 1 bios_grub on"

inductive Error
  | exception (text : String)
  | keyError (key : String)
deriving DecidableEq, Repr

/-- The globals of the module, as far as `addPartition` uses them. -/
structure Globals where
  partition_counter : String → Option Nat
  partition_pos : String → Option Int
  parted_task_map : String → Option (List Task)

/-- `int( size )`, of an integer or a float. -/
def int (size : Rat) : Int := size.num.tdiv size.den

/-- The offsets of a partition of this size, and where the next one starts. -/
def offsets (start size : Int) : Offsets × Int :=
  if size = 0 then (.rest start, 0)
  else if size < 0 then (.upto start size, size)
  else (.upto start (start + size), start + size)

/-- The name of a partition. -/
def devName (block_device : String) (number : Nat) : String :=
  if block_device.startsWith "/dev/nvme" then block_device ++ "p" ++ toString number
  else block_device ++ toString number

/-- The commands for a partition. -/
def commands (part_type : PartType) (offsets : Offsets) : Option (List Task) :=
  match part_type with
  | .bios_grub => some [.mkpart "fat32" offsets, .setBiosGrub]
  | .fs | .empty => some [.mkpart "ext2" offsets]
  | .swap => some [.mkpart "linux-swap" offsets]
  | .blank | .other _ => none

def PartType.text : PartType → String
  | .bios_grub => "bios_grub"
  | .fs => "fs"
  | .empty => "empty"
  | .swap => "swap"
  | .blank => "blank"
  | .other name => name

/-- Where the next partition of the device starts. -/
def nextStart (block_device : String) (g : Globals) : Except Error (Int × Globals) :=
  match g.partition_pos block_device with
  | some start =>
    if start = 0 then .error (.exception "Block Device allready full") else .ok (start, g)
  | none =>
    .ok (0, { g with
      partition_counter := Function.update g.partition_counter block_device (some 0) })

/-- `_addPartition`: the name of the partition (`None` for a blank one). -/
def addPartition (block_device : String) (part_type : PartType) (size : Rat) (g : Globals) :
    Except Error (Option String × Globals) :=
  match nextStart block_device g with
  | .error e => .error e
  | .ok (start, g) =>
    let (offs, pos) := offsets start (int size)
    let g := { g with partition_pos := Function.update g.partition_pos block_device (some pos) }
    -- only the position moves
    if part_type = .blank then .ok (none, g)
    else
      match g.partition_counter block_device with
      | none => .error (.keyError block_device)
      | some counter =>
        let g := { g with
          partition_counter := Function.update g.partition_counter block_device
            (some (counter + 1)) }
        match commands part_type offs with
        | none => .error (.exception ("Unknown partition type \"" ++ part_type.text ++ "\""))
        | some cmds =>
          match g.parted_task_map block_device with
          | none => .error (.keyError block_device)
          | some tasks => .ok (some (devName block_device (counter + 1)), { g with
              parted_task_map := Function.update g.parted_task_map block_device
                (some (tasks ++ cmds)) })

/-- A call of `_addPartition`. -/
structure Call where
  block_device : String
  part_type : PartType
  size : Rat

/-- The calls that `partition()` makes, one after another: their results. -/
def addPartitions : List Call → Globals → Except Error (List (Option String) × Globals)
  | [], g => .ok ([], g)
  | c :: calls, g => do
    let (name, g) ← addPartition c.block_device c.part_type c.size g
    let (names, g) ← addPartitions calls g
    pure (name :: names, g)

/-- The globals before the first call: `partition()` has given each target its `mklabel`. -/
def labelled (targets : List String) (partition_type : String) : Globals where
  partition_counter _ := none
  partition_pos _ := none
  parted_task_map d := if d ∈ targets then some [.mklabel partition_type] else none

end Filesystem
