import Disks.Lib.Regex
import Disks.Manager.DriveManager

/-!
# The drives of a test (`disk-test/root/pylib/DriveManager.py`)

The working list has the drives that the tests run on. Drives are skipped or found bad, which takes
them off the list.
-/

namespace DiskTest

open Manager Regex

/-- A drive of `libdrive` with its model. -/
structure TestDrive where
  drive : Manager.Drive
  model : Text
deriving DecidableEq

def TestDrive.block_name (d : TestDrive) : Option Name := d.drive.block_name

def TestDrive.block_path (d : TestDrive) : Option Text := d.drive.block_path

/-- `model.lower()` -/
def lower (model : Text) : Text := model.map Char.toLower

def TestDrive.isVirtualDisk (d : TestDrive) : Bool :=
  ["virtual disk".toList, "qemu harddisk".toList, "vbox harddisk".toList].contains (lower d.model)

def NO_THRASH_MODELS : List Text := ["SATADOM-SL 3ME".toList]

/-- The lists of a `DriveManager`, and what it had done: drives whose fault light was set, drives
reported, and drives marked as thrashed. -/
structure DriveManager where
  good_list : List TestDrive
  skip_reasons : Assoc.Dict TestDrive String := []
  bad_reasons : Assoc.Dict TestDrive String := []
  faults : List TestDrive := []
  reported : List (TestDrive × String) := []
  thrashed : List TestDrive := []

def DriveManager.working_list (m : DriveManager) : List TestDrive := m.good_list

def DriveManager.prune (m : DriveManager) (drive : TestDrive) (reason : String) (report : Bool)
    (skip : Bool) : DriveManager :=
  let m := { m with good_list := m.good_list.erase drive }
  let m :=
    if skip then { m with skip_reasons := Assoc.set m.skip_reasons drive reason }
    else
      { m with bad_reasons := Assoc.set m.bad_reasons drive reason, faults := m.faults ++ [drive] }
  if ¬ skip ∧ report then { m with reported := m.reported ++ [(drive, reason)] } else m

/-- `text.replace( '/dev/', '' )`, for a text of at most `fuel` characters. -/
def replaceDev : Nat → Text → Text
  | 0, text => text
  | _ + 1, [] => []
  | fuel + 1, c :: text =>
    if "/dev/".toList <+: c :: text then replaceDev fuel ((c :: text).drop 5)
    else c :: replaceDev fuel text

/-- `while tmp[-1] in string.digits: tmp = tmp[:-1]`; with nothing left, `tmp[-1]` raises. -/
def stripDigits (text : Text) : Option Text :=
  match (text.reverse.dropWhile Char.isDigit).reverse with
  | [] => none
  | c :: rest => some (c :: rest)

/-- White space, of byte strings. -/
def isspace (c : Char) : Bool := c ∈ [' ', '\t', '\n', '\r', '\x0b', '\x0c']

/-- `text.strip()` -/
def strip (text : Text) : Text := ((text.dropWhile isspace).reverse.dropWhile isspace).reverse

/-- `line.split()[0]` of a line that does not start with white space. -/
def firstField (line : Text) : Text := line.takeWhile fun c => ¬ isspace c

/-- `mount_list`, of the lines of `/etc/mtab`. -/
def mountList (mtab : List Text) : Option (List Text) :=
  (mtab.filter fun line => "/dev/".toList <+: line).mapM fun line =>
    stripDigits (replaceDev line.length (firstField line))

/-- What of the machine the drives are checked against: the lines of `/etc/mtab` and of
`/proc/partitions`, and `/sys/block/../removable` where it exists. -/
structure Machine where
  mtab : List Text
  partitions : List Text
  removable : Name → Option Text

/-- `os.path.exists( .. )` and `file( .. ).read().strip() != '0'` -/
def Machine.isRemovable (machine : Machine) (name : Name) : Bool :=
  match machine.removable name with
  | some text => strip text ≠ ['0']
  | none => false

/-- A turn of the loop of `skipUnThrashable`. -/
def unThrashable (machine : Machine) (mount_list : List Text) (m : DriveManager)
    (drive : TestDrive) : DriveManager :=
  if drive.block_name.any machine.isRemovable then m.prune drive "Is Removable" false true
  else if drive.block_path.any mount_list.contains then m.prune drive "Is Mounted" false true
  else if NO_THRASH_MODELS.contains drive.model then
    let m := m.prune drive "No Thrash Disk" false true
    { m with thrashed := m.thrashed ++ [drive] }
  else if drive.isVirtualDisk then m.prune drive "Is Virtual Disk" false true
  else m

/-- `skipUnThrashable`; it raises where a mount entry has digits only. -/
def DriveManager.skipUnThrashable (m : DriveManager) (machine : Machine) : Option DriveManager :=
  (mountList machine.mtab).map fun mount_list =>
    m.good_list.foldl (unThrashable machine mount_list) m

/-- `re.split( ' *', line.strip() )[-1]` -/
def lastField (line : Text) : Text := ((strip line).splitOn ' ').getLastD []

/-- `^sd[a-z]+[0-9]$`; a field of a stripped line does not end with a newline. -/
def partitionName : Pattern Char :=
  .seq (.text "sd".toList) (.seq (.plus (.one Char.isLower))
    (.seq (.one Char.isDigit) (.ahead fun rest => rest = [])))

/-- `re.sub( '[0-9]$', '', item )` -/
def subDigit (item : Text) : Text :=
  if item.getLast?.any Char.isDigit then item.dropLast else item

/-- `partitioned`, of the lines of `/proc/partitions`. -/
def partitioned (lines : List Text) : List Text :=
  ((lines.map lastField).filter partitionName.begins).map subDigit

/-- A turn of the loop of `skipWithFilesystems`. -/
def withFilesystems (partitioned : List Text) (m : DriveManager) (drive : TestDrive) :
    DriveManager :=
  if drive.block_name.any (partitioned.contains ·.text) then
    m.prune drive "Has Partitions" false true
  else m

def DriveManager.skipWithFilesystems (m : DriveManager) (machine : Machine) : DriveManager :=
  m.good_list.foldl (withFilesystems (partitioned machine.partitions)) m

end DiskTest
