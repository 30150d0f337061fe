import Disks.Lib.Assoc
import Disks.Lib.Path
import Disks.Lib.Regex
import Mathlib.Data.Char
import Mathlib.Data.List.Lex
import Mathlib.Data.List.Sort
import Mathlib.Order.Lattice

/-!
# The drives of a host (`libdrive.py`)

`DriveManager.rescan` goes through what the probes of `/sys` find (`Sysfs`), and gives each port its
drive. A port object is a `Slot`: the port, and the drive that was set on it.

* `DriveManager`: the drives are those of the ports, each with the port that it was set on.
* `rescan`: the loops over IDE, ATA, NVMe, MegaRAID, SAS and SCSI ports.
-/

namespace Manager

abbrev Text := List Char

/-- The last piece of a path in `/sys`. -/
structure Name where
  text : Text
  ne_nil : text ≠ []
  clean : '/' ∉ text
deriving DecidableEq

/-- A number as `format` writes it. -/
def decimal (n : Nat) : Text := Nat.toDigits 10 n

/-! ## Ports and drives -/

inductive Port
  | IDE (port : Nat)
  | ATA (port : Nat)
  | NVME (controller : Text) (nsid : Nat)
  | MegaRAID (controller : Text) (enclosure port : Nat)
  | SAS (host : Nat) (slot : Text)
  | SCSI (host port : Text)
deriving DecidableEq

def Port.location : Port → Text
  | IDE port => "IDE ".toList ++ decimal port
  | ATA port => "ATA ".toList ++ decimal port
  | NVME controller nsid => "NVME ".toList ++ controller ++ ':' :: decimal nsid
  | MegaRAID controller enclosure port =>
    "MegaRAID ".toList ++ controller ++ ':' :: decimal enclosure ++ ':' :: decimal port
  | SAS host slot => "SAS ".toList ++ decimal host ++ ':' :: slot
  | SCSI host port => "SCSI ".toList ++ host ++ ':' :: port

structure Drive where
  port : Port
  name : Text
  block_name : Option Name
  libdrive_name : Text
  devpath : Option Text
deriving DecidableEq

/-- `'/dev/{0}'` -/
def dev (name : Text) : Text := "/dev/".toList ++ name

def Drive.block_path (d : Drive) : Option Text := d.block_name.map fun b => dev b.text

/-- A port object. -/
structure Slot where
  port : Port
  drive : Option Drive := none
deriving DecidableEq

/-! ## What the probes find -/

/-- An item of `getNVMEPorts`. -/
structure NVMEDisk where
  name : Name
  block : Name
  nsid : Nat

def NVMEDisk.port (x : NVMEDisk) : Port := .NVME (x.name.text.filter Char.isDigit) x.nsid

def NVMEDisk.libdrive (x : NVMEDisk) : Text := dev (x.name.text ++ ':' :: decimal x.nsid)

/-- An item of `getMegaRAIDPorts`. -/
structure MegaRAIDDisk where
  host : Nat
  controller : Text
  enclosure : Nat
  slot : Nat
  device : Nat
  block : Option Name

def MegaRAIDDisk.port (x : MegaRAIDDisk) : Port := .MegaRAID x.controller x.enclosure x.slot

def MegaRAIDDisk.libdrive (x : MegaRAIDDisk) : Text :=
  "host".toList ++ decimal x.host ++ ':' :: decimal x.device

/-- What the probes find; `vmfs` on ESX only. -/
structure Sysfs where
  vmfs : Option (List MegaRAIDDisk) := none
  ide : List (Port × Option Name) := []
  ata : List (Port × Option Name) := []
  nvme : List NVMEDisk := []
  megaraid : List MegaRAIDDisk := []
  enclosures : List (List (Port × Option Name)) := []
  direct : List (Port × Option Name) := []
  scsi : List (Port × Option Name) := []
  /-- `/sys/class/block/*` -/
  block : List Name := []
  /-- `/sys/block/../device` and `/sys/block/../device/scsi_disk/*`, where they lead to. -/
  device : Name → Option Text := fun _ => none
  scsi_disk : Name → Option Text := fun _ => none

/-- `Drive.__init__` -/
def Drive.make (sys : Sysfs) (port : Port) (name : Text) (block_name : Option Name)
    (libdrive_name : Text) : Drive :=
  let devpath (b : Name) : Option Text :=
    match port with
    | .NVME .. => sys.device b
    | _ => sys.scsi_disk b
  { port, name, block_name, libdrive_name, devpath := block_name.bind devpath }

/-! ## The loops -/

/-- The lists that the loops fill. -/
structure Scan where
  block_list : List Name := []
  port_list : List Slot := []
  drive_list : List Drive := []
  drives : drive_list = port_list.filterMap (·.drive)
  wired : ∀ s ∈ port_list, ∀ d ∈ s.drive, d.port = s.port

def Scan.start : Scan := { drives := rfl, wired := by simp }

/-- A port is appended, with its drive. -/
def Scan.add (s : Scan) (port : Port) (drive : Option Drive) (h : ∀ d ∈ drive, d.port = port) :
    Scan where
  block_list := s.block_list
  port_list := s.port_list ++ [⟨port, drive⟩]
  drive_list := s.drive_list ++ drive.toList
  drives := by
    rw [List.filterMap_append, ← s.drives]
    cases drive <;> rfl
  wired := by
    intro x hx d hd
    rcases List.mem_append.mp hx with hx | hx
    · exact s.wired x hx d hd
    · rw [List.mem_singleton.mp hx] at hd ⊢
      exact h d hd

/-- `block_list.append( block )` -/
def Scan.seen (s : Scan) (block : Name) : Scan := { s with block_list := s.block_list ++ [block] }

def Scan.addDrive (s : Scan) (sys : Sysfs) (port : Port) (name : Text) (block_name : Option Name)
    (libdrive_name : Text) : Scan :=
  s.add port (some (Drive.make sys port name block_name libdrive_name)) fun d hd => by
    rw [← Option.some.inj hd]
    rfl

/-- A turn of the loops but MegaRAID's: a block that was seen before is left out. -/
def Scan.probe (sys : Sysfs) (s : Scan) (port : Port) (block : Option Name)
    (libdrive : Name → Text) : Scan :=
  match block with
  | none => s.add port none (by simp)
  | some block =>
    if block ∈ s.block_list then s.add port none (by simp)
    else (s.seen block).addDrive sys port block.text block (libdrive block)

/-- A turn of the loop over MegaRAID's ports: each has a drive, whether its block was seen before or
not. -/
def Scan.probeMegaRAID (sys : Sysfs) (s : Scan) (x : MegaRAIDDisk) : Scan :=
  match x.block with
  | none => s.addDrive sys x.port x.libdrive none x.libdrive
  | some block =>
    if block ∈ s.block_list then s.addDrive sys x.port x.libdrive block x.libdrive
    else (s.seen block).addDrive sys x.port x.libdrive block x.libdrive

/-- A turn of the loop on ESX. -/
def Scan.probeVmfs (sys : Sysfs) (s : Scan) (x : MegaRAIDDisk) : Scan :=
  match x.block with
  | none => s.add x.port none (by simp)
  | some block => s.addDrive sys x.port x.libdrive block x.libdrive

/-- A loop over ports and their blocks. -/
def Scan.ports (sys : Sysfs) (s : Scan) (port_list : List (Port × Option Name)) : Scan :=
  port_list.foldl (fun s x => s.probe sys x.1 x.2 fun block => dev block.text) s

def Scan.nvme (sys : Sysfs) (s : Scan) : Scan :=
  sys.nvme.foldl (fun s x => s.probe sys x.port x.block fun _ => x.libdrive) s

/-- The loops on a regular Linux host. -/
def Scan.linux (sys : Sysfs) : Scan :=
  let s := ((Scan.start.ports sys sys.ide).ports sys sys.ata).nvme sys
  let s := sys.megaraid.foldl (Scan.probeMegaRAID sys) s
  let s := sys.enclosures.foldl (Scan.ports sys) s
  (s.ports sys sys.direct).ports sys sys.scsi

def Scan.vmfs (sys : Sysfs) (ports : List MegaRAIDDisk) : Scan :=
  ports.foldl (Scan.probeVmfs sys) Scan.start

/-! ## The manager -/

/-- `DriveManager`: the lists are `_port_list`, `_drive_list` and `_unknown_list`. -/
structure DriveManager where
  ports : List Slot
  drives : List Drive
  unknown : List Name
  drives_eq : drives = ports.filterMap (·.drive)
  wired : ∀ s ∈ ports, ∀ d ∈ s.drive, d.port = s.port

/-- `(loop)|(md)|(sr)|(sg)|(dm)` and `[0-9]$`, whose `$` is also before a newline at the end. -/
def notDisk : Regex.Pattern Char :=
  .alt (.text "loop".toList) (.alt (.text "md".toList) (.alt (.text "sr".toList)
    (.alt (.text "sg".toList) (.text "dm".toList))))

def numbered : Regex.Pattern Char :=
  .seq (.one Char.isDigit) (.ahead fun rest => rest = [] ∨ rest = ['\n'])

/-- The filter of the names in `/sys/class/block`: those of whole disks. -/
def wholeDisk (name : Name) : Bool := ¬ (notDisk.begins name.text ∨ numbered.occurs name.text)

/-- `i.split( '/' )[-1]` -/
def lastPiece (path : Text) : Text := (Path.split path).getLastD []

section properties

variable (dm : DriveManager)

def DriveManager.port_list : List Slot :=
  dm.ports.insertionSort fun s t => s.port.location ≤ t.port.location

def DriveManager.drive_list : List Drive := dm.drives.insertionSort fun d e => d.name ≤ e.name

inductive Error
  | attributeError (text : String)
deriving DecidableEq

/-- `unknown_list`: it sorts names by an attribute that they do not have. -/
def DriveManager.unknown_list : Except Error (List Name) :=
  if dm.unknown = [] then .ok []
  else .error (.attributeError "'str' object has no attribute 'name'")

/-- `port_map`, to the drives. -/
def DriveManager.port_map : Assoc.Dict Text (Option Drive) :=
  Assoc.ofPairs (dm.port_list.map fun s => (s.port.location, s.drive))

/-- The port object of a drive. -/
def Drive.slot (d : Drive) : Slot := ⟨d.port, some d⟩

def DriveManager.drive_map : Assoc.Dict Text Slot :=
  Assoc.ofPairs (dm.drive_list.map fun d => (d.libdrive_name, d.slot))

def DriveManager.block_map : Assoc.Dict Text Slot :=
  Assoc.ofPairs (dm.drive_list.filterMap fun d =>
    d.block_name.map fun b => (Path.joinOne "/dev".toList b.text, d.slot))

/-- `devpath_map`: also of the drives without a path. -/
def DriveManager.devpath_map : Assoc.Dict (Option Text) Drive :=
  Assoc.ofPairs (dm.drive_list.map fun d => (d.devpath, d))

end properties

/-- The manager after the loops, without what is unknown. -/
def Scan.manager (s : Scan) (unknown : List Name) : DriveManager :=
  ⟨s.port_list, s.drive_list, unknown, s.drives, s.wired⟩

/-- `rescan` -/
def rescan (sys : Sysfs) : DriveManager :=
  match sys.vmfs with
  | some ports => (Scan.vmfs sys ports).manager []
  | none =>
    let s := Scan.linux sys
    let known_drives := (Assoc.keys (s.manager []).drive_map).map lastPiece
    let all_drives := sys.block.filter wholeDisk
    s.manager (all_drives.filter (!known_drives.contains ·.text))

end Manager
