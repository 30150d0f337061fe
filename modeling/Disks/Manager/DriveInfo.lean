import Disks.Lib.Bytes
import Disks.Lib.Lines
import Disks.Drive.Device
import Disks.Manager.DriveManager

/-!
# The information of a drive (`struct drive_info`)

`device.h` and `libdrive_h.cache` each lay out the structure that the C library fills and
`Drive._loadInfo` reads. Both are packed: a member lies behind the members before it.

* `drive_info`, `struct_drive_info`: the two declarations.
* `getattr`: what `ctypes` gives for a member.
* `loadInfo`: what `_loadInfo` makes of the structure.
-/

section

-- the lengths of `device.h`; within the namespace `Drive` is the class of `drive.py`
open Drive (SERIAL_NUMBER_LEN FIRMWARE_REV_LEN MODEL_NUMBER_LEN VERSION_LEN VENDOR_ID_LEN)

namespace Manager

open Bytes
open Lines (strip)

inductive Member
  | driver | protocol | model | serial
  | SMARTSupport | SMARTEnabled | supportsSelfTest | supportsLBA | supportsWriteSame
  | supportsTrim | isSSD
  | RPM | LogicalSectorSize | PhysicalSectorSize | LBACount | WWN
  | firmware_rev | ATA_major_version | ATA_minor_version
  | bit48LBA | supportsDMA | supportsSCT | supportsSETMAX
  | vendor_id | version | SCSI_version
  | hasLogPageErrorWrite | hasLogPageErrorRead | hasLogPageErrorVerify | hasLogPageErrorNonMedium
  | hasLogPageTemperature | hasLogPageStartStop | hasLogPageSelfTest | hasLogPageSSD
  | hasLogPageBackgroundScan | hasLogPageFactoryLog | hasLogPageInfoExcept
  | hasVPDPageSerial | hasVPDPageIdentification | hasVPDPageBlockLimits
  | hasVPDPageBlockDeviceCharacteristics
  | maxUnmapLBACount | maxUnmapDescriptorCount | maxWriteSameLength
  | supportsSanitize | numberOfNamespaces | totalCapacity | unallocatedCapacity
  | nsCapactyLBA | nsUtilitzationLBA | supportsThin
deriving DecidableEq

/-- A packed structure: the members and their sizes. -/
abbrev Layout := List (Member × Nat)

def Layout.offset : Layout → Member → Nat
  | [], _ => 0
  | (m, n) :: l, x => if m = x then 0 else n + Layout.offset l x

/-- The bytes of a member. -/
def Layout.field (l : Layout) (mem : List Byte) (x : Member) : List Byte :=
  slice mem (l.offset x) ((l.lookup x).getD 0)

def Layout.sizeof (l : Layout) : Nat := (l.map (·.2)).sum

/-! ## `device.h` -/

inductive CType
  | enum | char | chars (n : Nat) | int | unsigned | ulonglong | uint128

def CType.size : CType → Nat
  | enum => 4
  | char => 1
  | chars n => n
  | int => 4
  | unsigned => 4
  | ulonglong => 8
  | uint128 => 16

open Member CType in
def driveInfo : List (Member × CType) :=
  [(driver, enum), (protocol, enum), (model, chars MODEL_NUMBER_LEN),
    (serial, chars SERIAL_NUMBER_LEN),
    (SMARTSupport, char), (SMARTEnabled, char), (supportsSelfTest, char), (supportsLBA, char),
    (supportsWriteSame, char), (supportsTrim, char), (isSSD, char),
    (RPM, int), (LogicalSectorSize, int), (PhysicalSectorSize, int), (LBACount, ulonglong),
    (WWN, uint128), (firmware_rev, chars FIRMWARE_REV_LEN), (ATA_major_version, int),
    (ATA_minor_version, int), (bit48LBA, char), (supportsDMA, char), (supportsSCT, char),
    (supportsSETMAX, char), (vendor_id, chars VENDOR_ID_LEN), (version, chars VERSION_LEN),
    (SCSI_version, int), (hasLogPageErrorWrite, char), (hasLogPageErrorRead, char),
    (hasLogPageErrorVerify, char), (hasLogPageErrorNonMedium, char), (hasLogPageTemperature, char),
    (hasLogPageStartStop, char), (hasLogPageSelfTest, char), (hasLogPageSSD, char),
    (hasLogPageBackgroundScan, char), (hasLogPageFactoryLog, char), (hasLogPageInfoExcept, char),
    (hasVPDPageSerial, char), (hasVPDPageIdentification, char), (hasVPDPageBlockLimits, char),
    (hasVPDPageBlockDeviceCharacteristics, char), (maxUnmapLBACount, unsigned),
    (maxUnmapDescriptorCount, unsigned), (maxWriteSameLength, ulonglong), (supportsSanitize, char),
    (numberOfNamespaces, unsigned), (totalCapacity, uint128), (unallocatedCapacity, uint128),
    (nsCapactyLBA, ulonglong), (nsUtilitzationLBA, ulonglong), (supportsThin, char)]

def cLayout : Layout := driveInfo.map fun p => (p.1, p.2.size)

/-- A value of `struct drive_info`, in memory. -/
abbrev DriveInfo := Vector Byte cLayout.sizeof

/-! ## `libdrive_h.cache` -/

inductive Ctypes
  | c_int | c_char | c_chars (n : Nat) | c_int32 | c_uint32 | c_uint64 | c_uint128

def Ctypes.size : Ctypes → Nat
  | c_int => 4
  | c_char => 1
  | c_chars n => n
  | c_int32 => 4
  | c_uint32 => 4
  | c_uint64 => 8
  | c_uint128 => 16

open Member Ctypes in
def structDriveInfo : List (Member × Ctypes) :=
  [(driver, c_int), (protocol, c_int), (model, c_chars 42), (serial, c_chars 34),
    (SMARTSupport, c_char), (SMARTEnabled, c_char), (supportsSelfTest, c_char),
    (supportsLBA, c_char), (supportsWriteSame, c_char), (supportsTrim, c_char), (isSSD, c_char),
    (RPM, c_int32), (LogicalSectorSize, c_int32), (PhysicalSectorSize, c_int32),
    (LBACount, c_uint64), (WWN, c_uint128), (firmware_rev, c_chars 10),
    (ATA_major_version, c_int32), (ATA_minor_version, c_int32), (bit48LBA, c_char),
    (supportsDMA, c_char), (supportsSCT, c_char), (supportsSETMAX, c_char), (vendor_id, c_chars 9),
    (version, c_chars 5), (SCSI_version, c_int32), (hasLogPageErrorWrite, c_char),
    (hasLogPageErrorRead, c_char), (hasLogPageErrorVerify, c_char),
    (hasLogPageErrorNonMedium, c_char), (hasLogPageTemperature, c_char),
    (hasLogPageStartStop, c_char), (hasLogPageSelfTest, c_char), (hasLogPageSSD, c_char),
    (hasLogPageBackgroundScan, c_char), (hasLogPageFactoryLog, c_char),
    (hasLogPageInfoExcept, c_char), (hasVPDPageSerial, c_char), (hasVPDPageIdentification, c_char),
    (hasVPDPageBlockLimits, c_char), (hasVPDPageBlockDeviceCharacteristics, c_char),
    (maxUnmapLBACount, c_uint32), (maxUnmapDescriptorCount, c_uint32),
    (maxWriteSameLength, c_uint64), (supportsSanitize, c_char), (numberOfNamespaces, c_uint32),
    (totalCapacity, c_uint128), (unallocatedCapacity, c_uint128), (nsCapactyLBA, c_uint64),
    (nsUtilitzationLBA, c_uint64), (supportsThin, c_char)]

def pyLayout : Layout := structDriveInfo.map fun p => (p.1, p.2.size)

inductive PyValue
  | int (n : Int)
  | bytes (bs : List Byte)
  | str (s : Text)
  | array (bs : List Byte)
deriving DecidableEq

/-- What a member of a type is read as; an array of characters ends at its first zero. -/
def Ctypes.read : Ctypes → List Byte → PyValue
  | c_int, bs => .int (BitVec.ofNat 32 (le bs)).toInt
  | c_char, bs => .bytes bs
  | c_chars _, bs => .bytes (bs.takeWhile (· ≠ 0))
  | c_int32, bs => .int (BitVec.ofNat 32 (le bs)).toInt
  | c_uint32, bs => .int (le bs)
  | c_uint64, bs => .int (le bs)
  | c_uint128, bs => .array bs

/-- `getattr( tmp, x )` -/
def getattr (tmp : DriveInfo) (x : Member) : PyValue :=
  match structDriveInfo.lookup x with
  | some t => t.read (pyLayout.field tmp.toList x)
  | none => .bytes []

/-! ## `_loadInfo` -/

inductive LoadError
  | exception (text : String)
  | unicodeDecodeError
  | typeError
deriving DecidableEq

/-- The members of the first loop that compares. -/
inductive Flag
  | SMARTSupport | SMARTEnabled | supportsSelfTest | supportsLBA | supportsWriteSame
  | supportsTrim | isSSD
deriving DecidableEq

def Flag.member : Flag → Member
  | SMARTSupport => .SMARTSupport
  | SMARTEnabled => .SMARTEnabled
  | supportsSelfTest => .supportsSelfTest
  | supportsLBA => .supportsLBA
  | supportsWriteSame => .supportsWriteSame
  | supportsTrim => .supportsTrim
  | isSSD => .isSSD

/-- `Drive._info` -/
structure Info where
  protocol : Text
  firmware : Option Text := none
  vendor : Option Text := none
  version : Option Text := none
  serial : Text
  model : Text
  flag : Flag → Bool
  RPM : Int
  LogicalSectorSize : Int
  PhysicalSectorSize : Int
  LBACount : Int
  WWN : Text
  GUID : Text

/-- `str( bytes, 'utf-8' )` -/
def decode (bs : List Byte) : Except LoadError Text :=
  match String.fromUTF8? ⟨(bs.map UInt8.ofBitVec).toArray⟩ with
  | some s => .ok s.toList
  | none => .error .unicodeDecodeError

/-- `str( getattr( tmp, x ), 'utf-8' ).strip()` -/
def text (tmp : DriveInfo) (x : Member) : Except LoadError Text :=
  match getattr tmp x with
  | .bytes bs => (decode bs).map strip
  | _ => .error .typeError

def number (tmp : DriveInfo) (x : Member) : Except LoadError Int :=
  match getattr tmp x with
  | .int n => .ok n
  | _ => .error .typeError

def PROTOCOL_TYPE_ATA : Int := 1
def PROTOCOL_TYPE_SCSI : Int := 2
def PROTOCOL_TYPE_NVME : Int := 3

/-- `'{0}-{1}-{2}-{3}-{4}'`, of the pieces of a GUID. -/
def dashed (guid : Text) : Text :=
  slice guid 0 8 ++ '-' :: slice guid 8 4 ++ '-' :: slice guid 12 4 ++ '-' :: slice guid 16 4 ++
    '-' :: guid.drop 20
where
  slice (s : Text) (i n : Nat) : Text := (s.drop i).take n

/-- The identifiers `WWN` and `GUID`, from the bytes of the array in turn. -/
def identifiers (bs : List Byte) : Text × Text :=
  let guid := bs.flatMap fun b => hex 2 b.toNat
  if guid.take 16 = List.replicate 16 '0' then (guid.drop 16, []) else ([], dashed guid)

/-- What `_info` starts with: the name of the protocol, `firmware`, `vendor` and `version`. -/
def protocolInfo (tmp : DriveInfo) (protocol : Int) :
    Except LoadError (Text × Option Text × Option Text × Option Text) := do
  if protocol = PROTOCOL_TYPE_ATA then
    let firmware ← text tmp .firmware_rev
    pure ("ATA".toList, some firmware, none, none)
  else if protocol = PROTOCOL_TYPE_SCSI then
    let vendor ← text tmp .vendor_id
    let version ← text tmp .version
    pure ("SCSI".toList, none, some vendor, some version)
  else if protocol = PROTOCOL_TYPE_NVME then
    let firmware ← text tmp .firmware_rev
    pure ("NVME".toList, some firmware, none, none)
  else .error (.exception ("Unkown Drive protocol \"" ++ toString protocol ++ "\""))

/-- `_loadInfo`, of what `get_drive_info` gives. -/
def loadInfo (tmp : DriveInfo) : Except LoadError Info := do
  let protocol ← number tmp .protocol
  let start ← protocolInfo tmp protocol
  let serial ← text tmp .serial
  let model ← text tmp .model
  let flag (x : Flag) : Bool := getattr tmp x.member = .str ['\x01']
  let RPM ← number tmp .RPM
  let LogicalSectorSize ← number tmp .LogicalSectorSize
  let PhysicalSectorSize ← number tmp .PhysicalSectorSize
  let LBACount ← number tmp .LBACount
  let wwn :=
    match getattr tmp .WWN with
    | .array bs => bs
    | _ => []
  pure {
    protocol := start.1, firmware := start.2.1, vendor := start.2.2.1, version := start.2.2.2
    serial, model, flag, RPM, LogicalSectorSize, PhysicalSectorSize, LBACount
    WWN := (identifiers wwn).1, GUID := (identifiers wwn).2 }

end Manager

end
