import Disks.Drive.AtaSmart
import Disks.Drive.ScsiPages
import Disks.Manager.DriveManager

/-!
# SMART attributes by name (`Drive.smartAttrs` in `libdrive.py`)

The attributes of the C library as a dictionary: by id for ATA, and by page and parameter for SCSI.
-/

namespace Drive

open Bytes Manager

/-- `struct_smart_attribs`: the attributes of a protocol. -/
inductive SmartAttribs
  | ata (attribs : List SmartAttribAta)
  | scsi (attribs : List SmartAttribScsi)
  | nvme
  | unknown (protocol : Nat)

inductive AttrKey
  | id (id : Byte)
  | name (text : Text)
deriving DecidableEq

inductive AttrValue
  | ata (current max threshold : Byte) (raw : U64)
  | scsi (value : U64)

/-- `'{0}-{1}'.format( page_code, parm_code )`. -/
def attrName (a : SmartAttribScsi) : Text :=
  decimal a.page_code.toNat ++ '-' :: decimal a.parm_code.toNat

/-- `Drive.smartAttrs`; an error is the text of the exception. -/
def smartAttrs : SmartAttribs → Except Text (Assoc.Dict AttrKey AttrValue)
  | .ata attribs => .ok (Assoc.ofPairs
      (attribs.map fun a => (.id a.id, .ata a.current a.max a.threshold a.raw)))
  | .scsi attribs => .ok (Assoc.ofPairs
      (attribs.map fun a => (.name (attrName a), .scsi a.value)))
  | .nvme => .ok []
  | .unknown protocol =>
    .error ("Unknown protocol type: \"".toList ++ decimal protocol ++ ['"'])

end Drive
