import Disks.Drive.ScsiPages

/-!
# Identity strings (`ata.c`, `nvme.c`)

The strings of `IDENTIFY DEVICE` and of the NVMe controller data in `struct drive_info`, which
`openDisk` and `loadInfoATA` clear first. Those of INQUIRY are in `loadInquiry`.
-/

namespace Drive

open Bytes

def ATA_SERIAL_NUMBER_RAW_LEN : Nat := 10
def ATA_FIRMWARE_REV_RAW_LEN : Nat := 4
def ATA_MODEL_NUMBER_RAW_LEN : Nat := 20

/-- The strings of `struct drive_info` that both protocols fill. -/
structure IdentityStrings where
  model : List Byte := List.replicate MODEL_NUMBER_LEN 0
  serial : List Byte := List.replicate SERIAL_NUMBER_LEN 0
  firmware_rev : List Byte := List.replicate FIRMWARE_REV_LEN 0
deriving DecidableEq, Repr

/-! ## `IDENTIFY DEVICE` -/

/-- `ata_field[i] >> 8`, as a `char`. -/
def highByte (w : U16) : Byte := (w >>> 8).setWidth 8

/-- `ata_field[i]`, as a `char`. -/
def lowByte (w : U16) : Byte := w.setWidth 8

/-- The loop that finds the first non-space: what it has stored, and the words that are left. -/
def firstNonSpace : List U16 → List Byte × List U16
  | [] => ([], [])
  | w :: ws =>
    if highByte w ≠ 0x20 then ([], w :: ws)
    else if lowByte w ≠ 0x20 then (if lowByte w ≠ 0 then [lowByte w] else [], ws)
    else firstNonSpace ws

/-- The loop that copies the rest. -/
def copyRest : List U16 → List Byte
  | [] => []
  | w :: ws =>
    (if highByte w ≠ 0 then [highByte w] else []) ++
      ((if lowByte w ≠ 0 then [lowByte w] else []) ++ copyRest ws)

/-- `atastring_2_ascii`, for a field of these words. -/
def atastring2Ascii (ata_field : List U16) (buff : List Byte) : List Byte :=
  poke buff 0 ((firstNonSpace ata_field).1 ++ copyRest (firstNonSpace ata_field).2 ++ [0])

/-- The strings of `loadInfoATA`, from the words of the answer; it passes the length of the serial
number for the model, too. -/
def loadInfoATA (identity : List U16) : IdentityStrings :=
  let info : IdentityStrings := {}
  let field (i field_length : Nat) := (identity.drop i).take field_length
  { model := atastring2Ascii (field 27 ATA_SERIAL_NUMBER_RAW_LEN) info.model
    serial := atastring2Ascii (field 10 ATA_SERIAL_NUMBER_RAW_LEN) info.serial
    firmware_rev := atastring2Ascii (field 23 ATA_FIRMWARE_REV_RAW_LEN) info.firmware_rev }

/-! ## NVMe -/

def NVME_SERIAL_NUMBER_LEN : Nat := 20
def NVME_MODEL_NUMBER_LEN : Nat := 40
def NVME_FIRMREV_LEN : Nat := 8

/-- The strings of `CMD_IDENTIFY`, from the controller data, in a structure that may hold others. -/
def nvmeIdentify (identDataController : List Byte) (info : IdentityStrings) : IdentityStrings :=
  let copy (dst : List Byte) (i n : Nat) := strncpy dst (identDataController.drop i) n
  { serial := copy info.serial 4 (min SERIAL_NUMBER_LEN NVME_SERIAL_NUMBER_LEN)
    model := copy info.model 24 (min MODEL_NUMBER_LEN NVME_MODEL_NUMBER_LEN)
    firmware_rev := copy info.firmware_rev 64 (min FIRMWARE_REV_LEN NVME_FIRMREV_LEN) }

end Drive
