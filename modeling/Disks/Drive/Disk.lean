import Disks.Drive.Ata
import Disks.Drive.Scsi
import Disks.Drive.Nvme

/-!
# The drive operations (`disk.c`)

The functions the tools call. Each checks the drive information, hands a command to
`drive->cmd` and reads its result; `drive` is the handle with its information, `cmd` its protocol.
-/

namespace Drive

open Bytes

section ops

variable {W : Type} (drive : DeviceHandle) (cmd : Cmd W)

/-- `readLBA`: the return code and the buffer. Only `-1` counts as a failure. -/
def readLBA (DMA FUA : U64) (LBA : U64) (count : U16) (buff : List Byte) (w : W) :
    Option (Int × List Byte × W) := do
  let r ← cmd .read .read (some buff) (count.toNat * drive.info.LogicalSectorSize)
    [LBA, count.setWidth 64, DMA, FUA] w
  some (if r.rc = -1 then -1 else 0, r.data, r.world)

/-- `writeLBA`. -/
def writeLBA (DMA FUA : U64) (LBA : U64) (count : U16) (buff : List Byte) (w : W) :
    Option (Int × W) := do
  let r ← cmd .write .write (some buff) (count.toNat * drive.info.LogicalSectorSize)
    [LBA, count.setWidth 64, DMA, FUA] w
  some (if r.rc = -1 then -1 else 0, r.world)

/-- `writeSame`. -/
def writeSame (start count : U64) (value : U32) (w : W) : Option (Int × W) :=
  if !drive.info.supportsWriteSame then some (-1, w)
  else do
    let r ← cmd .writeSame .none none 0 [start, count, value.setWidth 64] w
    some (if r.rc ≠ 0 then -1 else 0, r.world)

def WRITESAME_STATUS_LBA : U64 := 1 <<< 62
def WRITESAME_STATUS_DONE_STATUS : U64 := 1 <<< 61

/-- What `wirteSameStatus` returns for an SCT status page: the extended status code, or, while the
command runs, the position. -/
def sctStatus (data : List Byte) : U64 :=
  let b (i : Nat) : U64 := (data.getD i 0).setWidth 64
  if data.getD 15 0 = 0xff ∧ data.getD 14 0 = 0xff then
    WRITESAME_STATUS_LBA ||| ((b 45 <<< 16 ||| b 44 <<< 8 ||| b 43) <<< 24 |||
      (b 42 <<< 16 ||| b 41 <<< 8 ||| b 40))
  else WRITESAME_STATUS_DONE_STATUS ||| b 15 <<< 8 ||| b 14

/-- `wirteSameStatus`, a `long long int`. -/
def wirteSameStatus (w : W) : Option (U64 × W) :=
  if !drive.info.supportsSCT then some (-1, w)
  else do
    let r ← cmd .sctStatus .read (some zeroed) 512 [] w
    some (if r.rc ≠ 0 then -1 else sctStatus r.data, r.world)

/-- `trim`. -/
def trim (start count : U64) (w : W) : Option (Int × W) :=
  if !drive.info.supportsTrim then some (-1, w)
  else do
    let r ← cmd .trim .none none 0 [start, count] w
    some (if r.rc ≠ 0 then -1 else 0, r.world)

/-- `smartStatus`; `status` is what the uninitialised variable holds. -/
def smartStatus (status : U64) (w : W) : Option (Int × W) :=
  if !drive.info.SMARTSupport || !drive.info.SMARTEnabled then some (-1, w)
  else do
    let r ← cmd .smartStatus .none none 0 [status] w
    some (if r.rc ≠ 0 then -1 else ((r.parms.headD 0).setWidth 32).toInt, r.world)

/-- `getPowerMode`; `mode` is what the uninitialised variable holds. -/
def getPowerMode (mode : U64) (w : W) : Option (Int × W) := do
  let r ← cmd .getPowerState .none none 0 [mode] w
  some (if r.rc ≠ 0 then -1 else ((r.parms.headD 0).setWidth 32).toInt, r.world)

end ops

end Drive
