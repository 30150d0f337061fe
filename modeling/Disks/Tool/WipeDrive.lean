import Disks.Drive.Disk

/-!
# The wipe tool (`wipedrive.c`)

`doStatus` and `doCancel` read the state of a running erase, `doATAWipe` starts one and waits for
it, `doSCSIWipe` writes the range chunk by chunk. Addresses and counts are `long long int`, here
64-bit words, for values from 0 on. `sig n` says that a signal arrives just before the `n`-th time
the flag `wipeContinue` is read.

`doTrimWipe` trims chunk by chunk. The options parser lets negative counts and chunk sizes through,
so there the values are integers.
-/

namespace WipeDrive

open Bytes Loop Drive

variable {W : Type} (drive : DeviceHandle) (cmd : Cmd W)

def GENERAL_ERROR : Int := -1
def STATUS_RUNNING : Int := 0
def STATUS_DONE : Int := 1
def STATUS_INTERRUPTED : Int := 2
def STATUS_STOPPED_OTHER : Int := 3

/-! ## The state of an erase -/

/-- The state `doStatus` reads from what `wirteSameStatus` returned. -/
def statusOf (curLBA : U64) : Int :=
  if curLBA = -1 then GENERAL_ERROR
  else if curLBA &&& WRITESAME_STATUS_DONE_STATUS ≠ 0 then
    let code := curLBA &&& ~~~WRITESAME_STATUS_DONE_STATUS
    if code = 0x000 then STATUS_DONE
    else if code = 0x0008 then STATUS_INTERRUPTED
    else STATUS_STOPPED_OTHER
  else if curLBA &&& WRITESAME_STATUS_LBA ≠ 0 then STATUS_RUNNING
  else GENERAL_ERROR

/-- `doStatus`. -/
def doStatus (w : W) : Option (Int × W) :=
  if drive.protocol ≠ .ata then some (GENERAL_ERROR, w)
  else do
    let (curLBA, w) ← wirteSameStatus drive cmd w
    some (statusOf curLBA, w)

/-- `doCancel`. -/
def doCancel (status : U64) (w : W) : Option (Int × W) := do
  let (rc, w) ← doStatus drive cmd w
  if rc = GENERAL_ERROR then some (GENERAL_ERROR, w)
  else if rc ≠ STATUS_RUNNING then some (0, w)
  else
    let (rc, w) ← smartStatus drive cmd status w
    if rc = -1 then some (GENERAL_ERROR, w)
    else
      let (rc, w) ← doStatus drive cmd w
      if rc = GENERAL_ERROR then some (GENERAL_ERROR, w) else some (0, w)

/-! ## ATA -/

/-- The flag `wipeContinue` when it is read for the `n`-th time. -/
def wipeContinue (sig : Nat → Bool) (n : Nat) : Bool := (List.range (n + 1)).all fun m => !sig m

/-- One turn of the polling loop; `n` counts the reads of `wipeContinue`. The loop leaves with
the number of the next read, or, inside, with an error. -/
def wipePoll (sig : Nat → Bool) (s : Nat × W) : Option (Turn (Nat × W) (Option Nat × W)) :=
  let (n, w) := s
  if !wipeContinue sig n then some (.stop (some (n + 1), w))
  else do
    let (curLBA, w) ← wirteSameStatus drive cmd w
    if curLBA = -1 then some (.stop (none, w))
    else if curLBA &&& WRITESAME_STATUS_LBA = 0 then some (.stop (some (n + 1), w))
    else some (.next (n + 1, w))

/-- `doATAWipe`. `status` is what the uninitialised variable of `smartStatus` holds. -/
def doATAWipe (fuel : Nat) (sig : Nat → Bool) (status start count : U64) (value : U32)
    (interval : Int) (w : W) : Option (Int × W) := do
  let (rc, w) ← doStatus drive cmd w
  if rc = GENERAL_ERROR then some (GENERAL_ERROR, w)
  else if rc = STATUS_RUNNING then some (-1, w)
  else
    let (rc, w) ← writeSame drive cmd start count value w
    if rc ≠ 0 then some (GENERAL_ERROR, w)
    else if interval = 0 then some (0, w)
    else
      let (n, w) ← run (wipePoll drive cmd sig) fuel (0, w)
      match n with
      | none => some (GENERAL_ERROR, w)
      | some n =>
        let (rc, w) ← if !wipeContinue sig n then doCancel drive cmd status w else some (0, w)
        if rc = GENERAL_ERROR then some (GENERAL_ERROR, w)
        else
          let (rc, w) ← doStatus drive cmd w
          if rc = GENERAL_ERROR then some (GENERAL_ERROR, w) else some (0, w)

/-! ## SCSI -/

/-- `endingLBA`. -/
def endingLBA (start count : U64) : U64 := if count = 0 then drive.info.LBACount else start + count

/-- One turn of the loop of `doSCSIWipe`. -/
def scsiWipeTurn (ending : U64) (value : U32) (chunkSize : U64) (s : U64 × W) :
    Option (Turn (U64 × W) (Int × W)) :=
  let (curLBA, w) := s
  if curLBA < ending then
    if curLBA + chunkSize > ending then do
      let (rc, w) ← writeSame drive cmd curLBA (ending - curLBA) value w
      if rc ≠ 0 then
        -- the stop point is the end of the disk: try to run past it
        if ending = drive.info.LBACount then
          let (rc, w) ← writeSame drive cmd curLBA chunkSize value w
          some (if rc ≠ 0 then .stop (GENERAL_ERROR, w) else .next (curLBA + chunkSize, w))
        else some (.stop (GENERAL_ERROR, w))
      else some (.next (curLBA + chunkSize, w))
    else do
      let (rc, w) ← writeSame drive cmd curLBA chunkSize value w
      some (if rc ≠ 0 then .stop (GENERAL_ERROR, w) else .next (curLBA + chunkSize, w))
  else some (.stop (0, w))

/-- `doSCSIWipe`. -/
def doSCSIWipe (fuel : Nat) (start count : U64) (value : U32) (chunkSize : U64) (w : W) :
    Option (Int × W) :=
  if chunkSize ≠ 0 then
    run (scsiWipeTurn drive cmd (endingLBA drive start count) value chunkSize) fuel (start, w)
  else do
    let (rc, w) ← writeSame drive cmd start count value w
    some (if rc ≠ 0 then GENERAL_ERROR else 0, w)

/-! ## Trim -/

/-- A sum of `long long int`s; `none` is an overflow. -/
def addLL (a b : Int) : Option Int :=
  if - 2 ^ 63 ≤ a + b ∧ a + b < 2 ^ 63 then some (a + b) else none

/-- `endingLBA` of `doTrimWipe`. -/
def trimEnding (LBACount : U64) (start count : Int) : Option Int :=
  if count = 0 then some LBACount.toInt else addLL start count

section trim

variable (trim : U64 → U64 → W → Option (Int × W))

/-- One turn of the loop of `doTrimWipe`: the cursor and the chunk size. -/
def trimWipeTurn (endingLBA : Int) (s : Int × Int × W) : Option (Turn (Int × Int × W) (Int × W)) :=
  let (curLBA, chunkSize, w) := s
  if curLBA < endingLBA then do
    let next ← addLL curLBA chunkSize
    let chunkSize := if next > endingLBA then endingLBA - curLBA else chunkSize
    let (rc, w) ← trim (.ofInt 64 curLBA) (.ofInt 64 chunkSize) w
    if rc ≠ 0 then some (.stop (GENERAL_ERROR, w))
    else
      let curLBA ← addLL curLBA chunkSize
      some (.next (curLBA, chunkSize, w))
  else some (.stop (0, w))

/-- `doTrimWipe`; `trim( drive, .. )` is its parameter. -/
def doTrimWipe (fuel : Nat) (LBACount : U64) (start count chunkSize : Int) (w : W) :
    Option (Int × W) :=
  if chunkSize ≠ 0 then do
    let endingLBA ← trimEnding LBACount start count
    run (trimWipeTurn trim endingLBA) fuel (start, chunkSize, w)
  else do
    let (rc, w) ← trim (.ofInt 64 start) (.ofInt 64 count) w
    some (if rc ≠ 0 then GENERAL_ERROR else 0, w)

end trim

/-- `-t` of the options; `-o` and `-k` are taken as they are. -/
def startOption (start : BitVec 64) : Int := if start.toInt < 0 then 0 else start.toInt

/-- What `main` asks of the start, the count and the chunk size of a trim. -/
def wholeSectors (LogicalSectorSize PhysicalSectorSize n : Int) : Bool :=
  (n * LogicalSectorSize).tmod PhysicalSectorSize = 0

/-- `-r` of `main`: `none` inside is the exit for a value that is refused. -/
def trimMain (fuel : Nat) (PhysicalSectorSize : Int) (start count chunkSize : BitVec 64) (w : W) :
    Option (Option Int × W) :=
  let whole := wholeSectors drive.info.LogicalSectorSize PhysicalSectorSize
  let start := startOption start
  if !whole start ∨ !whole count.toInt ∨ !whole chunkSize.toInt then some (none, w)
  else do
    let (rc, w) ← doTrimWipe (Drive.trim drive cmd) fuel drive.info.LBACount start count.toInt
      chunkSize.toInt w
    some (some rc, w)

end WipeDrive
