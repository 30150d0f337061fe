import Disks.Drive.AtaSmart
import Disks.Drive.ScsiPages

/-!
# The return codes of `exec_cmd_ata` and `exec_cmd_scsi`

`execCmdAta` and `execCmdScsi` leave out the commands that fill a structure. Here they are together
with the others, as the callers in `disk.c` see them: a return code, and the world afterwards.
`errno` is a part of the world.
-/

namespace Drive

open Bytes

section exec

variable {W : Type}

/-- A protocol, by its return code. -/
abbrev CmdRc (W : Type) :=
  CdbCommand → CdbRw → Option (List Byte) → Nat → List U64 → W → Option (Int × W)

/-- `exec_cmd_ata`. -/
def execCmdAtaRc (fuel : Nat) (drive : DeviceHandle) (driver : Driver Cdb W) : CmdRc W :=
  fun command rw data dataLen parms w =>
    match command with
    | .smartAttribs =>
      (ataSmartAttribs (execCmdAtaTf drive driver) dataLen w).map fun r => (r.1, r.2.2)
    | command =>
      (execCmdAta fuel drive driver command rw data dataLen parms w).map fun r => (r.rc, r.world)

/-- The pages `send` gets, each in a cleared buffer. -/
def askThrough (send : Cmd W) (errno : W → Int) : Asks (StateT W Option) :=
  fun command parms w => do
    let r ← send command .read (some zeroed) 512 parms w
    some (if r.rc ≠ 0 then .error (errno r.world) else .ok (.ofFn fun i => r.data.getD i 0),
      r.world)

/-- The return code of a command that fills a structure. -/
def rcOf {α : Type} (x : ExceptT Int (StateT W Option) α) (w : W) : Option (Int × W) := do
  let (r, w) ← x.run w
  some (match r with | .ok _ => 0 | .error rc => rc, w)

/-- `exec_cmd_scsi`, for a drive with these log pages. -/
def execCmdScsiRc (fuel : Nat) (drive : DeviceHandle) (logPages : List Byte)
    (driver : Driver Cdb W) (errno : W → Int) : CmdRc W :=
  fun command rw data dataLen parms w =>
    let asks := askThrough (execCmdScsiCdb driver) errno
    match command with
    | .identify =>
      if dataLen < sizeofIdentityPage0.toNat then some (-1, w) else rcOf asks.scsiIdentify w
    | .identifyEnclosure =>
      if dataLen < sizeofIdentityPage0.toNat then some (-1, w)
      else rcOf asks.scsiIdentifyEnclosure w
    | .smartStatus =>
      if parms.length ≠ 1 then some (-1, w)
      else rcOf (asks.scsiSmartStatus (logPages.contains SCSI_LOG_SENCE_PAGE_INFO_EXCEPT)) w
    | .smartAttribs =>
      if dataLen < sizeofSmartAttribs then some (-1, w) else rcOf (asks.scsiSmartAttribs logPages) w
    | command =>
      (execCmdScsi fuel drive driver command rw data dataLen parms w).map fun r => (r.rc, r.world)

end exec

end Drive
