import Disks.Drive.Device

/-!
# The SG_IO and SAT transports (`sgio.c`, `sat.c`)

Both hand a command block to the kernel and turn what the kernel returns into a return code and a
command block for the protocol layer: `sgioReply` and `satReply` are that part, pure, and
`sgioCmd` and `satCmd` put a kernel in front of it. `SgIo.failure` and `SatIo.failure` are what
`errno` says of a command that failed.
-/

namespace Drive

open Bytes

/-! ## SG_IO -/

def EINVAL : Int := 22
def EBADE : Int := 52
def ECONNRESET : Int := 104
def ETIMEDOUT : Int := 110

def SG_CHECK_CONDITION : Byte := 0x02
def SG_ERR_DID_NO_CONNECT : U16 := 0x01
def SG_ERR_DID_BUS_BUSY : U16 := 0x02
def SG_ERR_DID_TIME_OUT : U16 := 0x03
def SG_ERR_DID_RESET : U16 := 0x08
def SG_ERR_DRIVER_TIMEOUT : U16 := 0x06
def SG_ERR_DRIVER_SENSE : U16 := 0x08

/-- What `ioctl( fd, SG_IO, &io_hdr )` returns and leaves in `io_hdr`, the sense buffer, the data
buffer and `errno`. -/
structure SgIo where
  rc : Int := 0
  status : Byte := 0
  hostStatus : U16 := 0
  driverStatus : U16 := 0
  sb : Vector Byte 32
  data : List Byte
  errno : Int := 0

/-- The response code of sense data, and the length of what follows their first 8 bytes. -/
def responseCode (sb : Vector Byte 32) : Byte := sb[0] &&& 0x7f
def additionalLength (sb : Vector Byte 32) : Byte := sb[7]

/-- The command block after a copy of `n` bytes. -/
def copied (cdb : Cdb) (sb : Vector Byte 32) (n : Nat) : Cdb :=
  .ofFn fun i => if i < n then sb[8 + i.val] else cdb[i]

/-- `memcpy( cdb, sb + 8, n )`, `none` where it runs past the command block. -/
def copySense (cdb : Cdb) (sb : Vector Byte 32) (n : Nat) : Option Cdb :=
  if n ≤ 16 then some (.ofFn fun i => if i < n then sb[8 + i.val] else cdb[i]) else none

/-- The `io_hdr` checks of `sgio_cmd`. -/
def SgIo.refused (io : SgIo) : Bool :=
  io.rc = -1 ∨ (io.status ≠ 0 ∧ io.status ≠ SG_CHECK_CONDITION) ∨ io.hostStatus ≠ 0 ∨
    (io.driverStatus ≠ 0 ∧ io.driverStatus ≠ SG_ERR_DRIVER_SENSE)

/-- The command block `sgio_cmd` leaves. -/
def sgioCdb (cdb : Cdb) (sb : Vector Byte 32) : Option Cdb :=
  if sb[0] &&& 0x7f = 0x72 ∨ sb[7] = 0x0e then copySense cdb sb sb[7].toNat
  else some (.replicate 16 0)

/-- The sense check of `sgio_cmd`. -/
def sgioSenseBad (sb : Vector Byte 32) : Bool :=
  (sb[0] = 0x70 ∨ sb[0] = 0x71) ∧ sb[2] &&& 0x0f ≠ 0x00 ∧ sb[2] &&& 0x0f ≠ 0x01

/-- The `errno` of a command that `sgio_cmd` fails. -/
def SgIo.failure (io : SgIo) : Int :=
  if io.rc = -1 then io.errno
  else if io.status ≠ 0 ∧ io.status ≠ SG_CHECK_CONDITION then EBADE
  else if io.hostStatus ≠ 0 then
    if io.hostStatus ∈ [SG_ERR_DID_NO_CONNECT, SG_ERR_DID_BUS_BUSY, SG_ERR_DID_TIME_OUT] then
      ETIMEDOUT
    else if io.hostStatus = SG_ERR_DID_RESET then ECONNRESET
    else EBADE
  else if io.driverStatus = SG_ERR_DRIVER_TIMEOUT then ECONNRESET
  -- a bad driver status or bad sense data
  else EBADE

/-- `sgio_cmd` behind the `ioctl`. -/
def sgioReply (req : Request Cdb) (io : SgIo) : Option (Reply Cdb) :=
  if io.refused then some ⟨-1, req.cdb, io.data⟩
  else do
    let cdb ← sgioCdb req.cdb io.sb
    some ⟨if sgioSenseBad io.sb then -1 else 0, cdb, io.data⟩

/-! ## SAT -/

def MAX_DXFER_LEN : Nat := 512

/-- What `ioctl( fd, SCSI_IOCTL_SEND_COMMAND, &cmd )` returns and leaves in `cmd`: 0 for a
command that completed, a negative value for an error of the system, and otherwise the SCSI
status in the lowest byte, with the sense data in `cmd.cdb`. -/
structure SatIo where
  rc : Int := 0
  cdb : Cdb
  data : List Byte
  errno : Int := 0

/-- The `errno` of a command that `sat_cmd` fails. -/
def SatIo.failure (io : SatIo) (dataLen : Nat) : Int :=
  if dataLen > MAX_DXFER_LEN then EINVAL else io.errno

/-- `sat_cmd` behind the `ioctl`. A buffer that is `NULL` takes no data. -/
def satReply (req : Request Cdb) (io : SatIo) : Option (Reply Cdb) :=
  if io.rc < 0 then some ⟨-1, req.cdb, req.data.getD []⟩
  else match req.data with
    | some _ => some ⟨0, req.cdb, io.data.take req.dataLen⟩
    | none => if req.dataLen = 0 then some ⟨0, req.cdb, []⟩ else none

/-! ## With a kernel -/

section kernel

variable {W : Type}

/-- `sgio_cmd`. -/
def sgioCmd (kernel : Request Cdb → W → SgIo × W) : Driver Cdb W := fun req w => do
  let (io, w) := kernel req w
  let reply ← sgioReply req io
  some (reply, w)

/-- `sat_cmd`. -/
def satCmd (kernel : Request Cdb → W → SatIo × W) : Driver Cdb W := fun req w =>
  if req.dataLen > MAX_DXFER_LEN then some (⟨-1, req.cdb, req.data.getD []⟩, w)
  else do
    let (io, w) := kernel req w
    let reply ← satReply req io
    some (reply, w)

end kernel

end Drive
