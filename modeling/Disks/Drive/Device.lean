import Disks.Lib.Bytes
import Disks.Lib.Loop

/-!
# Drives and commands (`device.h`, `cdb.h`, `device.c`)

The commands, the drive information the command code reads, and the two calling conventions of the
library: `driver_cmd` (a transport: a command block goes to the kernel) and `cmd` (a protocol: a
command is encoded and handed to `driver_cmd`). Both thread a state `W`, the world outside the
process; `none` is a call without a result (a loop without an exit, a copy past a buffer).

A `Device` answers each request by the requests it has answered before: every device behaviour,
with every pattern of failures, is one. `Device.driver` is the transport to it that records what
was sent (`Log`).
-/

namespace Drive

open Bytes

abbrev U16 := BitVec 16
abbrev U32 := BitVec 32
abbrev U64 := BitVec 64

/-- `enum cdb_command`. -/
inductive CdbCommand
  | unknown | probe | identify | identifyEnclosure
  | reset | sleep | standby | idle | getPowerState
  | smartEnable | smartDisable | getMaxLBA | setMaxLBA | writeSame | sctStatus | trim
  | smartAttribs | smartStatus | smartLogCount | startSelfTest | selfTestStatus
  | read | write | enableWriteCache | disableWriteCache
  | ataSmartAttribsValues | ataSmartAttribsThresholds | ataSelfTestStatus | ataSelfTestStart
  | ataSmartLogCount | ataWriteSame | ataTrim
  | scsiInquiry | scsiInquirySerial | scsiInquiryIdent | scsiLogPage | scsiVpdPage | scsiSense
  | scsiTrim | scsiWriteSame | scsiReadCapacity | scsiSendDiagnostic | scsiReceiveDiagnostic
deriving DecidableEq, Repr

/-- `enum cdb_rw`. -/
inductive CdbRw
  | none | read | write
deriving DecidableEq, Repr

/-- `enum protocol_type`. -/
inductive ProtocolType
  | unknown | ata | scsi | nvme
deriving DecidableEq, Repr

def SERIAL_NUMBER_LEN : Nat := 34
def FIRMWARE_REV_LEN : Nat := 10
def MODEL_NUMBER_LEN : Nat := 42
def VERSION_LEN : Nat := 5
def VENDOR_ID_LEN : Nat := 9

/-- `struct drive_info`: the fields the command code reads. -/
structure DriveInfo where
  SMARTSupport : Bool := false
  SMARTEnabled : Bool := false
  supportsWriteSame : Bool := false
  supportsTrim : Bool := false
  supportsSCT : Bool := false
  hasLogPageSelfTest : Bool := false
  bit48LBA : Bool := false
  LogicalSectorSize : Nat := 512
  LBACount : U64 := 0
  maxUnmapLBACount : U32 := 0
deriving Repr

/-- `struct device_handle`: `port` is the NVMe namespace. -/
structure DeviceHandle where
  info : DriveInfo := {}
  protocol : ProtocolType := .unknown
  port : U32 := 0
deriving Repr

/-! ## Calling conventions -/

/-- A 16-byte command block. -/
abbrev Cdb := Vector Byte 16

def Cdb.byte (cdb : Cdb) (i : Nat) : Byte := cdb.toList.getD i 0

/-- The arguments of `driver_cmd`; `data` is `none` for a `NULL` pointer. -/
structure Request (C : Type) where
  rw : CdbRw
  cdb : C
  data : Option (List Byte)
  dataLen : Nat
deriving DecidableEq, Repr

/-- What `driver_cmd` returns, and leaves in the caller's command block and data buffer. -/
structure Reply (C : Type) where
  rc : Int
  cdb : C
  data : List Byte
deriving DecidableEq, Repr

/-- A transport. -/
abbrev Driver (C W : Type) := Request C → W → Option (Reply C × W)

/-- What `cmd` returns, and leaves in the caller's data buffer and parameters. -/
structure Exec (W : Type) where
  rc : Int
  data : List Byte
  parms : List U64
  world : W

/-- A protocol: `drive->cmd`. -/
abbrev Cmd (W : Type) :=
  CdbCommand → CdbRw → Option (List Byte) → Nat → List U64 → W → Option (Exec W)

/-! ## Devices -/

/-- The requests sent so far, the latest last, each with the device's return code. -/
abbrev Log (C : Type) := List (Request C × Int)

/-- The requests of a log. -/
def Log.sent {C : Type} (log : Log C) : List (Request C) := log.map Prod.fst

/-- A device: its answer to a request, by what it was sent before. A device fills the data buffer
of a read and leaves that of a write alone. -/
abbrev Device (C : Type) := Log C → Request C → Reply C

/-- The transport to a device, which records what it is sent. -/
def Device.driver {C : Type} (d : Device C) : Driver C (Log C) := fun req log =>
  let reply := d log req
  some ({ reply with data := if req.rw = .read then reply.data else req.data.getD [] },
    log ++ [(req, reply.rc)])

/-- A device that completes every command. -/
def Device.Accepts {C : Type} (d : Device C) : Prop := ∀ log req, (d log req).rc = 0

@[simp] theorem Log.sent_append {C : Type} (l m : Log C) :
    Log.sent (l ++ m) = Log.sent l ++ Log.sent m := List.map_append

@[simp] theorem Log.sent_singleton {C : Type} (req : Request C) (rc : Int) :
    Log.sent [(req, rc)] = [req] := rfl

@[simp] theorem Log.sent_nil {C : Type} : Log.sent ([] : Log C) = [] := rfl

/-- A device that is written to leaves the caller's buffer alone. -/
theorem Device.driver_write {C : Type} (d : Device C) (cdb : C) (buf : List Byte) (len : Nat)
    (log : Log C) : d.driver ⟨.write, cdb, some buf, len⟩ log =
      some ({ d log ⟨.write, cdb, some buf, len⟩ with data := buf },
        log ++ [(⟨.write, cdb, some buf, len⟩, (d log ⟨.write, cdb, some buf, len⟩).rc)]) := rfl

/-! ## Big-endian reads -/

/-- `getu64`. -/
def getu64 (value : List Byte) : U64 :=
  let b (i : Nat) : U64 := (value.getD i 0).setWidth 64
  (b 0 <<< 56) ||| (b 1 <<< 48) ||| (b 2 <<< 40) ||| (b 3 <<< 32) |||
    (b 4 <<< 24) ||| (b 5 <<< 16) ||| (b 6 <<< 8) ||| b 7

theorem getu64_beBytes (v : U64) (bs : List Byte) : getu64 (beBytes 8 v ++ bs) = v := by
  have h₀ : (byteAt v 0).setWidth 64 = v &&& 0xff := by simpa using byteAt_shiftLeft v 0
  have hs : getu64 (beBytes 8 v ++ bs) =
      ((byteAt v 7).setWidth 64 <<< (8 * 7)) ||| ((byteAt v 6).setWidth 64 <<< (8 * 6)) |||
      ((byteAt v 5).setWidth 64 <<< (8 * 5)) ||| ((byteAt v 4).setWidth 64 <<< (8 * 4)) |||
      ((byteAt v 3).setWidth 64 <<< (8 * 3)) ||| ((byteAt v 2).setWidth 64 <<< (8 * 2)) |||
      ((byteAt v 1).setWidth 64 <<< (8 * 1)) ||| (byteAt v 0).setWidth 64 := rfl
  rw [hs, h₀]
  simp only [byteAt_shiftLeft, ← BitVec.and_or_distrib_left]
  exact BitVec.and_allOnes

/-- `getu32`. -/
def getu32 (value : List Byte) : U32 :=
  let b (i : Nat) : U32 := (value.getD i 0).setWidth 32
  (b 0 <<< 24) ||| (b 1 <<< 16) ||| (b 2 <<< 8) ||| b 3

/-- The `n` low bytes cleared. -/
def clearLow (n : Nat) (p : U64) : U64 := (p >>> (8 * n)) <<< (8 * n)

/-- `memset( parms, 0, parm_count )`: the count is of parameters, `memset` counts bytes, so only
the first `parm_count` bytes of the little-endian array are cleared. -/
def memsetParms (parms : List U64) : List U64 :=
  parms.mapIdx (fun i p => clearLow (min 8 (parms.length - 8 * i)) p)

end Drive
