import Disks.Drive.Ata

/-!
# The SCSI protocol (`scsi.c`)

`loadCdbScsi` encodes a command, `execCmdScsiCdb` is the part of `exec_cmd_scsi` that sends one,
and `execCmdScsi` adds the composite commands.
-/

namespace Drive

open Bytes Loop

/-! ## Operation codes -/

def SCSI_OP_REQUEST_SENSE : Byte := 0x03
def SCSI_OP_INQUIRY : Byte := 0x12
def SCSI_OP_START_STOP_UNIT : Byte := 0x1b
def SCSI_OP_RECEIVE_DIAGNOSTIC : Byte := 0x1c
def SCSI_OP_SEND_DIAGNOSTIC : Byte := 0x1d
def SCSI_OP_UNMAP : Byte := 0x42
def SCSI_OP_LOG_SENSE : Byte := 0x4d
def SCSI_READ_16 : Byte := 0x88
def SCSI_WRITE_16 : Byte := 0x8a
def SCSI_WRITE_SAME_16 : Byte := 0x93
def SCSI_READ_CAPACITY_16 : Byte := 0x9e

def SCSI_PC_CUMULATIVE : Byte := 0x40
def SCSI_LOG_SENCE_PAGE_SELF_TEST : U64 := 0x10

/-- `sizeof( struct scsi_identity_page0 )`. -/
def sizeofIdentityPage0 : U16 := 74

/-! ## Command blocks -/

/-- INQUIRY for the standard page. -/
def inquiryCdb : Cdb :=
  #v[SCSI_OP_INQUIRY, 0, 0, byteAt sizeofIdentityPage0 1, byteAt sizeofIdentityPage0 0, 0,
    0, 0, 0, 0, 0, 0, 0, 0, 0, 0]

/-- START STOP UNIT with a power condition. -/
def startStopCdb (condition : Byte) : Cdb :=
  #v[SCSI_OP_START_STOP_UNIT, 0x01, 0, 0x00, condition, 0, 0, 0, 0, 0, 0, 0, 0, 0, 0, 0]

/-- `CMD_SCSI_WRITESAME` of `load_cdb_scsi`. The count is stored around byte 11. -/
def wsCdb (lba count : U64) : Cdb :=
  #v[SCSI_WRITE_SAME_16, 0x00,
    byteAt lba 7, byteAt lba 6, byteAt lba 5, byteAt lba 4, byteAt lba 3, byteAt lba 2,
    byteAt lba 1, byteAt lba 0, byteAt count 3, 0, byteAt count 2, byteAt count 1,
    byteAt count 0, 0]

/-- `CMD_READ` and `CMD_WRITE` of `load_cdb_scsi`. -/
def rwCdb (op : Byte) : List U64 → Option Cdb
  | [lba, count, _, fua] =>
    some #v[op, if fua ≠ 0 then 0x80 else 0x00,
      byteAt lba 7, byteAt lba 6, byteAt lba 5, byteAt lba 4, byteAt lba 3, byteAt lba 2,
      byteAt lba 1, byteAt lba 0, byteAt count 3, byteAt count 2, byteAt count 1, byteAt count 0,
      0, 0]
  | _ => none

/-- `load_cdb_scsi`, `none` for a refused command. -/
def loadCdbScsi (command : CdbCommand) (parms : List U64) : Option Cdb :=
  match command, parms with
  | .probe, _ => some inquiryCdb
  | .scsiInquiry, _ => some inquiryCdb
  | .scsiSense, _ =>
    some #v[SCSI_OP_REQUEST_SENSE, 0, 0, 0x00, 0xf0, 0, 0, 0, 0, 0, 0, 0, 0, 0, 0, 0]
  | .scsiLogPage, [page] =>
    some #v[SCSI_OP_LOG_SENSE, 0, SCSI_PC_CUMULATIVE ||| page.setWidth 8, 0, 0, 0, 0, 0x02, 0x00,
      0, 0, 0, 0, 0, 0, 0]
  | .scsiVpdPage, [page] =>
    some #v[SCSI_OP_INQUIRY, 1, page.setWidth 8, 0x00, 0xff, 0, 0, 0, 0, 0, 0, 0, 0, 0, 0, 0]
  | .scsiReadCapacity, _ =>
    some #v[SCSI_READ_CAPACITY_16, 0x10, 0, 0, 0, 0, 0, 0, 0, 0, 0x00, 0x00, 0x02, 0x00, 0, 0]
  | .reset, _ => some (startStopCdb 0x10)
  | .standby, _ => some (startStopCdb 0x30)
  | .idle, _ => some (startStopCdb 0x20)
  | .scsiTrim, [size] =>
    some #v[SCSI_OP_UNMAP, 0x00, 0, 0, 0, 0, 0x00, byteAt size 1, byteAt size 0, 0,
      0, 0, 0, 0, 0, 0]
  | .scsiWriteSame, [lba, count] => some (wsCdb lba count)
  | .scsiSendDiagnostic, [control, size] =>
    some #v[SCSI_OP_SEND_DIAGNOSTIC, control.setWidth 8, 0, byteAt size 1, byteAt size 0, 0,
      0, 0, 0, 0, 0, 0, 0, 0, 0, 0]
  | .scsiReceiveDiagnostic, [page, size] =>
    some #v[SCSI_OP_RECEIVE_DIAGNOSTIC, 0x01, page.setWidth 8, byteAt size 1, byteAt size 0, 0,
      0, 0, 0, 0, 0, 0, 0, 0, 0, 0]
  | .read, parms => rwCdb SCSI_READ_16 parms
  | .write, parms => rwCdb SCSI_WRITE_16 parms
  | _, _ => none

/-! ## Sending a command -/

section exec

variable {W : Type}

/-- The part of `exec_cmd_scsi` behind the composite commands. -/
def execCmdScsiCdb (driver : Driver Cdb W) : Cmd W :=
  fun command rw data dataLen parms w =>
    match loadCdbScsi command parms with
    | none => some ⟨-1, data.getD [], parms, w⟩
    | some cdb => do
      let (reply, w) ← driver ⟨rw, cdb, data, dataLen⟩ w
      if reply.rc ≠ 0 then some ⟨-1, reply.data, parms, w⟩
      else some ⟨0, reply.data, memsetParms parms, w⟩

/-- The latest self-test result in byte 8 of the log page, byte 9 the segment. -/
def scsiSelfTestState (b8 b9 : Byte) : U64 :=
  let u (b : Byte) : U64 := b.setWidth 64
  let code := b8 &&& 0x0f
  if code = 0x00 then SELFTEST_COMPLETE
  else if code = 0x01 then SELFTEST_HOST_ABBORTED
  else if code = 0x02 then SELFTEST_HOST_INTERRUPTED
  else if 0x03 ≤ code ∧ code ≤ 0x06 then SELFTEST_FAILED ||| u code
  else if code = 0x07 then SELFTEST_FAILED ||| (u b9 <<< 4 ||| 0x07)
  else if code = 0x0f then SELFTEST_PER_COMPLETE ||| u b9
  else SELFTEST_UNKNOWN ||| u code

/-- `CMD_SELF_TEST_STATUS`. -/
def scsiSelfTestStatus (send : Cmd W) (drive : DeviceHandle) (data : Option (List Byte))
    (parms : List U64) (w : W) : Option (Exec W) :=
  match parms with
  | [_] =>
    if !drive.info.hasLogPageSelfTest then some ⟨0, data.getD [], [0], w⟩
    else do
      let r ← send .scsiLogPage .read (some zeroed) 512 [SCSI_LOG_SENCE_PAGE_SELF_TEST] w
      if r.rc ≠ 0 then some ⟨-1, data.getD [], parms, r.world⟩
      else some ⟨0, data.getD [],
        [scsiSelfTestState (r.data.getD 8 0) (r.data.getD 9 0)], r.world⟩
  | _ => some ⟨-1, data.getD [], parms, w⟩

/-- The SEND DIAGNOSTIC control byte for a requested test. -/
def scsiSelfTestCode (p : U64) : Option U64 :=
  if p &&& 0x0f = SELFTEST_CONVEYANCE ∨ p = SELFTEST_OFFLINE then none
  else if p = SELFTEST_ABORT then some 0x80
  else do
    let code ←
      if p &&& 0x0f = SELFTEST_EXTENDED then some (0x40 : U64)
      else if p &&& 0x0f = SELFTEST_SHORT then some 0x20
      else none
    some (if p &&& 0xf0 = SELFTEST_CAPTIVE then code ||| 0x80 else code)

/-- `CMD_START_SELF_TEST`. -/
def scsiStartSelfTest (send : Cmd W) (drive : DeviceHandle) (data : Option (List Byte))
    (parms : List U64) (w : W) : Option (Exec W) :=
  match parms with
  | [p] =>
    if !drive.info.hasLogPageSelfTest then some ⟨2, data.getD [], parms, w⟩
    else match scsiSelfTestCode p with
      | none => some ⟨-1, data.getD [], parms, w⟩
      | some code => do
        let r ← send .scsiSendDiagnostic .none none 0 [code, 0] w
        some ⟨if r.rc ≠ 0 then -1 else 0, data.getD [], parms, r.world⟩
  | _ => some ⟨-1, data.getD [], parms, w⟩

/-- The block written by `CMD_WRITESAME`: `value` repeated. -/
def writeSameBlock (value : U64) : List Byte := (List.replicate 128 (leBytes 4 value)).flatten

/-- `CMD_WRITESAME`: the command is given the caller's own first two parameters. -/
def scsiWriteSame (send : Cmd W) (data : Option (List Byte)) (parms : List U64) (w : W) :
    Option (Exec W) :=
  match parms with
  | [start, count, value] => do
    let r ← send .scsiWriteSame .write (some (writeSameBlock value)) 512 [start, count] w
    some ⟨if r.rc ≠ 0 then -1 else 0, data.getD [], r.parms ++ [value], r.world⟩
  | _ => some ⟨-1, data.getD [], parms, w⟩

/-! ## `CMD_TRIM` -/

/-- The block descriptor stored at `i`, without its four reserved bytes. -/
def scsiTrimEntry (chunkSize : U32) (s : TrimBuf) : List Byte :=
  let chunk : U64 := chunkSize.setWidth 64
  beBytes 8 s.pos ++ beBytes 4 (if s.length < chunk then s.length else chunk)

/-- One turn of the loop that fills the buffer; `j` counts the descriptors. -/
def scsiTrimFill (chunkSize : U32) (s : TrimBuf × Nat) : Option (Turn (TrimBuf × Nat) TrimBuf) :=
  let chunk : U64 := chunkSize.setWidth 64
  let (b, j) := s
  if j < 1 ∧ b.i + 16 < 512 then
    let tdata := poke b.tdata b.i (scsiTrimEntry chunkSize b)
    if b.length ≤ chunk then some (.stop { b with i := b.i + 16, tdata, length := 0 })
    else some (.next (⟨b.i + 16, tdata, b.pos + chunk, b.length - chunk⟩, j + 1))
  else some (.stop b)

/-- The two length fields at the head of the parameter list. -/
def scsiTrimHeader (b : TrimBuf) : List Byte :=
  poke b.tdata 0 (beBytes 2 (BitVec.ofNat 32 (b.i - 2)) ++ beBytes 2 (BitVec.ofNat 32 (b.i - 8)))

/-- One turn of the loop that sends the buffers. -/
def scsiTrimSend (send : Cmd W) (fuel : Nat) (chunkSize : U32) (s : TrimBuf × W) :
    Option (Turn (TrimBuf × W) (Int × W)) :=
  if s.1.length = 0 then some (.stop (0, s.2))
  else do
    let b ← run (scsiTrimFill chunkSize) fuel ({ s.1 with i := 8 }, 0)
    -- the driver is given the first `i` bytes of the buffer
    let r ← send .scsiTrim .write (some ((scsiTrimHeader b).take b.i)) b.i
      [BitVec.ofNat 64 b.i] s.2
    some (if r.rc ≠ 0 then .stop (-1, r.world)
      else .next ({ b with tdata := r.data ++ (scsiTrimHeader b).drop b.i }, r.world))

/-- `CMD_TRIM`. -/
def scsiTrim (send : Cmd W) (fuel : Nat) (drive : DeviceHandle) (data : Option (List Byte))
    (parms : List U64) (w : W) : Option (Exec W) :=
  match parms with
  | [start, count] => do
    let length := if count = 0 then drive.info.LBACount - start else count
    let (rc, w) ← run (scsiTrimSend send fuel drive.info.maxUnmapLBACount) fuel
      (⟨0, zeroed, start, length⟩, w)
    some ⟨rc, data.getD [], parms, w⟩
  | _ => some ⟨-1, data.getD [], parms, w⟩

/-- `exec_cmd_scsi`, without the commands that parse pages (`CMD_IDENTIFY`,
`CMD_IDENTIFY_ENCLOSURE`, `CMD_SMART_STATUS`, `CMD_SMART_ATTRIBS`), which read them one by one
(`Asks`). -/
def execCmdScsi (fuel : Nat) (drive : DeviceHandle) (driver : Driver Cdb W) : Cmd W :=
  fun command rw data dataLen parms w =>
    let send := execCmdScsiCdb driver
    match command with
    | .identify | .identifyEnclosure | .smartStatus | .smartAttribs => none
    | .smartLogCount =>
      match parms with
      | [_] => some ⟨0, data.getD [], [0], w⟩
      | _ => some ⟨-1, data.getD [], parms, w⟩
    | .selfTestStatus => scsiSelfTestStatus send drive data parms w
    | .startSelfTest => scsiStartSelfTest send drive data parms w
    | .writeSame => scsiWriteSame send data parms w
    | .trim => scsiTrim send fuel drive data parms w
    | command => send command rw data dataLen parms w

end exec

end Drive
