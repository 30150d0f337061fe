import Disks.Drive.Device

/-!
# The ATA protocol (`ata.c`)

`getTf` builds the taskfile of a command, `loadCdbAta` packs it into an ATA PASS-THROUGH (16)
command block, `unloadCdbAta` and `parseTf` read the registers a device returns.
`execCmdAtaTf` is the part of `exec_cmd_ata` that sends one command; the composite commands
(`execCmdAta`) send it one or more times.
-/

namespace Drive

open Bytes Loop

/-! ## Registers and operation codes -/

/-- `enum ATA_COMMANDS`. -/
def ATA_OP_IDENTIFY : Byte := 0xec
def ATA_OP_RESET : Byte := 0x08
def ATA_OP_SLEEP : Byte := 0xe6
def ATA_OP_STANDBY : Byte := 0xe2
def ATA_OP_IDLE : Byte := 0xe3
def ATA_OP_CHECK_POWER_MODE : Byte := 0xe5
def ATA_OP_READ_NATIVE_MAX : Byte := 0xf8
def ATA_OP_READ_NATIVE_MAX_EXT : Byte := 0x27
def ATA_OP_SMART : Byte := 0xb0
def ATA_OP_DATA_SET_MANGEMENT : Byte := 0x06
def ATA_OP_SETFEATURES : Byte := 0xef
def ATA_OP_READ_PIO : Byte := 0x20
def ATA_OP_READ_PIO_EXT : Byte := 0x24
def ATA_OP_READ_DMA : Byte := 0xc8
def ATA_OP_READ_DMA_EXT : Byte := 0x25
def ATA_OP_READ_DMA_QUEUED : Byte := 0xc7
def ATA_OP_READ_DMA_QUEUED_EXT : Byte := 0x26
def ATA_OP_WRITE_PIO : Byte := 0x30
def ATA_OP_WRITE_PIO_EXT : Byte := 0x34
def ATA_OP_WRITE_DMA : Byte := 0xca
def ATA_OP_WRITE_DMA_EXT : Byte := 0x35
def ATA_OP_WRITE_DMA_QUEUED : Byte := 0xcc
def ATA_OP_WRITE_DMA_QUEUED_EXT : Byte := 0x36

/-- `enum ATA_SMART_OP`. -/
def SMART_OP_READ_VALUES : Byte := 0xd0
def SMART_OP_READ_THRESHOLDS : Byte := 0xd1
def SMART_OP_OFFLINE_IMMEDIATE : Byte := 0xd4
def SMART_OP_READ_LOG : Byte := 0xd5
def SMART_OP_WRITE_LOG : Byte := 0xd6
def SMART_OP_GET_STATUS : Byte := 0xda
def SMART_OP_ENABLE : Byte := 0xd8
def SMART_OP_DISABLE : Byte := 0xd9

def SMART_OP_LBAM : Byte := 0x4f
def SMART_OP_LBAH : Byte := 0xc2
def ATA_LOG_SMART_ERR_SUMMARY : Byte := 0x01
def ATA_LOG_SCT_CMD : Byte := 0xe0

def ATA_USING_LBA : Byte := 1 <<< 6
def ATA_STAT_FAULT : Byte := 1 <<< 5
def ATA_STAT_DRQ : Byte := 1 <<< 3
def ATA_STAT_ERR : Byte := 1 <<< 0

/-- `STATUS_…` and `POWER_…` of `disk.h`. -/
def STATUS_DRIVE_GOOD : U64 := 0x0000
def STATUS_DRIVE_FAULT : U64 := 0x0001
def STATUS_THRESHOLD_EXCEEDED : U64 := 0x0002
def POWER_UNKNOWN : U64 := 0x00
def POWER_ACTIVE : U64 := 0x01
def POWER_SLEEP : U64 := 0x02
def POWER_STANDBY : U64 := 0x03
def POWER_IDLE : U64 := 0x04

/-- `SELFTEST_…` of `disk.h`. -/
def SELFTEST_SHORT : U64 := 0x01
def SELFTEST_EXTENDED : U64 := 0x02
def SELFTEST_CONVEYANCE : U64 := 0x03
def SELFTEST_OFFLINE : U64 := 0x04
def SELFTEST_CAPTIVE : U64 := 0x10
def SELFTEST_ABORT : U64 := 0xff
def SELFTEST_PER_COMPLETE : U64 := 0x1000
def SELFTEST_COMPLETE : U64 := 0x2000
def SELFTEST_HOST_ABBORTED : U64 := 0x3000
def SELFTEST_HOST_INTERRUPTED : U64 := 0x4000
def SELFTEST_FAILED : U64 := 0x5000
def SELFTEST_UNKNOWN : U64 := 0x7000

/-- `struct ata_lba_regs`. -/
structure AtaLbaRegs where
  feat : Byte := 0
  nsect : Byte := 0
  lbal : Byte := 0
  lbam : Byte := 0
  lbah : Byte := 0
deriving DecidableEq, Repr

/-- `struct ata_tf`: `hob` holds the high-order bytes. -/
structure AtaTf where
  dev : Byte := 0
  command : Byte := 0
  error : Byte := 0
  status : Byte := 0
  lob : AtaLbaRegs := {}
  hob : AtaLbaRegs := {}
  checkCond : Bool := false
deriving DecidableEq, Repr

def isExt (op : Byte) : Bool :=
  op ∈ [ATA_OP_READ_NATIVE_MAX_EXT, ATA_OP_READ_PIO_EXT, ATA_OP_READ_DMA_EXT,
    ATA_OP_WRITE_PIO_EXT, ATA_OP_WRITE_DMA_EXT]

def isDma (op : Byte) : Bool :=
  op ∈ [ATA_OP_READ_DMA, ATA_OP_READ_DMA_EXT, ATA_OP_WRITE_DMA, ATA_OP_WRITE_DMA_EXT,
    ATA_OP_DATA_SET_MANGEMENT]

def isDmaQueued (op : Byte) : Bool :=
  op ∈ [ATA_OP_READ_DMA_QUEUED, ATA_OP_READ_DMA_QUEUED_EXT, ATA_OP_WRITE_DMA_QUEUED,
    ATA_OP_WRITE_DMA_QUEUED_EXT]

/-! ## Taskfiles -/

/-- A SMART subcommand. -/
def smartTf (feat nsect lbal : Byte) : AtaTf :=
  { command := ATA_OP_SMART
    lob := { feat, nsect, lbal, lbam := SMART_OP_LBAM, lbah := SMART_OP_LBAH } }

/-- `CMD_READ` and `CMD_WRITE` of `get_tf`; the operation codes are those of the extended and the
28-bit commands. -/
def rwTf (dmaExt pioExt dma pio : Byte) (ext : Bool) : List U64 → Option AtaTf
  | [lba, count, useDma, _] =>
    let tf : AtaTf := { dev := ATA_USING_LBA }
    let lob : AtaLbaRegs := { lbah := byteAt lba 2, lbam := byteAt lba 1, lbal := byteAt lba 0 }
    if ext then
      if count > 0xffff then none
      else some { tf with
        lob := { lob with nsect := byteAt count 0 }
        hob := { nsect := byteAt count 1, lbah := byteAt lba 5, lbam := byteAt lba 4,
                 lbal := byteAt lba 3 }
        command := if useDma ≠ 0 then dmaExt else pioExt }
    else if count > 0xff then none
    else some { tf with
      lob := { lob with nsect := count.setWidth 8 }
      command := if useDma ≠ 0 then dma else pio }
  | _ => none

/-- `get_tf`: the taskfile and the parameters it leaves, `none` inside for a refused command;
`none` outside where `*parms` is stored through a `NULL` pointer. -/
def getTf (command : CdbCommand) (ext : Bool) (parms : List U64) :
    Option (Option AtaTf × List U64) :=
  match command with
  | .identify => some (some { command := ATA_OP_IDENTIFY, lob := { nsect := 1 } }, parms)
  | .reset => some (some { command := ATA_OP_RESET }, parms)
  | .sleep => some (some { command := ATA_OP_SLEEP }, parms)
  | .standby => some (some { command := ATA_OP_STANDBY }, parms)
  | .idle => some (some { command := ATA_OP_IDLE }, parms)
  | .getPowerState =>
    some (some { command := ATA_OP_CHECK_POWER_MODE, checkCond := true }, parms)
  | .smartEnable => some (some (smartTf SMART_OP_ENABLE 0 0), parms)
  | .smartDisable => some (some (smartTf SMART_OP_DISABLE 0 0), parms)
  | .ataSmartAttribsValues => some (some (smartTf SMART_OP_READ_VALUES 1 0), parms)
  | .ataSmartAttribsThresholds => some (some (smartTf SMART_OP_READ_THRESHOLDS 1 1), parms)
  | .smartStatus =>
    match parms with
    | [] => none
    | _ :: ps =>
      some (some { smartTf SMART_OP_GET_STATUS 0 0 with checkCond := true },
        STATUS_DRIVE_GOOD :: ps)
  | .ataSmartLogCount =>
    some (some (smartTf SMART_OP_READ_LOG 1 ATA_LOG_SMART_ERR_SUMMARY), parms)
  | .getMaxLBA =>
    match parms with
    | [] => none
    | _ :: ps =>
      some (some {
        dev := ATA_USING_LBA
        command := if ext then ATA_OP_READ_NATIVE_MAX_EXT else ATA_OP_READ_NATIVE_MAX
        checkCond := true }, 0 :: ps)
  | .ataWriteSame => some (some (smartTf SMART_OP_WRITE_LOG 1 ATA_LOG_SCT_CMD), parms)
  | .sctStatus => some (some (smartTf SMART_OP_READ_LOG 1 ATA_LOG_SCT_CMD), parms)
  | .ataTrim =>
    some (some {
      command := ATA_OP_DATA_SET_MANGEMENT
      lob := { nsect := 1, feat := 1 }
      dev := ATA_USING_LBA }, parms)
  | .ataSelfTestStatus => some (some (smartTf SMART_OP_READ_VALUES 1 0), parms)
  | .ataSelfTestStart =>
    match parms with
    | [p] => some (some (smartTf SMART_OP_OFFLINE_IMMEDIATE 0 (p.setWidth 8)), parms)
    | _ => some (none, parms)
  | .read =>
    some (rwTf ATA_OP_READ_DMA_EXT ATA_OP_READ_PIO_EXT ATA_OP_READ_DMA ATA_OP_READ_PIO ext parms,
      parms)
  | .write =>
    some (rwTf ATA_OP_WRITE_DMA_EXT ATA_OP_WRITE_PIO_EXT ATA_OP_WRITE_DMA ATA_OP_WRITE_PIO ext
      parms, parms)
  | .enableWriteCache =>
    some (some { command := ATA_OP_SETFEATURES, lob := { feat := 0x02 } }, parms)
  | .disableWriteCache =>
    some (some { command := ATA_OP_SETFEATURES, lob := { feat := 0x82 } }, parms)
  | _ => some (none, parms)

/-- `parse_tf`: the parameters a returned taskfile gives, `none` for `-1`. -/
def parseTf (tf : AtaTf) (command : CdbCommand) (ext : Bool) (parms : List U64) :
    Option (List U64) :=
  let u (b : Byte) : U64 := b.setWidth 64
  match command, parms with
  | .getMaxLBA, [_] =>
    if ext then
      some [((u tf.hob.lbah <<< 16 ||| u tf.hob.lbam <<< 8 ||| u tf.hob.lbal) <<< 24) |||
        (u tf.lob.lbah <<< 16 ||| u tf.lob.lbam <<< 8 ||| u tf.lob.lbal)]
    else
      some [u (tf.dev &&& 0x0f) <<< 24 ||| u tf.lob.lbah <<< 16 ||| u tf.lob.lbam <<< 8 |||
        u tf.lob.lbal]
  | .smartStatus, [_] =>
    let status := if tf.status &&& 0x20 ≠ 0 then STATUS_DRIVE_GOOD ||| STATUS_DRIVE_FAULT
      else STATUS_DRIVE_GOOD
    if tf.lob.lbam = 0xf4 ∧ tf.lob.lbah = 0x2c then some [status ||| STATUS_THRESHOLD_EXCEEDED]
    else if tf.lob.lbam = 0x4f ∧ tf.lob.lbah = 0xc2 then some [status]
    else none
  | .getPowerState, [_] =>
    if tf.lob.nsect = 0x00 then some [POWER_STANDBY]
    else if tf.lob.nsect = 0x40 ∨ tf.lob.nsect = 0x41 then some [POWER_ACTIVE]
    else if tf.lob.nsect = 0x80 then some [POWER_IDLE]
    else if tf.lob.nsect = 0xff then some [POWER_ACTIVE]
    else none
  | _, _ => none

/-! ## Command blocks -/

def SG_ATA_LBA48 : Byte := 1
def SG_ATA_PROTO_NON_DATA : Byte := 3 <<< 1
def SG_ATA_PROTO_PIO_IN : Byte := 4 <<< 1
def SG_ATA_PROTO_PIO_OUT : Byte := 5 <<< 1
def SG_ATA_PROTO_DMA_QUEUED : Byte := 7 <<< 1
def SG_ATA_PROTO_UDMA_IN : Byte := 10 <<< 1
def SG_ATA_PROTO_UDMA_OUT : Byte := 11 <<< 1
def SG_CDB2_TLEN_NSECT : Byte := 2 <<< 0
def SG_CDB2_TLEN_SECTORS : Byte := 1 <<< 2
def SG_CDB2_TDIR_TO_DEV : Byte := 0 <<< 3
def SG_CDB2_TDIR_FROM_DEV : Byte := 1 <<< 3
def SG_CDB2_CHECK_COND : Byte := 1 <<< 5
def ATA_16 : Byte := 0x85

/-- `cdb[1]` of `load_cdb_ata`, before the extend bit. -/
def cdbProto (op : Byte) : CdbRw → Byte
  | .read => if isDma op then SG_ATA_PROTO_UDMA_IN
    else if isDmaQueued op then SG_ATA_PROTO_DMA_QUEUED else SG_ATA_PROTO_PIO_IN
  | .write => if isDma op then SG_ATA_PROTO_UDMA_OUT
    else if isDmaQueued op then SG_ATA_PROTO_DMA_QUEUED else SG_ATA_PROTO_PIO_OUT
  | .none => SG_ATA_PROTO_NON_DATA

/-- `cdb[2]` of `load_cdb_ata`. -/
def cdbFlags (checkCond : Bool) (rw : CdbRw) : Byte :=
  if checkCond then SG_CDB2_CHECK_COND
  else match rw with
    | .read => SG_CDB2_TLEN_NSECT ||| SG_CDB2_TLEN_SECTORS ||| SG_CDB2_TDIR_FROM_DEV
    | .write => SG_CDB2_TLEN_NSECT ||| SG_CDB2_TLEN_SECTORS ||| SG_CDB2_TDIR_TO_DEV
    | .none => 0

/-- `load_cdb_ata`. -/
def loadCdbAta (tf : AtaTf) (rw : CdbRw) : Cdb :=
  let ext := isExt tf.command
  let hob : AtaLbaRegs := if ext then tf.hob else {}
  let proto := cdbProto tf.command rw
  #v[ATA_16, if ext then proto ||| SG_ATA_LBA48 else proto, cdbFlags tf.checkCond rw,
    hob.feat, tf.lob.feat, hob.nsect, tf.lob.nsect, hob.lbal, tf.lob.lbal, hob.lbam, tf.lob.lbam,
    hob.lbah, tf.lob.lbah, tf.dev, tf.command, 0]

/-- `unload_cdb_ata`: the returned registers, and whether the status shows no error. -/
def unloadCdbAta (cdb : Cdb) : AtaTf × Bool :=
  let tf : AtaTf := {
    error := cdb[3], dev := cdb[12], status := cdb[13]
    hob := { nsect := cdb[4], lbal := cdb[6], lbam := cdb[8], lbah := cdb[10] }
    lob := { nsect := cdb[5], lbal := cdb[7], lbam := cdb[9], lbah := cdb[11] } }
  (tf, tf.status &&& (ATA_STAT_ERR ||| ATA_STAT_DRQ ||| ATA_STAT_FAULT) = 0)

/-! ## Sending a command -/

section exec

variable {W : Type}

/-- What `exec_cmd_ata` does with the command block the driver leaves: the return code and the
parameters. A block that is no ATA return descriptor is let through. -/
def checkCdbAta (drive : DeviceHandle) (command : CdbCommand) (tf : AtaTf) (cdb : Cdb)
    (parms : List U64) : Int × List U64 :=
  if tf.checkCond then
    if cdb[0] ≠ 0x09 ∧ cdb[1] ≠ 0x0c then (0, memsetParms parms)
    else
      let (tf, ok) := unloadCdbAta cdb
      if !ok then (-1, parms)
      else match parseTf tf command drive.info.bit48LBA parms with
        | none => (-1, parms)
        | some parms => (0, parms)
  else (0, memsetParms parms)

/-- The part of `exec_cmd_ata` behind the composite commands. -/
def execCmdAtaTf (drive : DeviceHandle) (driver : Driver Cdb W) : Cmd W :=
  fun command rw data dataLen parms w => do
    let (tf, parms) ← getTf command drive.info.bit48LBA parms
    match tf with
    | none => some ⟨-1, data.getD [], parms, w⟩
    | some tf =>
      let (reply, w) ← driver ⟨rw, loadCdbAta tf rw, data, dataLen⟩ w
      if reply.rc ≠ 0 then some ⟨-1, reply.data, parms, w⟩
      else
        let (rc, parms) := checkCdbAta drive command tf reply.cdb parms
        some ⟨rc, reply.data, parms, w⟩

/-- `memset( tdata, 0, sizeof( tdata ) )`. -/
def zeroed : List Byte := List.replicate 512 0

/-- A composite command that reads one page into `tdata` and answers from it. -/
def withPage (send : Cmd W) (page : CdbCommand) (data : Option (List Byte)) (parms : List U64)
    (w : W) (answer : List Byte → W → Option (Exec W)) : Option (Exec W) := do
  let r ← send page .read (some zeroed) 512 [] w
  if r.rc ≠ 0 then some ⟨-1, data.getD [], parms, r.world⟩ else answer r.data r.world

/-- The self-test state in byte 363 of the SMART values. -/
def selfTestState (b : Byte) : U64 :=
  let u (b : Byte) : U64 := b.setWidth 64
  let code := (b &&& 0xf0) >>> 4
  if code = 0x00 then SELFTEST_COMPLETE
  else if code = 0x01 then SELFTEST_HOST_ABBORTED
  else if code = 0x02 then SELFTEST_HOST_INTERRUPTED
  else if 0x03 ≤ code ∧ code ≤ 0x08 then SELFTEST_FAILED ||| u code
  -- the percentage is an `int`: a nibble above 10 makes it negative
  else if code = 0x0f then SELFTEST_PER_COMPLETE ||| (100 - u (b &&& 0x0f) * 10)
  else SELFTEST_UNKNOWN ||| u b

/-- `CMD_SELF_TEST_STATUS`. -/
def ataSelfTestStatus (send : Cmd W) (data : Option (List Byte)) (parms : List U64) (w : W) :
    Option (Exec W) :=
  match parms with
  | [_] => withPage send .ataSelfTestStatus data parms w fun tdata w =>
    some ⟨0, data.getD [], [selfTestState (tdata.getD 363 0)], w⟩
  | _ => some ⟨-1, data.getD [], parms, w⟩

/-- The subcommand for a requested test, `none` for one the drive has not. -/
def selfTestCode (p : U64) (caps : Byte) : Option U64 :=
  if p = SELFTEST_ABORT then some 0x7f
  else if p = SELFTEST_OFFLINE then some 0x00
  else do
    let code ←
      if p &&& 0x0f = SELFTEST_CONVEYANCE ∧ caps &&& 0x20 ≠ 0 then some (0x03 : U64)
      else if p &&& 0x0f = SELFTEST_EXTENDED ∧ caps &&& 0x10 ≠ 0 then some 0x02
      else if p &&& 0x0f = SELFTEST_SHORT ∧ caps &&& 0x10 ≠ 0 then some 0x01
      else none
    some (if p &&& 0xf0 = SELFTEST_CAPTIVE then code ||| 0x80 else code)

/-- `CMD_START_SELF_TEST`. -/
def ataStartSelfTest (send : Cmd W) (data : Option (List Byte)) (parms : List U64) (w : W) :
    Option (Exec W) :=
  match parms with
  | [p] => withPage send .ataSelfTestStatus data parms w fun tdata w =>
    let caps := tdata.getD 367 0
    if caps &&& 0x01 = 0 then some ⟨-1, data.getD [], parms, w⟩
    else match selfTestCode p caps with
      | none => some ⟨-1, data.getD [], parms, w⟩
      | some code => do
        let r ← send .ataSelfTestStart .none none 0 [code] w
        some ⟨if r.rc ≠ 0 then -1 else 0, data.getD [], parms, r.world⟩
  | _ => some ⟨-1, data.getD [], parms, w⟩

/-- `CMD_SMART_LOG_COUNT`. -/
def ataSmartLogCount (send : Cmd W) (data : Option (List Byte)) (parms : List U64) (w : W) :
    Option (Exec W) :=
  match parms with
  | [_] => withPage send .ataSmartLogCount data parms w fun tdata w =>
    let b (i : Nat) : U64 := (tdata.getD i 0).setWidth 64
    some ⟨0, data.getD [],
      [if tdata.getD 1 0 ≠ 0 then b 453 <<< 8 ||| b 452 else 0], w⟩
  | _ => some ⟨-1, data.getD [], parms, w⟩

/-- The SCT WRITE SAME key page of `CMD_WRITESAME`. -/
def sctWriteSamePage (start count value : U64) : List Byte :=
  poke zeroed 0 ([0x02, 0x00, 0x01, 0x00] ++ leBytes 8 start ++ leBytes 8 count ++
    leBytes 4 value)

/-- `CMD_WRITESAME`. -/
def ataWriteSame (send : Cmd W) (data : Option (List Byte)) (parms : List U64) (w : W) :
    Option (Exec W) :=
  match parms with
  | [start, count, value] => do
    let r ← send .ataWriteSame .write (some (sctWriteSamePage start count value)) 512 [] w
    some ⟨if r.rc ≠ 0 then -1 else 0, data.getD [], parms, r.world⟩
  | _ => some ⟨-1, data.getD [], parms, w⟩

/-! ## `CMD_TRIM` -/

/-- The variables of a trim loop: the buffer filled up to `i`, and what is left. -/
structure TrimBuf where
  i : Nat
  tdata : List Byte
  pos : U64
  length : U64

/-- The range entry stored at `i`. -/
def ataTrimEntry (s : TrimBuf) : List Byte :=
  leBytes 6 s.pos ++ leBytes 2 (if s.length < 0xffff then s.length else 0xffff)

/-- One turn of the loop that fills the buffer. -/
def ataTrimFill (s : TrimBuf) : Option (Turn TrimBuf TrimBuf) :=
  if s.i + 8 < 512 then
    let tdata := poke s.tdata s.i (ataTrimEntry s)
    if s.length ≤ 0xffff then some (.stop { s with i := s.i + 8, tdata, length := 0 })
    else some (.next ⟨s.i + 8, tdata, s.pos + 0xffff, s.length - 0xffff⟩)
  else some (.stop s)

/-- One turn of the loop that sends the buffers. -/
def ataTrimSend (send : Cmd W) (fuel : Nat) (s : TrimBuf × W) :
    Option (Turn (TrimBuf × W) (Int × W)) :=
  if s.1.length = 0 then some (.stop (0, s.2))
  else do
    let b ← run ataTrimFill fuel { s.1 with i := 0 }
    let r ← send .ataTrim .write (some b.tdata) 512 [] s.2
    some (if r.rc ≠ 0 then .stop (-1, r.world) else .next ({ b with tdata := r.data }, r.world))

/-- `CMD_TRIM`. -/
def ataTrim (send : Cmd W) (fuel : Nat) (drive : DeviceHandle) (data : Option (List Byte))
    (parms : List U64) (w : W) : Option (Exec W) :=
  match parms with
  | [start, count] => do
    let length := if count = 0 then drive.info.LBACount - start else count
    let (rc, w) ← run (ataTrimSend send fuel) fuel (⟨0, zeroed, start, length⟩, w)
    some ⟨rc, data.getD [], parms, w⟩
  | _ => some ⟨-1, data.getD [], parms, w⟩

/-- `exec_cmd_ata`, without `CMD_SMART_ATTRIBS`, whose buffer is a `struct smart_attribs`
(`ataSmartAttribs`). -/
def execCmdAta (fuel : Nat) (drive : DeviceHandle) (driver : Driver Cdb W) : Cmd W :=
  fun command rw data dataLen parms w =>
    let send := execCmdAtaTf drive driver
    match command with
    | .smartAttribs => none
    | .selfTestStatus => ataSelfTestStatus send data parms w
    | .startSelfTest => ataStartSelfTest send data parms w
    | .smartLogCount => ataSmartLogCount send data parms w
    | .writeSame => ataWriteSame send data parms w
    | .trim => ataTrim send fuel drive data parms w
    | command => send command rw data dataLen parms w

end exec

end Drive
