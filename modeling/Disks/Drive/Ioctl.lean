import Disks.Drive.Ata
import Disks.Drive.Transport

/-!
# What the transports hand to the kernel (`sgio.c`, `sat.c`, `ide.c`, `lsi.c`)

Each `driver_cmd` makes the request of an `ioctl` from a command block, a direction and a buffer,
and makes a reply from what the `ioctl` leaves. A transport (`Interface`) is these two halves, with
the fields of its request that stand for the command block, the direction and the data.

* `sgio`, `sat`, `ide`, `megasas`: the transports.
* `Interface.driver`: a transport with a kernel.
* `sgio_driver`, `sat_driver`: the drivers of `Disks.Drive.Transport` are those of `sgio` and `sat`.
-/

namespace Drive

open Bytes

/-- What a driver reads of `struct device_handle`, its timeout, and the first word that
`HDIO_GET_IDENTITY` gives, where it gives one. -/
structure Link where
  protocol : ProtocolType
  port : U32
  hba : U32
  timeout : U32
  identity : Option U16

/-- A transport: the request it hands to the kernel (none where it rejects the call), and its reply
from what the kernel leaves; then what a request has of a byte of the command block, which bytes it
is about, its direction, its data, and what the kernel returned. -/
structure Interface where
  Handed : Type
  Answer : Type
  handed : Link → Request Cdb → Option Handed
  reply : Request Cdb → Handed → Answer → Option (Reply Cdb)
  byte : Handed → Fin 16 → Byte
  Carried : Fin 16 → Prop
  direction : Handed → CdbRw
  out : Handed → List Byte
  returned : Handed → Answer → List Byte

/-- A transport with a kernel. -/
def Interface.driver (t : Interface) {W : Type} (link : Link)
    (ioctl : t.Handed → W → t.Answer × W) : Driver Cdb W := fun req w =>
  match t.handed link req with
  | none => some (⟨-1, req.cdb, req.data.getD []⟩, w)
  | some handed => do
    let (answer, w) := ioctl handed w
    let reply ← t.reply req handed answer
    some (reply, w)

/-! ## SG_IO -/

inductive SgDirection
  | SG_DXFER_NONE
  | SG_DXFER_TO_DEV
  | SG_DXFER_FROM_DEV
deriving DecidableEq

/-- `struct sg_io_hdr`; the command block is at `cmdp`. -/
structure SgIoHdr where
  interface_id : Char := 'S'
  cmdp : Cdb
  mx_sb_len : Nat := 32
  dxfer_direction : SgDirection
  dxfer_len : Nat
  dxferp : Option (List Byte)
  timeout : U32

/-- `io_hdr` of `sgio_cmd`. -/
def sgIoHdr (link : Link) (req : Request Cdb) : SgIoHdr where
  cmdp := req.cdb
  dxfer_direction :=
    if req.data.isSome then
      if req.rw = .write then .SG_DXFER_TO_DEV else .SG_DXFER_FROM_DEV
    else .SG_DXFER_NONE
  dxfer_len := if req.data.isSome then req.dataLen else 0
  dxferp := req.data
  timeout := link.timeout * 1000

/-- The direction of a request; one without bytes has none. -/
def SgIoHdr.direction (hdr : SgIoHdr) : CdbRw :=
  if hdr.dxfer_len = 0 then .none
  else
    match hdr.dxfer_direction with
    | .SG_DXFER_NONE => .none
    | .SG_DXFER_TO_DEV => .write
    | .SG_DXFER_FROM_DEV => .read

/-- The transport of `sgio_cmd`; the kernel returns the data in the buffer at `dxferp`. -/
def sgio : Interface where
  Handed := SgIoHdr
  Answer := SgIo
  handed link req := some (sgIoHdr link req)
  reply req _ io := sgioReply req io
  byte hdr i := hdr.cmdp.byte i
  Carried _ := True
  direction := SgIoHdr.direction
  out hdr := hdr.dxferp.getD []
  returned _ io := io.data

/-! ## SAT -/

/-- `struct linux_ioctl_send_command`. Of the two words in front the kernel takes the first for the
number of bytes to write to the device, and the second for the number of bytes to read from it. -/
structure SendCommand where
  inbufsize : Nat
  outbufsize : Nat
  cdb : Cdb
  data : List Byte

/-- `cmd` of `sat_cmd`. -/
def sendCommand (req : Request Cdb) : SendCommand :=
  let zeros := List.replicate MAX_DXFER_LEN 0
  match req.rw, req.data with
  | .read, some _ => ⟨req.dataLen, 0, req.cdb, zeros⟩
  | .write, some data =>
    ⟨0, req.dataLen, req.cdb, data.take req.dataLen ++ zeros.drop req.dataLen⟩
  | _, _ => ⟨0, 0, req.cdb, zeros⟩

/-- The direction of a request. -/
def SendCommand.direction (cmd : SendCommand) : CdbRw :=
  if cmd.inbufsize ≠ 0 then .write else if cmd.outbufsize ≠ 0 then .read else .none

/-- The length of a command, by the group of its code. -/
def commandSize (cdb : Cdb) : Nat :=
  [6, 10, 10, 12, 16, 12, 10, 10].getD ((cdb.byte 0).toNat / 32) 16

/-- The transport of `sat_cmd`. The kernel takes the bytes to write from behind the command, and
returns those that were read in the place of the command. -/
def sat : Interface where
  Handed := SendCommand
  Answer := SatIo
  handed _ req := if req.dataLen > MAX_DXFER_LEN then none else some (sendCommand req)
  reply req _ io := satReply req io
  byte cmd i := cmd.cdb.byte i
  Carried _ := True
  direction := SendCommand.direction
  out cmd := ((cmd.cdb.toList ++ cmd.data).drop (commandSize cmd.cdb)).take cmd.inbufsize
  returned cmd io := (io.cdb.toList ++ io.data).take cmd.outbufsize

/-! ## IDE -/

def HDIO_DRIVE_CMD_OFFSET : Nat := 4
def HDIO_DRIVE_TASK_OFFSET : Nat := 7
def BUFFER_LENGTH : Nat := HDIO_DRIVE_TASK_OFFSET + 512
def ATA_IDENTIFY_PACKET_DEVICE : Byte := 0xa1

/-- The `ioctl`: `HDIO_DRIVE_TASK` or `HDIO_DRIVE_CMD`. -/
inductive IdeType
  | ATA_TASK
  | ATA_CMD
deriving DecidableEq

structure IdeRequest where
  type : IdeType
  buff : List Byte

/-- `buff` with its first bytes set. -/
def ideBuff (regs : List Byte) : List Byte :=
  regs ++ List.replicate (BUFFER_LENGTH - regs.length) 0

/-- A task of the seven registers of a command block. -/
def ideTask (cdb : Cdb) : IdeRequest :=
  ⟨.ATA_TASK, ideBuff [cdb.byte 14, cdb.byte 4, cdb.byte 6, cdb.byte 8, cdb.byte 10, cdb.byte 12,
    cdb.byte 13]⟩

/-- The command code for IDENTIFY: a device that is a packet device has another one. -/
def identifyCommand (identity : Option U16) : Byte :=
  if identity.any (fun id => id &&& 0x8000 ≠ 0) then ATA_IDENTIFY_PACKET_DEVICE
  else ATA_OP_IDENTIFY

/-- The request of `ide_cmd`. -/
def ideRequest (link : Link) (req : Request Cdb) : Option IdeRequest :=
  let cdb := req.cdb
  if link.protocol ≠ .ata ∨ cdb.byte 0 ≠ ATA_16 then none
  else if req.dataLen ≠ 0 ∧ req.dataLen ≠ 512 then none
  else if cdb.byte 14 = ATA_OP_IDENTIFY then
    some ⟨.ATA_CMD, ideBuff [identifyCommand link.identity, 0, 0, 1]⟩
  else if cdb.byte 14 = ATA_OP_READ_NATIVE_MAX then some (ideTask cdb)
  else if cdb.byte 14 = ATA_OP_SMART then
    if req.rw = .read ∨ req.rw = .write then
      some ⟨.ATA_CMD, ideBuff [cdb.byte 14, cdb.byte 8, cdb.byte 4, cdb.byte 6]⟩
    else some (ideTask cdb)
  else none

/-- What the `ioctl` returns and leaves in `buff`. -/
structure IdeIo where
  rc : Int := 0
  buff : List Byte

def IdeIo.byte (io : IdeIo) (i : Nat) : Byte := io.buff.getD i 0

/-- `ide_cmd` behind the `ioctl`. -/
def ideReply (req : Request Cdb) (type : IdeType) (io : IdeIo) : Reply Cdb :=
  let data := req.data.getD []
  match type with
  | .ATA_TASK =>
    if io.rc ≠ 0 ∨ io.byte 1 ≠ 0 then ⟨-1, req.cdb, data⟩
    else
      ⟨0, #v[0x09, 0x0c, 0, 0, 0, io.byte 2, 0, io.byte 3, 0, io.byte 4, 0, io.byte 5, io.byte 6,
        0, 0, 0], data⟩
  | .ATA_CMD =>
    if io.rc ≠ 0 then ⟨-1, req.cdb, data⟩
    else
      ⟨0, #v[0x09, 0x0c, 0, 0, 0, io.byte 2, 0, 0, 0, 0, 0, 0, 0, 0, 0, 0],
        if req.rw = .read then (io.buff.drop HDIO_DRIVE_CMD_OFFSET).take req.dataLen else data⟩

/-- Where `buff` has a byte of the command block. -/
def ideIndex : IdeType → Fin 16 → Option Nat
  | .ATA_TASK, 14 => some 0
  | .ATA_TASK, 4 => some 1
  | .ATA_TASK, 6 => some 2
  | .ATA_TASK, 8 => some 3
  | .ATA_TASK, 10 => some 4
  | .ATA_TASK, 12 => some 5
  | .ATA_TASK, 13 => some 6
  | .ATA_CMD, 14 => some 0
  | .ATA_CMD, 8 => some 1
  | .ATA_CMD, 4 => some 2
  | .ATA_CMD, 6 => some 3
  | _, _ => none

/-- What the kernel puts into the registers that have no place in `buff`, by the command. -/
abbrev IdeFill := IdeType → Byte → Fin 16 → Byte

/-- The register for a byte of the command block. -/
def IdeRequest.register (fill : IdeFill) (request : IdeRequest) (i : Fin 16) : Byte :=
  match ideIndex request.type i with
  | some j => request.buff.getD j 0
  | none => fill request.type (request.buff.getD 0 0) i

/-- A task has no data, and a command returns as many sectors as its sector count says. -/
def IdeRequest.direction (request : IdeRequest) : CdbRw :=
  match request.type with
  | .ATA_TASK => .none
  | .ATA_CMD => if request.buff.getD 3 0 = 0 then .none else .read

/-- The transport of `ide_cmd`; the bytes of the command block from 3 to 14 are the registers. -/
def ide (fill : IdeFill) : Interface where
  Handed := IdeRequest
  Answer := IdeIo
  handed := ideRequest
  reply req request io := some (ideReply req request.type io)
  byte := IdeRequest.register fill
  Carried i := 3 ≤ i.val ∧ i.val ≤ 14
  direction := IdeRequest.direction
  out _ := []
  returned _ io := (io.buff.drop HDIO_DRIVE_CMD_OFFSET).take 512

/-! ## MegaSAS -/

def MFI_CMD_PD_SCSI_IO : Byte := 0x04
def MFI_CMD_STATUS_POLL_MODE : Byte := 0xff
def MFI_FRAME_DIR_READ : U16 := 0x10
def MFI_STAT_DEVICE_NOT_FOUND : Byte := 0x0c
def MFI_STAT_SCSI_IO_FAILED : Byte := 0x2e

/-- `struct megasas_iocpacket` with the fields of its `struct megasas_pthru_frame`; the buffer is at
`iov_base`. -/
structure MegasasIocpacket where
  host_no : U16
  cmd : Byte
  cmd_status : Byte
  target_id : Byte
  cdb_len : Byte
  timeout : U16
  flags : U16
  sge_count : Nat
  data_xfer_len : Nat
  cdb : Cdb
  iov_base : Option (List Byte)
  iov_len : Nat

/-- `uio` of `lsi_megasas_cmd`. -/
def megasasIocpacket (link : Link) (req : Request Cdb) : MegasasIocpacket where
  host_no := link.hba.setWidth 16
  cmd := MFI_CMD_PD_SCSI_IO
  cmd_status := MFI_CMD_STATUS_POLL_MODE
  target_id := link.port.setWidth 8
  cdb_len := 16
  timeout := link.timeout.setWidth 16
  flags := MFI_FRAME_DIR_READ
  sge_count := if req.dataLen > 0 then 1 else 0
  data_xfer_len := req.dataLen
  cdb := req.cdb
  iov_base := if req.dataLen > 0 then req.data else none
  iov_len := req.dataLen

/-- What the `ioctl` returns and leaves in `cmd_status` and the buffer. -/
structure MegasasIo where
  rc : Int := 0
  cmd_status : Byte := 0
  data : List Byte

/-- `lsi_megasas_cmd` behind the `ioctl`. -/
def megasasReply (req : Request Cdb) (io : MegasasIo) : Reply Cdb :=
  if io.rc ≠ 0 ∨ io.cmd_status = MFI_STAT_DEVICE_NOT_FOUND ∨
      io.cmd_status = MFI_STAT_SCSI_IO_FAILED then
    ⟨-1, req.cdb, io.data⟩
  else ⟨0, req.cdb, io.data⟩

/-- The direction of a request; one without an element of the scatter list has none. -/
def MegasasIocpacket.direction (uio : MegasasIocpacket) : CdbRw :=
  if uio.sge_count = 0 then .none
  else if uio.flags &&& MFI_FRAME_DIR_READ ≠ 0 then .read
  else .write

/-- The transport of `lsi_megasas_cmd`. -/
def megasas : Interface where
  Handed := MegasasIocpacket
  Answer := MegasasIo
  handed link req :=
    if req.data.isSome ∧ req.dataLen > 512 then none else some (megasasIocpacket link req)
  reply req _ io := some (megasasReply req io)
  byte uio i := uio.cdb.byte i
  Carried _ := True
  direction := MegasasIocpacket.direction
  out uio := uio.iov_base.getD []
  returned _ io := io.data

/-! ## The drivers -/

theorem sgio_driver {W : Type} (link : Link) (ioctl : SgIoHdr → W → SgIo × W) :
    sgio.driver link ioctl = sgioCmd fun req w => ioctl (sgIoHdr link req) w := rfl

theorem sat_driver {W : Type} (link : Link) (ioctl : SendCommand → W → SatIo × W) :
    sat.driver link ioctl = satCmd fun req w => ioctl (sendCommand req) w := by
  funext req w
  by_cases h : req.dataLen > MAX_DXFER_LEN
  · simp [Interface.driver, sat, satCmd, h]
  · simp [Interface.driver, sat, satCmd, h]

end Drive
