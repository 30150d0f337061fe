import Disks.Drive.Device

/-!
# The NVMe protocol (`nvme.c`)

`execCmdNvme` fills a `struct nvme_cdb`, and `nvmeCmd` hands it to the kernel as an
administration command. What reaches the kernel is an `NvmeIoctl`.
-/

namespace Drive

open Bytes

def NVME_OP_AMDIN_GET_LOG_IDENTIFY : Byte := 0x06
def NVME_OP_DS_MANAGMENT : Byte := 0x09
def NVME_DS_MANAGMENT_DEALLOCATE : U32 := 1 <<< 2

/-- `struct nvme_cdb`. -/
structure NvmeCdb where
  opcode : Byte := 0
  nsid : U32 := 0
  cdw10 : U32 := 0
  cdw11 : U32 := 0
  cdw12 : U32 := 0
  cdw13 : U32 := 0
  cdw14 : U32 := 0
  cdw15 : U32 := 0
deriving DecidableEq, Repr

/-- `struct nvme_dsmgnt_range`. -/
structure NvmeDsmgntRange where
  cattr : U32 := 0
  nlba : U32 := 0
  slba : U64 := 0
deriving DecidableEq, Repr

/-- The range as it lies in memory. -/
def NvmeDsmgntRange.bytes (r : NvmeDsmgntRange) : List Byte :=
  leBytes 4 r.cattr ++ leBytes 4 r.nlba ++ leBytes 8 r.slba

/-! ## The kernel interface -/

/-- The two passthrough requests of `linux/nvme_ioctl.h`: to the administration queue, and to an
I/O queue. -/
inductive NvmeQueue
  | adminCmd | ioCmd
deriving DecidableEq, Repr

/-- A passthrough request. -/
structure NvmeIoctl where
  queue : NvmeQueue
  cdb : NvmeCdb
  data : Option (List Byte)
  dataLen : Nat
deriving DecidableEq, Repr

/-- `ioctl` on an NVMe device: what it returns, and what it leaves in the data buffer. -/
abbrev NvmeKernel (W : Type) := NvmeIoctl → W → (Int × List Byte) × W

section exec

variable {W : Type}

/-- `nvme_cmd`. The length of the command block is that of `struct nvme_cdb`. -/
def nvmeCmd (kernel : NvmeKernel W) : Driver NvmeCdb W := fun req w =>
  let ((rc, data), w) := kernel ⟨.adminCmd, req.cdb, req.data, req.dataLen⟩ w
  some (⟨if rc ≠ 0 then -1 else 0, req.cdb, data⟩, w)

/-- `exec_cmd_nvme`, without `CMD_IDENTIFY`, whose buffer is a `struct drive_info` (its strings are
those of `nvmeIdentify`). `CMD_TRIM` reads two parameters whatever their number: with fewer the read
is out of bounds. -/
def execCmdNvme (drive : DeviceHandle) (driver : Driver NvmeCdb W) : Cmd W :=
  fun command rw data _ parms w =>
    let send (cdb : NvmeCdb) (buf : Option (List Byte)) (len : Nat) : Option (Exec W) := do
      let (reply, w) ← driver ⟨rw, cdb, buf, len⟩ w
      some ⟨if reply.rc ≠ 0 then -1 else 0, data.getD [], parms, w⟩
    match command with
    | .identify => none
    | .probe => send { opcode := NVME_OP_AMDIN_GET_LOG_IDENTIFY, nsid := 0, cdw10 := 1 } none 0
    | .trim =>
      if drive.port = 0 then some ⟨-1, data.getD [], parms, w⟩
      else match parms with
        | p0 :: p1 :: _ =>
          let range : NvmeDsmgntRange := { cattr := 0, nlba := p0.setWidth 32, slba := p1 }
          send { opcode := NVME_OP_DS_MANAGMENT, nsid := drive.port, cdw10 := 1,
                 cdw11 := NVME_DS_MANAGMENT_DEALLOCATE } (some range.bytes) range.bytes.length
        | _ => none
    | _ => some ⟨-1, data.getD [], parms, w⟩

end exec

end Drive
