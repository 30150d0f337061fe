import Disks.Lib.Span
import Disks.Drive.Nvme

/-!
# What a device reads in a command

The other side of the command encoders: how the standards lay out the commands the library sends.
Nothing here is taken from the library; the proofs compare the two.

* `Access.ofAta`, `Access.ofSbc`: reads and writes, behind ATA PASS-THROUGH (16) and as SBC
  READ (16) and WRITE (16).
* `dsmSpans`: the ranges of an ATA DATA SET MANAGEMENT (TRIM) payload.
* `UnmapList`: an SBC UNMAP parameter list.
* `writeSameNlb`: the number of logical blocks of SBC WRITE SAME (16).
* `nvmeDsm`: the ranges an NVMe Dataset Management command deallocates.
-/

namespace Drive

open Bytes

/-! ## Reads and writes -/

/-- A transfer of `count` blocks from `lba` on. -/
structure Access where
  write : Bool
  lba : Nat
  count : Nat
deriving DecidableEq, Repr

/-- The transfer a device performs on a READ or WRITE command behind ATA PASS-THROUGH (16).
The 28-bit commands take LBA bits 27:24 from the device register, the 48-bit commands the high
bytes from the previous contents of the registers, and there a sector count of 0 stands for 256
and for 65536 sectors. `none` for any other command and for a block whose protocol, direction or
length bits do not fit the command. -/
def Access.ofAta (cdb : Cdb) : Option Access :=
  let ext := cdb.byte 1 &&& 0x01 = 0x01
  let proto := (cdb.byte 1 >>> 1).toNat
  -- T_DIR, BYT_BLOK and T_LENGTH
  let input := cdb.byte 2 &&& 0x2f = 0x0e
  let output := cdb.byte 2 &&& 0x2f = 0x06
  let lbaMode := cdb.byte 13 &&& 0x40 = 0x40
  let lba28 := le [cdb.byte 8, cdb.byte 10, cdb.byte 12] + (cdb.byte 13 &&& 0x0f).toNat * 2 ^ 24
  let lba48 := le [cdb.byte 8, cdb.byte 10, cdb.byte 12, cdb.byte 7, cdb.byte 9, cdb.byte 11]
  let count28 := if (cdb.byte 6).toNat = 0 then 256 else (cdb.byte 6).toNat
  let count48 := if le [cdb.byte 6, cdb.byte 5] = 0 then 65536 else le [cdb.byte 6, cdb.byte 5]
  if cdb.byte 0 ≠ 0x85 ∨ ¬ lbaMode then none
  else if ext then
    if (cdb.byte 14 = 0x24 ∧ proto = 4 ∨ cdb.byte 14 = 0x25 ∧ proto = 10) ∧ input then
      some ⟨false, lba48, count48⟩
    else if (cdb.byte 14 = 0x34 ∧ proto = 5 ∨ cdb.byte 14 = 0x35 ∧ proto = 11) ∧ output then
      some ⟨true, lba48, count48⟩
    else none
  else if (cdb.byte 14 = 0x20 ∧ proto = 4 ∨ cdb.byte 14 = 0xc8 ∧ proto = 10) ∧ input then
    some ⟨false, lba28, count28⟩
  else if (cdb.byte 14 = 0x30 ∧ proto = 5 ∨ cdb.byte 14 = 0xca ∧ proto = 11) ∧ output then
    some ⟨true, lba28, count28⟩
  else none

/-- The transfer of a READ (16) or WRITE (16): LBA in bytes 2 to 9, length in bytes 10 to 13. A
length of 0 transfers nothing. -/
def Access.ofSbc (cdb : Cdb) : Option Access :=
  let lba := be (slice cdb.toList 2 8)
  let count := be (slice cdb.toList 10 4)
  if cdb.byte 0 = 0x88 then some ⟨false, lba, count⟩
  else if cdb.byte 0 = 0x8a then some ⟨true, lba, count⟩
  else none

/-! ## Deallocation -/

/-- Blocks `[lba, lba + count)`. -/
def blocks (lba count : Nat) : Span Nat := ⟨lba, lba + count⟩

/-- The blocks a caller asks for on an `N`-block disk: a count of 0 stands for all from `start`. -/
def requested (N start count : Nat) : Span Nat := ⟨start, if count = 0 then N else start + count⟩

/-- A TRIM command of one 512-byte payload block. -/
def isDsmTrim (cdb : Cdb) : Bool :=
  cdb.byte 0 = 0x85 ∧ cdb.byte 14 = 0x06 ∧ cdb.byte 4 &&& 0x01 = 0x01 ∧
    le [cdb.byte 6, cdb.byte 5] = 1

/-- Entry `k` of a DATA SET MANAGEMENT payload: a 48-bit LBA and a 16-bit length, an entry of
length 0 standing for no block. -/
def dsmSpan (payload : List Byte) (k : Nat) : Span Nat :=
  blocks (le (slice payload (8 * k) 6)) (le (slice payload (8 * k + 6) 2))

/-- The entries of a 512-byte payload. -/
def dsmSpans (payload : List Byte) : List (Span Nat) := (List.range 64).map (dsmSpan payload)

/-- The blocks the TRIM commands among a list of requests deallocate. -/
def dsmTrimmed (sent : List (Request Cdb)) : Set Nat :=
  {x | ∃ req ∈ sent, isDsmTrim req.cdb ∧ ∃ payload, req.data = some payload ∧
    x ∈ Span.cover (dsmSpans payload)}

/-- An UNMAP command and its parameter list. -/
structure UnmapList where
  /-- PARAMETER LIST LENGTH of the command block. -/
  listLength : Nat
  /-- UNMAP DATA LENGTH. -/
  dataLength : Nat
  /-- UNMAP BLOCK DESCRIPTOR DATA LENGTH. -/
  descLength : Nat
  /-- The block descriptors. -/
  spans : List (Span Nat)

/-- Block descriptor `k` of an UNMAP parameter list: an 8-byte LBA and a 4-byte number of
blocks. -/
def unmapSpan (list : List Byte) (k : Nat) : Span Nat :=
  blocks (be (slice list (8 + 16 * k) 8)) (be (slice list (16 + 16 * k) 4))

/-- The parameter list of an UNMAP request. -/
def unmapList (req : Request Cdb) : Option UnmapList :=
  match req.data with
  | none => none
  | some list =>
    if req.cdb.byte 0 ≠ 0x42 then none
    else
      let descLength := be (slice list 2 2)
      some {
        listLength := be (slice req.cdb.toList 7 2)
        dataLength := be (slice list 0 2)
        descLength := descLength
        spans := (List.range (descLength / 16)).map (unmapSpan list) }

/-- The block descriptors of all parameter lists among a list of requests. -/
def unmapSpans (sent : List (Request Cdb)) : List (Span Nat) :=
  sent.flatMap fun req => (unmapList req).elim [] UnmapList.spans

/-- Every length field says how many bytes there are: the two in the list count what follows
them, the one in the command block and the transfer length the whole list. -/
structure UnmapList.Consistent (u : UnmapList) (req : Request Cdb) : Prop where
  desc : u.descLength = 16 * u.spans.length
  data : u.dataLength = u.descLength + 6
  list : u.listLength = u.dataLength + 2
  transfer : req.dataLen = u.listLength
  bytes : req.data.map List.length = some req.dataLen

/-- LBA and NUMBER OF LOGICAL BLOCKS of a WRITE SAME (16): bytes 2 to 9 and 10 to 13. -/
def writeSameLba (cdb : Cdb) : Nat := be (slice cdb.toList 2 8)
def writeSameNlb (cdb : Cdb) : Nat := be (slice cdb.toList 10 4)

/-- The blocks of an `N`-block disk a WRITE SAME (16) writes; a number of 0 stands for all blocks
up to the last. -/
def writeSameSpan (N : Nat) (cdb : Cdb) : Span Nat :=
  if writeSameNlb cdb = 0 then ⟨writeSameLba cdb, N⟩
  else ⟨writeSameLba cdb, min (writeSameLba cdb + writeSameNlb cdb) N⟩

/-! ## NVMe -/

/-- Entry `k` of a Dataset Management range list: attributes, length and starting LBA. -/
def nvmeSpan (list : List Byte) (k : Nat) : Span Nat :=
  blocks (le (slice list (16 * k + 8) 8)) (le (slice list (16 * k + 4) 4))

/-- The blocks a request to a controller deallocates in namespace `nsid`: a Dataset Management
command on an I/O queue with the deallocate attribute, whose number of ranges, bits 7:0 of
dword 10, is one less than the ranges in the list. `none` for any other request. -/
def nvmeDsm (nsid : U32) (req : NvmeIoctl) : Option (List (Span Nat)) :=
  match req.data with
  | none => none
  | some list =>
    let ranges := (req.cdb.cdw10 &&& 0xff).toNat + 1
    if req.queue = .ioCmd ∧ req.cdb.opcode = 0x09 ∧ req.cdb.nsid = nsid ∧
        req.cdb.cdw11 &&& 0x04 = 0x04 ∧ req.dataLen = list.length ∧ 16 * ranges ≤ list.length then
      some ((List.range ranges).map (nvmeSpan list))
    else none

end Drive
