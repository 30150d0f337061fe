import Disks.Drive.Disk
import Disks.Drive.Wire

/-!
# What a read or write command addresses

`encodeRw` is the encoder behind `readLBA` and `writeLBA` in each addressing mode (`readLBA_sent`,
`writeLBA_sent`), `decodeRw` what a device makes of its command block.

* `decodeRw_ata28`, `decodeRw_ata48`, `decodeRw_scsi`: the address and the length a device reads,
  for every address and every length that is accepted.
* `addressed_iff`: **exactly when they are the ones asked for.** The 28-bit encoder leaves the
  device nibble empty, neither ATA encoder checks the address, and a length of 0 is accepted.
-/

namespace Drive

open Bytes

/-- The addressing modes. -/
inductive RwMode
  | ata28 | ata48 | scsi
deriving DecidableEq, Repr

def rwCommand (write : Bool) : CdbCommand := if write then .write else .read

def rwDirection (write : Bool) : CdbRw := if write then .write else .read

/-- The command block for the parameters `[LBA, count, DMA, FUA]`, `none` for a refused command. -/
def encodeRw (mode : RwMode) (write : Bool) (parms : List U64) : Option Cdb :=
  match mode with
  | .scsi => loadCdbScsi (rwCommand write) parms
  | mode => do
    let (tf, _) ← getTf (rwCommand write) (mode = .ata48) parms
    (loadCdbAta · (rwDirection write)) <$> tf

/-- The transfer a device performs. -/
def decodeRw (mode : RwMode) (cdb : Cdb) : Option Access :=
  match mode with
  | .scsi => Access.ofSbc cdb
  | _ => Access.ofAta cdb

/-! ## Registers -/

theorem le_byteAt3 (x : U64) : le [byteAt x 0, byteAt x 1, byteAt x 2] = x.toNat % 2 ^ 24 :=
  le_leBytes 3 x

theorem le_byteAt6 (x : U64) :
    le [byteAt x 0, byteAt x 1, byteAt x 2, byteAt x 3, byteAt x 4, byteAt x 5] =
      x.toNat % 2 ^ 48 :=
  le_leBytes 6 x

theorem le_byteAt2 (x : U64) : le [byteAt x 0, byteAt x 1] = x.toNat % 2 ^ 16 :=
  le_leBytes 2 x

/-! ## Command blocks -/

/-- The operation code of a 28-bit command. -/
def rwOp28 (write dma : Bool) : Byte :=
  if write then if dma then ATA_OP_WRITE_DMA else ATA_OP_WRITE_PIO
  else if dma then ATA_OP_READ_DMA else ATA_OP_READ_PIO

/-- The operation code of a 48-bit command. -/
def rwOp48 (write dma : Bool) : Byte :=
  if write then if dma then ATA_OP_WRITE_DMA_EXT else ATA_OP_WRITE_PIO_EXT
  else if dma then ATA_OP_READ_DMA_EXT else ATA_OP_READ_PIO_EXT

/-- The protocol of `load_cdb_ata`, shifted into its field. -/
def rwProto (write dma : Bool) : Byte :=
  if write then if dma then 0x16 else 0x0a else if dma then 0x14 else 0x08

def rwFlags (write : Bool) : Byte := if write then 0x06 else 0x0e

theorem encodeRw_ata28 (write : Bool) (lba dma fua : U64) {count : U64} (h : ¬ count > 0xff) :
    encodeRw .ata28 write [lba, count, dma, fua] = some #v[0x85, rwProto write (dma ≠ 0),
      rwFlags write, 0, 0, 0, count.setWidth 8, 0, byteAt lba 0, 0, byteAt lba 1, 0, byteAt lba 2,
      0x40, rwOp28 write (dma ≠ 0), 0] := by
  by_cases hd : dma = 0
  · subst hd
    cases write <;> simp only [encodeRw, rwCommand, getTf, rwTf, if_neg h] <;> rfl
  · cases write <;> simp only [encodeRw, rwCommand, getTf, rwTf, if_neg h, ne_eq, hd] <;> rfl

theorem encodeRw_ata48 (write : Bool) (lba dma fua : U64) {count : U64} (h : ¬ count > 0xffff) :
    encodeRw .ata48 write [lba, count, dma, fua] = some #v[0x85, rwProto write (dma ≠ 0) ||| 0x01,
      rwFlags write, 0, 0, byteAt count 1, byteAt count 0, byteAt lba 3, byteAt lba 0,
      byteAt lba 4, byteAt lba 1, byteAt lba 5, byteAt lba 2, 0x40, rwOp48 write (dma ≠ 0), 0] := by
  by_cases hd : dma = 0
  · subst hd
    cases write <;> simp only [encodeRw, rwCommand, getTf, rwTf, if_neg h] <;> rfl
  · cases write <;> simp only [encodeRw, rwCommand, getTf, rwTf, if_neg h, ne_eq, hd] <;> rfl

/-- A length that does not fit the sector count register is refused. -/
theorem encodeRw_ata28_refused (write : Bool) (lba dma fua : U64) {count : U64}
    (h : count > 0xff) : encodeRw .ata28 write [lba, count, dma, fua] = none := by
  cases write <;> simp only [encodeRw, rwCommand, getTf, rwTf, if_pos h] <;> rfl

theorem encodeRw_ata48_refused (write : Bool) (lba dma fua : U64) {count : U64}
    (h : count > 0xffff) : encodeRw .ata48 write [lba, count, dma, fua] = none := by
  cases write <;> simp only [encodeRw, rwCommand, getTf, rwTf, if_pos h] <;> rfl

/-! ## What a device reads -/

/-- 28-bit commands: the low 24 bits of the address, and 256 blocks for a length of 0. -/
theorem ofAta_rw28 (write dma : Bool) (lba count : U64) :
    Access.ofAta #v[0x85, rwProto write dma, rwFlags write, 0, 0, 0, count.setWidth 8, 0,
      byteAt lba 0, 0, byteAt lba 1, 0, byteAt lba 2, 0x40, rwOp28 write dma, 0] =
      some ⟨write, lba.toNat % 2 ^ 24,
        if (count.setWidth 8).toNat = 0 then 256 else (count.setWidth 8).toNat⟩ := by
  rw [← le_byteAt3]
  cases write <;> cases dma <;>
    simp [Access.ofAta, Cdb.byte, rwOp28, rwProto, rwFlags, ATA_OP_WRITE_DMA, ATA_OP_WRITE_PIO,
      ATA_OP_READ_DMA, ATA_OP_READ_PIO]

/-- 48-bit commands: the low 48 bits of the address, and 65536 blocks for a length of 0. -/
theorem ofAta_rw48 (write dma : Bool) (lba count : U64) :
    Access.ofAta #v[0x85, rwProto write dma ||| 0x01, rwFlags write, 0, 0, byteAt count 1,
      byteAt count 0, byteAt lba 3, byteAt lba 0, byteAt lba 4, byteAt lba 1, byteAt lba 5,
      byteAt lba 2, 0x40, rwOp48 write dma, 0] =
      some ⟨write, lba.toNat % 2 ^ 48,
        if count.toNat % 2 ^ 16 = 0 then 65536 else count.toNat % 2 ^ 16⟩ := by
  rw [← le_byteAt6, ← le_byteAt2]
  cases write <;> cases dma <;>
    simp [Access.ofAta, Cdb.byte, rwOp48, rwProto, rwFlags, ATA_OP_WRITE_DMA_EXT,
      ATA_OP_WRITE_PIO_EXT, ATA_OP_READ_DMA_EXT, ATA_OP_READ_PIO_EXT]

/-- READ (16) and WRITE (16): the whole address, and the low 32 bits of the length. -/
theorem ofSbc_rw (write : Bool) (lba count dma fua : U64) :
    ∃ cdb, encodeRw .scsi write [lba, count, dma, fua] = some cdb ∧
      Access.ofSbc cdb = some ⟨write, lba.toNat, count.toNat % 2 ^ 32⟩ := by
  have hlba : be (beBytes 8 lba) = lba.toNat := be_beBytes_of_lt (by omega)
  have hcount : be (beBytes 4 count) = count.toNat % 2 ^ 32 := be_beBytes 4 count
  rw [← hlba, ← hcount]
  cases write <;> exact ⟨_, rfl, rfl⟩

/-! ## The result -/

/-- The command block, if there is one, is of exactly the blocks asked for. -/
def Addressed (mode : RwMode) (write : Bool) (lba count dma fua : U64) : Prop :=
  ∀ cdb, encodeRw mode write [lba, count, dma, fua] = some cdb →
    decodeRw mode cdb = some ⟨write, lba.toNat, count.toNat⟩

/-- **When a read or write is of the blocks asked for.** -/
theorem addressed_iff (mode : RwMode) (write : Bool) (lba count dma fua : U64) :
    Addressed mode write lba count dma fua ↔ match mode with
      | .ata28 => 0xff < count.toNat ∨ lba.toNat < 2 ^ 24 ∧ 0 < count.toNat
      | .ata48 => 0xffff < count.toNat ∨ lba.toNat < 2 ^ 48 ∧ 0 < count.toNat
      | .scsi => count.toNat < 2 ^ 32 := by
  cases mode with
  | ata28 =>
    by_cases h : count > 0xff
    · have hc : 0xff < count.toNat := h
      simp [Addressed, encodeRw_ata28_refused write lba dma fua h, hc]
    · have hc : ¬ 0xff < count.toNat := h
      have hn : (count.setWidth 8).toNat = count.toNat := by
        rw [BitVec.toNat_setWidth]
        exact Nat.mod_eq_of_lt (by omega)
      simp only [Addressed, encodeRw_ata28 write lba dma fua h, Option.some.injEq, forall_eq',
        decodeRw, ofAta_rw28, Access.mk.injEq, true_and, hn, hc, false_or]
      refine and_congr (by omega) ?_
      split <;> omega
  | ata48 =>
    by_cases h : count > 0xffff
    · have hc : 0xffff < count.toNat := h
      simp [Addressed, encodeRw_ata48_refused write lba dma fua h, hc]
    · have hc : ¬ 0xffff < count.toNat := h
      simp only [Addressed, encodeRw_ata48 write lba dma fua h, Option.some.injEq, forall_eq',
        decodeRw, ofAta_rw48, Access.mk.injEq, true_and, hc, false_or]
      refine and_congr (by omega) ?_
      split <;> omega
  | scsi =>
    obtain ⟨cdb, hcdb, hdec⟩ := ofSbc_rw write lba count dma fua
    simp only [Addressed, hcdb, Option.some.injEq, forall_eq', decodeRw, hdec, Access.mk.injEq,
      true_and]
    omega

/-- One block at address `2 ^ 24` of a 28-bit drive: the device reads block 0. -/
theorem addressed_truncates : ¬ Addressed .ata28 false 0x1000000 1 0 0 := by
  intro h
  have hd : Access.ofAta _ = _ := h _ (encodeRw_ata28 false 0x1000000 0 0 (by decide))
  rw [ofAta_rw28] at hd
  exact absurd hd (by decide)

/-! ## Behind `readLBA` and `writeLBA` -/

/-- `drive->cmd` in each mode. -/
def execCmdRw {W : Type} (mode : RwMode) (fuel : Nat) (drive : DeviceHandle)
    (driver : Driver Cdb W) : Cmd W :=
  match mode with
  | .scsi => execCmdScsi fuel drive driver
  | _ => execCmdAta fuel drive driver

/-- The mode a drive is in. -/
def DeviceHandle.HasMode (drive : DeviceHandle) : RwMode → Prop
  | .ata28 => drive.info.bit48LBA = false
  | .ata48 => drive.info.bit48LBA = true
  | .scsi => True

theorem execCmdAtaTf_sent {drive : DeviceHandle} {command : CdbCommand} {parms ps : List U64}
    {tf : Option AtaTf} (h : getTf command drive.info.bit48LBA parms = some (tf, ps))
    (d : Device Cdb) (rw : CdbRw) (data : Option (List Byte)) (len : Nat) :
    ∃ r, execCmdAtaTf drive d.driver command rw data len parms [] = some r ∧
      r.world.sent.map Request.cdb = (tf.map (loadCdbAta · rw)).toList ∧
      (tf = none → r.rc = -1) := by
  simp only [execCmdAtaTf, h, Option.bind_eq_bind, Option.bind_some]
  cases tf with
  | none => exact ⟨_, rfl, rfl, fun _ => rfl⟩
  | some tf =>
    simp only [Device.driver, Option.bind_some]
    split
    · exact ⟨_, rfl, rfl, fun h => by cases h⟩
    · exact ⟨_, rfl, rfl, fun h => by cases h⟩

theorem execCmdScsiCdb_sent {command : CdbCommand} {parms : List U64} {cdb : Option Cdb}
    (h : loadCdbScsi command parms = cdb) (d : Device Cdb) (rw : CdbRw)
    (data : Option (List Byte)) (len : Nat) :
    ∃ r, execCmdScsiCdb d.driver command rw data len parms [] = some r ∧
      r.world.sent.map Request.cdb = cdb.toList ∧ (cdb = none → r.rc = -1) := by
  simp only [execCmdScsiCdb, h]
  cases cdb with
  | none => exact ⟨_, rfl, rfl, fun _ => rfl⟩
  | some cdb =>
    simp only [Device.driver, Option.bind_eq_bind, Option.bind_some]
    split
    · exact ⟨_, rfl, rfl, fun h => by cases h⟩
    · exact ⟨_, rfl, rfl, fun h => by cases h⟩

theorem getTf_rw (write ext : Bool) (lba count dma fua : U64) :
    ∃ tf, getTf (rwCommand write) ext [lba, count, dma, fua] =
      some (tf, [lba, count, dma, fua]) := by
  cases write <;> exact ⟨_, rfl⟩

/-- A read or write sends the encoder's command block and no other, and fails without one. -/
theorem execCmdRw_sent {mode : RwMode} {drive : DeviceHandle} (hmode : drive.HasMode mode)
    (fuel : Nat) (d : Device Cdb) (write : Bool) (buff : List Byte) (len : Nat)
    (lba count dma fua : U64) :
    ∃ r, execCmdRw mode fuel drive d.driver (rwCommand write) (rwDirection write) (some buff) len
        [lba, count, dma, fua] [] = some r ∧
      r.world.sent.map Request.cdb = (encodeRw mode write [lba, count, dma, fua]).toList ∧
      (encodeRw mode write [lba, count, dma, fua] = none → r.rc = -1) := by
  obtain ⟨tf, htf⟩ := getTf_rw write drive.info.bit48LBA lba count dma fua
  have hata := execCmdAtaTf_sent htf d (rwDirection write) (some buff) len
  have hexec : execCmdAta fuel drive d.driver (rwCommand write) =
      execCmdAtaTf drive d.driver (rwCommand write) := by cases write <;> rfl
  cases mode with
  | ata28 =>
    rw [show drive.info.bit48LBA = false from hmode] at htf
    have henc : encodeRw .ata28 write [lba, count, dma, fua] =
        tf.map (loadCdbAta · (rwDirection write)) := by simp [encodeRw, htf]
    rw [henc]
    simpa [execCmdRw, hexec] using hata
  | ata48 =>
    rw [show drive.info.bit48LBA = true from hmode] at htf
    have henc : encodeRw .ata48 write [lba, count, dma, fua] =
        tf.map (loadCdbAta · (rwDirection write)) := by simp [encodeRw, htf]
    rw [henc]
    simpa [execCmdRw, hexec] using hata
  | scsi =>
    have hscsi : execCmdScsi fuel drive d.driver (rwCommand write) =
        execCmdScsiCdb d.driver (rwCommand write) := by cases write <;> rfl
    rw [execCmdRw, hscsi]
    exact execCmdScsiCdb_sent rfl d _ _ _

theorem readLBA_sent {mode : RwMode} {drive : DeviceHandle} (hmode : drive.HasMode mode)
    (fuel : Nat) (d : Device Cdb) (dma fua lba : U64) (count : U16) (buff : List Byte) :
    ∃ rc data log, readLBA drive (execCmdRw mode fuel drive d.driver) dma fua lba count buff [] =
        some (rc, data, log) ∧
      log.sent.map Request.cdb =
        (encodeRw mode false [lba, count.setWidth 64, dma, fua]).toList ∧
      (encodeRw mode false [lba, count.setWidth 64, dma, fua] = none → rc = -1) := by
  obtain ⟨r, hr, hsent, hrc⟩ := execCmdRw_sent hmode fuel d false buff
    (count.toNat * drive.info.LogicalSectorSize) lba (count.setWidth 64) dma fua
  refine ⟨if r.rc = -1 then -1 else 0, r.data, r.world, ?_, hsent, fun h => by rw [if_pos (hrc h)]⟩
  rw [readLBA, show CdbCommand.read = rwCommand false from rfl,
    show CdbRw.read = rwDirection false from rfl, hr]
  rfl

theorem writeLBA_sent {mode : RwMode} {drive : DeviceHandle} (hmode : drive.HasMode mode)
    (fuel : Nat) (d : Device Cdb) (dma fua lba : U64) (count : U16) (buff : List Byte) :
    ∃ rc log, writeLBA drive (execCmdRw mode fuel drive d.driver) dma fua lba count buff [] =
        some (rc, log) ∧
      log.sent.map Request.cdb =
        (encodeRw mode true [lba, count.setWidth 64, dma, fua]).toList ∧
      (encodeRw mode true [lba, count.setWidth 64, dma, fua] = none → rc = -1) := by
  obtain ⟨r, hr, hsent, hrc⟩ := execCmdRw_sent hmode fuel d true buff
    (count.toNat * drive.info.LogicalSectorSize) lba (count.setWidth 64) dma fua
  refine ⟨if r.rc = -1 then -1 else 0, r.world, ?_, hsent, fun h => by rw [if_pos (hrc h)]⟩
  rw [writeLBA, show CdbCommand.write = rwCommand true from rfl,
    show CdbRw.write = rwDirection true from rfl, hr]
  rfl

end Drive
