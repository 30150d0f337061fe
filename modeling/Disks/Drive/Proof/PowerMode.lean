import Disks.Drive.Disk

/-!
# What the power mode depends on

Two runs of `getPowerMode` with the same answers of the transport and different contents of the
variable the mode is returned in, which `getPowerMode` does not initialise.

* `getPowerMode_scsi`: a SCSI drive refuses the command.
* `getPowerMode_ata`: the return code as a function of what the transport leaves.
* `getPowerMode_settled_iff`: **the power mode depends on the reply alone exactly when** the reply
  is an error or has a descriptor.
-/

namespace Drive

open Bytes

/-- The power codes of `disk.h`. -/
def powerCodes : List U64 := [POWER_UNKNOWN, POWER_ACTIVE, POWER_SLEEP, POWER_STANDBY, POWER_IDLE]

/-- **A result does not depend on the variable**, and it is -1 or a power code. -/
structure Settled {W : Type} (f : U64 → Option (Int × W)) : Prop where
  same : ∀ mode mode', f mode = f mode'
  code : ∀ mode r w, f mode = some (r, w) → r = -1 ∨ ∃ c ∈ powerCodes, r = c.toInt

/-- CHECK POWER MODE. -/
def checkPowerTf : AtaTf := { command := ATA_OP_CHECK_POWER_MODE, checkCond := true }

def checkPowerCdb : Cdb := loadCdbAta checkPowerTf .none

/-- A descriptor is recognised by one of its first two bytes. -/
def HasDescriptor (cdb : Cdb) : Prop := cdb.byte 0 = 0x09 ∨ cdb.byte 1 = 0x0c

instance (cdb : Cdb) : Decidable (HasDescriptor cdb) := inferInstanceAs (Decidable (_ ∨ _))

/-- The mode in returned registers, -1 for a status with an error and for an unknown mode. -/
def modeOf (cdb : Cdb) : Int :=
  let tf := (unloadCdbAta cdb).1
  if !(unloadCdbAta cdb).2 then -1
  else if tf.lob.nsect = 0x00 then POWER_STANDBY.toInt
  else if tf.lob.nsect = 0x40 ∨ tf.lob.nsect = 0x41 then POWER_ACTIVE.toInt
  else if tf.lob.nsect = 0x80 then POWER_IDLE.toInt
  else if tf.lob.nsect = 0xff then POWER_ACTIVE.toInt
  else -1

theorem modeOf_code (cdb : Cdb) : modeOf cdb = -1 ∨ ∃ c ∈ powerCodes, modeOf cdb = c.toInt := by
  have hcode {c : U64} (hc : c ∈ powerCodes) :
      c.toInt = -1 ∨ ∃ c' ∈ powerCodes, c.toInt = c'.toInt := .inr ⟨c, hc, rfl⟩
  unfold modeOf
  dsimp only
  split
  · exact .inl rfl
  split
  · exact hcode (by simp [powerCodes])
  split
  · exact hcode (by simp [powerCodes])
  split
  · exact hcode (by simp [powerCodes])
  split
  · exact hcode (by simp [powerCodes])
  · exact .inl rfl

section run

variable {W : Type} (fuel : Nat) (drive : DeviceHandle) (driver : Driver Cdb W)

/-- The block behind the check of its first two bytes. -/
theorem checkCdbAta_power (cdb : Cdb) {tf : AtaTf} (hcheck : tf.checkCond = true) (mode : U64) :
    checkCdbAta drive .getPowerState tf cdb [mode] =
      if HasDescriptor cdb then
        if !(unloadCdbAta cdb).2 then (-1, [mode])
        else (parseTf (unloadCdbAta cdb).1 .getPowerState drive.info.bit48LBA [mode]).elim
          (-1, [mode]) fun parms => (0, parms)
      else (0, memsetParms [mode]) := by
  have hno : (cdb.byte 0 ≠ 0x09 ∧ cdb.byte 1 ≠ 0x0c) ↔ ¬ HasDescriptor cdb := not_or.symm
  have h0 : cdb.byte 0 = cdb[0] := by simp [Cdb.byte]
  have h1 : cdb.byte 1 = cdb[1] := by simp [Cdb.byte]
  rw [h0, h1] at hno
  unfold checkCdbAta
  rw [if_pos hcheck]
  by_cases h : HasDescriptor cdb
  · rw [if_neg (mt hno.mp (not_not.mpr h)), if_pos h]
    generalize unloadCdbAta cdb = u
    obtain ⟨tf', ok⟩ := u
    dsimp only
    cases parseTf tf' .getPowerState drive.info.bit48LBA [mode] <;> rfl
  · rw [if_pos (hno.mpr h), if_neg h]

/-- The return code of a block with a descriptor. -/
theorem checkCdbAta_modeOf {cdb : Cdb} (h : HasDescriptor cdb) {tf : AtaTf}
    (hcheck : tf.checkCond = true) (mode : U64) :
    (if (checkCdbAta drive .getPowerState tf cdb [mode]).1 ≠ 0 then -1
      else (((checkCdbAta drive .getPowerState tf cdb [mode]).2.headD 0).setWidth 32).toInt) =
        modeOf cdb := by
  rw [checkCdbAta_power drive cdb hcheck, if_pos h]
  unfold modeOf
  dsimp only
  cases (unloadCdbAta cdb).2 with
  | false => rfl
  | true =>
    generalize (unloadCdbAta cdb).1 = tf
    simp only [parseTf, Bool.not_true, Bool.false_eq_true, if_false]
    split
    · rfl
    split
    · rfl
    split
    · rfl
    split <;> rfl

/-- A SCSI drive is not asked. -/
theorem getPowerMode_scsi (mode : U64) (w : W) :
    getPowerMode (execCmdScsi fuel drive driver) mode w = some (-1, w) := rfl

/-- **The return code for an ATA drive**: the variable shows where there is no descriptor. -/
theorem getPowerMode_ata (mode : U64) (w : W) :
    getPowerMode (execCmdAta fuel drive driver) mode w =
      (driver ⟨.none, checkPowerCdb, none, 0⟩ w).map fun r =>
        (if r.1.rc ≠ 0 then -1
          else if HasDescriptor r.1.cdb then modeOf r.1.cdb
          else ((clearLow 1 mode).setWidth 32).toInt, r.2) := by
  have hexec : execCmdAta fuel drive driver .getPowerState .none none 0 [mode] w =
      (driver ⟨.none, checkPowerCdb, none, 0⟩ w).bind fun r =>
        if r.1.rc ≠ 0 then some ⟨-1, r.1.data, [mode], r.2⟩
        else
          let c := checkCdbAta drive .getPowerState checkPowerTf r.1.cdb [mode]
          some ⟨c.1, r.1.data, c.2, r.2⟩ := rfl
  unfold getPowerMode
  rw [hexec]
  cases driver ⟨.none, checkPowerCdb, none, 0⟩ w with
  | none => rfl
  | some r =>
    simp only [Option.bind_some, Option.map_some, Option.bind_eq_bind]
    by_cases hrc : r.1.rc ≠ 0
    · rw [if_pos hrc, if_pos hrc]
      rfl
    rw [if_neg hrc, if_neg hrc]
    by_cases hdesc : HasDescriptor r.1.cdb
    · rw [if_pos hdesc, ← @checkCdbAta_modeOf drive _ hdesc checkPowerTf rfl mode]
      rfl
    · rw [if_neg hdesc, @checkCdbAta_power drive _ checkPowerTf rfl, if_neg hdesc]
      rfl

/-- **A SCSI drive's power mode** depends on nothing. -/
theorem settled_scsi (w : W) :
    Settled fun mode => getPowerMode (execCmdScsi fuel drive driver) mode w := by
  refine ⟨fun mode mode' => ?_, fun mode r w' h => .inl ?_⟩
  · rw [getPowerMode_scsi, getPowerMode_scsi]
  rw [getPowerMode_scsi] at h
  exact (Prod.mk.inj (Option.some.inj h)).1.symm

/-- **An ATA drive's power mode** depends on the reply alone exactly when the reply is an error or
has a descriptor. -/
theorem settled_ata_iff (w : W) :
    (Settled fun mode => getPowerMode (execCmdAta fuel drive driver) mode w) ↔
      ∀ reply w', driver ⟨.none, checkPowerCdb, none, 0⟩ w = some (reply, w') →
        reply.rc = 0 → HasDescriptor reply.cdb := by
  refine ⟨fun h reply w' hreply hrc => ?_, fun h => ⟨fun mode mode' => ?_, fun mode r w' hr => ?_⟩⟩
  · by_contra hdesc
    have hsame := h.same 0 0x100
    simp only [getPowerMode_ata, hreply, Option.map_some, hrc, hdesc, ne_eq, not_true_eq_false,
      if_false] at hsame
    exact absurd (Prod.mk.inj (Option.some.inj hsame)).1 (by decide)
  · rw [getPowerMode_ata, getPowerMode_ata]
    refine Option.map_congr fun r hr => ?_
    by_cases hrc : r.1.rc = 0
    · rw [if_neg (not_not.mpr hrc), if_neg (not_not.mpr hrc), if_pos (h r.1 r.2 hr hrc),
        if_pos (h r.1 r.2 hr hrc)]
    · rw [if_pos hrc, if_pos hrc]
  · rw [getPowerMode_ata] at hr
    obtain ⟨reply, hreply, heq⟩ := Option.map_eq_some_iff.mp hr
    rw [← (Prod.mk.inj heq).1]
    by_cases hrc : reply.1.rc = 0
    · rw [if_neg (not_not.mpr hrc), if_pos (h reply.1 reply.2 hreply hrc)]
      exact modeOf_code _
    · rw [if_pos hrc]
      exact .inl rfl

/-- **The power mode depends on the reply alone** always for a SCSI drive, and for an ATA drive
exactly when the reply is an error or has a descriptor. -/
theorem getPowerMode_settled_iff (w : W) :
    (Settled fun mode => getPowerMode (execCmdScsi fuel drive driver) mode w) ∧
      ((Settled fun mode => getPowerMode (execCmdAta fuel drive driver) mode w) ↔
        ∀ reply w', driver ⟨.none, checkPowerCdb, none, 0⟩ w = some (reply, w') →
          reply.rc = 0 → HasDescriptor reply.cdb) :=
  ⟨settled_scsi fuel drive driver w, settled_ata_iff fuel drive driver w⟩

end run

/-- A transport that clears the block: SG_IO without sense data. -/
def clearing : Driver Cdb Unit := fun req w => some (⟨0, .replicate 16 0, req.data.getD []⟩, w)

/-- The variable shows in the result: all but its lowest byte. -/
theorem power_mode_of_the_stack :
    getPowerMode (execCmdAta 0 {} clearing) 0xff () = some (0, ()) ∧
      getPowerMode (execCmdAta 0 {} clearing) 0x7fff () = some (0x7f00, ()) := by
  rw [getPowerMode_ata, getPowerMode_ata]
  exact ⟨rfl, rfl⟩

end Drive
