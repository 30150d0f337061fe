import Disks.Drive.Disk
import Disks.Drive.Proof.Sense

/-!
# The SMART status of the registers

What `smartStatus` returns for the registers that SMART RETURN STATUS leaves, through SG_IO.

* `smartStatus_returned`: the return code as a function of the registers.
* `smartStatus_classifies_iff`: **the classification is right exactly when** the device-fault bit is
  clear, and a drive that exceeds its thresholds shows neither an error nor a request for data.
-/

namespace Drive

open Bytes

/-! ## Registers -/

/-- The ATA Status Return descriptor of registers. -/
def AtaTf.descriptor (tf : AtaTf) (extend : Byte) : List Byte :=
  [0x09, 0x0c, extend, tf.error, tf.hob.nsect, tf.lob.nsect, tf.hob.lbal, tf.lob.lbal,
    tf.hob.lbam, tf.lob.lbam, tf.hob.lbah, tf.lob.lbah, tf.dev, tf.status]

/-- The kernel returns registers: the command got to the drive, and the sense data hold the ATA
Status Return descriptor. -/
structure Returned (tf : AtaTf) (io : SgIo) : Prop where
  accepted : ¬ io.refused
  format : responseCode io.sb = 0x72
  length : additionalLength io.sb = 0x0e
  registers : ∃ extend, slice io.sb.toList 8 14 = tf.descriptor extend

/-- LBA mid and high of a drive that exceeds a threshold, and of one that does not. -/
def AtaTf.Exceeded (tf : AtaTf) : Prop := tf.lob.lbam = 0xf4 ∧ tf.lob.lbah = 0x2c
def AtaTf.Passed (tf : AtaTf) : Prop := tf.lob.lbam = 0x4f ∧ tf.lob.lbah = 0xc2

instance (tf : AtaTf) : Decidable tf.Exceeded := inferInstanceAs (Decidable (_ ∧ _))
instance (tf : AtaTf) : Decidable tf.Passed := inferInstanceAs (Decidable (_ ∧ _))

/-- A status has a flag; -1 is a failure and has none. -/
def Includes (r : Int) (flag : U64) : Prop := r ≠ -1 ∧ BitVec.ofInt 64 r &&& flag ≠ 0

instance (r : Int) (flag : U64) : Decidable (Includes r flag) :=
  inferInstanceAs (Decidable (_ ∧ _))

/-- **The classification is right.** -/
structure Classifies (tf : AtaTf) (r : Int) : Prop where
  fault : Includes r STATUS_DRIVE_FAULT ↔ tf.status &&& ATA_STAT_FAULT ≠ 0
  threshold : Includes r STATUS_THRESHOLD_EXCEEDED ↔ tf.Exceeded
  fails : (¬ tf.Exceeded ∧ ¬ tf.Passed) ∨ tf.status &&& ATA_STAT_ERR ≠ 0 → r = -1

/-! ## The three layers -/

/-- The status of registers, `none` for a failure: `unload_cdb_ata` comes first. -/
def AtaTf.smartStatus (tf : AtaTf) : Option U64 :=
  if tf.status &&& (ATA_STAT_ERR ||| ATA_STAT_DRQ ||| ATA_STAT_FAULT) ≠ 0 then none
  else if tf.Exceeded then some STATUS_THRESHOLD_EXCEEDED
  else if tf.Passed then some STATUS_DRIVE_GOOD
  else none

/-- No flag that fails a command is set. -/
theorem status_good_iff (status : Byte) :
    status &&& (ATA_STAT_ERR ||| ATA_STAT_DRQ ||| ATA_STAT_FAULT) = 0 ↔
      status &&& ATA_STAT_ERR = 0 ∧ status &&& ATA_STAT_DRQ = 0 ∧
        status &&& ATA_STAT_FAULT = 0 := by
  rw [BitVec.and_or_distrib_left, BitVec.and_or_distrib_left]
  change _ = 0#8 ↔ _ = 0#8 ∧ _ = 0#8 ∧ _ = 0#8
  rw [BitVec.or_eq_zero_iff, BitVec.or_eq_zero_iff, and_assoc]

theorem Returned.sgioReply {tf : AtaTf} {io : SgIo} (h : Returned tf io) (req : Request Cdb) :
    sgioReply req io = some ⟨0, copied req.cdb io.sb 14, io.data⟩ := by
  have hcopies : Copies io.sb := .inl h.format
  have hn : (additionalLength io.sb).toNat = 14 := by rw [h.length]; rfl
  have hgood : sgioSenseBad io.sb = false := by
    have hformat : io.sb[0] &&& 0x7f = 0x72 := h.format
    have hfixed : ¬ (io.sb[0] = 0x70 ∨ io.sb[0] = 0x71) := by
      rintro (heq | heq)
      · rw [heq] at hformat
        cases hformat
      · rw [heq] at hformat
        cases hformat
    exact decide_eq_false fun hbad => hfixed hbad.1
  unfold Drive.sgioReply
  rw [if_neg h.accepted, sgioCdb_eq, if_pos hcopies, hn, if_pos (by decide), hgood]
  rfl

/-- The registers that are read from a copy of their descriptor. -/
theorem Returned.checkCdbAta {tf : AtaTf} {io : SgIo} (h : Returned tf io) (drive : DeviceHandle)
    (cdb : Cdb) {sent : AtaTf} (hsent : sent.checkCond) (p : U64) :
    checkCdbAta drive .smartStatus sent (copied cdb io.sb 14) [p] =
      tf.smartStatus.elim (-1, [p]) fun status => (0, [status]) := by
  obtain ⟨extend, hregisters⟩ := h.registers
  rw [← take_copied cdb io.sb (le_refl 14) (by decide)] at hregisters
  generalize copied cdb io.sb 14 = cdb at hregisters
  have hbyte (i : Fin 16) (hi : i < 14) : some cdb[i] = (tf.descriptor extend)[i.val]? := by
    rw [← hregisters, List.getElem?_take, if_pos (by omega)]
    simp
  have h0 : cdb[0] = 0x09 := Option.some.inj (hbyte 0 (by decide))
  have h9 : cdb[9] = tf.lob.lbam := Option.some.inj (hbyte 9 (by decide))
  have h11 : cdb[11] = tf.lob.lbah := Option.some.inj (hbyte 11 (by decide))
  have h13 : cdb[13] = tf.status := Option.some.inj (hbyte 13 (by decide))
  unfold Drive.checkCdbAta AtaTf.smartStatus
  rw [if_pos hsent, if_neg (by simp [h0])]
  unfold unloadCdbAta
  dsimp only
  rw [h13]
  by_cases hgood : tf.status &&& (ATA_STAT_ERR ||| ATA_STAT_DRQ ||| ATA_STAT_FAULT) = 0
  · have hfault : tf.status &&& 0x20 = 0 := ((status_good_iff _).mp hgood).2.2
    simp only [hgood, decide_true, Bool.not_true, Bool.false_eq_true, if_false, ne_eq,
      not_true_eq_false, parseTf, hfault, h9, h11]
    by_cases hexceeded : tf.Exceeded
    · have hregs : tf.lob.lbam = 0xf4 ∧ tf.lob.lbah = 0x2c := hexceeded
      rw [if_pos hregs, if_pos hexceeded]
      rfl
    have hregs : ¬ (tf.lob.lbam = 0xf4 ∧ tf.lob.lbah = 0x2c) := hexceeded
    rw [if_neg hregs, if_neg hexceeded]
    by_cases hpassed : tf.Passed
    · have hregs : tf.lob.lbam = 0x4f ∧ tf.lob.lbah = 0xc2 := hpassed
      rw [if_pos hregs, if_pos hpassed]
      rfl
    have hregs : ¬ (tf.lob.lbam = 0x4f ∧ tf.lob.lbah = 0xc2) := hpassed
    rw [if_neg hregs, if_neg hpassed]
    rfl
  · simp only [hgood, decide_false, Bool.not_false, if_true, ne_eq, not_false_eq_true]
    rfl

/-! ## `smartStatus` -/

/-- The status as an `int`. -/
def returnCode : Option U64 → Int
  | none => -1
  | some status => (status.setWidth 32).toInt

/-- A failure is right where no flag is due. -/
theorem classifies_failure_iff (tf : AtaTf) :
    Classifies tf (-1) ↔ tf.status &&& ATA_STAT_FAULT = 0 ∧ ¬ tf.Exceeded := by
  have hnone (flag : U64) : ¬ Includes (-1) flag := fun h => h.1 rfl
  refine ⟨fun h => ⟨?_, fun hexceeded => hnone _ (h.threshold.mpr hexceeded)⟩, fun h => ?_⟩
  · by_contra hfault
    exact hnone _ (h.fault.mpr hfault)
  · exact ⟨iff_of_false (hnone _) (not_not.mpr h.1), iff_of_false (hnone _) h.2, fun _ => rfl⟩

theorem classifies_smartStatus_iff (tf : AtaTf) :
    Classifies tf (returnCode tf.smartStatus) ↔
      tf.status &&& ATA_STAT_FAULT = 0 ∧
        (tf.Exceeded → tf.status &&& ATA_STAT_ERR = 0 ∧ tf.status &&& ATA_STAT_DRQ = 0) := by
  unfold AtaTf.smartStatus
  split
  · rename_i hbad
    change Classifies tf (-1) ↔ _
    rw [ne_eq, status_good_iff] at hbad
    rw [classifies_failure_iff]
    refine and_congr_right fun hfault => ⟨fun hno hexceeded => absurd hexceeded hno,
      fun hok hexceeded => ?_⟩
    exact hbad ⟨(hok hexceeded).1, (hok hexceeded).2, hfault⟩
  rename_i hgood
  obtain ⟨herr, hdrq, hfault⟩ := (status_good_iff _).mp (not_not.mp hgood)
  refine iff_of_true ?_ ⟨hfault, fun _ => ⟨herr, hdrq⟩⟩
  split
  · rename_i hexceeded
    refine ⟨iff_of_false (by decide) (not_not.mpr hfault), iff_of_true (by decide) hexceeded, ?_⟩
    rintro (⟨hno, -⟩ | hno)
    · exact absurd hexceeded hno
    · exact absurd herr hno
  rename_i hexceeded
  split
  · rename_i hpassed
    refine ⟨iff_of_false (by decide) (not_not.mpr hfault), iff_of_false (by decide) hexceeded, ?_⟩
    rintro (⟨-, hno⟩ | hno)
    · exact absurd hpassed hno
    · exact absurd herr hno
  · exact (classifies_failure_iff tf).mpr ⟨hfault, hexceeded⟩

section run

variable {W : Type} {drive : DeviceHandle} (hsupport : drive.info.SMARTSupport)
  (henabled : drive.info.SMARTEnabled) {kernel : Request Cdb → W → SgIo × W} {w : W} {tf : AtaTf}
  (h : Returned tf (kernel ⟨.none, smartStatusCdb, none, 0⟩ w).1)

include hsupport henabled h

/-- The return code of `smartStatus` for returned registers. -/
theorem smartStatus_returned (fuel : Nat) (status : U64) :
    smartStatus drive (execCmdAta fuel drive (sgioCmd kernel)) status w =
      some (returnCode tf.smartStatus, (kernel ⟨.none, smartStatusCdb, none, 0⟩ w).2) := by
  have hsupported : (!drive.info.SMARTSupport || !drive.info.SMARTEnabled) = false := by
    rw [hsupport, henabled]
    rfl
  have hdriver : sgioCmd kernel ⟨.none, smartStatusCdb, none, 0⟩ w =
      some (⟨0, copied smartStatusCdb (kernel ⟨.none, smartStatusCdb, none, 0⟩ w).1.sb 14,
        (kernel ⟨.none, smartStatusCdb, none, 0⟩ w).1.data⟩,
        (kernel ⟨.none, smartStatusCdb, none, 0⟩ w).2) := by
    change (Drive.sgioReply _ (kernel _ w).1).bind
      (fun reply => some (reply, (kernel ⟨.none, smartStatusCdb, none, 0⟩ w).2)) = _
    rw [h.sgioReply]
    rfl
  have hcheck : Drive.checkCdbAta drive .smartStatus
      { smartTf SMART_OP_GET_STATUS 0 0 with checkCond := true }
      (copied smartStatusCdb (kernel ⟨.none, smartStatusCdb, none, 0⟩ w).1.sb 14)
      [STATUS_DRIVE_GOOD] = _ := h.checkCdbAta drive _ rfl _
  have hsent : execCmdAta fuel drive (sgioCmd kernel) .smartStatus .none none 0 [status] w =
      (sgioCmd kernel ⟨.none, smartStatusCdb, none, 0⟩ w).bind fun r =>
        if r.1.rc ≠ 0 then some ⟨-1, r.1.data, [STATUS_DRIVE_GOOD], r.2⟩
        else
          let c := Drive.checkCdbAta drive .smartStatus
            { smartTf SMART_OP_GET_STATUS 0 0 with checkCond := true } r.1.cdb
            [STATUS_DRIVE_GOOD]
          some ⟨c.1, r.1.data, c.2, r.2⟩ := rfl
  unfold smartStatus
  rw [if_neg (by simp [hsupported]), hsent, hdriver]
  simp only [Option.bind_some, ne_eq, not_true_eq_false, if_false, hcheck]
  cases tf.smartStatus with
  | none => rfl
  | some status => rfl

/-- **The classification is right exactly when** the device-fault bit is clear, and a drive that
exceeds its thresholds shows neither an error nor a request for data. -/
theorem smartStatus_classifies_iff (fuel : Nat) (status : U64) :
    (∃ r w', smartStatus drive (execCmdAta fuel drive (sgioCmd kernel)) status w = some (r, w') ∧
        Classifies tf r) ↔
      tf.status &&& ATA_STAT_FAULT = 0 ∧
        (tf.Exceeded → tf.status &&& ATA_STAT_ERR = 0 ∧ tf.status &&& ATA_STAT_DRQ = 0) := by
  rw [smartStatus_returned hsupport henabled h fuel status, ← classifies_smartStatus_iff]
  refine ⟨fun ⟨r, w', hr, hclass⟩ => ?_, fun hclass => ⟨_, _, rfl, hclass⟩⟩
  rw [(Prod.mk.inj (Option.some.inj hr)).1]
  exact hclass

end run

/-! ## A run -/

/-- The sense data with registers. -/
def senseOf (tf : AtaTf) : SgIo where
  status := SG_CHECK_CONDITION
  driverStatus := SG_ERR_DRIVER_SENSE
  sb := #v[0x72, 0x01, 0x00, 0x1d, 0, 0, 0, 0x0e, 0x09, 0x0c, 0, tf.error, tf.hob.nsect,
    tf.lob.nsect, tf.hob.lbal, tf.lob.lbal, tf.hob.lbam, tf.lob.lbam, tf.hob.lbah, tf.lob.lbah,
    tf.dev, tf.status, 0, 0, 0, 0, 0, 0, 0, 0, 0, 0]
  data := []

theorem senseOf_returned (tf : AtaTf) : Returned tf (senseOf tf) :=
  ⟨by simp [SgIo.refused, senseOf], show (0x72 &&& 0x7f : Byte) = 0x72 by decide, rfl, 0, rfl⟩

/-- A drive with SMART enabled. -/
def smartDevice : DeviceHandle := { info := { SMARTSupport := true, SMARTEnabled := true } }

/-- The registers of a drive that exceeds a threshold. -/
def exceeded : AtaTf := { dev := 0xa0, status := 0x50, lob := { lbam := 0xf4, lbah := 0x2c } }

theorem smartStatus_classifies_exceeded :
    ∃ r w', smartStatus smartDevice (execCmdAta 0 smartDevice
      (sgioCmd fun _ w => (senseOf exceeded, w))) 0 () = some (r, w') ∧ Classifies exceeded r :=
  (@smartStatus_classifies_iff Unit smartDevice rfl rfl (fun _ w => (senseOf exceeded, w)) ()
    exceeded (senseOf_returned exceeded) 0 0).mpr ⟨by decide, fun _ => ⟨by decide, by decide⟩⟩

/-- A drive fault is reported as a failure of the command. -/
theorem drive_fault :
    ¬ ∀ tf : AtaTf, ∃ r w', smartStatus smartDevice (execCmdAta 0 smartDevice
      (sgioCmd fun _ w => (senseOf tf, w))) 0 () = some (r, w') ∧ Classifies tf r := by
  intro h
  let tf : AtaTf := { exceeded with status := 0x70 }
  obtain ⟨r, w', hr, hclass⟩ := h tf
  have hreturned := @smartStatus_returned Unit smartDevice rfl rfl (fun _ w => (senseOf tf, w)) ()
    tf (senseOf_returned tf) 0 0
  have hfailed : r = -1 :=
    (Prod.mk.inj (Option.some.inj (hr.symm.trans hreturned))).1.trans (by decide)
  rw [hfailed, classifies_failure_iff] at hclass
  exact absurd hclass.1 (by decide)

end Drive
