import Disks.Drive.Ata
import Disks.Drive.Scsi
import Disks.Drive.Transport

/-!
# What becomes of a completion

A completion on one of the two transports (`Completion`), and the return code one command that is
sent makes of it.

* `sendCdb_sgio`, `sendCdb_sat`: the return code of one command as a function of its completion.
* `execCmdAtaTf_rc`, `execCmdScsiCdb_rc`: **a command fails exactly when its completion is caught.**
-/

namespace Drive

open Bytes Loop

/-! ## Completions -/

/-- A SCSI status that is an error by itself; CHECK CONDITION leaves it to the sense data. -/
def StatusError (status : Byte) : Prop :=
  status ∉ ([0x00, 0x02, 0x04, 0x10, 0x14] : List Byte)

/-- The sense key: in byte 2 of the fixed format (70h, 71h), in byte 1 of the descriptor format
(72h, 73h). Other sense data has none. -/
def senseKey (sense : List Byte) : Byte :=
  let code := sense.getD 0 0 &&& 0x7f
  if code = 0x70 ∨ code = 0x71 then sense.getD 2 0 &&& 0x0f
  else if code = 0x72 ∨ code = 0x73 then sense.getD 1 0 &&& 0x0f
  else 0

/-- Neither NO SENSE nor RECOVERED ERROR. -/
def SenseError (sense : List Byte) : Prop := senseKey sense ≠ 0 ∧ senseKey sense ≠ 1

/-- What a transport hands back for one command. -/
inductive Completion
  | sgio (io : SgIo)
  | sat (io : SatIo)

namespace Completion

/-- The transport that completes every command with `io`. -/
def driver : Completion → Driver Cdb Unit
  | .sgio io => sgioCmd fun _ w => (io, w)
  | .sat io => satCmd fun _ w => (io, w)

def Failed : Completion → Prop
  | .sgio io => StatusError io.status ∨ SenseError io.sb.toList
  | .sat io => StatusError (BitVec.ofInt 8 io.rc) ∨ SenseError io.cdb.toList

def Good : Completion → Prop
  | .sgio io => io.rc ≠ -1 ∧ io.status = 0 ∧ io.hostStatus = 0 ∧ io.driverStatus = 0 ∧
      io.sb = .replicate 32 0
  | .sat io => io.rc = 0

/-- A buffer the transport takes: SCSI_IOCTL_SEND_COMMAND has room for 512 bytes. -/
def Fits : Completion → Option (List Byte) → Nat → Prop
  | .sgio _, _, _ => True
  | .sat _, data, dataLen => dataLen ≤ MAX_DXFER_LEN ∧ (data = none → dataLen = 0)

/-- What the transports and the protocols take for a failure. SG_IO: an error of the system, any
status but GOOD and CHECK CONDITION, a host or driver status, current or deferred sense data in
the fixed format with another key, or returned registers (`bad`) that show an error - unless the
sense data overruns the command block. SAT: an error of the system. -/
def Caught (cdb : Cdb) (bad : Cdb → Prop) : Completion → Prop
  | .sgio io => io.refused ∨
      ∃ cdb', sgioCdb cdb io.sb = some cdb' ∧ (sgioSenseBad io.sb ∨ bad cdb')
  | .sat io => io.rc < 0

/-- Sense data that `sgio_cmd` copies past the command block. -/
def Overruns : Completion → Prop
  | .sgio io => io.refused = false ∧ sgioCdb (.replicate 16 0) io.sb = none
  | .sat _ => False

/-- `errno`, where the transport fails the command. -/
def failure : Completion → Request Cdb → Int
  | .sgio io, _ => io.failure
  | .sat io, req => io.failure req.dataLen

end Completion

/-- Whether the copy fits does not depend on the command. -/
theorem sgioCdb_isSome (cdb cdb' : Cdb) (sb : Vector Byte 32) :
    (sgioCdb cdb sb).isSome = (sgioCdb cdb' sb).isSome := by
  unfold sgioCdb copySense
  split
  · split
    · simp only [Option.isSome_some]
    · rfl
  · rfl

/-! ## One command -/

/-- What `exec_cmd_ata` and `exec_cmd_scsi` do with a command block: `check` reads the block that
comes back. -/
def sendCdb {W : Type} (driver : Driver Cdb W) (rw : CdbRw) (cdb : Cdb) (data : Option (List Byte))
    (dataLen : Nat) (parms : List U64) (check : Cdb → Int × List U64) (w : W) :
    Option (Exec W) := do
  let (reply, w) ← driver ⟨rw, cdb, data, dataLen⟩ w
  if reply.rc ≠ 0 then some ⟨-1, reply.data, parms, w⟩
  else some ⟨(check reply.cdb).1, reply.data, (check reply.cdb).2, w⟩

theorem execCmdAtaTf_eq {W : Type} {drive : DeviceHandle} (driver : Driver Cdb W)
    {command : CdbCommand} {rw : CdbRw} {data : Option (List Byte)} {dataLen : Nat}
    {parms parms' : List U64} {tf : AtaTf} (w : W)
    (h : getTf command drive.info.bit48LBA parms = some (some tf, parms')) :
    execCmdAtaTf drive driver command rw data dataLen parms w =
      sendCdb driver rw (loadCdbAta tf rw) data dataLen parms'
        (fun cdb => checkCdbAta drive command tf cdb parms') w := by
  rw [execCmdAtaTf, h]
  rfl

theorem execCmdScsiCdb_eq {W : Type} (driver : Driver Cdb W) {command : CdbCommand} {rw : CdbRw}
    {data : Option (List Byte)} {dataLen : Nat} {parms : List U64} {cdb : Cdb} (w : W)
    (h : loadCdbScsi command parms = some cdb) :
    execCmdScsiCdb driver command rw data dataLen parms w =
      sendCdb driver rw cdb data dataLen parms (fun _ => (0, memsetParms parms)) w := by
  rw [execCmdScsiCdb, h]
  rfl

section send

variable {rw : CdbRw} {cdb : Cdb} {data : Option (List Byte)} {dataLen : Nat} {parms : List U64}
  {check : Cdb → Int × List U64}

/-- Through SG_IO a command fails exactly when its completion is caught. -/
theorem sendCdb_sgio (io : SgIo) :
    (∃ r, sendCdb (Completion.sgio io).driver rw cdb data dataLen parms check () = some r ∧
      r.rc ≠ 0) ↔ (Completion.sgio io).Caught cdb fun cdb' => (check cdb').1 ≠ 0 := by
  simp only [sendCdb, Completion.driver, sgioCmd, sgioReply, Completion.Caught,
    Option.bind_eq_bind]
  by_cases href : io.refused
  · simp [href]
  · cases hcdb : sgioCdb cdb io.sb with
    | none => simp [href]
    | some cdb' =>
      by_cases hbad : sgioSenseBad io.sb
      · simp [href, hbad]
      · simp [href, hbad]

theorem sendCdb_sgio_good {io : SgIo} (h : (Completion.sgio io).Good)
    (hcheck : (check (.replicate 16 0)).1 = 0) :
    ∃ r, sendCdb (Completion.sgio io).driver rw cdb data dataLen parms check () = some r ∧
      r.rc = 0 := by
  obtain ⟨hrc, hs, hh, hd, hsb⟩ := h
  have href : io.refused = false := by simp [SgIo.refused, hrc, hs, hh, hd]
  have hcdb : sgioCdb cdb io.sb = some (.replicate 16 0) := by
    rw [hsb]
    rfl
  have hbad : sgioSenseBad io.sb = false := by
    rw [hsb]
    rfl
  refine ⟨⟨0, io.data, (check (.replicate 16 0)).2, ()⟩, ?_, rfl⟩
  simp only [sendCdb, Completion.driver, sgioCmd, sgioReply, href, hcdb, hbad, hcheck,
    Bool.false_eq_true, if_false, Option.bind_eq_bind, Option.bind_some, ne_eq,
    not_true_eq_false]

/-- Through SAT only an error of the system is a failure: the command block that comes back is
the one that was sent. -/
theorem sendCdb_sat (io : SatIo) (hfit : (Completion.sat io).Fits data dataLen)
    (hcheck : (check cdb).1 = 0) :
    ∃ r, sendCdb (Completion.sat io).driver rw cdb data dataLen parms check () = some r ∧
      (r.rc ≠ 0 ↔ io.rc < 0) := by
  obtain ⟨hlen, hnone⟩ := hfit
  simp only [sendCdb, Completion.driver, satCmd, satReply, if_neg (Nat.not_lt.2 hlen),
    Option.bind_eq_bind]
  by_cases hrc : io.rc < 0
  · simp [hrc]
  · cases data with
    | some buf => simp [hrc, hcheck]
    | none => simp [hrc, hcheck, hnone rfl]

/-- **One command** fails exactly when its completion is caught. -/
theorem sendCdb_rc_iff {io : Completion} (hfit : io.Fits data dataLen) (hcheck : (check cdb).1 = 0)
    {r : Exec Unit} (h : sendCdb io.driver rw cdb data dataLen parms check () = some r) :
    r.rc ≠ 0 ↔ io.Caught cdb fun cdb' => (check cdb').1 ≠ 0 := by
  cases io with
  | sgio io =>
    rw [← sendCdb_sgio io, h]
    simp only [Option.some.injEq, exists_eq_left']
  | sat io =>
    obtain ⟨r', hr', hrc⟩ : ∃ r', sendCdb (Completion.sat io).driver rw cdb data dataLen parms
      check () = some r' ∧ (r'.rc ≠ 0 ↔ io.rc < 0) := sendCdb_sat io hfit hcheck
    cases h.symm.trans hr'
    exact hrc

/-- A command whose completion is good succeeds. -/
theorem sendCdb_good {io : Completion} (hfit : io.Fits data dataLen) (hgood : io.Good)
    (hzero : (check (.replicate 16 0)).1 = 0) (hcheck : (check cdb).1 = 0) :
    ∃ r, sendCdb io.driver rw cdb data dataLen parms check () = some r ∧ r.rc = 0 := by
  cases io with
  | sgio io => exact sendCdb_sgio_good hgood hzero
  | sat io =>
    obtain ⟨r, hr, hrc⟩ : ∃ r, sendCdb (Completion.sat io).driver rw cdb data dataLen parms check
        () = some r ∧ (r.rc ≠ 0 ↔ io.rc < 0) := sendCdb_sat io hfit hcheck
    refine ⟨r, hr, ?_⟩
    by_contra hne
    have hlt := hrc.1 hne
    rw [Completion.Good] at hgood
    omega

/-- A command returns unless the sense data overruns its command block. -/
theorem sendCdb_isSome {io : Completion} (hfit : io.Fits data dataLen) (hover : ¬ io.Overruns) :
    ∃ r, sendCdb io.driver rw cdb data dataLen parms check () = some r := by
  cases io with
  | sgio io =>
    simp only [sendCdb, Completion.driver, sgioCmd, sgioReply, Option.bind_eq_bind]
    by_cases href : io.refused
    · simp [href]
    · obtain ⟨cdb', hcdb⟩ : ∃ cdb', sgioCdb cdb io.sb = some cdb' := by
        rw [← Option.isSome_iff_exists, sgioCdb_isSome cdb (.replicate 16 0),
          Option.isSome_iff_ne_none]
        exact fun hnone => hover ⟨by simpa using href, hnone⟩
      by_cases hbad : sgioSenseBad io.sb
      · simp [href, hcdb, hbad]
      · simp [href, hcdb, hbad]
  | sat io =>
    obtain ⟨hlen, hnone⟩ := hfit
    simp only [sendCdb, Completion.driver, satCmd, satReply, if_neg (Nat.not_lt.2 hlen),
      Option.bind_eq_bind]
    by_cases hrc : io.rc < 0
    · simp [hrc]
    · cases data with
      | some buf => simp [hrc]
      | none => simp [hrc, hnone rfl]

end send

/-! ## The registers a drive returns -/

/-- The returned registers of a command that asks for them: a descriptor (or what passes for one:
one of its first two bytes is enough) whose status shows an error, or whose registers the command
cannot read. -/
def AtaReturnBad (drive : DeviceHandle) (command : CdbCommand) (tf : AtaTf) (parms : List U64)
    (cdb : Cdb) : Prop :=
  tf.checkCond ∧ (cdb.byte 0 = 0x09 ∨ cdb.byte 1 = 0x0c) ∧
    (cdb.byte 13 &&& (ATA_STAT_ERR ||| ATA_STAT_DRQ ||| ATA_STAT_FAULT) ≠ 0 ∨
      parseTf (unloadCdbAta cdb).1 command drive.info.bit48LBA parms = none)

theorem checkCdbAta_bad_iff (drive : DeviceHandle) (command : CdbCommand) (tf : AtaTf) (cdb : Cdb)
    (parms : List U64) :
    (checkCdbAta drive command tf cdb parms).1 ≠ 0 ↔ AtaReturnBad drive command tf parms cdb := by
  have hbyte : ∀ i (h : i < 16), cdb[i] = cdb.byte i := fun i h => by simp [Cdb.byte, h]
  rw [checkCdbAta, AtaReturnBad, hbyte 0, hbyte 1]
  by_cases hcc : tf.checkCond
  swap
  · simp [hcc]
  by_cases hdesc : cdb.byte 0 ≠ 0x09 ∧ cdb.byte 1 ≠ 0x0c
  · rw [if_pos hcc, if_pos hdesc]
    simp only [ne_eq, not_true_eq_false, false_iff]
    rintro ⟨-, h | h, -⟩
    · exact hdesc.1 h
    · exact hdesc.2 h
  · rw [if_pos hcc, if_neg hdesc]
    have hstat : (unloadCdbAta cdb).2 = decide
        (cdb.byte 13 &&& (ATA_STAT_ERR ||| ATA_STAT_DRQ ||| ATA_STAT_FAULT) = 0) := by
      rw [← hbyte 13 (by omega)]
      rfl
    have hor : cdb.byte 0 = 0x09 ∨ cdb.byte 1 = 0x0c := by
      by_contra hne
      exact hdesc (not_or.1 hne)
    simp only [hcc, hor, true_and, hstat]
    by_cases hbits : cdb.byte 13 &&& (ATA_STAT_ERR ||| ATA_STAT_DRQ ||| ATA_STAT_FAULT) = 0
    · cases hparse : parseTf (unloadCdbAta cdb).1 command drive.info.bit48LBA parms with
      | none => simp [hbits]
      | some parms' => simp [hbits]
    · rw [decide_eq_false hbits]
      exact iff_of_true (show (-1 : Int) ≠ 0 by decide) (.inl hbits)

/-- Without a descriptor the command is let through. -/
theorem not_ataReturnBad {drive : DeviceHandle} {command : CdbCommand} {tf : AtaTf}
    {parms : List U64} {cdb : Cdb} (h₀ : cdb.byte 0 ≠ 0x09) (h₁ : cdb.byte 1 ≠ 0x0c) :
    (checkCdbAta drive command tf cdb parms).1 = 0 := by
  by_contra hne
  rcases ((checkCdbAta_bad_iff drive command tf cdb parms).1 hne).2.1 with h | h
  · exact h₀ h
  · exact h₁ h

/-- A command block that is sent does not pass for a descriptor. -/
theorem loadCdbAta_no_descriptor (tf : AtaTf) (rw : CdbRw) :
    (loadCdbAta tf rw).byte 0 ≠ 0x09 ∧ (loadCdbAta tf rw).byte 1 ≠ 0x0c := by
  have hproto : ∀ ext : Bool, (if ext then cdbProto tf.command rw ||| SG_ATA_LBA48
      else cdbProto tf.command rw) ≠ 0x0c := by
    intro ext
    rw [cdbProto.eq_def]
    cases ext <;> cases rw <;> cases isDma tf.command <;> cases isDmaQueued tf.command <;> decide
  exact ⟨show ATA_16 ≠ 0x09 by decide, hproto (isExt tf.command)⟩

/-- **One ATA command** fails exactly when its completion is caught, and succeeds when it is
good. -/
theorem execCmdAtaTf_rc {drive : DeviceHandle} {io : Completion} {command : CdbCommand}
    {rw : CdbRw} {data : Option (List Byte)} {dataLen : Nat} {parms parms' : List U64} {tf : AtaTf}
    (hfit : io.Fits data dataLen)
    (htf : getTf command drive.info.bit48LBA parms = some (some tf, parms')) :
    (∀ r, execCmdAtaTf drive io.driver command rw data dataLen parms () = some r →
        (r.rc ≠ 0 ↔ io.Caught (loadCdbAta tf rw) (AtaReturnBad drive command tf parms'))) ∧
      (io.Good → ∃ r, execCmdAtaTf drive io.driver command rw data dataLen parms () = some r ∧
        r.rc = 0) := by
  obtain ⟨h₀, h₁⟩ := loadCdbAta_no_descriptor tf rw
  have hcheck : (checkCdbAta drive command tf (loadCdbAta tf rw) parms').1 = 0 :=
    not_ataReturnBad h₀ h₁
  rw [execCmdAtaTf_eq io.driver () htf]
  constructor
  · intro r hr
    rw [sendCdb_rc_iff hfit hcheck hr]
    simp only [checkCdbAta_bad_iff]
  · intro hgood
    exact sendCdb_good hfit hgood (not_ataReturnBad (by decide) (by decide)) hcheck

/-- **One SCSI command** fails exactly when its completion is caught, and succeeds when it is
good. -/
theorem execCmdScsiCdb_rc {io : Completion} {command : CdbCommand} {rw : CdbRw}
    {data : Option (List Byte)} {dataLen : Nat} {parms : List U64} {cdb : Cdb}
    (hfit : io.Fits data dataLen) (hcdb : loadCdbScsi command parms = some cdb) :
    (∀ r, execCmdScsiCdb io.driver command rw data dataLen parms () = some r →
        (r.rc ≠ 0 ↔ io.Caught cdb fun _ => False)) ∧
      (io.Good → ∃ r, execCmdScsiCdb io.driver command rw data dataLen parms () = some r ∧
        r.rc = 0) := by
  rw [execCmdScsiCdb_eq io.driver () hcdb]
  constructor
  · intro r hr
    rw [sendCdb_rc_iff hfit rfl hr]
    simp only [ne_eq, not_true_eq_false]
  · intro hgood
    exact sendCdb_good hfit hgood rfl rfl

end Drive
