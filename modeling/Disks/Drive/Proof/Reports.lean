import Disks.Drive.Exec
import Disks.Drive.Proof.Completion

/-!
# Commands made of several

A call of `exec_cmd_ata` or `exec_cmd_scsi` sends one command or several. `Reports` says of a
protocol that it returns a failure once something is `Seen`; built on it, command by command,
`execCmdAtaRc_reports` and `execCmdScsiRc_reports`: **a call returns non-zero when one of its
commands does.** The list of log pages is the exception (`LogListReports`).
-/

namespace Drive

open Bytes Loop

/-! ## Several commands -/

section reports

variable {W : Type} {Seen : W → Prop}

/-- A protocol returns a failure with every command that is the first to be `Seen`. -/
def Reports (cmd : Cmd W) (Seen : W → Prop) : Prop :=
  ∀ command rw data dataLen parms w r, cmd command rw data dataLen parms w = some r →
    ¬ Seen w → Seen r.world → r.rc ≠ 0

variable {send : Cmd W} (hsend : Reports send Seen)

include hsend

/-- A command that succeeded was not the first to be `Seen`. -/
theorem Reports.succeeded {command : CdbCommand} {rw : CdbRw} {data : Option (List Byte)}
    {dataLen : Nat} {parms : List U64} {w : W} {r : Exec W}
    (h : send command rw data dataLen parms w = some r) (hw : ¬ Seen w) (hrc : r.rc = 0) :
    ¬ Seen r.world := fun hs => hsend _ _ _ _ _ _ _ h hw hs hrc

/-- One command, and then the answer made from what it returned. -/
theorem Reports.bind {command : CdbCommand} {rw : CdbRw} {data : Option (List Byte)}
    {dataLen : Nat} {parms : List U64} {w : W} {r : Exec W} {k : Exec W → Option (Exec W)}
    (h : (send command rw data dataLen parms w).bind k = some r) (hw : ¬ Seen w)
    (hk : ∀ r₀, (¬ Seen r₀.world ∨ r₀.rc ≠ 0) → k r₀ = some r → r.rc ≠ 0) : r.rc ≠ 0 := by
  obtain ⟨r₀, h₀, hr⟩ := Option.bind_eq_some_iff.1 h
  refine hk r₀ ?_ hr
  by_cases hrc : r₀.rc = 0
  · exact .inl (hsend.succeeded h₀ hw hrc)
  · exact .inr hrc

theorem withPage_reports {page : CdbCommand} {data : Option (List Byte)} {parms : List U64} {w : W}
    {answer : List Byte → W → Option (Exec W)} {r : Exec W}
    (h : withPage send page data parms w answer = some r) (hw : ¬ Seen w)
    (ha : ∀ tdata w', answer tdata w' = some r → ¬ Seen w' → r.rc ≠ 0) : r.rc ≠ 0 := by
  refine hsend.bind h hw fun r₀ h₀ hr => ?_
  by_cases hrc : r₀.rc = 0
  · rw [if_neg (not_not.2 hrc)] at hr
    exact ha _ _ hr (h₀.resolve_right (not_not.2 hrc))
  · rw [if_pos hrc] at hr
    cases hr
    exact (by decide : (-1 : Int) ≠ 0)

/-- A command whose return code is made from that of one command. -/
theorem Reports.last {command : CdbCommand} {rw : CdbRw} {data : Option (List Byte)}
    {dataLen : Nat} {parms : List U64} {w : W} {r : Exec W} {d : List Byte}
    {p : Exec W → List U64}
    (h : ((send command rw data dataLen parms w).bind fun r₀ =>
      some ⟨if r₀.rc ≠ 0 then -1 else 0, d, p r₀, r₀.world⟩) = some r) (hw : ¬ Seen w)
    (hs : Seen r.world) : r.rc ≠ 0 := by
  refine hsend.bind h hw fun r₀ h₀ hr => ?_
  cases hr
  simp only [if_pos (h₀.resolve_left (not_not.2 hs))]
  exact (by decide : (-1 : Int) ≠ 0)

theorem ataSelfTestStatus_reports {data : Option (List Byte)} {parms : List U64} {w : W}
    {r : Exec W} (h : ataSelfTestStatus send data parms w = some r) (hw : ¬ Seen w)
    (hs : Seen r.world) : r.rc ≠ 0 := by
  unfold ataSelfTestStatus at h
  split at h
  · refine withPage_reports hsend h hw fun tdata w' hr hw' => ?_
    cases hr
    exact absurd hs hw'
  · cases h
    exact absurd hs hw

theorem ataSmartLogCount_reports {data : Option (List Byte)} {parms : List U64} {w : W}
    {r : Exec W} (h : ataSmartLogCount send data parms w = some r) (hw : ¬ Seen w)
    (hs : Seen r.world) : r.rc ≠ 0 := by
  unfold ataSmartLogCount at h
  split at h
  · refine withPage_reports hsend h hw fun tdata w' hr hw' => ?_
    cases hr
    exact absurd hs hw'
  · cases h
    exact absurd hs hw

theorem ataStartSelfTest_reports {data : Option (List Byte)} {parms : List U64} {w : W}
    {r : Exec W} (h : ataStartSelfTest send data parms w = some r) (hw : ¬ Seen w)
    (hs : Seen r.world) : r.rc ≠ 0 := by
  unfold ataStartSelfTest at h
  split at h
  · refine withPage_reports hsend h hw fun tdata w' hr hw' => ?_
    simp only at hr
    split at hr
    · cases hr
      exact absurd hs hw'
    · split at hr
      · cases hr
        exact absurd hs hw'
      · exact hsend.last hr hw' hs
  · cases h
    exact absurd hs hw

theorem ataWriteSame_reports {data : Option (List Byte)} {parms : List U64} {w : W}
    {r : Exec W} (h : ataWriteSame send data parms w = some r) (hw : ¬ Seen w)
    (hs : Seen r.world) : r.rc ≠ 0 := by
  unfold ataWriteSame at h
  split at h
  · exact hsend.last h hw hs
  · cases h
    exact absurd hs hw

/-- A turn of a sending loop: it goes on while nothing is `Seen`, and leaves with a failure once
something is. -/
def TurnReports (Seen : W → Prop) : Turn (TrimBuf × W) (Int × W) → Prop
  | .next s => ¬ Seen s.2
  | .stop r => Seen r.2 → r.1 ≠ 0

/-- A turn that sends one command. -/
theorem Reports.turn {command : CdbCommand} {rw : CdbRw} {data : Option (List Byte)}
    {dataLen : Nat} {parms : List U64} {w : W} {b : Exec W → TrimBuf}
    {t : Turn (TrimBuf × W) (Int × W)}
    (h : ((send command rw data dataLen parms w).bind fun r => some (
      if r.rc ≠ 0 then Turn.stop (-1, r.world) else .next (b r, r.world))) = some t)
    (hw : ¬ Seen w) : TurnReports Seen t := by
  obtain ⟨r, hr, ht⟩ := Option.bind_eq_some_iff.1 h
  cases ht
  by_cases hrc : r.rc = 0
  · rw [if_neg (not_not.2 hrc)]
    exact hsend.succeeded hr hw hrc
  · rw [if_pos hrc]
    exact fun _ => (by decide : (-1 : Int) ≠ 0)

omit hsend in
/-- A loop of such turns. -/
theorem run_reports {body : TrimBuf × W → Option (Turn (TrimBuf × W) (Int × W))}
    (hturn : ∀ s t, ¬ Seen s.2 → body s = some t → TurnReports Seen t)
    {fuel : Nat} {b : TrimBuf} {w : W} {data : List Byte} {parms : List U64} {r : Exec W}
    (h : ((run body fuel (b, w)).bind fun p => some ⟨p.1, data, parms, p.2⟩) = some r)
    (hw : ¬ Seen w) (hs : Seen r.world) : r.rc ≠ 0 := by
  obtain ⟨⟨rc, w'⟩, hrun, hr⟩ := Option.bind_eq_some_iff.1 h
  cases hr
  have hstop : TurnReports Seen (.stop (rc, w')) :=
    run_inv (I := fun s : TrimBuf × W => ¬ Seen s.2) (Q := fun p => TurnReports Seen (.stop p))
      (fun s s' hI hb => hturn s (.next s') hI hb) (fun s p hI hb => hturn s (.stop p) hI hb) hw
      hrun
  exact hstop hs

theorem ataTrim_reports {drive : DeviceHandle} {fuel : Nat} {data : Option (List Byte)}
    {parms : List U64} {w : W} {r : Exec W} (h : ataTrim send fuel drive data parms w = some r)
    (hw : ¬ Seen w) (hs : Seen r.world) : r.rc ≠ 0 := by
  unfold ataTrim at h
  split at h
  swap
  · cases h
    exact absurd hs hw
  refine run_reports (fun s t hI ht => ?_) h hw hs
  unfold ataTrimSend at ht
  split at ht
  · cases ht
    exact fun hseen => absurd hseen hI
  · obtain ⟨b, -, ht⟩ := Option.bind_eq_some_iff.1 ht
    exact hsend.turn ht hI

theorem scsiTrim_reports {drive : DeviceHandle} {fuel : Nat} {data : Option (List Byte)}
    {parms : List U64} {w : W} {r : Exec W} (h : scsiTrim send fuel drive data parms w = some r)
    (hw : ¬ Seen w) (hs : Seen r.world) : r.rc ≠ 0 := by
  unfold scsiTrim at h
  split at h
  swap
  · cases h
    exact absurd hs hw
  refine run_reports (fun s t hI ht => ?_) h hw hs
  unfold scsiTrimSend at ht
  split at ht
  · cases ht
    exact fun hseen => absurd hseen hI
  · obtain ⟨b, -, ht⟩ := Option.bind_eq_some_iff.1 ht
    exact hsend.turn ht hI

theorem scsiSelfTestStatus_reports {drive : DeviceHandle} {data : Option (List Byte)}
    {parms : List U64} {w : W} {r : Exec W}
    (h : scsiSelfTestStatus send drive data parms w = some r) (hw : ¬ Seen w)
    (hs : Seen r.world) : r.rc ≠ 0 := by
  unfold scsiSelfTestStatus at h
  split at h
  · split at h
    · cases h
      exact absurd hs hw
    · refine hsend.bind h hw fun r₀ h₀ hr => ?_
      by_cases hrc : r₀.rc = 0
      · rw [if_neg (not_not.2 hrc)] at hr
        cases hr
        exact absurd hs (h₀.resolve_right (not_not.2 hrc))
      · rw [if_pos hrc] at hr
        cases hr
        exact (by decide : (-1 : Int) ≠ 0)
  · cases h
    exact absurd hs hw

theorem scsiStartSelfTest_reports {drive : DeviceHandle} {data : Option (List Byte)}
    {parms : List U64} {w : W} {r : Exec W}
    (h : scsiStartSelfTest send drive data parms w = some r) (hw : ¬ Seen w)
    (hs : Seen r.world) : r.rc ≠ 0 := by
  unfold scsiStartSelfTest at h
  split at h
  · split at h
    · cases h
      exact absurd hs hw
    · split at h
      · cases h
        exact absurd hs hw
      · exact hsend.last h hw hs
  · cases h
    exact absurd hs hw

theorem scsiWriteSame_reports {data : Option (List Byte)} {parms : List U64} {w : W}
    {r : Exec W} (h : scsiWriteSame send data parms w = some r) (hw : ¬ Seen w)
    (hs : Seen r.world) : r.rc ≠ 0 := by
  unfold scsiWriteSame at h
  split at h
  · exact hsend.last h hw hs
  · cases h
    exact absurd hs hw

theorem ataSmartAttribs_reports {dataLen : Nat} {w w' : W} {rc : Int}
    {attribs : List SmartAttribAta} (h : ataSmartAttribs send dataLen w = some (rc, attribs, w'))
    (hw : ¬ Seen w) (hs : Seen w') : rc ≠ 0 := by
  unfold ataSmartAttribs at h
  split at h
  · cases h
    exact absurd hs hw
  obtain ⟨v, hv, h⟩ := Option.bind_eq_some_iff.1 h
  by_cases hvrc : v.rc = 0
  swap
  · rw [if_pos hvrc] at h
    cases h
    exact (by decide : (-1 : Int) ≠ 0)
  rw [if_neg (not_not.2 hvrc)] at h
  obtain ⟨t, ht, h⟩ := Option.bind_eq_some_iff.1 h
  by_cases htrc : t.rc = 0
  · rw [if_neg (not_not.2 htrc)] at h
    cases h
    exact absurd hs (hsend.succeeded ht (hsend.succeeded hv hw hvrc) htrc)
  · rw [if_pos htrc] at h
    cases h
    exact (by decide : (-1 : Int) ≠ 0)

end reports

/-! ## Commands that read pages -/

section pages

variable {W α β : Type} {Seen : W → Prop}

/-- What reads pages ends in an error once something is `Seen`. -/
def PagesReport (Seen : W → Prop) (x : ExceptT Int (StateT W Option) α) : Prop :=
  ∀ w r w', x.run w = some (r, w') → ¬ Seen w → Seen w' → ∃ e, r = .error e ∧ e ≠ 0

/-- What asks for nothing sees nothing. -/
theorem PagesReport.silent {x : ExceptT Int (StateT W Option) α}
    (h : ∀ w r w', x.run w = some (r, w') → w' = w) : PagesReport Seen x := by
  intro w r w' hx hw hs
  rw [h w r w' hx] at hs
  exact absurd hs hw

theorem PagesReport.pure (a : α) : PagesReport Seen (Pure.pure a) := by
  refine .silent fun w r w' hx => ?_
  cases hx
  rfl

theorem PagesReport.throw (e : Int) :
    PagesReport Seen (MonadExcept.throw e : ExceptT Int (StateT W Option) α) := by
  refine .silent fun w r w' hx => ?_
  cases hx
  rfl

theorem PagesReport.lift (x : Option α) :
    PagesReport Seen (liftM x : ExceptT Int (StateT W Option) α) := by
  refine .silent fun w r w' hx => ?_
  cases x with
  | none => cases hx
  | some a =>
    cases hx
    rfl

theorem PagesReport.reading (x : Reading α) :
    PagesReport Seen (x.lift : ExceptT Int (StateT W Option) α) := by
  refine .silent fun w r w' hx => ?_
  cases x with
  | none => cases hx
  | some a =>
    cases hx
    rfl

theorem PagesReport.bind {x : ExceptT Int (StateT W Option) α}
    {f : α → ExceptT Int (StateT W Option) β} (hx : PagesReport Seen x)
    (hf : ∀ a, PagesReport Seen (f a)) : PagesReport Seen (x >>= f) := by
  intro w r w' h hw hs
  obtain ⟨⟨a, w₁⟩, ha, h⟩ := Option.bind_eq_some_iff.1 h
  cases a with
  | error e =>
    cases h
    obtain ⟨e', he, hne⟩ := hx w _ _ ha hw hs
    cases he
    exact ⟨e, rfl, hne⟩
  | ok a =>
    have hw₁ : ¬ Seen w₁ := fun hs₁ => by
      obtain ⟨e, he, -⟩ := hx w _ _ ha hw hs₁
      cases he
    exact hf a w₁ r w' h hw₁ hs

/-- The return code. -/
theorem PagesReport.rcOf {x : ExceptT Int (StateT W Option) α} (hx : PagesReport Seen x) {w w' : W}
    {rc : Int} (h : rcOf x w = some (rc, w')) (hw : ¬ Seen w) (hs : Seen w') : rc ≠ 0 := by
  obtain ⟨⟨r, w₁⟩, hrun, h⟩ := Option.bind_eq_some_iff.1 h
  cases h
  obtain ⟨e, rfl, he⟩ := hx w _ _ hrun hw hs
  exact he

/-- A failed command that is `Seen` sets another `errno` than the one `CMD_IDENTIFY` lets pass. -/
def LogListReports (send : Cmd W) (errno : W → Int) (Seen : W → Prop) : Prop :=
  ∀ w r, send .scsiLogPage .read (some zeroed) 512 [SCSI_LOG_SENCE_PAGE_LIST.setWidth 64] w =
    some r → ¬ Seen w → Seen r.world → errno r.world ≠ EBADE

variable {send : Cmd W} {errno : W → Int} (hsend : Reports send Seen)

/-- What a page is answered: the page of a command that returned 0, or an error. -/
theorem askThrough_cases {command : CdbCommand} {parms : List U64} {w w' : W}
    {r : Except Int Page} (h : askThrough send errno command parms w = some (r, w')) :
    ∃ ex, send command .read (some zeroed) 512 parms w = some ex ∧ w' = ex.world ∧
      ((ex.rc = 0 ∧ ∃ tdata, r = .ok tdata) ∨ (ex.rc ≠ 0 ∧ r = .error (errno ex.world))) := by
  obtain ⟨ex, hex, h⟩ := Option.bind_eq_some_iff.1 h
  refine ⟨ex, hex, ?_⟩
  by_cases hrc : ex.rc = 0
  · rw [if_neg (not_not.2 hrc)] at h
    cases h
    exact ⟨rfl, .inl ⟨hrc, _, rfl⟩⟩
  · rw [if_pos hrc] at h
    cases h
    exact ⟨rfl, .inr ⟨hrc, rfl⟩⟩

omit hsend in
/-- A command is asked, and its answer looked at. -/
theorem lift_bind_run {y : StateT W Option α} {f : α → ExceptT Int (StateT W Option) β} (w : W) :
    (ExceptT.lift y >>= f).run w = (y w).bind fun p => (f p.1).run p.2 := by
  change ((y w).bind fun p => some (Except.ok p.1, p.2)).bind _ = _
  cases y w with
  | none => rfl
  | some p => rfl

include hsend

theorem ask_reports (command : CdbCommand) (parms : List U64) :
    PagesReport Seen ((askThrough send errno).ask command parms) := by
  intro w r w' h hw hs
  unfold Asks.ask at h
  rw [lift_bind_run] at h
  obtain ⟨⟨page, w₁⟩, hpage, h⟩ := Option.bind_eq_some_iff.1 h
  obtain ⟨ex, hex, rfl, ⟨hrc, tdata, rfl⟩ | ⟨hrc, rfl⟩⟩ := askThrough_cases hpage
  · cases h
    exact absurd hs (hsend.succeeded hex hw hrc)
  · cases h
    exact ⟨-1, rfl, by decide⟩

theorem loadLogPages_reports (hlist : LogListReports send errno Seen) (info : ScsiInfo) :
    PagesReport Seen ((askThrough send errno).loadLogPages info) := by
  intro w r w' h hw hs
  unfold Asks.loadLogPages at h
  rw [lift_bind_run] at h
  obtain ⟨⟨page, w₁⟩, hpage, h⟩ := Option.bind_eq_some_iff.1 h
  obtain ⟨ex, hex, rfl, ⟨hrc, tdata, rfl⟩ | ⟨hrc, rfl⟩⟩ := askThrough_cases hpage
  · have hseen := hsend.succeeded hex hw hrc
    exact PagesReport.bind (.lift _) (fun pages => .pure _) _ _ _ h hseen hs
  · by_cases hseen : Seen ex.world
    · have hne := hlist w ex hex hw hseen
      simp only [if_pos hne] at h
      cases h
      exact ⟨-1, rfl, by decide⟩
    · simp only at h
      split at h
      · exact PagesReport.throw (-1) _ _ _ h hseen hs
      · exact PagesReport.pure info _ _ _ h hseen hs

theorem loadSerial_reports (info : ScsiInfo) :
    PagesReport Seen ((askThrough send errno).loadSerial info) := by
  unfold Asks.loadSerial
  split
  · exact .bind (ask_reports hsend _ _) fun tdata => .pure _
  · exact .pure _

theorem loadIdent_reports (start : Nat) (info : ScsiInfo) :
    PagesReport Seen ((askThrough send errno).loadIdent start info) := by
  unfold Asks.loadIdent
  split
  · exact .bind (ask_reports hsend _ _) fun tdata => .bind (.lift _) fun wwn => .pure _
  · exact .pure _

theorem loadLimits_reports (info : ScsiInfo) :
    PagesReport Seen ((askThrough send errno).loadLimits info) := by
  unfold Asks.loadLimits
  split
  · refine .bind (ask_reports hsend _ _) fun tdata => ?_
    dsimp only
    split
    · exact .pure _
    · exact .pure _
  · exact .pure _

theorem loadCharacteristics_reports (info : ScsiInfo) :
    PagesReport Seen ((askThrough send errno).loadCharacteristics info) := by
  unfold Asks.loadCharacteristics
  split
  · exact .bind (ask_reports hsend _ _) fun tdata => .bind (.lift _) fun rpm => .pure _
  · exact .pure _

theorem loadReadCapacity_reports (info : ScsiInfo) :
    PagesReport Seen ((askThrough send errno).loadReadCapacity info) := by
  unfold Asks.loadReadCapacity
  split
  · exact .bind (ask_reports hsend _ _) fun tdata => .pure _
  · exact .pure _

theorem scsiIdentify_reports (hlist : LogListReports send errno Seen) :
    PagesReport Seen (askThrough send errno).scsiIdentify := by
  unfold Asks.scsiIdentify
  refine .bind (ask_reports hsend _ _) fun tdata => ?_
  refine .bind (.reading _) fun info => ?_
  refine .bind (loadLogPages_reports hsend hlist info) fun info => ?_
  refine .bind (ask_reports hsend _ _) fun tdata => ?_
  refine .bind (.lift _) fun vpdPages => ?_
  refine .bind (loadSerial_reports hsend _) fun info => ?_
  refine .bind (loadIdent_reports hsend 4 info) fun info => ?_
  refine .bind (loadLimits_reports hsend info) fun info => ?_
  refine .bind (loadCharacteristics_reports hsend info) fun info => ?_
  exact loadReadCapacity_reports hsend info

theorem scsiIdentifyEnclosure_reports :
    PagesReport Seen (askThrough send errno).scsiIdentifyEnclosure := by
  unfold Asks.scsiIdentifyEnclosure
  refine .bind (ask_reports hsend _ _) fun tdata => ?_
  refine .bind (.reading _) fun info => ?_
  refine .bind (ask_reports hsend _ _) fun tdata => ?_
  refine .bind (.lift _) fun diagnosticPages => ?_
  refine .bind (ask_reports hsend _ _) fun tdata => ?_
  refine .bind (.lift _) fun vpdPages => ?_
  refine .bind (loadSerial_reports hsend _) fun info => ?_
  exact loadIdent_reports hsend 5 info

theorem scsiSmartStatus_reports (hasLogPageInfoExcept : Bool) :
    PagesReport Seen ((askThrough send errno).scsiSmartStatus hasLogPageInfoExcept) := by
  unfold Asks.scsiSmartStatus
  extract_lets status sense
  have hstatus (codes : Byte × Byte) : PagesReport Seen (status codes) := .pure _
  have hsense (codes : Byte × Byte) : PagesReport Seen (sense codes) := by
    change PagesReport Seen (ite _ _ _)
    split
    · refine .bind (ask_reports hsend _ _) fun tdata => ?_
      dsimp only
      split
      · exact .throw (-1)
      · exact hstatus (tdata.toList.getD 12 0, tdata.toList.getD 13 0)
    · exact hstatus codes
  split
  · refine .bind (ask_reports hsend _ _) fun tdata => ?_
    exact .bind (.lift _) fun codes => hsense codes
  · exact hsense (0, 0)

theorem scsiSmartAttribs_reports (logPages : List Byte) :
    PagesReport Seen ((askThrough send errno).scsiSmartAttribs logPages) := by
  unfold Asks.scsiSmartAttribs
  generalize ([] : List SmartAttribScsi) = attribs
  induction attribPages generalizing attribs with
  | nil => exact .pure attribs
  | cons page pages ih =>
    rw [List.foldlM_cons]
    refine .bind ?_ fun attribs => ih attribs
    unfold Asks.loadAttribs
    split
    · refine .bind (ask_reports hsend _ _) fun tdata => .bind (.lift _) fun stored => ?_
      cases stored with
      | none => exact .throw (-1)
      | some attribs => exact .pure attribs
    · exact .pure attribs

end pages

/-! ## The two functions -/

section exec

variable {W : Type} {Seen : W → Prop}

/-- And a function of which only the return code is looked at. -/
def RcReports (cmd : CmdRc W) (Seen : W → Prop) : Prop :=
  ∀ command rw data dataLen parms w rc w', cmd command rw data dataLen parms w = some (rc, w') →
    ¬ Seen w → Seen w' → rc ≠ 0

theorem execCmdAta_reports {driver : Driver Cdb W} {drive : DeviceHandle}
    (hsend : Reports (execCmdAtaTf drive driver) Seen) (fuel : Nat) :
    Reports (execCmdAta fuel drive driver) Seen := by
  intro command rw data dataLen parms w r h hw hs
  unfold execCmdAta at h
  simp only at h
  split at h
  · cases h
  · exact ataSelfTestStatus_reports hsend h hw hs
  · exact ataStartSelfTest_reports hsend h hw hs
  · exact ataSmartLogCount_reports hsend h hw hs
  · exact ataWriteSame_reports hsend h hw hs
  · exact ataTrim_reports hsend h hw hs
  · exact hsend _ _ _ _ _ _ _ h hw hs

theorem execCmdScsi_reports {driver : Driver Cdb W} (hsend : Reports (execCmdScsiCdb driver) Seen)
    (fuel : Nat) (drive : DeviceHandle) : Reports (execCmdScsi fuel drive driver) Seen := by
  intro command rw data dataLen parms w r h hw hs
  unfold execCmdScsi at h
  simp only at h
  split at h
  · cases h
  · cases h
  · cases h
  · cases h
  · split at h
    · cases h
      exact absurd hs hw
    · cases h
      exact absurd hs hw
  · exact scsiSelfTestStatus_reports hsend h hw hs
  · exact scsiStartSelfTest_reports hsend h hw hs
  · exact scsiWriteSame_reports hsend h hw hs
  · exact scsiTrim_reports hsend h hw hs
  · exact hsend _ _ _ _ _ _ _ h hw hs

/-- **`exec_cmd_ata` returns non-zero when one of its commands does.** -/
theorem execCmdAtaRc_reports {driver : Driver Cdb W} {drive : DeviceHandle}
    (hsend : Reports (execCmdAtaTf drive driver) Seen) (fuel : Nat) :
    RcReports (execCmdAtaRc fuel drive driver) Seen := by
  intro command rw data dataLen parms w rc w' h hw hs
  unfold execCmdAtaRc at h
  split at h
  · obtain ⟨⟨rc₁, attribs, w₁⟩, hrun, h⟩ := Option.map_eq_some_iff.1 h
    cases h
    exact ataSmartAttribs_reports hsend hrun hw hs
  · obtain ⟨r, hrun, h⟩ := Option.map_eq_some_iff.1 h
    cases h
    exact execCmdAta_reports hsend fuel _ _ _ _ _ _ _ hrun hw hs

/-- **And so does `exec_cmd_scsi`**, but for the list of log pages. -/
theorem execCmdScsiRc_reports {driver : Driver Cdb W} {errno : W → Int}
    (hsend : Reports (execCmdScsiCdb driver) Seen)
    (hlist : LogListReports (execCmdScsiCdb driver) errno Seen) (fuel : Nat)
    (drive : DeviceHandle) (logPages : List Byte) :
    RcReports (execCmdScsiRc fuel drive logPages driver errno) Seen := by
  intro command rw data dataLen parms w rc w' h hw hs
  have hrefused {rc : Int} (h : some ((-1 : Int), w) = some (rc, w')) : rc ≠ 0 := by
    cases h
    exact absurd hs hw
  unfold execCmdScsiRc at h
  simp only at h
  split at h
  · split at h
    · exact hrefused h
    · exact (scsiIdentify_reports hsend hlist).rcOf h hw hs
  · split at h
    · exact hrefused h
    · exact (scsiIdentifyEnclosure_reports hsend).rcOf h hw hs
  · split at h
    · exact hrefused h
    · exact (scsiSmartStatus_reports hsend _).rcOf h hw hs
  · split at h
    · exact hrefused h
    · exact (scsiSmartAttribs_reports hsend logPages).rcOf h hw hs
  · obtain ⟨r, hrun, h⟩ := Option.map_eq_some_iff.1 h
    cases h
    exact execCmdScsi_reports hsend fuel drive _ _ _ _ _ _ _ hrun hw hs

end exec

end Drive
