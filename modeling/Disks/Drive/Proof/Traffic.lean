import Disks.Drive.Proof.Reports

/-!
# No failed command is reported as success

The transports in front of a kernel that completes the commands as it likes (`transport`), and the
whole calls through them.

* `AlwaysReported`: every call that receives a completion returns non-zero.
* `ata_call`, `scsi_call`, `identify_passes`: the calls that let one through.
* `completion_reported_iff`: **when no failed command is reported as success.**
-/

namespace Drive

open Bytes Loop

/-! ## A transport -/

/-- The completions a transport has handed back, each with its request, and `errno`. -/
structure Traffic where
  received : List (Request Cdb × Completion) := []
  errno : Int := 0

/-- How the commands are completed, by what was completed before. -/
abbrev Completes := List (Request Cdb × Completion) → Request Cdb → Completion

/-- Whether the transport asks the kernel at all. -/
def Completion.sent : Completion → Request Cdb → Bool
  | .sgio _, _ => true
  | .sat _, req => req.dataLen ≤ MAX_DXFER_LEN

/-- What is known after a request was handed to the transport. -/
def Traffic.next (t : Traffic) (req : Request Cdb) (io : Completion) : Traffic where
  received := if io.sent req then t.received ++ [(req, io)] else t.received
  errno := io.failure req

/-- `sgio_cmd` and `sat_cmd`, in front of a kernel that completes the commands so. -/
def transport (completes : Completes) : Driver Cdb Traffic := fun req t =>
  ((completes t.received req).driver req ()).map fun p =>
    (p.1, t.next req (completes t.received req))

/-- The transport returns, and every call that receives this completion of this request returns
non-zero. -/
def AlwaysReported (exec : Nat → Driver Cdb Traffic → CmdRc Traffic) (req : Request Cdb)
    (io : Completion) : Prop :=
  ¬ io.Overruns ∧ ∀ fuel completes command rw data dataLen parms rc t,
    exec fuel (transport completes) command rw data dataLen parms {} = some (rc, t) →
      (req, io) ∈ t.received → rc ≠ 0

/-- The LOG SENSE of `CMD_IDENTIFY`. -/
def logListRequest : Request Cdb :=
  ⟨.read, #v[SCSI_OP_LOG_SENSE, 0, SCSI_PC_CUMULATIVE ||| SCSI_LOG_SENCE_PAGE_LIST, 0, 0, 0, 0,
    0x02, 0x00, 0, 0, 0, 0, 0, 0, 0], some zeroed, 512⟩

section transport

variable {completes : Completes} {rw : CdbRw} {data : Option (List Byte)} {dataLen : Nat}

/-- One command through the transport is one completion. -/
theorem sendCdb_transport {cdb : Cdb} {parms : List U64} {check : Cdb → Int × List U64}
    (t : Traffic) :
    sendCdb (transport completes) rw cdb data dataLen parms check t =
      (sendCdb (completes t.received ⟨rw, cdb, data, dataLen⟩).driver rw cdb data dataLen parms
        check ()).map fun r => ⟨r.rc, r.data, r.parms,
          t.next ⟨rw, cdb, data, dataLen⟩ (completes t.received ⟨rw, cdb, data, dataLen⟩)⟩ := by
  unfold sendCdb transport
  cases (completes t.received ⟨rw, cdb, data, dataLen⟩).driver ⟨rw, cdb, data, dataLen⟩ () with
  | none => rfl
  | some p =>
    simp only [Option.map_some, Option.bind_eq_bind, Option.bind_some]
    split
    · rfl
    · rfl

/-- What a command newly receives is the completion of its own request. -/
theorem Traffic.mem_next {t : Traffic} {req req' : Request Cdb} {io io' : Completion}
    (h : (req, io) ∈ (t.next req' io').received) (hnot : (req, io) ∉ t.received) :
    req' = req ∧ io' = io := by
  unfold Traffic.next at h
  simp only at h
  split at h
  · rcases List.mem_append.1 h with h | h
    · exact absurd h hnot
    · rw [List.mem_singleton, Prod.mk.injEq] at h
      exact ⟨h.1.symm, h.2.symm⟩
  · exact absurd h hnot

variable {req : Request Cdb} {io : Completion}

/-- ATA commands report a completion that is caught for every command that sends the request. -/
theorem execCmdAtaTf_reports {drive : DeviceHandle} (hfit : io.Fits req.data req.dataLen)
    (hcaught : ∀ command parms tf parms', getTf command drive.info.bit48LBA parms =
      some (some tf, parms') → req.cdb = loadCdbAta tf req.rw →
        io.Caught req.cdb (AtaReturnBad drive command tf parms')) :
    Reports (execCmdAtaTf drive (transport completes)) fun t => (req, io) ∈ t.received := by
  intro command rw data dataLen parms t r h hw hs
  cases htf : getTf command drive.info.bit48LBA parms with
  | none =>
    rw [execCmdAtaTf, htf] at h
    cases h
  | some res =>
    obtain ⟨tf, parms'⟩ := res
    cases tf with
    | none =>
      rw [execCmdAtaTf, htf] at h
      cases h
      exact absurd hs hw
    | some tf =>
      rw [execCmdAtaTf_eq (transport completes) t htf, sendCdb_transport] at h
      obtain ⟨r₀, hr₀, rfl⟩ := Option.map_eq_some_iff.1 h
      obtain ⟨rfl, hio⟩ := Traffic.mem_next hs hw
      rw [hio, ← execCmdAtaTf_eq io.driver () htf] at hr₀
      exact ((execCmdAtaTf_rc hfit htf).1 r₀ hr₀).2 (hcaught command parms tf parms' htf rfl)

/-- SCSI commands report a completion that is caught. -/
theorem execCmdScsiCdb_reports (hfit : io.Fits req.data req.dataLen)
    (hcaught : (∃ command parms, loadCdbScsi command parms = some req.cdb) →
      io.Caught req.cdb fun _ => False) :
    Reports (execCmdScsiCdb (transport completes)) fun t => (req, io) ∈ t.received := by
  intro command rw data dataLen parms t r h hw hs
  cases hcdb : loadCdbScsi command parms with
  | none =>
    rw [execCmdScsiCdb, hcdb] at h
    cases h
    exact absurd hs hw
  | some cdb =>
    rw [execCmdScsiCdb_eq (transport completes) t hcdb, sendCdb_transport] at h
    obtain ⟨r₀, hr₀, rfl⟩ := Option.map_eq_some_iff.1 h
    obtain ⟨rfl, hio⟩ := Traffic.mem_next hs hw
    rw [hio, ← execCmdScsiCdb_eq io.driver () hcdb] at hr₀
    exact ((execCmdScsiCdb_rc hfit hcdb).1 r₀ hr₀).2 (hcaught ⟨command, parms, hcdb⟩)

/-- The list of log pages, when its failure does not look like a missing page. -/
theorem logListReports_transport (hlist : ¬ (req = logListRequest ∧ io.failure req = EBADE)) :
    LogListReports (execCmdScsiCdb (transport completes)) Traffic.errno
      fun t => (req, io) ∈ t.received := by
  intro t r h hw hs
  rw [execCmdScsiCdb_eq (transport completes) t rfl, sendCdb_transport] at h
  obtain ⟨r₀, hr₀, rfl⟩ := Option.map_eq_some_iff.1 h
  obtain ⟨rfl, hio⟩ := Traffic.mem_next hs hw
  intro herr
  refine hlist ⟨rfl, ?_⟩
  rw [← hio]
  exact herr

/-! ### Completions that are let through -/

theorem Completion.sent_of_fits {io : Completion} {req : Request Cdb}
    (hfit : io.Fits req.data req.dataLen) : io.sent req = true := by
  cases io with
  | sgio io => rfl
  | sat io => exact decide_eq_true hfit.1

theorem Traffic.received_next {t : Traffic} {req : Request Cdb} {io : Completion}
    (hfit : io.Fits req.data req.dataLen) :
    (t.next req io).received = t.received ++ [(req, io)] :=
  if_pos (Completion.sent_of_fits hfit)

/-- A command for which a taskfile is built is not one of those made of several. -/
theorem execCmdAtaRc_eq {W : Type} {drive : DeviceHandle} {driver : Driver Cdb W} {fuel : Nat}
    {command : CdbCommand} {rw : CdbRw} {data : Option (List Byte)} {dataLen : Nat}
    {parms parms' : List U64} {tf : AtaTf} {w : W}
    (h : getTf command drive.info.bit48LBA parms = some (some tf, parms')) :
    execCmdAtaRc fuel drive driver command rw data dataLen parms w =
      (execCmdAtaTf drive driver command rw data dataLen parms w).map fun r => (r.rc, r.world) := by
  cases command <;> first | rfl | cases h

theorem execCmdScsiRc_eq {W : Type} {drive : DeviceHandle} {driver : Driver Cdb W} {fuel : Nat}
    {logPages : List Byte} {errno : W → Int} {command : CdbCommand} {rw : CdbRw}
    {data : Option (List Byte)} {dataLen : Nat} {parms : List U64} {cdb : Cdb} {w : W}
    (h : loadCdbScsi command parms = some cdb) :
    execCmdScsiRc fuel drive logPages driver errno command rw data dataLen parms w =
      (execCmdScsiCdb driver command rw data dataLen parms w).map fun r => (r.rc, r.world) := by
  cases command <;> first | rfl | cases h

/-- The call that sends one ATA command, and receives `io`. -/
theorem ata_call {drive : DeviceHandle} {command : CdbCommand} {parms parms' : List U64}
    {tf : AtaTf} (hfit : io.Fits req.data req.dataLen) (hover : ¬ io.Overruns)
    (htf : getTf command drive.info.bit48LBA parms = some (some tf, parms'))
    (hreq : req.cdb = loadCdbAta tf req.rw) :
    ∃ rc t, execCmdAtaRc 0 drive (transport fun _ _ => io) command req.rw req.data req.dataLen parms
        {} = some (rc, t) ∧ (req, io) ∈ t.received ∧
      (rc ≠ 0 ↔ io.Caught req.cdb (AtaReturnBad drive command tf parms')) := by
  obtain ⟨rw, cdb, data, dataLen⟩ := req
  change cdb = loadCdbAta tf rw at hreq
  subst hreq
  obtain ⟨r, hr⟩ : ∃ r, sendCdb io.driver rw (loadCdbAta tf rw) data dataLen parms'
      (fun cdb => checkCdbAta drive command tf cdb parms') () = some r :=
    sendCdb_isSome hfit hover
  rw [execCmdAtaRc_eq htf, execCmdAtaTf_eq _ _ htf, sendCdb_transport, hr]
  refine ⟨_, _, rfl, ?_, ?_⟩
  · simp only [Traffic.received_next hfit, List.mem_append, List.mem_singleton, or_true]
  · rw [← execCmdAtaTf_eq io.driver () htf] at hr
    exact (execCmdAtaTf_rc hfit htf).1 r hr

/-- The call that sends one SCSI command, and receives `io`. -/
theorem scsi_call {drive : DeviceHandle} {logPages : List Byte} {command : CdbCommand}
    {parms : List U64} (hfit : io.Fits req.data req.dataLen) (hover : ¬ io.Overruns)
    (hcdb : loadCdbScsi command parms = some req.cdb) :
    ∃ rc t, execCmdScsiRc 0 drive logPages (transport fun _ _ => io) Traffic.errno command req.rw
        req.data req.dataLen parms {} = some (rc, t) ∧ (req, io) ∈ t.received ∧
      (rc ≠ 0 ↔ io.Caught req.cdb fun _ => False) := by
  obtain ⟨rw, cdb, data, dataLen⟩ := req
  obtain ⟨r, hr⟩ : ∃ r, sendCdb io.driver rw cdb data dataLen parms
      (fun _ => (0, memsetParms parms)) () = some r :=
    sendCdb_isSome hfit hover
  rw [execCmdScsiRc_eq hcdb, execCmdScsiCdb_eq _ _ hcdb, sendCdb_transport, hr]
  refine ⟨_, _, rfl, ?_, ?_⟩
  · simp only [Traffic.received_next hfit, List.mem_append, List.mem_singleton, or_true]
  · rw [← execCmdScsiCdb_eq io.driver () hcdb] at hr
    exact (execCmdScsiCdb_rc hfit hcdb).1 r hr

end transport

/-! ### The list of log pages -/

/-- GOOD, without sense data and without data. -/
def blankIo : Completion := .sgio { sb := .replicate 32 0, data := [] }

/-- The page that is read then. -/
def blankPage : Page := .ofFn fun _ => 0

/-- A drive that completes everything like this, but the list of its log pages. -/
def withoutLogs (io : Completion) : Completes := fun _ req =>
  if req = logListRequest then io else blankIo

section identify

variable {io : Completion}

theorem askThrough_error {W : Type} {send : Cmd W} {errno : W → Int} {command : CdbCommand}
    {parms : List U64} {w : W} {r : Exec W}
    (h : send command .read (some zeroed) 512 parms w = some r) (hrc : r.rc ≠ 0) :
    askThrough send errno command parms w = some (.error (errno r.world), r.world) := by
  unfold askThrough
  rw [h]
  simp only [Option.bind_eq_bind, Option.bind_some, if_pos hrc]

/-- Another page is there, and blank. -/
theorem ask_blank {command : CdbCommand} {parms : List U64} {cdb : Cdb}
    (hcdb : loadCdbScsi command parms = some cdb) (hne : cdb ≠ logListRequest.cdb) (t : Traffic) :
    ∃ t', askThrough (execCmdScsiCdb (transport (withoutLogs io))) Traffic.errno command parms t =
      some (.ok blankPage, t') ∧ ∀ x ∈ t.received, x ∈ t'.received := by
  have hio : withoutLogs io t.received ⟨.read, cdb, some zeroed, 512⟩ = blankIo :=
    if_neg fun h => hne (congrArg Request.cdb h)
  refine ⟨t.next ⟨.read, cdb, some zeroed, 512⟩ blankIo, ?_, fun x hx => ?_⟩
  · unfold askThrough
    rw [execCmdScsiCdb_eq _ _ hcdb, sendCdb_transport, hio]
    rfl
  · change x ∈ t.received ++ _
    exact List.mem_append_left _ hx

/-- The list of log pages is not there. -/
theorem ask_logList (hfit : io.Fits (some zeroed) 512) (hover : ¬ io.Overruns)
    (hcaught : io.Caught logListRequest.cdb fun _ => False)
    (herr : io.failure logListRequest = EBADE) (t : Traffic) :
    ∃ t', askThrough (execCmdScsiCdb (transport (withoutLogs io))) Traffic.errno .scsiLogPage
        [SCSI_LOG_SENCE_PAGE_LIST.setWidth 64] t = some (.error EBADE, t') ∧
      (logListRequest, io) ∈ t'.received := by
  have hcdb : loadCdbScsi .scsiLogPage [SCSI_LOG_SENCE_PAGE_LIST.setWidth 64] =
    some logListRequest.cdb := rfl
  have hio : withoutLogs io t.received logListRequest = io := if_pos rfl
  obtain ⟨r, hr⟩ : ∃ r, execCmdScsiCdb io.driver .scsiLogPage .read (some zeroed) 512
      [SCSI_LOG_SENCE_PAGE_LIST.setWidth 64] () = some r := by
    rw [execCmdScsiCdb_eq io.driver () hcdb]
    exact sendCdb_isSome hfit hover
  have hrc : r.rc ≠ 0 := ((execCmdScsiCdb_rc hfit hcdb).1 r hr).2 hcaught
  have hsend : execCmdScsiCdb (transport (withoutLogs io)) .scsiLogPage .read (some zeroed) 512
      [SCSI_LOG_SENCE_PAGE_LIST.setWidth 64] t =
      some ⟨r.rc, r.data, r.parms, t.next logListRequest io⟩ := by
    rw [execCmdScsiCdb_eq _ _ hcdb] at hr ⊢
    have hreq : (⟨.read, logListRequest.cdb, some zeroed, 512⟩ : Request Cdb) = logListRequest :=
      rfl
    rw [sendCdb_transport, hreq, hio, hr, Option.map_some]
  have herrno : (t.next logListRequest io).errno = EBADE := herr
  refine ⟨t.next logListRequest io, ?_, ?_⟩
  · rw [askThrough_error hsend hrc, herrno]
  · rw [Traffic.received_next hfit]
    exact List.mem_append_right _ (List.mem_singleton.2 rfl)

section run

variable {W α β : Type} {send : Cmd W} {errno : W → Int} {t t' : W}

theorem bind_run {x : ExceptT Int (StateT W Option) α} {f : α → ExceptT Int (StateT W Option) β}
    {a : α} (h : x.run t = some (.ok a, t')) : (x >>= f).run t = (f a).run t' := by
  change (x.run t).bind _ = _
  rw [h]
  rfl

theorem ask_run {command : CdbCommand} {parms : List U64} {tdata : Page}
    (h : askThrough send errno command parms t = some (.ok tdata, t')) :
    ((askThrough send errno).ask command parms).run t = some (.ok tdata, t') := by
  unfold Asks.ask
  rw [lift_bind_run, h]
  rfl

theorem loadLogPages_run {info : ScsiInfo} (h : askThrough send errno .scsiLogPage
    [SCSI_LOG_SENCE_PAGE_LIST.setWidth 64] t = some (.error EBADE, t')) :
    ((askThrough send errno).loadLogPages info).run t = some (.ok info, t') := by
  unfold Asks.loadLogPages
  rw [lift_bind_run, h]
  rfl

/-- A drive without pages is only asked for its capacity. -/
theorem loadPages_run {info : ScsiInfo} (hvpd : info.vpdPages = []) (hlba : info.supportsLBA = true)
    (h : askThrough send errno .scsiReadCapacity [] t = some (.ok blankPage, t')) :
    ∃ info', (do
      let info ← (askThrough send errno).loadSerial info
      let info ← (askThrough send errno).loadIdent 4 info
      let info ← (askThrough send errno).loadLimits info
      let info ← (askThrough send errno).loadCharacteristics info
      (askThrough send errno).loadReadCapacity info).run t = some (.ok info', t') := by
  have hserial : ((askThrough send errno).loadSerial info).run t = some (.ok { info with
      serial := strncpy info.serial unknownSerial SERIAL_NUMBER_LEN }, t) := by
    unfold Asks.loadSerial
    rw [hvpd]
    rfl
  generalize hnamed : ({ info with serial := strncpy info.serial unknownSerial SERIAL_NUMBER_LEN } :
    ScsiInfo) = named at hserial
  have hnone (page : Byte) : ¬ named.vpdPages.contains page = true := by
    simp only [← hnamed, hvpd, List.contains_nil, Bool.false_eq_true, not_false_eq_true]
  have hident : ((askThrough send errno).loadIdent 4 named).run t = some (.ok named, t) := by
    unfold Asks.loadIdent
    rw [if_neg (hnone _)]
    rfl
  have hlimits : ((askThrough send errno).loadLimits named).run t = some (.ok named, t) := by
    unfold Asks.loadLimits
    rw [if_neg (hnone _)]
    rfl
  have hchars : ((askThrough send errno).loadCharacteristics named).run t =
      some (.ok named, t) := by
    unfold Asks.loadCharacteristics
    rw [if_neg (hnone _)]
    rfl
  rw [bind_run hserial, bind_run hident, bind_run hlimits, bind_run hchars]
  unfold Asks.loadReadCapacity
  rw [if_pos (by rw [← hnamed]; exact hlba), bind_run (ask_run h)]
  exact ⟨_, rfl⟩

end run

theorem blankPage_getD (i : Nat) : blankPage.toList.getD i 0 = 0 := by
  unfold blankPage
  simp only [Vector.toList_ofFn, List.getD_eq_getElem?_getD, List.getElem?_ofFn]
  split
  · rfl
  · rfl

/-- What `CMD_IDENTIFY` stores of a blank page. -/
theorem loadInquiry_blank : ∃ info, loadInquiry blankPage 0x00 = some (.ok info) ∧
    info.supportsLBA = true ∧ info.vpdPages = [] := by
  unfold loadInquiry
  simp only [blankPage_getD]
  exact ⟨_, rfl, rfl, rfl⟩

theorem scanPages_blank : scanPages blankPage = some [] := by
  unfold scanPages buffLen
  simp only [blankPage_getD]
  rfl

/-- `CMD_IDENTIFY` succeeds without the list. -/
theorem identify_passes (drive : DeviceHandle) (logPages : List Byte)
    (hfit : io.Fits (some zeroed) 512) (hover : ¬ io.Overruns)
    (hcaught : io.Caught logListRequest.cdb fun _ => False)
    (herr : io.failure logListRequest = EBADE) :
    ∃ t, execCmdScsiRc 0 drive logPages (transport (withoutLogs io)) Traffic.errno .identify .read
        (some zeroed) 512 [] {} = some (0, t) ∧ (logListRequest, io) ∈ t.received := by
  obtain ⟨info, hinfo, hlba, hvpd⟩ := loadInquiry_blank
  obtain ⟨t₁, h₁, -⟩ := @ask_blank io .scsiInquiry [] _ rfl (by decide) {}
  obtain ⟨t₂, h₂, hseen⟩ := ask_logList hfit hover hcaught herr t₁
  obtain ⟨t₃, h₃, hkept₃⟩ := @ask_blank io .scsiVpdPage [SCSI_VPD_PAGE_LIST.setWidth 64] _ rfl
    (by decide) t₂
  obtain ⟨t₄, h₄, hkept₄⟩ := @ask_blank io .scsiReadCapacity [] _ rfl (by decide) t₃
  refine ⟨t₄, ?_, hkept₄ _ (hkept₃ _ hseen)⟩
  have hvpd' : ({ info with vpdPages := [] } : ScsiInfo).vpdPages = [] := rfl
  obtain ⟨info', hpages⟩ := loadPages_run hvpd' hlba h₄
  have hlists : (liftM (scanPages blankPage) : ExceptT Int (StateT Traffic Option) _).run t₃ =
      some (.ok [], t₃) := by
    rw [scanPages_blank]
    rfl
  have hread : ((loadInquiry blankPage 0x00).lift : ExceptT Int (StateT Traffic Option) _).run t₁ =
      some (.ok info, t₁) := by
    rw [hinfo]
    rfl
  have hrun : (askThrough (execCmdScsiCdb (transport (withoutLogs io)))
      Traffic.errno).scsiIdentify.run {} = some (.ok info', t₄) := by
    unfold Asks.scsiIdentify
    rw [bind_run (ask_run h₁), bind_run hread, bind_run (loadLogPages_run h₂),
      bind_run (ask_run h₃), bind_run hlists]
    exact hpages
  change rcOf _ _ = _
  unfold rcOf
  rw [hrun]
  rfl

end identify

/-! ## The result -/

/-- What catches a completion in `exec_cmd_ata`: the transport, or the registers it returns to every
command that asks for them. -/
def AtaCaught (drive : DeviceHandle) (req : Request Cdb) (io : Completion) : Prop :=
  ¬ io.Overruns ∧ ∀ command parms tf parms',
    getTf command drive.info.bit48LBA parms = some (some tf, parms') →
      req.cdb = loadCdbAta tf req.rw → io.Caught req.cdb (AtaReturnBad drive command tf parms')

/-- What catches one in `exec_cmd_scsi`: the transport, if it is not the list of log pages that is
refused with errno 52. -/
def ScsiCaught (req : Request Cdb) (io : Completion) : Prop :=
  ¬ io.Overruns ∧
    ((∃ command parms, loadCdbScsi command parms = some req.cdb) →
      io.Caught req.cdb fun _ => False) ∧
    ¬ (req = logListRequest ∧ io.failure req = EBADE)

/-- Every command that sends the request and receives the completion returns 0. -/
def AlwaysAccepted (drive : DeviceHandle) (req : Request Cdb) (io : Completion) : Prop :=
  ∀ (completes : Completes) (t : Traffic), completes t.received req = io →
    (∀ command parms tf parms', getTf command drive.info.bit48LBA parms = some (some tf, parms') →
      req.cdb = loadCdbAta tf req.rw →
        ∃ r, execCmdAtaTf drive (transport completes) command req.rw req.data req.dataLen parms t =
          some r ∧ r.rc = 0) ∧
    ∀ command parms, loadCdbScsi command parms = some req.cdb →
      ∃ r, execCmdScsiCdb (transport completes) command req.rw req.data req.dataLen parms t =
        some r ∧ r.rc = 0

section result

variable {drive : DeviceHandle} {logPages : List Byte} {req : Request Cdb} {io : Completion}

theorem ata_reported_iff (hfit : io.Fits req.data req.dataLen) :
    AlwaysReported (fun fuel driver => execCmdAtaRc fuel drive driver) req io ↔
      AtaCaught drive req io := by
  constructor
  · rintro ⟨hover, hreported⟩
    refine ⟨hover, fun command parms tf parms' htf hreq => ?_⟩
    obtain ⟨rc, t, hrun, hseen, hrc⟩ := ata_call hfit hover htf hreq
    exact hrc.1 (hreported _ _ _ _ _ _ _ _ _ hrun hseen)
  · rintro ⟨hover, hcaught⟩
    refine ⟨hover, fun fuel completes command rw data dataLen parms rc t hrun hseen => ?_⟩
    exact execCmdAtaRc_reports (execCmdAtaTf_reports hfit hcaught) fuel _ _ _ _ _ _ _ _ hrun
      (List.not_mem_nil) hseen

theorem scsi_reported_iff (hfit : io.Fits req.data req.dataLen) :
    AlwaysReported (fun fuel driver => execCmdScsiRc fuel drive logPages driver Traffic.errno) req
      io ↔ ScsiCaught req io := by
  constructor
  · rintro ⟨hover, hreported⟩
    have hcaught : (∃ command parms, loadCdbScsi command parms = some req.cdb) →
        io.Caught req.cdb fun _ => False := by
      rintro ⟨command, parms, hcdb⟩
      obtain ⟨rc, t, hrun, hseen, hrc⟩ := scsi_call hfit hover hcdb
      exact hrc.1 (hreported _ _ _ _ _ _ _ _ _ hrun hseen)
    refine ⟨hover, hcaught, ?_⟩
    rintro ⟨rfl, herr⟩
    obtain ⟨t, hrun, hseen⟩ := identify_passes drive logPages hfit hover
      (hcaught ⟨.scsiLogPage, [SCSI_LOG_SENCE_PAGE_LIST.setWidth 64], rfl⟩) herr
    exact hreported _ _ _ _ _ _ _ _ _ hrun hseen rfl
  · rintro ⟨hover, hcaught, hlist⟩
    refine ⟨hover, fun fuel completes command rw data dataLen parms rc t hrun hseen => ?_⟩
    exact execCmdScsiRc_reports (execCmdScsiCdb_reports hfit hcaught)
      (logListReports_transport hlist) fuel _ _ _ _ _ _ _ _ _ _ hrun (List.not_mem_nil) hseen

theorem good_accepted (hfit : io.Fits req.data req.dataLen) (hgood : io.Good) :
    AlwaysAccepted drive req io := by
  obtain ⟨rw, cdb, data, dataLen⟩ := req
  rintro completes t rfl
  constructor
  · intro command parms tf parms' htf hreq
    change cdb = loadCdbAta tf rw at hreq
    subst hreq
    obtain ⟨r, hr, hrc⟩ := (execCmdAtaTf_rc hfit htf).2 hgood
    rw [execCmdAtaTf_eq _ _ htf] at hr ⊢
    rw [sendCdb_transport, hr]
    exact ⟨_, rfl, hrc⟩
  · intro command parms hcdb
    obtain ⟨r, hr, hrc⟩ := (execCmdScsiCdb_rc hfit hcdb).2 hgood
    rw [execCmdScsiCdb_eq _ _ hcdb] at hr ⊢
    rw [sendCdb_transport, hr]
    exact ⟨_, rfl, hrc⟩

end result

/-- **When no failed command is reported as success**: every call of `exec_cmd_ata` or
`exec_cmd_scsi`, whatever it sends, that receives a failed completion returns non-zero exactly when
that completion is caught. A good one is always reported as success. -/
theorem completion_reported_iff (drive : DeviceHandle) (logPages : List Byte) {req : Request Cdb}
    {io : Completion} (hfit : io.Fits req.data req.dataLen) :
    ((io.Failed → AlwaysReported (fun fuel driver => execCmdAtaRc fuel drive driver) req io) ↔
      (io.Failed → AtaCaught drive req io)) ∧
    ((io.Failed → AlwaysReported
        (fun fuel driver => execCmdScsiRc fuel drive logPages driver Traffic.errno) req io) ↔
      (io.Failed → ScsiCaught req io)) ∧
    (io.Good → AlwaysAccepted drive req io) :=
  ⟨imp_congr_right fun _ => ata_reported_iff hfit, imp_congr_right fun _ => scsi_reported_iff hfit,
    good_accepted hfit⟩

/-- Sense data for MEDIUM ERROR, current, in the fixed and in the descriptor format. -/
def fixedSense : Vector Byte 32 :=
  #v[0x70, 0, 0x03, 0, 0, 0, 0, 0x0a, 0, 0, 0, 0, 0x11, 0, 0, 0,
    0, 0, 0, 0, 0, 0, 0, 0, 0, 0, 0, 0, 0, 0, 0, 0]
def descSense : Vector Byte 32 :=
  #v[0x72, 0x03, 0x11, 0, 0, 0, 0, 0x0e, 0x09, 0x0c, 0, 0x40, 0, 0, 0, 0,
    0, 0, 0, 0, 0x40, 0x51, 0, 0, 0, 0, 0, 0, 0, 0, 0, 0]

/-- A CHECK CONDITION with this sense data. -/
def checkCondition (sb : Vector Byte 32) : Completion :=
  .sgio { status := 0x02, driverStatus := 0x08, sb, data := [] }

/-- A drive with 48-bit addresses, and the read of its first block. -/
def sampleDrive : DeviceHandle := { info := { bit48LBA := true } }
def firstRead : Request Cdb :=
  ⟨.read, loadCdbAta { dev := ATA_USING_LBA, command := ATA_OP_READ_DMA_EXT, lob := { nsect := 1 } }
    .read, some [], 512⟩

theorem failed_medium_error : (checkCondition fixedSense).Failed ∧
    (checkCondition descSense).Failed := by
  constructor
  · exact .inr (by rw [SenseError]; decide)
  · exact .inr (by rw [SenseError]; decide)

/-- An unreadable block is reported when the sense data has the fixed format. -/
theorem completion_reported_sample :
    AlwaysReported (fun fuel driver => execCmdAtaRc fuel sampleDrive driver) firstRead
      (checkCondition fixedSense) := by
  have hfit : (checkCondition fixedSense).Fits firstRead.data firstRead.dataLen := trivial
  refine (completion_reported_iff sampleDrive [] hfit).1.2 (fun _ => ⟨?_, ?_⟩)
    failed_medium_error.1
  · rintro ⟨-, hnone⟩
    cases hnone
  · exact fun _ _ _ _ _ _ => .inr ⟨_, rfl, .inl rfl⟩

/-- An unreadable block is read successfully: with sense data in the descriptor format through
SG_IO, and with any sense data through SAT. A drive that cannot read its list of log pages is
identified all the same. -/
theorem completion_not_reported :
    ¬ ((checkCondition descSense).Failed → AlwaysReported
        (fun fuel driver => execCmdAtaRc fuel sampleDrive driver) firstRead
        (checkCondition descSense)) ∧
    ¬ ((Completion.sat ⟨0x02, fixedSense.take 16, [], 0⟩).Failed → AlwaysReported
        (fun fuel driver => execCmdAtaRc fuel sampleDrive driver) firstRead
        (.sat ⟨0x02, fixedSense.take 16, [], 0⟩)) ∧
    ¬ ((checkCondition fixedSense).Failed → AlwaysReported
        (fun fuel driver => execCmdScsiRc fuel {} [] driver Traffic.errno) logListRequest
        (checkCondition fixedSense)) := by
  refine ⟨fun h => ?_, fun h => ?_, fun h => ?_⟩
  · obtain ⟨-, h⟩ := h failed_medium_error.2
    exact h 0 (fun _ _ => checkCondition descSense) .read .read (some []) 512 [0, 1, 1, 0] 0 _ rfl
      (.head _) rfl
  · obtain ⟨-, h⟩ := h (.inr (by rw [SenseError]; decide))
    exact h 0 (fun _ _ => .sat ⟨0x02, fixedSense.take 16, [], 0⟩) .read .read (some []) 512
      [0, 1, 1, 0] 0 _ rfl (.head _) rfl
  · obtain ⟨hover, h⟩ := h failed_medium_error.1
    have hcaught : (checkCondition fixedSense).Caught logListRequest.cdb fun _ => False :=
      .inr ⟨_, rfl, .inl rfl⟩
    have hfit : (checkCondition fixedSense).Fits (some zeroed) 512 := trivial
    obtain ⟨t, hrun, hseen⟩ := identify_passes {} [] hfit hover hcaught rfl
    exact h _ _ _ _ _ _ _ _ _ hrun hseen rfl

end Drive
