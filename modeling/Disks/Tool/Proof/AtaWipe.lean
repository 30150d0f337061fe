import Disks.Tool.WipeDrive

/-!
# What an ATA wipe reports

`doATAWipe` and `doCancel` against a drive with any sequence of answers to SCT STATUS (`Script`),
under signals that come at any read of `wipeContinue`. The commands that the drive gets are
recorded with the states in its replies (`Session`).

* `statusOf_sctStatus`: the state of an erase is a function of the extended status code.
* `doCancel_zero_iff`, `run_wipePoll_iff`, `doATAWipe_zero_iff`: what a call that returns 0 does.
* `closes_reads_iff`, `closes_stops_iff`: the replies it reads behind the polling.
* `ataWipe_status_iff`: **when a wipe that returns 0 has last seen DONE, was not interrupted,
  stopped or cancelled, and when a cancel that returns 0 has last seen something other than
  RUNNING.**
-/

namespace WipeDrive

open Loop Bytes Drive

/-! ## The state of an erase -/

/-- The extended status code of an SCT status page, `0xffff` while a command runs. -/
def extStatus (page : List Byte) : BitVec 16 := page.getD 15 0 ++ page.getD 14 0

theorem extStatus_running_iff (page : List Byte) :
    extStatus page = 0xffff ↔ page.getD 15 0 = 0xff ∧ page.getD 14 0 = 0xff := by
  have hn : (extStatus page).toNat =
      (page.getD 15 0).toNat * 2 ^ 8 + (page.getD 14 0).toNat := by
    rw [extStatus, BitVec.toNat_append, ← Nat.shiftLeft_add_eq_or_of_lt (by omega),
      Nat.shiftLeft_eq]
  have h₁₆ : (0xffff : BitVec 16).toNat = 2 ^ 16 - 1 := rfl
  have h₈ : (0xff : Byte).toNat = 2 ^ 8 - 1 := rfl
  rw [← BitVec.toNat_inj, ← BitVec.toNat_inj, ← BitVec.toNat_inj, hn, h₁₆, h₈]
  omega

theorem setWidth_append (a b : Byte) :
    a.setWidth 64 <<< 8 ||| b.setWidth 64 = (a ++ b).setWidth 64 := by
  apply BitVec.eq_of_getLsbD_eq
  intro i hi
  simp only [BitVec.getLsbD_or, BitVec.getLsbD_shiftLeft, BitVec.getLsbD_setWidth, hi,
    BitVec.getLsbD_append, decide_true, Bool.true_and]
  by_cases h : i < 8
  · simp [h]
  · have hi' : i - 8 < 64 := by omega
    simp [h, hi', BitVec.getLsbD_of_ge b i (by omega)]

/-- A flag in `x` is not touched by a number below it. -/
theorem or_and_twoPow {x p : U64} {k : Nat} (hp : p.getLsbD k = false) :
    (x ||| p) &&& BitVec.twoPow 64 k = x &&& BitVec.twoPow 64 k := by
  rw [BitVec.and_or_distrib_right, BitVec.and_twoPow p, hp]
  exact BitVec.or_zero

/-- A page of a command that runs: the flag and the position. -/
theorem sctStatus_running {page : List Byte} (h : extStatus page = 0xffff) :
    sctStatus page &&& WRITESAME_STATUS_DONE_STATUS = 0 ∧
      sctStatus page &&& WRITESAME_STATUS_LBA = WRITESAME_STATUS_LBA := by
  rw [extStatus_running_iff] at h
  rw [sctStatus, if_pos h]
  constructor
  · refine (or_and_twoPow (k := 61) ?_).trans (by decide)
    simp (disch := omega) [BitVec.getLsbD_of_ge]
  · refine (or_and_twoPow (k := 62) ?_).trans (by decide)
    simp (disch := omega) [BitVec.getLsbD_of_ge]

/-- A page of a command that has ended: the flag and the extended status code. -/
theorem sctStatus_ended {page : List Byte} (h : extStatus page ≠ 0xffff) :
    sctStatus page &&& WRITESAME_STATUS_DONE_STATUS = WRITESAME_STATUS_DONE_STATUS ∧
      sctStatus page &&& WRITESAME_STATUS_LBA = 0 ∧
      sctStatus page &&& ~~~WRITESAME_STATUS_DONE_STATUS = (extStatus page).setWidth 64 := by
  have hbit : ∀ k, 16 ≤ k → ((extStatus page).setWidth 64).getLsbD k = false := fun k hk => by
    simp [BitVec.getLsbD_of_ge (extStatus page) k hk]
  rw [ne_eq, extStatus_running_iff] at h
  rw [sctStatus, if_neg h, BitVec.or_assoc, setWidth_append,
    show page.getD 15 0 ++ page.getD 14 0 = extStatus page from rfl]
  refine ⟨(or_and_twoPow (hbit 61 (by omega))).trans (by decide),
    (or_and_twoPow (hbit 62 (by omega))).trans (by decide), ?_⟩
  have hmask : (extStatus page).setWidth 64 &&&
      (WRITESAME_STATUS_DONE_STATUS ||| ~~~WRITESAME_STATUS_DONE_STATUS) =
        (extStatus page).setWidth 64 := BitVec.and_allOnes
  have hzero : (extStatus page).setWidth 64 &&& WRITESAME_STATUS_DONE_STATUS = 0 := by
    rw [show WRITESAME_STATUS_DONE_STATUS = BitVec.twoPow 64 61 from rfl, BitVec.and_twoPow,
      hbit 61 (by omega)]
    rfl
  rw [BitVec.and_or_distrib_left, hzero] at hmask
  rw [BitVec.and_or_distrib_right]
  exact hmask

theorem sctStatus_ne (page : List Byte) : sctStatus page ≠ -1 := by
  intro he
  by_cases h : extStatus page = 0xffff
  · have hd := (sctStatus_running h).1
    rw [he] at hd
    exact absurd hd (by decide)
  · have hd := (sctStatus_ended h).2.1
    rw [he] at hd
    exact absurd hd (by decide)

theorem statusOf_sctStatus (page : List Byte) :
    statusOf (sctStatus page) =
      if extStatus page = 0xffff then STATUS_RUNNING
      else if extStatus page = 0 then STATUS_DONE
      else if extStatus page = 8 then STATUS_INTERRUPTED
      else STATUS_STOPPED_OTHER := by
  rw [statusOf, if_neg (sctStatus_ne page)]
  by_cases h : extStatus page = 0xffff
  · obtain ⟨hd, hl⟩ := sctStatus_running h
    rw [if_neg (not_not.2 hd), hl, if_pos (by decide), if_pos h]
  · obtain ⟨hd, -, hc⟩ := sctStatus_ended h
    have hcode : ∀ c : BitVec 16, (extStatus page).setWidth 64 = c.setWidth 64 ↔
        extStatus page = c := fun c => by
      rw [← BitVec.toNat_inj, ← BitVec.toNat_inj, BitVec.toNat_setWidth, BitVec.toNat_setWidth,
        Nat.mod_eq_of_lt (by omega), Nat.mod_eq_of_lt (by omega)]
    rw [hd, if_pos (by decide), if_neg h]
    simp only [hc]
    rw [show (0x000 : U64) = (0 : BitVec 16).setWidth 64 from rfl,
      show (0x0008 : U64) = (8 : BitVec 16).setWidth 64 from rfl]
    simp only [hcode]

theorem sctStatus_lba_iff (page : List Byte) :
    sctStatus page &&& WRITESAME_STATUS_LBA = 0 ↔ statusOf (sctStatus page) ≠ STATUS_RUNNING := by
  rw [statusOf_sctStatus]
  by_cases h : extStatus page = 0xffff
  · rw [(sctStatus_running h).2, if_pos h]
    decide
  · rw [(sctStatus_ended h).2.1, if_neg h]
    refine iff_of_true rfl ?_
    split
    · decide
    · split <;> decide

/-! ## A drive and what is asked of it -/

/-- The answer to one SCT STATUS: a page, or `none` for a command that failed. -/
abbrev StatusReply := Option (List Byte)

/-- The state `doStatus` reads from an answer. -/
def replyStatus : StatusReply → Int
  | none => GENERAL_ERROR
  | some page => statusOf (sctStatus page)

/-- How a drive answers: each SCT STATUS with the next reply, WRITE SAME, SMART RETURN STATUS. -/
structure Script where
  replies : Nat → StatusReply
  writeSameRc : Int
  smartRc : Int
  smartParm : U64

/-- The state in the reply with a number. -/
def Script.state (s : Script) (n : Nat) : Int := replyStatus (s.replies n)

/-- A command that the drive got; of SCT STATUS the state in the reply. -/
inductive Sent
  | state (st : Int)
  | writeSame
  | smartStatus
deriving DecidableEq

/-- The number of replies that have been read, and the commands so far. -/
structure Session where
  read : Nat
  log : List Sent

/-- SCT STATUS. -/
def Session.next (w : Session) (s : Script) : Session :=
  ⟨w.read + 1, w.log ++ [.state (s.state w.read)]⟩

/-- Another command. -/
def Session.sent (w : Session) (command : Sent) : Session := ⟨w.read, w.log ++ [command]⟩

/-- `k` times SCT STATUS. -/
def Session.reads (w : Session) (s : Script) (k : Nat) : Session :=
  ⟨w.read + k, w.log ++ (List.range k).map fun i => .state (s.state (w.read + i))⟩

theorem Session.reads_zero (w : Session) (s : Script) : w.reads s 0 = w := by
  simp [Session.reads]

theorem Session.reads_next (w : Session) (s : Script) (k : Nat) :
    (w.reads s k).next s = w.reads s (k + 1) := by
  simp [Session.reads, Session.next, List.range_succ, Nat.add_assoc]

/-- The drive. -/
def Script.cmd (s : Script) : Cmd Session := fun command _ data _ parms w =>
  match command with
  | .sctStatus =>
    match s.replies w.read with
    | none => some ⟨-1, data.getD [], parms, w.next s⟩
    | some page => some ⟨0, page, parms, w.next s⟩
  | .writeSame => some ⟨s.writeSameRc, data.getD [], parms, w.sent .writeSame⟩
  | .smartStatus => some ⟨s.smartRc, data.getD [], [s.smartParm], w.sent .smartStatus⟩
  | _ => none

/-- An ATA drive with SCT. -/
def Ready (drive : DeviceHandle) : Prop := drive.protocol = .ata ∧ drive.info.supportsSCT

/-- The SMART command that cancels an erase succeeds. -/
def SmartOk (drive : DeviceHandle) (s : Script) : Prop :=
  drive.info.SMARTSupport ∧ drive.info.SMARTEnabled ∧ s.smartRc = 0 ∧
    (s.smartParm.setWidth 32).toInt ≠ -1

section ready

variable {drive : DeviceHandle} (h : Ready drive) (s : Script) (w : Session)

include h

theorem wirteSameStatus_page {page : List Byte} (hpage : s.replies w.read = some page) :
    wirteSameStatus drive s.cmd w = some (sctStatus page, w.next s) := by
  rw [wirteSameStatus, h.2]
  simp [Script.cmd, hpage]

theorem wirteSameStatus_failed (hfailed : s.replies w.read = none) :
    wirteSameStatus drive s.cmd w = some (-1, w.next s) := by
  rw [wirteSameStatus, h.2]
  simp [Script.cmd, hfailed]

theorem doStatus_ready : doStatus drive s.cmd w = some (s.state w.read, w.next s) := by
  rw [doStatus, if_neg (not_not.2 h.1), Script.state]
  cases hreply : s.replies w.read with
  | none =>
    rw [wirteSameStatus_failed h s w hreply]
    rfl
  | some page =>
    rw [wirteSameStatus_page h s w hreply]
    rfl

end ready

/-- Without SCT, or for another protocol, there is no state to read. -/
theorem doStatus_not_ready {drive : DeviceHandle} (h : ¬ Ready drive) (s : Script) (w : Session) :
    doStatus drive s.cmd w = some (GENERAL_ERROR, w) := by
  by_cases hp : drive.protocol = .ata
  · have hsct : drive.info.supportsSCT = false := by
      cases hb : drive.info.supportsSCT with
      | false => rfl
      | true => exact absurd ⟨hp, hb⟩ h
    rw [doStatus, if_neg (not_not.2 hp), wirteSameStatus, hsct]
    rfl
  · rw [doStatus, if_pos hp]

theorem smartStatus_script (drive : DeviceHandle) (s : Script) (status : U64) (w : Session) :
    ∃ rc w', smartStatus drive s.cmd status w = some (rc, w') ∧ (rc ≠ -1 ↔ SmartOk drive s) ∧
      (rc ≠ -1 → w' = w.sent .smartStatus) := by
  rw [smartStatus, SmartOk]
  by_cases hs : drive.info.SMARTSupport
  · by_cases he : drive.info.SMARTEnabled
    · rw [hs, he]
      refine ⟨_, _, rfl, ?_, fun _ => rfl⟩
      by_cases hrc : s.smartRc = 0
      · simp [hrc]
      · simp [hrc]
    · exact ⟨-1, w, by simp [he], by simp [he], fun hne => absurd rfl hne⟩
  · exact ⟨-1, w, by simp [hs], by simp [hs], fun hne => absurd rfl hne⟩

/-! ## Cancelling -/

/-- What a `doCancel` that returns 0 does: it finds the erase not running, or it finds it running,
stops it with a SMART command, and reads the state again. -/
inductive Cancels (s : Script) (smart : Prop) (w : Session) : Session → Prop
  | idle : s.state w.read ≠ GENERAL_ERROR → s.state w.read ≠ STATUS_RUNNING →
      Cancels s smart w (w.next s)
  | stopped : smart → s.state w.read = STATUS_RUNNING → s.state (w.read + 1) ≠ GENERAL_ERROR →
      Cancels s smart w (((w.next s).sent .smartStatus).next s)

/-- A `doCancel` fails or returns 0. -/
theorem doCancel_cases {drive : DeviceHandle} (h : Ready drive) (s : Script) (status : U64)
    (w : Session) :
    (∃ w', doCancel drive s.cmd status w = some (GENERAL_ERROR, w') ∧
      ∀ w', ¬ Cancels s (SmartOk drive s) w w') ∨
    ∃ w', doCancel drive s.cmd status w = some (0, w') ∧
      ∀ w'', Cancels s (SmartOk drive s) w w'' ↔ w'' = w' := by
  rw [doCancel, doStatus_ready h]
  simp only [Option.bind_eq_bind, Option.bind_some]
  by_cases hne : s.state w.read = GENERAL_ERROR
  · rw [if_pos hne]
    refine .inl ⟨_, rfl, ?_⟩
    rintro w' (⟨hne', -⟩ | ⟨-, hrunning, -⟩)
    · exact hne' hne
    · rw [hne] at hrunning
      cases hrunning
  rw [if_neg hne]
  by_cases hrunning : s.state w.read = STATUS_RUNNING
  swap
  · rw [if_pos hrunning]
    refine .inr ⟨_, rfl, fun w'' => ⟨?_, ?_⟩⟩
    · rintro (⟨-, -⟩ | ⟨-, hst, -⟩)
      · rfl
      · exact absurd hst hrunning
    · rintro rfl
      exact .idle hne hrunning
  rw [if_neg (not_not.2 hrunning)]
  obtain ⟨rc, w', hsmart, hok, hw'⟩ := smartStatus_script drive s status (w.next s)
  simp only [hsmart, Option.bind_some]
  by_cases hrc : rc = -1
  · rw [if_pos hrc]
    refine .inl ⟨_, rfl, ?_⟩
    rintro w'' (⟨-, hst⟩ | ⟨hs, -, -⟩)
    · exact hst hrunning
    · exact hok.2 hs hrc
  rw [if_neg hrc]
  obtain rfl := hw' hrc
  simp only [doStatus_ready h, Option.bind_some]
  by_cases hne' : s.state (w.read + 1) = GENERAL_ERROR
  · refine .inl ⟨_, if_pos hne', ?_⟩
    rintro w'' (⟨-, hst⟩ | ⟨-, -, hst⟩)
    · exact hst hrunning
    · exact hst hne'
  · refine .inr ⟨_, if_neg hne', fun w'' => ⟨?_, ?_⟩⟩
    · rintro (⟨-, hst⟩ | ⟨-, -, -⟩)
      · exact absurd hrunning hst
      · rfl
    · rintro rfl
      exact .stopped (hok.1 hrc) hrunning hne'

theorem doCancel_zero_iff {drive : DeviceHandle} (h : Ready drive) {s : Script} {status : U64}
    {w w' : Session} : doCancel drive s.cmd status w = some (0, w') ↔
      Cancels s (SmartOk drive s) w w' := by
  rcases doCancel_cases h s status w with ⟨w₁, hrun, hno⟩ | ⟨w₁, hrun, hiff⟩
  · rw [hrun]
    exact iff_of_false (fun heq => by cases heq) (hno w')
  · rw [hrun, hiff, Option.some.injEq, Prod.mk.injEq, eq_self, true_and, @eq_comm _ w']

/-! ## Polling -/

/-- The polls before the one with this number find the erase running, and no signal has come. -/
def Running (s : Script) (sig : Nat → Bool) (k : Nat) : Prop :=
  ∀ i < k, wipeContinue sig i = true ∧ s.state (i + 1) = STATUS_RUNNING

/-- The number of replies that the polling loop reads if `k` polls find the erase running. -/
def polled (sig : Nat → Bool) (k : Nat) : Nat := if wipeContinue sig k then k + 1 else k

/-- The polling ends behind `k` polls that find the erase running, with a signal or with a reply
that is neither failed nor of a running erase. -/
def PollingEnds (s : Script) (sig : Nat → Bool) (k : Nat) : Prop :=
  Running s sig k ∧
    (wipeContinue sig k = true →
      s.state (k + 1) ≠ GENERAL_ERROR ∧ s.state (k + 1) ≠ STATUS_RUNNING)

section poll

variable {drive : DeviceHandle} (h : Ready drive) (s : Script) {sig : Nat → Bool} {n : Nat}
  (w : Session)

theorem wipePoll_signal (hsig : wipeContinue sig n = false) :
    wipePoll drive s.cmd sig (n, w) = some (.stop (some (n + 1), w)) := by
  rw [wipePoll, hsig]
  rfl

include h

theorem wipePoll_read (hsig : wipeContinue sig n = true) :
    wipePoll drive s.cmd sig (n, w) = some (
      if s.state w.read = GENERAL_ERROR then .stop (none, w.next s)
      else if s.state w.read ≠ STATUS_RUNNING then .stop (some (n + 1), w.next s)
      else .next (n + 1, w.next s)) := by
  rw [wipePoll, hsig, Script.state]
  cases hreply : s.replies w.read with
  | none =>
    simp only [Bool.not_true, Bool.false_eq_true, if_false, wirteSameStatus_failed h s w hreply,
      Option.bind_eq_bind, Option.bind_some]
    rfl
  | some page =>
    simp only [Bool.not_true, Bool.false_eq_true, if_false, wirteSameStatus_page h s w hreply,
      Option.bind_eq_bind, Option.bind_some]
    have hne : replyStatus (some page) ≠ GENERAL_ERROR := by
      rw [replyStatus, statusOf_sctStatus]
      repeat' split
      all_goals decide
    have hlba := sctStatus_lba_iff page
    rw [if_neg (sctStatus_ne page), if_neg hne]
    by_cases hst : replyStatus (some page) = STATUS_RUNNING
    · rw [if_neg (fun hz => hlba.1 hz hst), if_neg (not_not.2 hst)]
    · rw [if_pos (hlba.2 hst), if_pos hst]

/-- The loop goes on while the polls find the erase running. -/
theorem run_running {w : Session} (hw : w.read = 1) {k : Nat} (hrunning : Running s sig k)
    (fuel : Nat) :
    run (wipePoll drive s.cmd sig) (k + fuel) (0, w) =
      run (wipePoll drive s.cmd sig) fuel (k, w.reads s k) := by
  induction k generalizing fuel with
  | zero => rw [Session.reads_zero, Nat.zero_add]
  | succ k ih =>
    obtain ⟨hsig, hst⟩ := hrunning k (Nat.lt_succ_self k)
    have hst : s.state (w.reads s k).read = STATUS_RUNNING := by
      rw [Session.reads, hw, Nat.add_comm 1 k, hst]
    have hnext : wipePoll drive s.cmd sig (k, w.reads s k) =
        some (.next (k + 1, w.reads s (k + 1))) := by
      rw [wipePoll_read h s _ hsig, hst, if_neg (by decide), if_neg (by decide),
        Session.reads_next]
    rw [Nat.add_assoc, Nat.add_comm 1 fuel, ih fun i hi => hrunning i (by omega), run_next hnext]

/-- What the loop did that is left without an error. -/
theorem run_wipePoll_cases {w : Session} (hw : w.read = 1) {fuel k n : Nat} {w' : Session}
    (hrunning : Running s sig k)
    (hrun : run (wipePoll drive s.cmd sig) fuel (k, w.reads s k) = some (some n, w')) :
    ∃ k, PollingEnds s sig k ∧ n = k + 1 ∧ w' = w.reads s (polled sig k) := by
  induction fuel generalizing k with
  | zero => cases hrun
  | succ fuel ih =>
    cases hsig : wipeContinue sig k with
    | false =>
      rw [run_stop (wipePoll_signal s _ hsig)] at hrun
      cases hrun
      refine ⟨k, ⟨hrunning, fun htrue => ?_⟩, rfl, by rw [polled, hsig]; rfl⟩
      rw [hsig] at htrue
      cases htrue
    | true =>
      have hread : (w.reads s k).read = k + 1 := by rw [Session.reads, hw, Nat.add_comm]
      have hturn := wipePoll_read h s (w.reads s k) hsig
      rw [hread, Session.reads_next] at hturn
      by_cases hne : s.state (k + 1) = GENERAL_ERROR
      · rw [run_stop (hturn.trans (by rw [if_pos hne]))] at hrun
        cases hrun
      by_cases hst : s.state (k + 1) = STATUS_RUNNING
      · rw [run_next (hturn.trans (by rw [if_neg hne, if_neg (not_not.2 hst)]))] at hrun
        refine ih (fun i hi => ?_) hrun
        rcases Nat.lt_succ_iff_lt_or_eq.mp hi with hlt | rfl
        · exact hrunning i hlt
        · exact ⟨hsig, hst⟩
      · rw [run_stop (hturn.trans (by rw [if_neg hne, if_pos hst]))] at hrun
        cases hrun
        exact ⟨k, ⟨hrunning, fun _ => ⟨hne, hst⟩⟩, rfl, by rw [polled, hsig]; rfl⟩

/-- **The polling loop is left** without an error exactly where the polling ends. -/
theorem run_wipePoll_iff {w : Session} (hw : w.read = 1) {n : Nat} {w' : Session} :
    (∃ fuel, run (wipePoll drive s.cmd sig) fuel (0, w) = some (some n, w')) ↔
      ∃ k, PollingEnds s sig k ∧ n = k + 1 ∧ w' = w.reads s (polled sig k) := by
  constructor
  · rintro ⟨fuel, hrun⟩
    rw [← Session.reads_zero w s] at hrun
    exact run_wipePoll_cases h s hw (fun i hi => absurd hi (Nat.not_lt_zero i)) hrun
  · rintro ⟨k, ⟨hrunning, hend⟩, rfl, rfl⟩
    refine ⟨k + 1, (run_running h s hw hrunning 1).trans ?_⟩
    cases hsig : wipeContinue sig k with
    | false =>
      rw [run_stop (wipePoll_signal s _ hsig), polled, hsig]
      rfl
    | true =>
      obtain ⟨hne, hst⟩ := hend hsig
      have hread : (w.reads s k).read = k + 1 := by rw [Session.reads, hw, Nat.add_comm]
      have hturn := wipePoll_read h s (w.reads s k) hsig
      rw [hread, Session.reads_next, if_neg hne, if_pos hst] at hturn
      rw [run_stop hturn, polled, hsig]
      rfl

end poll

/-! ## The whole wipe -/

/-- The session when the erase has been started. -/
def Script.started (s : Script) : Session := ((⟨0, []⟩ : Session).next s).sent .writeSame

theorem writeSame_script (drive : DeviceHandle) (s : Script) (start count : U64) (value : U32)
    (w : Session) :
    ∃ rc w', writeSame drive s.cmd start count value w = some (rc, w') ∧
      (rc = 0 ↔ drive.info.supportsWriteSame ∧ s.writeSameRc = 0) ∧
      (rc = 0 → w' = w.sent .writeSame) := by
  rw [writeSame]
  by_cases hsup : drive.info.supportsWriteSame
  · rw [hsup]
    refine ⟨if s.writeSameRc ≠ 0 then -1 else 0, _, rfl, ?_, fun _ => rfl⟩
    by_cases hrc : s.writeSameRc = 0
    · simp [hrc]
    · simp [hrc]
  · exact ⟨-1, w, by simp [hsup], by simp [hsup], fun hrc => absurd hrc (by decide)⟩

/-- The drive takes the erase: none runs, and WRITE SAME succeeds. -/
structure Accepts (drive : DeviceHandle) (s : Script) : Prop where
  ready : Ready drive
  supported : drive.info.supportsWriteSame
  writeSame : s.writeSameRc = 0
  known : s.state 0 ≠ GENERAL_ERROR
  idle : s.state 0 ≠ STATUS_RUNNING

/-- The sessions of a `doATAWipe` behind the polling, to its last status. -/
def Closes (s : Script) (sig : Nat → Bool) (smart : Prop) (k : Nat) (w w' : Session) : Prop :=
  ∃ w₁, (if wipeContinue sig (k + 1) then w₁ = w else Cancels s smart w w₁) ∧
    s.state w₁.read ≠ GENERAL_ERROR ∧ w' = w₁.next s

section wipe

variable {drive : DeviceHandle} {s : Script} {sig : Nat → Bool} {start count status : U64}
  {value : U32} {interval : Int}

/-- The last status: the wipe fails with it, or returns 0. -/
def lastStatus (s : Script) (w : Session) : Option (Int × Session) :=
  if s.state w.read = GENERAL_ERROR then some (GENERAL_ERROR, w.next s) else some (0, w.next s)

theorem lastStatus_eq {w w' : Session} :
    lastStatus s w = some (0, w') ↔ s.state w.read ≠ GENERAL_ERROR ∧ w' = w.next s := by
  rw [lastStatus]
  by_cases hne : s.state w.read = GENERAL_ERROR
  · rw [if_pos hne]
    exact iff_of_false (fun heq => by cases heq) fun h => h.1 hne
  · rw [if_neg hne, Option.some.injEq, Prod.mk.injEq, eq_self, true_and, @eq_comm _ w']
    exact (and_iff_right hne).symm

/-- Behind the polling: the cancel of a signal and the last status. -/
theorem closes_iff (sig : Nat → Bool) (status : U64) (h : Ready drive) {k : Nat} {w w' : Session} :
    (if !wipeContinue sig (k + 1) then
      (doCancel drive s.cmd status w).bind fun p =>
        if p.1 = GENERAL_ERROR then some (GENERAL_ERROR, p.2) else lastStatus s p.2
      else lastStatus s w) = some (0, w') ↔ Closes s sig (SmartOk drive s) k w w' := by
  cases hsig : wipeContinue sig (k + 1) with
  | true =>
    simp only [Closes, hsig, Bool.not_true, Bool.false_eq_true, if_false, if_true, exists_eq_left]
    exact lastStatus_eq
  | false =>
    simp only [Closes, hsig, Bool.not_false, Bool.false_eq_true, if_true, if_false]
    rcases doCancel_cases h s status w with ⟨w₁, hrun, hno⟩ | ⟨w₁, hrun, hiff⟩
    · simp only [hrun, Option.bind_some, if_true, hno, false_and, exists_false, iff_false]
      intro heq
      cases heq
    · simp only [hrun, Option.bind_some, hiff, exists_eq_left]
      exact lastStatus_eq

/-- **What a `doATAWipe` that returns 0 does.** -/
theorem doATAWipe_zero_iff (hi : interval ≠ 0) {w' : Session} :
    (∃ fuel, doATAWipe drive s.cmd fuel sig status start count value interval ⟨0, []⟩ =
      some (0, w')) ↔
      Accepts drive s ∧ ∃ k, PollingEnds s sig k ∧
        Closes s sig (SmartOk drive s) k (s.started.reads s (polled sig k)) w' := by
  by_cases h : Ready drive
  swap
  · refine iff_of_false ?_ fun haccepts => h haccepts.1.ready
    rintro ⟨fuel, hrun⟩
    rw [doATAWipe, doStatus_not_ready h] at hrun
    cases hrun
  have hsome (fuel : Nat) := doATAWipe.eq_def drive s.cmd fuel sig status start count value interval
    ⟨0, []⟩
  simp only [doStatus_ready h, Option.bind_eq_bind, Option.bind_some] at hsome
  simp only [hsome]
  by_cases hne : s.state 0 = GENERAL_ERROR
  · refine iff_of_false ?_ fun haccepts => haccepts.1.known hne
    rintro ⟨fuel, hrun⟩
    rw [if_pos hne] at hrun
    cases hrun
  by_cases hst : s.state 0 = STATUS_RUNNING
  · refine iff_of_false ?_ fun haccepts => haccepts.1.idle hst
    rintro ⟨fuel, hrun⟩
    rw [if_neg hne, if_pos hst] at hrun
    cases hrun
  obtain ⟨rc, w₁, hwrite, hrc, hw₁⟩ := writeSame_script drive s start count value
    ((⟨0, []⟩ : Session).next s)
  simp only [if_neg hne, if_neg hst, hwrite, Option.bind_some, if_neg hi]
  by_cases hz : rc = 0
  swap
  · refine iff_of_false ?_ fun haccepts => hz (hrc.2 ⟨haccepts.1.supported, haccepts.1.writeSame⟩)
    rintro ⟨fuel, hrun⟩
    rw [if_pos hz] at hrun
    cases hrun
  have haccepts : Accepts drive s := ⟨h, (hrc.1 hz).1, (hrc.1 hz).2, hne, hst⟩
  obtain rfl := hw₁ hz
  simp only [if_neg (not_not.2 hz), haccepts, true_and]
  change (∃ fuel, (run (wipePoll drive s.cmd sig) fuel (0, s.started)).bind _ = _) ↔ _
  constructor
  · rintro ⟨fuel, hrun⟩
    obtain ⟨⟨n, w⟩, hpoll, hclose⟩ := Option.bind_eq_some_iff.mp hrun
    cases n with
    | none => cases hclose
    | some n =>
      obtain ⟨k, hend, rfl, rfl⟩ := (run_wipePoll_iff h s rfl).mp ⟨fuel, hpoll⟩
      exact ⟨k, hend, (closes_iff sig status h).mp hclose⟩
  · rintro ⟨k, hend, hclose⟩
    obtain ⟨fuel, hpoll⟩ := (run_wipePoll_iff h s (w := s.started) rfl).mpr ⟨k, hend, rfl, rfl⟩
    refine ⟨fuel, ?_⟩
    rw [hpoll]
    exact (closes_iff sig status h).mpr hclose

end wipe

/-! ## The result -/

/-- A signal has come, and the erase still runs when `doCancel` asks. -/
def Stops (s : Script) (sig : Nat → Bool) (k : Nat) : Prop :=
  wipeContinue sig (k + 1) = false ∧ s.state (polled sig k + 1) = STATUS_RUNNING

instance (s : Script) (sig : Nat → Bool) (k : Nat) : Decidable (Stops s sig k) :=
  inferInstanceAs (Decidable (_ ∧ _))

/-- The number of the last reply of a wipe of which `k` polls find the erase running: behind the
polling there is one more, with a cancel two, and three if it stops the erase. -/
def lastReply (s : Script) (sig : Nat → Bool) (k : Nat) : Nat :=
  polled sig k +
    if wipeContinue sig (k + 1) then 1
    else if s.state (polled sig k + 1) = STATUS_RUNNING then 3 else 2

/-- Where the polling ends, one of the replies still to come has failed, or the SMART command of a
cancel does; or all replies from the one that ended it on say that the erase is done. -/
def Settled (s : Script) (sig : Nat → Bool) (smart : Prop) : Prop :=
  ∀ k, PollingEnds s sig k →
    (∃ i, polled sig k < i ∧ i ≤ lastReply s sig k ∧ s.state i = GENERAL_ERROR) ∨
    (Stops s sig k ∧ ¬ smart) ∨
    ∀ i, k < i → i ≤ lastReply s sig k → s.state i = STATUS_DONE

/-- The states that were read. -/
def states (log : List Sent) : List Int :=
  log.filterMap fun
    | .state st => some st
    | _ => none

/-- An erase that may be reported as carried out: the last state is DONE, none since it was started
says that it was interrupted or has stopped, and no command has cancelled it. -/
structure CarriedOut (log : List Sent) : Prop where
  last : (states log).getLast? = some STATUS_DONE
  whole : ∀ st ∈ states (log.dropWhile (· ≠ .writeSame)),
    st ≠ STATUS_INTERRUPTED ∧ st ≠ STATUS_STOPPED_OTHER
  kept : .smartStatus ∉ log

theorem states_reads (w : Session) (s : Script) (m : Nat) :
    states (w.reads s m).log =
      states w.log ++ (List.range m).map fun i => s.state (w.read + i) := by
  simp [states, Session.reads, List.filterMap_append, List.filterMap_map, Function.comp_def]

theorem started_dropWhile (s : Script) (tail : List Sent) :
    (s.started.log ++ tail).dropWhile (· ≠ .writeSame) = .writeSame :: tail := rfl

/-- A session that has only read states since the erase was started. -/
theorem done_reads_iff {s : Script} {m : Nat} : CarriedOut (s.started.reads s (m + 1)).log ↔
    s.state (m + 1) = STATUS_DONE ∧ ∀ i, 0 < i → i ≤ m + 1 →
      s.state i ≠ STATUS_INTERRUPTED ∧ s.state i ≠ STATUS_STOPPED_OTHER := by
  have hread : s.started.read = 1 := rfl
  have hlast : (states (s.started.reads s (m + 1)).log).getLast? = some (s.state (m + 1)) := by
    rw [states_reads, List.range_succ, List.map_append, ← List.append_assoc, List.map_singleton,
      List.getLast?_concat, hread, Nat.add_comm]
  have hkept : Sent.smartStatus ∉ (s.started.reads s (m + 1)).log := by
    simp [Session.reads, Script.started, Session.sent, Session.next]
  have hwhole : states ((s.started.reads s (m + 1)).log.dropWhile (· ≠ .writeSame)) =
      (List.range (m + 1)).map fun i => s.state (1 + i) := by
    rw [Session.reads, started_dropWhile]
    simp [states, List.filterMap_map, Function.comp_def, hread]
  constructor
  · rintro ⟨hdone, hall, -⟩
    rw [hlast, Option.some.injEq] at hdone
    rw [hwhole] at hall
    refine ⟨hdone, fun i hi him => hall _ (List.mem_map.mpr ⟨i - 1, ?_, ?_⟩)⟩
    · rw [List.mem_range]
      omega
    · rw [show 1 + (i - 1) = i by omega]
  · rintro ⟨hdone, hall⟩
    refine ⟨by rw [hlast, hdone], ?_, hkept⟩
    rw [hwhole]
    intro st hst
    obtain ⟨i, hi, rfl⟩ := List.mem_map.mp hst
    rw [List.mem_range] at hi
    exact hall (1 + i) (by omega) (by omega)

/-- The states that there are. -/
theorem replyStatus_cases (r : StatusReply) :
    replyStatus r = GENERAL_ERROR ∨ replyStatus r = STATUS_RUNNING ∨
      replyStatus r = STATUS_DONE ∨ replyStatus r = STATUS_INTERRUPTED ∨
        replyStatus r = STATUS_STOPPED_OTHER := by
  cases r with
  | none => exact .inl rfl
  | some page =>
    right
    rw [replyStatus, statusOf_sctStatus]
    repeat' split
    all_goals decide

section result

variable {s : Script} {sig : Nat → Bool} {smart : Prop} {k : Nat} {w' : Session}

theorem reads_read (s : Script) (m : Nat) : (s.started.reads s m).read = m + 1 := by
  rw [Session.reads, Nat.add_comm]
  rfl

theorem polled_bounds (sig : Nat → Bool) (k : Nat) : k ≤ polled sig k ∧ polled sig k ≤ k + 1 := by
  rw [polled]
  split <;> omega

theorem polled_lt_lastReply (s : Script) (sig : Nat → Bool) (k : Nat) :
    polled sig k < lastReply s sig k := by
  rw [lastReply]
  repeat' split
  all_goals omega

/-- Where the erase is not stopped, the last reply but one can only be the first of a cancel. -/
theorem first_of_cancel (hstops : ¬ Stops s sig k) {i : Nat} (hlt : polled sig k < i)
    (hi : i < lastReply s sig k) : wipeContinue sig (k + 1) = false ∧ i = polled sig k + 1 := by
  rw [lastReply] at hi
  cases hsig : wipeContinue sig (k + 1) with
  | true =>
    rw [hsig, if_pos rfl] at hi
    omega
  | false =>
    have hst : s.state (polled sig k + 1) ≠ STATUS_RUNNING := fun hst => hstops ⟨hsig, hst⟩
    rw [hsig, if_neg Bool.false_ne_true, if_neg hst] at hi
    exact ⟨rfl, by omega⟩

/-- A wipe that is not cancelled while the erase runs: it reads the replies to the last one. -/
theorem closes_reads_iff (hstops : ¬ Stops s sig k) :
    Closes s sig smart k (s.started.reads s (polled sig k)) w' ↔
      (∀ i, polled sig k < i → i ≤ lastReply s sig k → s.state i ≠ GENERAL_ERROR) ∧
        w' = s.started.reads s (lastReply s sig k) := by
  have hread := reads_read s (polled sig k)
  rw [Closes, lastReply]
  cases hsig : wipeContinue sig (k + 1) with
  | true =>
    simp only [if_true, exists_eq_left, hread, Session.reads_next]
    refine and_congr_left' ⟨fun hne i hlt hle => ?_, fun hall => hall _ (by omega) (by omega)⟩
    rwa [show i = polled sig k + 1 by omega]
  | false =>
    have hst : s.state (polled sig k + 1) ≠ STATUS_RUNNING := fun hst => hstops ⟨hsig, hst⟩
    simp only [Bool.false_eq_true, if_false, if_neg hst]
    constructor
    · rintro ⟨w₁, hcancels, hne, rfl⟩
      cases hcancels with
      | idle hne' =>
        rw [hread] at hne'
        rw [Session.reads_next, Session.reads_next]
        refine ⟨fun i hlt hle => ?_, rfl⟩
        obtain rfl | rfl : i = polled sig k + 1 ∨ i = polled sig k + 2 := by omega
        · exact hne'
        · rwa [Session.next, hread] at hne
      | stopped _ hst' =>
        rw [hread] at hst'
        exact absurd hst' hst
    · rintro ⟨hall, rfl⟩
      refine ⟨_, .idle ?_ ?_, ?_, ?_⟩
      · rw [hread]
        exact hall _ (by omega) (by omega)
      · rw [hread]
        exact hst
      · change s.state ((s.started.reads s (polled sig k)).read + 1) ≠ _
        rw [hread]
        exact hall _ (by omega) (by omega)
      · rw [Session.reads_next, Session.reads_next]

/-- A wipe of which a running erase is cancelled. -/
theorem closes_stops_iff (hstops : Stops s sig k) :
    (∃ w', Closes s sig smart k (s.started.reads s (polled sig k)) w') ↔
      smart ∧ ∀ i, polled sig k < i → i ≤ lastReply s sig k → s.state i ≠ GENERAL_ERROR := by
  have hread := reads_read s (polled sig k)
  obtain ⟨hsig, hst⟩ := hstops
  rw [lastReply, hsig, if_neg Bool.false_ne_true, if_pos hst]
  constructor
  · rintro ⟨w', w₁, hcancels, hne, rfl⟩
    rw [hsig, if_neg Bool.false_ne_true] at hcancels
    cases hcancels with
    | idle _ hst' =>
      rw [hread] at hst'
      exact absurd hst hst'
    | stopped hsmart _ hne' =>
      refine ⟨hsmart, fun i hlt hle => ?_⟩
      rw [hread] at hne'
      obtain rfl | rfl | rfl : i = polled sig k + 1 ∨ i = polled sig k + 1 + 1 ∨
        i = polled sig k + 1 + 1 + 1 := by omega
      · rw [hst]
        decide
      · exact hne'
      · change s.state ((s.started.reads s (polled sig k)).read + 1 + 1) ≠ _ at hne
        rwa [hread] at hne
  · rintro ⟨hsmart, hall⟩
    have hfirst : s.state (s.started.reads s (polled sig k)).read = STATUS_RUNNING := by
      rw [hread, hst]
    have hsecond : s.state ((s.started.reads s (polled sig k)).read + 1) ≠ GENERAL_ERROR := by
      rw [hread]
      exact hall _ (by omega) (by omega)
    have hlast : s.state ((s.started.reads s (polled sig k)).read + 1 + 1) ≠ GENERAL_ERROR := by
      rw [hread]
      exact hall _ (by omega) (by omega)
    simp only [Closes, hsig, Bool.false_eq_true, if_false]
    exact ⟨_, _, .stopped hsmart hfirst hsecond, hlast, rfl⟩

theorem Closes.smartStatus_mem {w : Session}
    (h : Closes s sig smart k w w') (hstops : wipeContinue sig (k + 1) = false)
    (hst : s.state w.read = STATUS_RUNNING) : .smartStatus ∈ w'.log := by
  obtain ⟨w₁, hcancels, -, rfl⟩ := h
  rw [hstops, if_neg Bool.false_ne_true] at hcancels
  cases hcancels with
  | idle _ hst' => exact absurd hst hst'
  | stopped => simp [Session.next, Session.sent]

/-- Behind polls that found the erase running, one that was not cancelled is done where all replies
say so. -/
theorem done_iff (hend : PollingEnds s sig k) (hstops : ¬ Stops s sig k)
    (hall : ∀ i, polled sig k < i → i ≤ lastReply s sig k → s.state i ≠ GENERAL_ERROR) :
    CarriedOut (s.started.reads s (lastReply s sig k)).log ↔
      ∀ i, k < i → i ≤ lastReply s sig k → s.state i = STATUS_DONE := by
  obtain ⟨hkp, hpk⟩ := polled_bounds sig k
  have hlt := polled_lt_lastReply s sig k
  obtain ⟨m, hm⟩ : ∃ m, lastReply s sig k = m + 1 := ⟨lastReply s sig k - 1, by omega⟩
  rw [hm, done_reads_iff, ← hm]
  constructor
  · rintro ⟨hdone, hwhole⟩ i hki hi
    obtain ⟨hint, hstop⟩ := hwhole i (by omega) hi
    have hother : i ≠ lastReply s sig k →
        s.state i ≠ GENERAL_ERROR ∧ s.state i ≠ STATUS_RUNNING := by
      intro hne
      by_cases hpoll : i ≤ polled sig k
      · -- the poll that ended the polling
        have hsig : wipeContinue sig k = true := by
          by_contra hsig
          rw [polled, if_neg hsig] at hpoll
          omega
        obtain rfl : i = k + 1 := by omega
        exact hend.2 hsig
      · -- the first reply of a cancel
        obtain ⟨hsig, hfirst⟩ := first_of_cancel hstops (by omega) (lt_of_le_of_ne hi hne)
        exact ⟨hall i (by omega) hi, fun hst => hstops ⟨hsig, hfirst ▸ hst⟩⟩
    by_cases heq : i = lastReply s sig k
    · rw [heq, hdone]
    · obtain ⟨hne, hst⟩ := hother heq
      rcases replyStatus_cases (s.replies i) with h | h | h | h | h
      · exact absurd h hne
      · exact absurd h hst
      · exact h
      · exact absurd h hint
      · exact absurd h hstop
  · intro hdone
    refine ⟨hdone _ (by omega) (le_refl _), fun i hi hil => ?_⟩
    by_cases hik : i ≤ k
    · obtain ⟨-, hst⟩ := hend.1 (i - 1) (by omega)
      rw [show i - 1 + 1 = i by omega] at hst
      rw [hst]
      decide
    · rw [hdone i (by omega) hil]
      decide

end result

/-- A wipe that returns 0 has carried out its erase. -/
def WipeReported (drive : DeviceHandle) (s : Script) (sig : Nat → Bool) (status start count : U64)
    (value : U32) (interval : Int) : Prop :=
  ∀ fuel w,
    doATAWipe drive s.cmd fuel sig status start count value interval ⟨0, []⟩ = some (0, w) →
      CarriedOut w.log

/-- A cancel that returns 0 has last seen something other than RUNNING. -/
def CancelReported (drive : DeviceHandle) (s : Script) (status : U64) : Prop :=
  ∀ w, doCancel drive s.cmd status ⟨0, []⟩ = some (0, w) →
    ∃ st, (states w.log).getLast? = some st ∧ st ≠ STATUS_RUNNING

theorem wipe_reported_iff (drive : DeviceHandle) (s : Script) (sig : Nat → Bool)
    (status start count : U64) (value : U32) {interval : Int} (hi : interval ≠ 0) :
    WipeReported drive s sig status start count value interval ↔
      ¬ Accepts drive s ∨ Settled s sig (SmartOk drive s) := by
  have hrun (w : Session) :
      (∃ fuel, doATAWipe drive s.cmd fuel sig status start count value interval ⟨0, []⟩ =
        some (0, w)) ↔
        Accepts drive s ∧ ∃ k, PollingEnds s sig k ∧
          Closes s sig (SmartOk drive s) k (s.started.reads s (polled sig k)) w :=
    doATAWipe_zero_iff hi
  constructor
  · intro hrep
    by_contra hbad
    rw [not_or, not_not] at hbad
    obtain ⟨haccepts, hsettled⟩ := hbad
    refine hsettled fun k hend => ?_
    by_contra hnot
    rw [not_or, not_or] at hnot
    obtain ⟨hfail, hsmart, hdone⟩ := hnot
    have hall : ∀ i, polled sig k < i → i ≤ lastReply s sig k → s.state i ≠ GENERAL_ERROR :=
      fun i hlt hle heq => hfail ⟨i, hlt, hle, heq⟩
    by_cases hstops : Stops s sig k
    · have hok : SmartOk drive s := by
        by_contra hno
        exact hsmart ⟨hstops, hno⟩
      obtain ⟨w', hcloses⟩ := (closes_stops_iff hstops).mpr ⟨hok, hall⟩
      obtain ⟨fuel, hzero⟩ := (hrun w').mpr ⟨haccepts, k, hend, hcloses⟩
      refine (hrep fuel w' hzero).kept (hcloses.smartStatus_mem hstops.1 ?_)
      rw [reads_read]
      exact hstops.2
    · have hcloses : Closes s sig (SmartOk drive s) k (s.started.reads s (polled sig k))
          (s.started.reads s (lastReply s sig k)) :=
        (closes_reads_iff hstops).mpr ⟨hall, rfl⟩
      obtain ⟨fuel, hzero⟩ := (hrun _).mpr ⟨haccepts, k, hend, hcloses⟩
      exact hdone ((done_iff hend hstops hall).mp (hrep fuel _ hzero))
  · intro hgood fuel w' hzero
    obtain ⟨haccepts, k, hend, hcloses⟩ := (hrun w').mp ⟨fuel, hzero⟩
    have hsettled := (hgood.resolve_left (not_not.mpr haccepts)) k hend
    by_cases hstops : Stops s sig k
    · obtain ⟨hok, hall⟩ := (closes_stops_iff hstops).mp ⟨w', hcloses⟩
      rcases hsettled with ⟨i, hlt, hle, heq⟩ | ⟨-, hno⟩ | hdone
      · exact absurd heq (hall i hlt hle)
      · exact absurd hok hno
      · have hfirst := hdone (polled sig k + 1) (Nat.lt_succ_of_le (polled_bounds sig k).1)
          (polled_lt_lastReply s sig k)
        rw [hstops.2] at hfirst
        cases hfirst
    · obtain ⟨hall, rfl⟩ := (closes_reads_iff hstops).mp hcloses
      rcases hsettled with ⟨i, hlt, hle, heq⟩ | ⟨hstops', -⟩ | hdone
      · exact absurd heq (hall i hlt hle)
      · exact absurd hstops' hstops
      · exact (done_iff hend hstops hall).mpr hdone

theorem cancel_reported_iff (drive : DeviceHandle) (s : Script) (status : U64) :
    CancelReported drive s status ↔
      ¬ Ready drive ∨ ¬ SmartOk drive s ∨ s.state 0 ≠ STATUS_RUNNING ∨
        s.state 1 ≠ STATUS_RUNNING := by
  constructor
  · intro hrep
    by_contra hbad
    simp only [not_or, not_not] at hbad
    obtain ⟨h, hs, hst, hst'⟩ := hbad
    have hcancels := @Cancels.stopped s _ ⟨0, []⟩ hs hst (by rw [hst']; decide)
    obtain ⟨st, hlast, hne⟩ := hrep _ ((doCancel_zero_iff h).mpr hcancels)
    cases hlast
    exact hne hst'
  · intro hgood w hrun
    by_cases h : Ready drive
    swap
    · rw [doCancel, doStatus_not_ready h] at hrun
      cases hrun
    cases (doCancel_zero_iff h).mp hrun with
    | idle hne hst => exact ⟨_, rfl, hst⟩
    | stopped hs hst hne =>
      refine ⟨s.state 1, rfl, fun hst' => ?_⟩
      rcases hgood with hno | hno | hno | hno
      · exact hno h
      · exact hno hs
      · exact hno hst
      · exact hno hst'

/-- **When a wipe that is reported has been carried out, and a cancel that is reported has stopped
one.** -/
theorem ataWipe_status_iff (drive : DeviceHandle) (s : Script) (sig : Nat → Bool)
    (status start count : U64) (value : U32) (interval : Int) (hi : interval ≠ 0) :
    (WipeReported drive s sig status start count value interval ↔
      ¬ Accepts drive s ∨ Settled s sig (SmartOk drive s)) ∧
    (CancelReported drive s status ↔
      ¬ Ready drive ∨ ¬ SmartOk drive s ∨ s.state 0 ≠ STATUS_RUNNING ∨
        s.state 1 ≠ STATUS_RUNNING) :=
  ⟨wipe_reported_iff drive s sig status start count value hi,
    cancel_reported_iff drive s status⟩

/-- An ATA drive that takes every command. -/
def ataDrive : DeviceHandle :=
  { protocol := .ata
    info := { supportsSCT := true, supportsWriteSame := true, SMARTSupport := true,
              SMARTEnabled := true } }
def statusPage (code : BitVec 16) : List Byte :=
  List.replicate 14 (0 : Byte) ++ [code.setWidth 8, (code >>> 8).setWidth 8]

/-- The drive answers SCT STATUS with these extended status codes, and then with the last one. -/
def answers (codes : List (BitVec 16)) (last : BitVec 16) : Script :=
  ⟨fun n => some (statusPage (codes.getD n last)), 0, 0, 0⟩

/-- An erase that runs for a while and is done, and a cancel of one. -/
theorem ataWipe_status_sample :
    WipeReported ataDrive (answers [0, 0xffff] 0) (fun _ => false) 0 0 0 0 30 ∧
      CancelReported ataDrive (answers [0xffff] 8) 0 := by
  refine ⟨(ataWipe_status_iff ataDrive _ (fun _ => false) 0 0 0 0 30 (by decide)).1.2 (.inr ?_),
    (ataWipe_status_iff ataDrive _ (fun _ => false) 0 0 0 0 30 (by decide)).2.2
      (.inr (.inr (.inr (by decide))))⟩
  rintro k ⟨hrunning, hend⟩
  refine .inr (.inr fun i hi _ => ?_)
  -- the first poll finds the erase running
  have hk : k ≠ 0 := by
    rintro rfl
    exact (hend (by decide)).2 (by decide)
  obtain ⟨i, rfl⟩ : ∃ j, i = j + 2 := ⟨i - 2, by omega⟩
  change replyStatus (some (statusPage 0)) = STATUS_DONE
  decide

/-- An erase that is interrupted, one that is cancelled, and a cancel that stops nothing, are
reported as success. -/
theorem ataWipe_reports_interrupted :
    ¬ WipeReported ataDrive (answers [0] 8) (fun _ => false) 0 0 0 0 30 ∧
      ¬ WipeReported ataDrive (answers [0, 0xffff, 0xffff] 8) (fun n => n = 1) 0 0 0 0 30 ∧
      ¬ CancelReported ataDrive (answers [] 0xffff) 0 := by
  have hready : Ready ataDrive := ⟨rfl, rfl⟩
  have hsmart (codes : List (BitVec 16)) (last : BitVec 16) :
      SmartOk ataDrive (answers codes last) :=
    ⟨rfl, rfl, rfl, (by decide : ((0 : U64).setWidth 32).toInt ≠ -1)⟩
  rw [wipe_reported_iff _ _ _ _ _ _ _ (by decide), wipe_reported_iff _ _ _ _ _ _ _ (by decide),
    cancel_reported_iff]
  refine ⟨?_, ?_, ?_⟩
  · rintro (hno | hsettled)
    · exact hno ⟨hready, rfl, rfl, by decide, by decide⟩
    · have hend : PollingEnds (answers [0] 8) (fun _ => false) 0 :=
        ⟨fun i hi => absurd hi (Nat.not_lt_zero i), by decide⟩
      have hlast : lastReply (answers [0] 8) (fun _ => false) 0 = 2 := by decide
      have hpolled : polled (fun _ => false) 0 = 1 := by decide
      rcases hsettled 0 hend with ⟨i, hlt, hle, heq⟩ | ⟨hstops, -⟩ | hdone
      · obtain rfl : i = 2 := by omega
        exact absurd heq (by decide)
      · exact absurd hstops (by decide)
      · exact absurd (hdone 1 (by omega) (by omega)) (by decide)
  · rintro (hno | hsettled)
    · exact hno ⟨hready, rfl, rfl, by decide, by decide⟩
    · have hend : PollingEnds (answers [0, 0xffff, 0xffff] 8) (fun n => n = 1) 1 :=
        ⟨fun i hi => by
          obtain rfl : i = 0 := by omega
          decide, by decide⟩
      have hlast : lastReply (answers [0, 0xffff, 0xffff] 8) (fun n => n = 1) 1 = 4 := by decide
      have hpolled : polled (fun n => n = 1) 1 = 1 := by decide
      rcases hsettled 1 hend with ⟨i, hlt, hle, heq⟩ | ⟨-, hno⟩ | hdone
      · obtain rfl | rfl | rfl : i = 2 ∨ i = 3 ∨ i = 4 := by omega
        all_goals exact absurd heq (by decide)
      · exact hno (hsmart _ _)
      · exact absurd (hdone 2 (by omega) (by omega)) (by decide)
  · rintro (hno | hno | hno | hno)
    · exact hno hready
    · exact hno (hsmart _ _)
    · exact hno (by decide)
    · exact hno (by decide)

end WipeDrive
