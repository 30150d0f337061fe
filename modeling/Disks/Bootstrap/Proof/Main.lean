import Disks.Bootstrap.Main
import Disks.Contractor.Proof.Client

/-!
# What the contractor may rely on while a machine bootstraps

* `Need`: the reason of each request, and of each MBR that is cleared, in what was answered before.
* `init_rule`, `findLocator_rule`, `report_rule`, `conclude_rule`: the parts of the program keep to
  it, with what each of them has found out.
* `bootstrap_safe`: **whatever the network loses or delays, at any moment everything that the
  contractor has processed, and every MBR that was cleared, has its reason in front of it; and the
  exit status tells whether the hardware was accepted.**
-/

namespace Bootstrap

open Channel (At Mono Stable Sound Halt)
open Contractor
open Effect (Triple final)

abbrev Journal := List (Channel.Entry Call Reply Event)

variable (m : Machine)

/-- A token of the log in. -/
def LoggedIn (token : Json) (l : Journal) : Prop := Told (.login "bootstrap" "bootstrap") token l

def Registered (l : Journal) : Prop :=
  (∃ token, LoggedIn token l) ∧ ∃ value, Told (.register m.identifier) value l

/-- A look up has told this foundation. -/
def Matched (locator : Json) (l : Journal) : Prop :=
  ∃ info_map answer matched_by, Told (.lookup m.identifier info_map) answer l ∧
    matched answer = .ok (some (locator, matched_by)) ∧ locator.truthy = true

def Configured (locator config : Json) (l : Journal) : Prop :=
  Told (.getConfig m.config_uuid locator) config l

/-- What the report of the hardware came to. -/
def Reported (locator error : Json) (l : Journal) : Prop :=
  ∃ id_map, Told (.setIdMap locator id_map) error l

/-- The hardware of the foundation is not what it should be, and the contractor has the message. -/
def Refused (l : Journal) : Prop :=
  ∃ locator error value, Matched m locator l ∧ Reported locator error l ∧ error ≠ .null ∧
    Told (.setMessage m.identifier ("Hardware Error: \"" ++ m.format error ++ "\"")) value l

/-- It is, and the contractor has been told that all is done. -/
def Finished (l : Journal) : Prop :=
  ∃ locator value, Matched m locator l ∧ Reported locator .null l ∧
    Told (.done m.identifier) value l

/-- `getLLDP` has found what it cannot handle, and the contractor has the message. -/
def Unhandled (l : Journal) : Prop :=
  ∃ message value, (getLLDP m.lldpcli).2 = .error (.exit message) ∧
    Told (.setMessage m.identifier (String.ofList message)) value l

/-- What the program knows once the hardware is reported. -/
structure Known (token locator config error : Json) (l : Journal) : Prop where
  loggedIn : LoggedIn token l
  registered : Registered m l
  matched : Matched m locator l
  configured : Configured m locator config l
  reported : Reported locator error l

/-- The reason of a request, or of the clearing of an MBR. -/
def Need : Call ⊕ Event → Journal → Prop
  | .inl (.login username password), _ => username = "bootstrap" ∧ password = "bootstrap"
  | .inl (.register identifier), l => identifier = m.identifier ∧ ∃ token, LoggedIn token l
  | .inl (.lookup identifier info_map), l =>
    identifier = m.identifier ∧ Registered m l ∧
      ∃ lldp, (getLLDP m.lldpcli).2 = .ok lldp ∧ m.info_map lldp = .ok info_map
  | .inl (.setMessage identifier _), l => identifier = m.identifier ∧ Registered m l
  | .inl (.getConfig config_uuid locator), l => config_uuid = m.config_uuid ∧ Matched m locator l
  | .inl (.setIdMap locator id_map), l =>
    Matched m locator l ∧ ∃ lldp config, (getLLDP m.lldpcli).2 = .ok lldp ∧
      m.id_map lldp config = .ok id_map ∧ Configured m locator config l
  | .inl (.done identifier), l =>
    identifier = m.identifier ∧ ∃ locator, Matched m locator l ∧ Reported locator .null l
  | .inl (.logout token), l => LoggedIn token l ∧ (Finished m l ∨ Refused m l)
  | .inl (.postMessage ..), _ | .inl (.signalAlert ..), _ | .inl (.signalComplete ..), _ => False
  | .inr (.wiped block_path), l =>
    some block_path ∈ m.drive_list ∧ ∃ locator config wipe, Matched m locator l ∧
      Reported locator .null l ∧ Configured m locator config l ∧
        config.get "bootstrap_wipe_mbr" (.bool false) = .ok wipe ∧ wipe.truthy = true

/-! ## What stays -/

theorem registered_stable : Stable (Registered m) :=
  (Stable.exists fun _ => Told.stable _ _).and (Stable.exists fun _ => Told.stable _ _)

theorem matched_stable (locator : Json) : Stable (Matched m locator) :=
  Stable.exists fun _ => Stable.exists fun _ => Stable.exists fun _ =>
    (Told.stable _ _).and (Stable.const _)

theorem reported_stable (locator error : Json) : Stable (Reported locator error) :=
  Stable.exists fun _ => Told.stable _ _

theorem known_stable (token locator config error : Json) :
    Stable (Known m token locator config error) :=
  fun l new h => {
    loggedIn := Told.stable _ _ l new h.loggedIn
    registered := registered_stable m l new h.registered
    matched := matched_stable m locator l new h.matched
    configured := Told.stable _ _ l new h.configured
    reported := reported_stable locator error l new h.reported }

theorem refused_stable : Stable (Refused m) :=
  Stable.exists fun locator => Stable.exists fun error => Stable.exists fun _ =>
    (matched_stable m locator).and
      ((reported_stable locator error).and ((Stable.const _).and (Told.stable _ _)))

theorem finished_stable : Stable (Finished m) :=
  Stable.exists fun locator => Stable.exists fun _ =>
    (matched_stable m locator).and ((reported_stable locator .null).and (Told.stable _ _))

theorem need_mono : Mono (Need m) := by
  intro x l new h
  cases x with
  | inr event =>
    obtain ⟨hdrive, locator, config, wipe, hmatched, haccepted, hconfig, hwipe⟩ := h
    exact ⟨hdrive, locator, config, wipe, matched_stable m locator l new hmatched,
      reported_stable locator .null l new haccepted, Told.stable _ _ l new hconfig, hwipe⟩
  | inl call =>
    cases call with
    | login username password => exact h
    | register identifier => exact ⟨h.1, Stable.exists (fun _ => Told.stable _ _) l new h.2⟩
    | lookup identifier info_map => exact ⟨h.1, registered_stable m l new h.2.1, h.2.2⟩
    | setMessage identifier message => exact ⟨h.1, registered_stable m l new h.2⟩
    | getConfig config_uuid locator => exact ⟨h.1, matched_stable m locator l new h.2⟩
    | setIdMap locator id_map =>
      obtain ⟨hmatched, lldp, config, hlldp, hid, hconfig⟩ := h
      exact ⟨matched_stable m locator l new hmatched, lldp, config, hlldp, hid,
        Told.stable _ _ l new hconfig⟩
    | done identifier =>
      obtain ⟨hid, locator, hmatched, haccepted⟩ := h
      exact ⟨hid, locator, matched_stable m locator l new hmatched,
        reported_stable locator .null l new haccepted⟩
    | logout token =>
      exact ⟨Told.stable _ _ l new h.1,
        h.2.imp (finished_stable m l new) (refused_stable m l new)⟩
    | postMessage job_id msg => exact h
    | signalAlert job_id msg => exact h
    | signalComplete job_id cookie => exact h

/-! ## The steps of the program -/

/-- How the program may be left before its end. -/
def Failed (e : Halt Stop) (s : Channel.State Call Reply Event) : Prop :=
  Sound (Need m) s ∧
    match e with
    | .raised (.exit code) => code = 20 ∧ Refused m s.journal ∨ code = 1 ∧ Unhandled m s.journal
    | _ => True

variable {m} {P : Journal → Prop}

theorem request_rule {retry_count : Int} (call : Call) (hP : Stable P)
    (hcall : ∀ l, P l → Need m (.inl call) l) :
    Triple (At (Need m) P) (request m.format retry_count call)
      (fun value => At (Need m) fun l => P l ∧ Told call value l) (Failed m) :=
  request_ok (need_mono m) hP hcall (fun _ hs => ⟨hs.1, trivial⟩) fun _ _ hs => ⟨hs.1, trivial⟩

/-- A message, with what is known kept. -/
theorem setMessage_told (message : String) (hP : Stable P) (hreg : ∀ l, P l → Registered m l) :
    Triple (At (Need m) P) (setMessage m message)
      (fun value => At (Need m) fun l => P l ∧ Told (.setMessage m.identifier message) value l)
      (Failed m) :=
  request_rule (.setMessage m.identifier message) hP fun l hl => ⟨rfl, hreg l hl⟩

theorem setMessage_rule (message : String) (hP : Stable P) (hreg : ∀ l, P l → Registered m l) :
    Triple (At (Need m) P) (setMessage m message) (fun _ => At (Need m) P) (Failed m) :=
  (setMessage_told message hP hreg).mono (fun _ _ h => ⟨h.1, h.2.1⟩) fun _ _ => id

theorem unwrap_keeps (value : Except Raised Json) :
    Triple (At (Need m) P) (unwrap value) (fun v => At (Need m) fun l => P l ∧ value = .ok v)
      (Failed m) :=
  unwrap_rule fun _ _ hs => ⟨hs.1, trivial⟩

theorem raised_rule {α : Type} (e : Raised) {Q : α → Channel.State Call Reply Event → Prop} :
    Triple (At (Need m) P) (raise (.raised e) : Prog α) Q (Failed m) :=
  Triple.throw fun _ hs => ⟨hs.1, trivial⟩

/-- The log out, whatever becomes of it. -/
theorem logout_rule {token : Json} (hP : Stable P)
    (hneed : ∀ l, P l → LoggedIn token l ∧ (Finished m l ∨ Refused m l)) :
    Triple (At (Need m) P) (logout m token) (fun _ => At (Need m) P) (Failed m) := by
  intro s hs
  have hrequest : Triple (At (Need m) P) (request m.format 0 (.logout token)) _
      fun _ => At (Need m) P :=
    request_ok (need_mono m) hP hneed (fun _ => id) fun _ _ => id
  obtain ⟨hok, herror⟩ := hrequest s hs
  unfold logout
  generalize request m.format 0 (.logout token) s = out at hok herror
  rcases out with ⟨value, s'⟩ | ⟨_ | e, s'⟩
  · refine ⟨fun _ _ h => ?_, fun _ _ h => by cases h⟩
    cases h
    exact ⟨(hok value s' rfl).1, (hok value s' rfl).2.1⟩
  · refine ⟨fun _ _ h => (by cases h), fun _ _ h => ?_⟩
    cases h
    exact ⟨(herror _ s' rfl).1, trivial⟩
  · refine ⟨fun _ _ h => ?_, fun _ _ h => by cases h⟩
    cases h
    exact herror _ s' rfl

theorem init_rule :
    Triple (At (Need m) fun _ => True) (init m)
      (fun token => At (Need m) fun l => LoggedIn token l ∧ Registered m l) (Failed m) := by
  refine (request_rule (.login "bootstrap" "bootstrap") (Stable.const _)
    fun _ _ => ⟨rfl, rfl⟩).bind fun token => ?_
  have hlogged : Stable fun l : Journal => True ∧ LoggedIn token l :=
    (Stable.const _).and (Told.stable _ _)
  refine (request_rule (.register m.identifier) hlogged fun l hl => ⟨rfl, token, hl.2⟩).bind
    fun value => Triple.pure fun s hs => ⟨hs.1, hs.2.1.2, ⟨token, hs.2.1.2⟩, value, hs.2.2⟩

theorem getLLDP_exit {lldpcli : Nat → Text} {message : Text}
    (h : (getLLDP lldpcli).2 = .error (.exit message)) : (getLLDP lldpcli).1 = some message := by
  unfold getLLDP at h ⊢
  split at h
  · cases h
  · change exitMessage _ = some message
    dsimp only at h
    rw [h]
    rfl

/-- The neighbours, with the message before the exit. -/
theorem lldp_rule (hP : Stable P) (hreg : ∀ l, P l → Registered m l) :
    Triple (At (Need m) P)
      (lldpMessage m (getLLDP m.lldpcli).1 >>= fun _ => lldpEnd (getLLDP m.lldpcli).2)
      (fun lldp => At (Need m) fun l => P l ∧ (getLLDP m.lldpcli).2 = .ok lldp) (Failed m) := by
  have hmessage : Triple (At (Need m) P) (lldpMessage m (getLLDP m.lldpcli).1)
      (fun _ => At (Need m) fun l => P l ∧ ∀ message, (getLLDP m.lldpcli).1 = some message →
        ∃ value, Told (.setMessage m.identifier (String.ofList message)) value l) (Failed m) := by
    cases (getLLDP m.lldpcli).1 with
    | none => exact Triple.pure fun s hs => ⟨hs.1, hs.2, fun _ h => by cases h⟩
    | some message =>
      refine (setMessage_told (String.ofList message) hP hreg).bind fun value =>
        Triple.pure fun s hs => ⟨hs.1, hs.2.1, fun _ h => ?_⟩
      cases h
      exact ⟨value, hs.2.2⟩
  refine hmessage.bind fun _ => ?_
  cases hend : (getLLDP m.lldpcli).2 with
  | ok lldp => exact Triple.pure fun s hs => ⟨hs.1, hs.2.1, rfl⟩
  | error e =>
    cases e with
    | valueError => exact raised_rule .exception
    | exit message =>
      refine Triple.throw fun s hs => ⟨hs.1, Or.inr ⟨rfl, message, ?_⟩⟩
      obtain ⟨value, hvalue⟩ := hs.2.2 message (getLLDP_exit hend)
      exact ⟨value, hend, hvalue⟩

/-- The loop, whatever is answered in its turns. -/
theorem findLocator_rule {lldp : Results} {info_map : Json} (hP : Stable P)
    (hreg : ∀ l, P l → Registered m l) (hlldp : (getLLDP m.lldpcli).2 = .ok lldp)
    (hinfo : m.info_map lldp = .ok info_map) (fuel : Nat) :
    Triple (At (Need m) P) (findLocator m info_map fuel)
      (fun found => At (Need m) fun l => P l ∧ Matched m found.1 l) (Failed m) := by
  induction fuel with
  | zero => exact Triple.throw fun _ hs => ⟨hs.1, trivial⟩
  | succ fuel ih =>
    refine (request_rule (.lookup m.identifier info_map) hP
      fun l hl => ⟨rfl, hreg l hl, lldp, hlldp, hinfo⟩).bind fun answer => ?_
    have hkeep (s : Channel.State Call Reply Event) (hs : At (Need m) (fun l =>
        P l ∧ Told (.lookup m.identifier info_map) answer l) s) : At (Need m) P s :=
      ⟨hs.1, hs.2.1⟩
    rcases hmatched : matched answer with e | _ | found
    · exact raised_rule e
    · exact ((setMessage_rule "no match" hP hreg).bind fun _ => ih).pre hkeep
    · refine Triple.ite (fun htruthy => Triple.pure fun s hs => ?_) fun _ => ih.pre hkeep
      exact ⟨hs.1, hs.2.1, info_map, answer, found.2, hs.2.2, hmatched, htruthy⟩

theorem report_rule {lldp : Results} {locator matched_by : Json} (hP : Stable P)
    (hreg : ∀ l, P l → Registered m l) (hmatched : ∀ l, P l → Matched m locator l)
    (hlldp : (getLLDP m.lldpcli).2 = .ok lldp) :
    Triple (At (Need m) P) (report m lldp locator matched_by)
      (fun reported => At (Need m) fun l =>
        P l ∧ Configured m locator reported.1 l ∧ Reported locator reported.2 l) (Failed m) := by
  refine (setMessage_rule _ hP hreg).bind fun _ => ?_
  refine (request_rule (.getConfig m.config_uuid locator) hP
    fun l hl => ⟨rfl, hmatched l hl⟩).bind fun config => ?_
  have hconfig : Stable fun l => P l ∧ Configured m locator config l :=
    hP.and (Told.stable _ _)
  have hsetup : Triple (At (Need m) fun l => P l ∧ Configured m locator config l)
      (unwrap (m.platform.setup config)) _ (Failed m) :=
    unwrap_keeps (m.platform.setup config)
  refine (hsetup.mono (fun _ _ h => And.intro h.1 h.2.1) fun _ _ => id).bind fun _ => ?_
  refine (setMessage_rule _ hconfig fun l hl => hreg l hl.1).bind fun _ => ?_
  refine (unwrap_keeps (m.id_map lldp config)).bind fun id_map => ?_
  have hgathered : Stable fun l => (P l ∧ Configured m locator config l) ∧
      m.id_map lldp config = .ok id_map := hconfig.and (Stable.const _)
  refine (setMessage_rule _ hgathered fun l hl => hreg l hl.1.1).bind fun _ => ?_
  refine (request_rule (.setIdMap locator id_map) hgathered fun l hl =>
    ⟨hmatched l hl.1.1, lldp, config, hlldp, hl.2, hl.1.2⟩).bind fun error => ?_
  exact Triple.pure fun s hs => ⟨hs.1, hs.2.1.1.1, hs.2.1.1.2, id_map, hs.2.2⟩

variable {token locator config : Json}

/-- No platform asks for a change. -/
theorem prepare_eq : prepare m = pure () := by
  unfold prepare Platform.setAuth
  rfl

theorem clearMBRs_rule :
    Triple (At (Need m) (Known m token locator config .null)) (clearMBRs m config)
      (fun _ => At (Need m) (Known m token locator config .null)) (Failed m) := by
  have hknown := known_stable m token locator config .null
  refine (unwrap_keeps (config.get "bootstrap_wipe_mbr" (.bool false))).bind fun wipe => ?_
  have hkeep (s : Channel.State Call Reply Event)
      (hs : At (Need m) (fun l => Known m token locator config .null l ∧
        config.get "bootstrap_wipe_mbr" (.bool false) = .ok wipe) s) :
      At (Need m) (Known m token locator config .null) s :=
    ⟨hs.1, hs.2.1⟩
  refine Triple.ite (fun htruthy s hs => ?_) fun _ => Triple.pure hkeep
  have hwipe : config.get "bootstrap_wipe_mbr" (.bool false) = .ok wipe := hs.2.2
  refine ((setMessage_rule "Clearing MBRs..." hknown fun _ => Known.registered).bind fun _ => ?_ :
    Triple (At (Need m) (Known m token locator config .null)) _ _ _) s (hkeep s hs)
  refine Triple.forM_keeps fun block_path hdrive => ?_
  cases block_path with
  | none => exact Triple.pure fun _ => id
  | some block_path =>
    refine Triple.ite (fun _ => ?_) fun _ => raised_rule .exception
    refine (Channel.own_rule (need_mono m) hknown fun l hl => ?_).mono
      (fun _ _ h => And.intro h.1 h.2.1) fun _ _ => id
    exact ⟨hdrive, locator, config, wipe, hl.matched, hl.reported, hl.configured, hwipe, htruthy⟩

theorem finish_rule :
    Triple (At (Need m) (Known m token locator config .null)) (finish m token config)
      (fun _ => At (Need m) (Finished m)) (Failed m) := by
  have hknown := known_stable m token locator config .null
  have hmessage (message : String) := setMessage_rule message hknown fun _ => Known.registered
  unfold finish
  rw [prepare_eq]
  refine (hmessage _).bind fun _ => ?_
  refine (hmessage _).bind fun _ => ?_
  refine (Triple.pure fun _ => id : Triple (At (Need m) (Known m token locator config .null)) _
    (fun _ => At (Need m) (Known m token locator config .null)) _).bind fun _ => ?_
  refine clearMBRs_rule.bind fun _ => ?_
  refine (hmessage _).bind fun _ => ?_
  refine (request_rule (.done m.identifier) hknown
    fun l hl => ⟨rfl, locator, hl.matched, hl.reported⟩).bind fun value => ?_
  have hfinished (l : Journal) (hl : Known m token locator config .null l ∧
      Told (.done m.identifier) value l) : Finished m l :=
    ⟨locator, value, hl.1.matched, hl.1.reported, hl.2⟩
  exact (logout_rule (hknown.and (Told.stable _ _))
    fun l hl => ⟨hl.1.loggedIn, Or.inl (hfinished l hl)⟩).mono
      (fun _ s hs => ⟨hs.1, hfinished s.journal hs.2⟩) fun _ _ => id

theorem refuse_rule {error : Json} (herror : error ≠ .null)
    {Q : Unit → Channel.State Call Reply Event → Prop} :
    Triple (At (Need m) (Known m token locator config error)) (refuse m token error) Q
      (Failed m) := by
  have hknown := known_stable m token locator config error
  refine (setMessage_told _ hknown fun _ => Known.registered).bind fun value => ?_
  have hrefused (l : Journal) (hl : Known m token locator config error l ∧
      Told (.setMessage m.identifier ("Hardware Error: \"" ++ m.format error ++ "\"")) value l) :
      Refused m l :=
    ⟨locator, error, value, hl.1.matched, hl.1.reported, herror, hl.2⟩
  refine (logout_rule (hknown.and (Told.stable _ _))
    fun l hl => ⟨hl.1.loggedIn, Or.inr (hrefused l hl)⟩).bind fun _ => ?_
  exact Triple.throw fun s hs => ⟨hs.1, Or.inl ⟨rfl, hrefused s.journal hs.2⟩⟩

theorem conclude_rule (error : Json) :
    Triple (At (Need m) (Known m token locator config error)) (conclude m token config error)
      (fun _ => At (Need m) (Finished m)) (Failed m) := by
  unfold conclude
  split
  · exact finish_rule
  · rename_i herror
    exact refuse_rule fun h => herror h

/-! ## The program -/

theorem main_rule (fuel : Nat) :
    Triple (At (Need m) fun _ => True) (main m fuel) (fun _ => At (Need m) (Finished m))
      (Failed m) := by
  refine init_rule.bind fun token => ?_
  have hsession : Stable fun l => LoggedIn token l ∧ Registered m l :=
    (Told.stable _ _).and (registered_stable m)
  refine (setMessage_rule _ hsession fun _ => And.right).bind fun _ => ?_
  rw [← bind_assoc]
  refine (lldp_rule hsession fun _ => And.right).bind fun lldp => ?_
  refine (unwrap_keeps (m.info_map lldp)).bind fun info_map => ?_
  intro s hs
  have hlldp : (getLLDP m.lldpcli).2 = .ok lldp := hs.2.1.2
  have hinfo : m.info_map lldp = .ok info_map := hs.2.2
  refine ((findLocator_rule hsession (fun _ => And.right) hlldp hinfo fuel).bind fun found => ?_ :
    Triple (At (Need m) fun l => LoggedIn token l ∧ Registered m l) _ _ _) s ⟨hs.1, hs.2.1.1⟩
  refine (report_rule (hsession.and (matched_stable m found.1)) (fun _ hl => hl.1.2)
    (fun _ => And.right) hlldp).bind fun reported => ?_
  exact (conclude_rule reported.2).pre fun s hs =>
    ⟨hs.1, hs.2.1.1.1, hs.2.1.1.2, hs.2.1.2, hs.2.2.1, hs.2.2.2⟩

/-- An exception has ended the program. -/
def Uncaught {σ : Type} (out : EStateM.Result (Halt Stop) σ Unit) : Prop :=
  ∃ e s, out = .error (.raised (.raised e)) s

/-- **Whatever the network loses, delays or answers**, and whatever arrives after the program was
left: what has been processed, and each MBR that was cleared, has its reason in front of it, and
the exit status tells how the bootstrap ended. -/
theorem bootstrap_safe (m : Machine) (fuel : Nat) (episodes : List (Channel.Episode Reply))
    (late : List Nat) :
    Sound (Need m) ((final (run m fuel episodes)).settle late) ∧
      ∀ code, status (run m fuel episodes) = some code →
        code = 0 ∧ Finished m (final (run m fuel episodes)).journal ∨
          code = 20 ∧ Refused m (final (run m fuel episodes)).journal ∨
            code = 1 ∧ (Unhandled m (final (run m fuel episodes)).journal ∨
              Uncaught (run m fuel episodes)) := by
  have hmain := main_rule (m := m) fuel (.init episodes) ⟨Sound.init episodes, trivial⟩
  unfold run
  generalize main m fuel (.init episodes) = out at hmain
  obtain ⟨hok, herror⟩ := hmain
  cases out with
  | ok a s =>
    obtain ⟨hsound, hfinished⟩ := hok a s rfl
    refine ⟨Channel.settle_sound (need_mono m) hsound late, fun code hcode => ?_⟩
    cases hcode
    exact .inl ⟨rfl, hfinished⟩
  | error e s =>
    obtain ⟨hsound, hfailed⟩ := herror e s rfl
    refine ⟨Channel.settle_sound (need_mono m) hsound late, fun code hcode => ?_⟩
    match e with
    | .waiting => cases hcode
    | .raised (.raised e) =>
      cases hcode
      exact .inr (.inr ⟨rfl, .inr ⟨e, s, rfl⟩⟩)
    | .raised (.exit status) =>
      cases hcode
      exact .inr (hfailed.imp_right fun h => ⟨h.1, .inl h.2⟩)

end Bootstrap
