import Disks.Contractor.Client

/-!
# What a request of the contractor comes to

* `request_ok`: the rule of `request`, with what it leaves in the journal.
* `request_sent`: a request is sent at most `retry_count + 1` times.
* `signal_once`: **the programs of a job make their call at most once, behind a log in, and come
  back only with its answer.**
-/

namespace Contractor

open Channel (At Mono Stable Answered Sound Halt Once)
open Effect (Triple final)

/-- What was answered is in the journal. -/
def Told (call : Call) (value : Json) (l : List (Channel.Entry Call Reply Event)) : Prop :=
  ∃ reply, Answered call reply l ∧ outcome (some reply) = .ok value

theorem Told.stable (call : Call) (value : Json) : Stable (Told call value) :=
  fun _ m ⟨reply, h, hvalue⟩ => ⟨reply, Answered.stable call reply _ m h, hvalue⟩

variable {need : Call ⊕ Event → List (Channel.Entry Call Reply Event) → Prop}
  {P : List (Channel.Entry Call Reply Event) → Prop} {call : Call} {retry_count : Int}
  {format : Json → String} {E : Halt Stop → Channel.State Call Reply Event → Prop}

/-- What may be raised where nothing is known but `P`. -/
theorem unwrap_rule {value : Except Raised Json}
    (hE : ∀ e s, At need P s → E (.raised (.raised e)) s) :
    Triple (At need P) (unwrap value) (fun v => At need fun l => P l ∧ value = .ok v) E := by
  cases value with
  | ok v => exact Triple.pure fun s hs => ⟨hs.1, hs.2, rfl⟩
  | error e => exact Triple.throw fun s hs => hE e s hs

/-- **A request that is called for**, whatever the network does. -/
theorem request_ok (hmono : Mono need) (hP : Stable P) (hcall : ∀ l, P l → need (.inl call) l)
    (hwait : ∀ s, At need P s → E .waiting s)
    (hE : ∀ e s, At need P s → E (.raised (.raised e)) s) :
    Triple (At need P) (request format retry_count call)
      (fun value => At need fun l => P l ∧ Told call value l) E := by
  have hrequest : Triple (At need P)
      (Channel.request (again retry_count) call : Prog (Option Reply)) _ _ :=
    Channel.request_rule hmono hP hcall
  refine Triple.ite (fun _ s hs => ?_) fun _ => Triple.throw (hE .InvalidRequest)
  obtain ⟨hok, herror⟩ := hrequest s hs
  have hwaits (e : Halt Stop) (s' : Channel.State Call Reply Event)
      (h : Channel.request (again retry_count) call s = .error e s') : e = .waiting := by
    unfold Channel.request at h
    split at h
    · cases h
      rfl
    · cases h
  cases hres : Channel.request (ε := Stop) (again retry_count) call s with
  | error e s' =>
    rw [Effect.bind_error hres]
    refine ⟨fun _ _ h => (by cases h), fun _ _ h => ?_⟩
    cases h
    rw [hwaits e s' hres]
    exact hwait s' (herror e s' hres)
  | ok reply s' =>
    rw [Effect.bind_ok hres]
    obtain ⟨hsound, hp, htold⟩ := hok reply s' hres
    cases hvalue : outcome reply with
    | error e =>
      refine ⟨fun _ _ h => (by cases h), fun _ _ h => ?_⟩
      cases h
      exact hE e s' ⟨hsound, hp⟩
    | ok value =>
      refine ⟨fun _ _ h => ?_, fun _ _ h => by cases h⟩
      cases h
      cases reply with
      | none => cases hvalue
      | some reply => exact ⟨hsound, hp, reply, htold reply rfl, hvalue⟩

/-! ## How often -/

variable (call format)

theorem again_lt {retry_count retry : Nat} {reply : Option Reply}
    (h : again retry_count retry reply = true) : retry < retry_count := by
  unfold again at h
  split at h <;> grind

theorem unwrap_final (value : Except Raised Json) (s : Channel.State Call Reply Event) :
    final (unwrap value s) = s := by
  cases value <;> rfl

theorem request_final (retry_count : Int) (s : Channel.State Call Reply Event) :
    final (request format retry_count call s) = s ∨
      final (request format retry_count call s) =
        (Channel.tries (again retry_count) call 0 s.episodes s).2 := by
  unfold request
  split
  · right
    rw [← Channel.request_final (ε := Stop)]
    cases hres : Channel.request (ε := Stop) (again retry_count) call s with
    | error e s' => rw [Effect.bind_error hres]; rfl
    | ok reply s' =>
      rw [Effect.bind_ok hres]
      exact unwrap_final (outcome reply) s'
  · exact Or.inl rfl

/-- The sendings of a request, also where it is not answered. -/
theorem request_sent (retry_count : Nat) {s : Channel.State Call Reply Event} (h : Once s) :
    Once (final (request format retry_count call s)) ∧ ∃ n ≤ retry_count + 1,
      (final (request format retry_count call s)).sent = s.sent ++ List.replicate n call := by
  obtain ⟨honce, n, hsent, hn⟩ :=
    Channel.tries_sent (again retry_count) call 0 s.episodes h
  have hle : n ≤ retry_count + 1 := hn retry_count (fun _ _ => again_lt) (Nat.zero_le _)
  rcases request_final call format retry_count s with hs | hs
  · rw [hs]
    exact ⟨h, 0, Nat.zero_le _, by simp⟩
  · rw [hs]
    exact ⟨honce, n, hle, hsent⟩

/-- Without another try. -/
theorem request_once {s : Channel.State Call Reply Event} (h : Once s) :
    Once (final (request format 0 call s)) ∧ ∃ new : List Call, new.Sublist [call] ∧
      (final (request format 0 call s)).sent = s.sent ++ new := by
  obtain ⟨honce, n, hn, hsent⟩ := request_sent call format 0 h
  exact ⟨honce, List.replicate n call, List.replicate_sublist_replicate _ |>.mpr hn, hsent⟩

/-- The reason of a call of a job's program. -/
def SignalNeed (call : Call) : Call ⊕ Event → List (Channel.Entry Call Reply Event) → Prop
  | .inl c, l => c = .login "jobsig" "jobsig" ∨
    c = call ∧ ∃ token, Told (.login "jobsig" "jobsig") token l
  | .inr _, _ => False

theorem signalNeed_mono (call : Call) : Mono (SignalNeed call) := by
  intro x l new h
  cases x with
  | inr event => exact h
  | inl c =>
    exact h.imp_right fun ⟨hc, htoken⟩ =>
      ⟨hc, Stable.exists (fun _ => Told.stable _ _) l new htoken⟩

theorem signal_rule :
    Triple (At (SignalNeed call) fun _ => True) (signal format call)
      (fun value => At (SignalNeed call) (Told call value))
      fun _ => At (SignalNeed call) fun _ => True := by
  have hmono := signalNeed_mono call
  have hlogin : Triple (At (SignalNeed call) fun _ => True) (login format) _
      fun _ => At (SignalNeed call) fun _ => True :=
    request_ok hmono (Stable.const _) (fun _ _ => Or.inl rfl) (fun _ => id) fun _ _ => id
  refine hlogin.bind fun token => ?_
  have hcall : Triple (At (SignalNeed call) fun l => True ∧ Told (.login "jobsig" "jobsig") token l)
      (request format 0 call) _ fun _ => At (SignalNeed call) fun _ => True :=
    request_ok hmono ((Stable.const _).and (Told.stable _ _))
      (fun _ hl => Or.inr ⟨rfl, token, hl.2⟩) (fun _ hs => ⟨hs.1, trivial⟩)
      fun _ _ hs => ⟨hs.1, trivial⟩
  exact hcall.mono (fun _ _ hs => ⟨hs.1, hs.2.2⟩) fun _ _ => id

theorem signal_sent (episodes : List (Channel.Episode Reply)) :
    Once (final (signal format call (.init episodes))) ∧
      (final (signal format call (.init episodes))).sent.Sublist
        [.login "jobsig" "jobsig", call] := by
  have hinit : Once (.init episodes : Channel.State Call Reply Event) := List.Subperm.refl _
  have hlogin : Once (final (login format (.init episodes))) ∧ ∃ new : List Call,
      new.Sublist [.login "jobsig" "jobsig"] ∧ (final (login format (.init episodes))).sent = new :=
    request_once _ format hinit
  obtain ⟨honce, front, hfront, hsent⟩ := hlogin
  unfold signal
  cases hres : login format (.init episodes) with
  | error e s =>
    rw [hres] at honce hsent
    rw [Effect.bind_error hres]
    refine ⟨honce, ?_⟩
    rw [hsent]
    exact hfront.trans (List.sublist_append_left _ [call])
  | ok token s =>
    rw [hres] at honce hsent
    rw [Effect.bind_ok hres]
    have hcall : Once (final (request format 0 call s)) ∧ ∃ new : List Call, new.Sublist [call] ∧
        (final (request format 0 call s)).sent = front ++ new :=
      hsent ▸ request_once call format honce
    obtain ⟨honce', back, hback, hsent'⟩ := hcall
    exact ⟨honce', hsent' ▸ hfront.append hback⟩

/-- **The program of a job**, whatever the network does and whatever arrives after its end. -/
theorem signal_once (format : Json → String) (call : Call)
    (episodes : List (Channel.Episode Reply)) (late : List Nat) :
    Sound (SignalNeed call) ((final (signal format call (.init episodes))).settle late) ∧
      (((final (signal format call (.init episodes))).settle late).journal.filterMap
        Channel.Entry.call).Subperm [.login "jobsig" "jobsig", call] ∧
      ∀ value s, signal format call (.init episodes) = .ok value s → Told call value s.journal := by
  have hinit : At (SignalNeed call) (fun _ => True) (.init episodes) :=
    ⟨Sound.init episodes, trivial⟩
  obtain ⟨hok, herror⟩ := signal_rule call format _ hinit
  obtain ⟨honce, hsent⟩ := signal_sent call format episodes
  generalize signal format call (.init episodes) = out at hok herror honce hsent
  have hsound : Sound (SignalNeed call) (final out) := by
    cases out with
    | ok value s => exact (hok value s rfl).1
    | error e s => exact (herror e s rfl).1
  refine ⟨Channel.settle_sound (signalNeed_mono call) hsound late, ?_,
    fun value s h => (hok value s h).2⟩
  have hsettled : Once ((final out).settle late) := Channel.settle_once honce late
  unfold Once at hsettled
  rw [Channel.settle_sent] at hsettled
  exact ((List.sublist_append_left _ _).subperm.trans hsettled).trans hsent.subperm

end Contractor
