import Mathlib.Data.List.Perm.Subperm
import Disks.Lib.Triple

/-!
# Requests over a network that loses and delays

A program asks a server, one request after the other, and may repeat a request that is not answered
well. What becomes of each sending is told by an `Episode`: it is lost, it is on its way and may
arrive at any later time or never, or it arrives now and its answer comes back or not. When the
episodes are used up the program still waits, so that a run over a list of them is what has happened
at some moment. The journal has what the server has processed, and what the program did itself.

* `Sound need s`: what is in the journal, and what is on its way, was called for by what stood in
  the journal before it. `tries_spec`, `settle_sound`: it is kept by a request that is called for,
  whatever the network does, and by what arrives after the end.
* `request_rule`, `own_rule`: the rules of a program, with what is known of the journal.
* `Once s`: nothing is processed more often than it was sent. `tries_sent`: how often that is for a
  request.
-/

namespace Channel

open Effect

variable {κ ρ ο ε : Type}

/-- What becomes of a sending. -/
inductive Fate (ρ : Type)
  | lost
  | delayed
  | unanswered
  | answered (reply : ρ)
deriving Repr

/-- A sending: what arrives late in front of it, by its place among what is on its way, and what
becomes of the sending. -/
structure Episode (ρ : Type) where
  late : List Nat
  fate : Fate ρ
deriving Repr

/-- What the server has processed, with the answer if it came back, or what the program did. -/
inductive Entry (κ ρ ο : Type)
  | processed (call : κ) (answer : Option ρ)
  | own (event : ο)
deriving DecidableEq, Repr

def Entry.what : Entry κ ρ ο → κ ⊕ ο
  | .processed call _ => .inl call
  | .own event => .inr event

def Entry.call : Entry κ ρ ο → Option κ
  | .processed call _ => some call
  | .own _ => none

structure State (κ ρ ο : Type) where
  episodes : List (Episode ρ)
  sent : List κ
  flying : List κ
  journal : List (Entry κ ρ ο)

/-- With nothing sent. -/
def State.init (episodes : List (Episode ρ)) : State κ ρ ο := ⟨episodes, [], [], []⟩

/-- What is on its way at a place arrives. -/
def State.arrive (s : State κ ρ ο) (k : Nat) : State κ ρ ο :=
  match s.flying[k]? with
  | none => s
  | some call => { s with
      flying := s.flying.eraseIdx k
      journal := s.journal ++ [.processed call none] }

def State.settle (s : State κ ρ ο) (late : List Nat) : State κ ρ ο := late.foldl State.arrive s

/-- One sending, and the answer if it came back. -/
def State.attempt (s : State κ ρ ο) (call : κ) (e : Episode ρ) : Option ρ × State κ ρ ο :=
  let s := { s.settle e.late with sent := (s.settle e.late).sent ++ [call] }
  match e.fate with
  | .lost => (none, s)
  | .delayed => (none, { s with flying := s.flying ++ [call] })
  | .unanswered => (none, { s with journal := s.journal ++ [.processed call none] })
  | .answered reply =>
    (some reply, { s with journal := s.journal ++ [.processed call (some reply)] })

/-- Sendings until there is no other try; `none` when the program still waits. -/
def tries (again : Nat → Option ρ → Bool) (call : κ) :
    Nat → List (Episode ρ) → State κ ρ ο → Option (Option ρ) × State κ ρ ο
  | _, [], s => (none, { s with episodes := [] })
  | retry, e :: rest, s =>
    if again retry (s.attempt call e).1 then
      tries again call (retry + 1) rest (s.attempt call e).2
    else (some (s.attempt call e).1, { (s.attempt call e).2 with episodes := rest })

/-- How a program is left: it still waits, or it has raised. -/
inductive Halt (ε : Type)
  | waiting
  | raised (e : ε)
deriving DecidableEq, Repr

abbrev Prog (ε κ ρ ο α : Type) := EStateM (Halt ε) (State κ ρ ο) α

def request (again : Nat → Option ρ → Bool) (call : κ) : Prog ε κ ρ ο (Option ρ) := fun s =>
  match tries again call 0 s.episodes s with
  | (none, s') => .error .waiting s'
  | (some reply, s') => .ok reply s'

theorem request_final (again : Nat → Option ρ → Bool) (call : κ) (s : State κ ρ ο) :
    final (request again call s : EStateM.Result (Halt ε) _ _) = (tries again call 0 s.episodes s).2
    := by
  unfold request
  split
  all_goals
    rename_i h
    rw [h]
    rfl

/-- What the program does itself. -/
def own (event : ο) : Prog ε κ ρ ο PUnit :=
  modify fun s => { s with journal := s.journal ++ [.own event] }

/-! ## What is called for -/

/-- More in the journal does not take the reason away. -/
def Mono (need : κ ⊕ ο → List (Entry κ ρ ο) → Prop) : Prop :=
  ∀ x l m, need x l → need x (l ++ m)

variable {need : κ ⊕ ο → List (Entry κ ρ ο) → Prop} {s : State κ ρ ο} {call : κ}

structure Sound (need : κ ⊕ ο → List (Entry κ ρ ο) → Prop) (s : State κ ρ ο) : Prop where
  journal : ∀ front x back, s.journal = front ++ x :: back → need x.what front
  flying : ∀ call ∈ s.flying, need (.inl call) s.journal

theorem Sound.init (episodes : List (Episode ρ)) :
    Sound need (State.init episodes : State κ ρ ο) where
  journal front x back h := by simp [State.init] at h
  flying call h := by simp [State.init] at h

/-- One more entry. -/
theorem Sound.snoc {x : Entry κ ρ ο} {sent flying : List κ} {episodes : List (Episode ρ)}
    (hmono : Mono need) (h : Sound need s) (hx : need x.what s.journal)
    (hflying : ∀ call ∈ flying, call ∈ s.flying) :
    Sound need ⟨episodes, sent, flying, s.journal ++ [x]⟩ where
  journal front y back hl := by
    change s.journal ++ [x] = front ++ y :: back at hl
    rcases List.eq_nil_or_concat back with rfl | ⟨back, z, rfl⟩
    · obtain ⟨rfl, hxy⟩ := List.append_inj' hl rfl
      rw [List.singleton_inj] at hxy
      exact hxy ▸ hx
    · have hcut : s.journal ++ [x] = (front ++ y :: back) ++ [z] := by simpa using hl
      exact h.journal front y back (List.append_inj' hcut rfl).1
  flying call hc := hmono _ _ _ (h.flying call (hflying call hc))

theorem arrive_sound (hmono : Mono need) (h : Sound need s) (k : Nat) :
    Sound need (s.arrive k) := by
  unfold State.arrive
  split
  · exact h
  · rename_i call hk
    exact h.snoc hmono (h.flying call (List.mem_of_getElem? hk)) fun _ => List.mem_of_mem_eraseIdx

/-- What arrives late, in whatever order. -/
theorem settle_sound (hmono : Mono need) (h : Sound need s) (late : List Nat) :
    Sound need (s.settle late) := by
  induction late generalizing s with
  | nil => exact h
  | cons k late ih => exact ih (arrive_sound hmono h k)

theorem arrive_journal (s : State κ ρ ο) (k : Nat) :
    ∃ new, (s.arrive k).journal = s.journal ++ new := by
  unfold State.arrive
  split
  · exact ⟨[], by simp⟩
  · exact ⟨[_], rfl⟩

theorem settle_journal (s : State κ ρ ο) (late : List Nat) :
    ∃ new, (s.settle late).journal = s.journal ++ new := by
  induction late generalizing s with
  | nil => exact ⟨[], by simp [State.settle]⟩
  | cons k late ih =>
    obtain ⟨new, hnew⟩ := arrive_journal s k
    obtain ⟨new', hnew'⟩ := ih (s.arrive k)
    exact ⟨new ++ new', by rw [← List.append_assoc, ← hnew, ← hnew']; rfl⟩

/-- What a sending adds, and its answer. -/
theorem attempt_journal (s : State κ ρ ο) (call : κ) (e : Episode ρ) :
    ∃ new, (s.attempt call e).2.journal = s.journal ++ new ∧
      ∀ reply, (s.attempt call e).1 = some reply → .processed call (some reply) ∈ new := by
  obtain ⟨new, hnew⟩ := settle_journal s e.late
  unfold State.attempt
  cases e.fate with
  | lost => exact ⟨new, hnew, fun _ h => by cases h⟩
  | delayed => exact ⟨new, hnew, fun _ h => by cases h⟩
  | unanswered =>
    exact ⟨new ++ [_], by simp only [hnew, List.append_assoc]; rfl, fun _ h => by cases h⟩
  | answered reply =>
    refine ⟨new ++ [_], by simp only [hnew, List.append_assoc]; rfl, fun _ h => ?_⟩
    cases h
    simp

theorem attempt_sound (hmono : Mono need) (h : Sound need s) (hcall : need (.inl call) s.journal)
    (e : Episode ρ) : Sound need (s.attempt call e).2 := by
  have hsettle := settle_sound hmono h e.late
  obtain ⟨new, hnew⟩ := settle_journal s e.late
  have hcall' : need (.inl call) (s.settle e.late).journal := hnew ▸ hmono _ _ _ hcall
  unfold State.attempt
  cases e.fate with
  | lost => exact ⟨hsettle.journal, hsettle.flying⟩
  | delayed =>
    refine ⟨hsettle.journal, fun c hc => ?_⟩
    cases List.mem_append.mp hc with
    | inl hc => exact hsettle.flying c hc
    | inr hc =>
      rw [List.mem_singleton.mp hc]
      exact hcall'
  | unanswered => exact Sound.snoc (s := s.settle e.late) hmono hsettle hcall' fun _ => id
  | answered reply => exact Sound.snoc (s := s.settle e.late) hmono hsettle hcall' fun _ => id

/-- **All sendings of a request**: what was known of the journal before is still there, and the
answer is in it. -/
theorem tries_spec (hmono : Mono need) (again : Nat → Option ρ → Bool) (retry : Nat)
    {episodes : List (Episode ρ)} (h : Sound need s) (hcall : need (.inl call) s.journal) :
    Sound need (tries again call retry episodes s).2 ∧
    ∃ new, (tries again call retry episodes s).2.journal = s.journal ++ new ∧
      ∀ reply, (tries again call retry episodes s).1 = some (some reply) →
        .processed call (some reply) ∈ new := by
  induction episodes generalizing retry s with
  | nil => exact ⟨⟨h.journal, h.flying⟩, [], by simp [tries], fun _ hr => by cases hr⟩
  | cons e rest ih =>
    obtain ⟨new, hnew, hanswer⟩ := attempt_journal s call e
    have hsound := attempt_sound hmono h hcall e
    unfold tries
    split
    · have hcall' : need (.inl call) (s.attempt call e).2.journal := hnew ▸ hmono _ _ _ hcall
      obtain ⟨hs', new', hnew', hr'⟩ := ih (retry + 1) hsound hcall'
      refine ⟨hs', new ++ new', by rw [hnew', hnew, List.append_assoc], fun reply hr => ?_⟩
      exact List.mem_append_right _ (hr' reply hr)
    · refine ⟨⟨hsound.journal, hsound.flying⟩, new, hnew, fun reply hr => hanswer reply ?_⟩
      exact Option.some.inj hr

/-- More in the journal does not change what holds of it. -/
def Stable (P : List (Entry κ ρ ο) → Prop) : Prop := ∀ l m, P l → P (l ++ m)

theorem Stable.and {P Q : List (Entry κ ρ ο) → Prop} (hP : Stable P) (hQ : Stable Q) :
    Stable fun l => P l ∧ Q l :=
  fun l m h => ⟨hP l m h.1, hQ l m h.2⟩

theorem Stable.exists {α : Type} {P : α → List (Entry κ ρ ο) → Prop} (hP : ∀ a, Stable (P a)) :
    Stable fun l => ∃ a, P a l :=
  fun l m ⟨a, h⟩ => ⟨a, hP a l m h⟩

theorem Stable.const (p : Prop) : Stable (fun _ => p : List (Entry κ ρ ο) → Prop) :=
  fun _ _ h => h

/-- Everything was called for, and `P` is known of the journal. -/
def At (need : κ ⊕ ο → List (Entry κ ρ ο) → Prop) (P : List (Entry κ ρ ο) → Prop)
    (s : State κ ρ ο) : Prop :=
  Sound need s ∧ P s.journal

/-- An answer that has come back. -/
def Answered (call : κ) (reply : ρ) (l : List (Entry κ ρ ο)) : Prop :=
  .processed call (some reply) ∈ l

theorem Answered.stable (call : κ) (reply : ρ) :
    Stable (Answered call reply : List (Entry κ ρ ο) → Prop) :=
  fun _ _ h => List.mem_append_left _ h

variable {P : List (Entry κ ρ ο) → Prop} {again : Nat → Option ρ → Bool}

theorem request_rule (hmono : Mono need) (hP : Stable P)
    (hcall : ∀ l, P l → need (.inl call) l) :
    Triple (At need P) (request again call : Prog ε κ ρ ο (Option ρ))
      (fun r => At need fun l => P l ∧ ∀ reply, r = some reply → Answered call reply l)
      fun _ => At need P := by
  intro s hs
  have hspec : Sound need (tries again call 0 s.episodes s).2 ∧ _ :=
    tries_spec hmono again 0 hs.1 (hcall _ hs.2)
  obtain ⟨hsound, new, hnew, hr⟩ := hspec
  unfold request
  generalize tries again call 0 s.episodes s = out at hsound hnew hr
  obtain ⟨r, s'⟩ := out
  have hP' : P s'.journal := hnew ▸ hP _ _ hs.2
  cases r with
  | none =>
    refine ⟨fun _ _ h => (by cases h), fun _ _ h => ?_⟩
    cases h
    exact ⟨hsound, hP'⟩
  | some r =>
    refine ⟨fun _ _ h => ?_, fun _ _ h => by cases h⟩
    cases h
    refine ⟨hsound, hP', fun reply hreply => ?_⟩
    rw [Answered, hnew]
    exact List.mem_append_right _ (hr reply (congrArg some hreply))

theorem own_rule {event : ο} (hmono : Mono need) (hP : Stable P)
    (hevent : ∀ l, P l → need (.inr event) l) {E : Halt ε → State κ ρ ο → Prop} :
    Triple (At need P) (own event : Prog ε κ ρ ο PUnit)
      (fun _ => At need fun l => P l ∧ .own event ∈ l) E :=
  Triple.modify fun _ hs =>
    ⟨hs.1.snoc hmono (hevent _ hs.2) fun _ => id, hP _ _ hs.2, by simp⟩

/-! ## How often a request is processed -/

/-- Nothing is processed more often than it was sent. -/
def Once (s : State κ ρ ο) : Prop :=
  (s.journal.filterMap Entry.call ++ s.flying).Subperm s.sent

theorem arrive_once (h : Once s) (k : Nat) : Once (s.arrive k) := by
  unfold State.arrive
  split
  · exact h
  · rename_i call hk
    obtain ⟨hlt, hget⟩ := List.getElem?_eq_some_iff.mp hk
    have hflying : (call :: s.flying.eraseIdx k).Perm s.flying :=
      hget ▸ List.getElem_cons_eraseIdx_perm hlt
    have hperm : ((s.journal ++ [Entry.processed call none]).filterMap Entry.call ++
        s.flying.eraseIdx k).Perm (s.journal.filterMap Entry.call ++ s.flying) := by
      rw [List.filterMap_append, List.append_assoc]
      exact hflying.append_left _
    exact hperm.subperm.trans h

theorem settle_once (h : Once s) (late : List Nat) : Once (s.settle late) := by
  induction late generalizing s with
  | nil => exact h
  | cons k late ih => exact ih (arrive_once h k)

theorem attempt_once (h : Once s) (call : κ) (e : Episode ρ) : Once (s.attempt call e).2 := by
  have hsettle : Once (s.settle e.late) := settle_once h e.late
  have hswap (answer : Option ρ) :
      (((s.settle e.late).journal ++ [Entry.processed call answer]).filterMap Entry.call ++
        (s.settle e.late).flying).Perm
        ((s.settle e.late).journal.filterMap Entry.call ++ (s.settle e.late).flying ++ [call]) := by
    have hcall : ([call] ++ (s.settle e.late).flying).Perm ((s.settle e.late).flying ++ [call]) :=
      List.perm_append_comm
    rw [List.filterMap_append, List.append_assoc, List.append_assoc]
    exact hcall.append_left _
  have hsent := (List.subperm_append_right [call]).mpr hsettle
  unfold State.attempt Once
  cases e.fate with
  | lost => exact List.Subperm.trans hsettle (List.sublist_append_left _ _).subperm
  | delayed =>
    rw [← List.append_assoc]
    exact hsent
  | unanswered => exact (hswap none).subperm.trans hsent
  | answered reply => exact (hswap (some reply)).subperm.trans hsent

theorem settle_sent (s : State κ ρ ο) (late : List Nat) : (s.settle late).sent = s.sent := by
  induction late generalizing s with
  | nil => rfl
  | cons k late ih =>
    have harrive : (s.arrive k).sent = s.sent := by
      unfold State.arrive
      split <;> rfl
    exact (ih (s.arrive k)).trans harrive

theorem attempt_sent (s : State κ ρ ο) (call : κ) (e : Episode ρ) :
    (s.attempt call e).2.sent = s.sent ++ [call] := by
  unfold State.attempt
  cases e.fate <;> simp [settle_sent]

/-- **How often a request is sent**: where there is no other try from `limit` on, at most one time
more. -/
theorem tries_sent (again : Nat → Option ρ → Bool) (call : κ) (retry : Nat)
    (episodes : List (Episode ρ)) (h : Once s) : Once (tries again call retry episodes s).2 ∧
    ∃ n, (tries again call retry episodes s).2.sent = s.sent ++ List.replicate n call ∧
      ∀ limit, (∀ k r, again k r = true → k < limit) → retry ≤ limit → n ≤ limit + 1 - retry := by
  induction episodes generalizing retry s with
  | nil => exact ⟨h, 0, by simp [tries], by simp⟩
  | cons e rest ih =>
    have honce := attempt_once h call e
    unfold tries
    split
    · rename_i hagain
      obtain ⟨hs', n, hsent, hn⟩ := ih (retry + 1) honce
      refine ⟨hs', n + 1, ?_, fun limit hlimit hretry => ?_⟩
      · rw [hsent, attempt_sent, List.append_assoc, List.replicate_succ, List.singleton_append]
      · have hlt := hlimit retry _ hagain
        have := hn limit hlimit hlt
        omega
    · exact ⟨honce, 1, attempt_sent s call e, fun limit _ hretry => by omega⟩

end Channel
