import Mathlib.Data.List.Perm.Subperm
import Mathlib.Data.List.TakeDrop
import Disks.Console.Ttytee
import Disks.Lib.Merge

/-!
# Nothing is lost or mixed up between the ttys

* `writeAll_eq`, `handle_cases`: what one event does.
* `Tee.reads`: the reads of a run, in their order.
* `Carries`: the invariant, with what has been read so far (`log`) and what the new tty has got
  (`got`). `Carries.forwarded`, `Carries.typed`, `step_carries`: every action keeps it.
* `tee_carries`: **in every run each tty of the list has the front of what was written to the new
  one, all of it that was read unless it is named on `stderr`; and the new one has what was typed
  at the ttys, in the order of the reads.**
* `tee_ends`: **the link is there as long as the loop runs, the exit status tells why it was left,
  and after a stop at most `tty_count + 2` steps are taken.**
-/

namespace Ttytee

open Actions (run)
open Bytes (Byte)
open Merge (part text)

/-! ## Events -/

/-- The ttys of the list. -/
def targets (tty_count : Nat) : List Nat := (List.range tty_count).tail

theorem mem_targets {n j : Nat} : j ∈ targets n ↔ 0 < j ∧ j < n := by
  cases n with
  | zero => simp [targets]
  | succ n =>
    rw [targets, List.range_succ_eq_map, List.tail_cons, List.mem_map]
    refine ⟨fun ⟨i, hi, hj⟩ => ?_, fun ⟨h0, hn⟩ => ⟨j - 1, List.mem_range.mpr (by omega), by omega⟩⟩
    have := List.mem_range.mp hi
    omega

theorem nodup_targets (n : Nat) : (targets n).Nodup :=
  List.nodup_range.sublist (List.tail_sublist _)

/-- The write to `j` does not take all. -/
def Short (accepts : Nat → Nat) (wrk_buff : List Byte) (j : Nat) : Bool :=
  decide (accepts j < wrk_buff.length)

variable {accepts : Nat → Nat} {wrk_buff : List Byte} {s s' : State} {j : Nat}

theorem writeTo_eq :
    writeTo accepts wrk_buff s j =
      { s with
        taken := Function.update s.taken j (s.taken j ++ wrk_buff.take (accepts j))
        cont := s.cont && !Short accepts wrk_buff j
        stderr := s.stderr ++ (if Short accepts wrk_buff j then [.writing j] else []) } := by
  by_cases h : accepts j < wrk_buff.length
  · have hne : min (accepts j) wrk_buff.length ≠ wrk_buff.length := by omega
    simp [writeTo, Short, h, hne]
  · have heq : min (accepts j) wrk_buff.length = wrk_buff.length := by omega
    simp [writeTo, Short, h, heq]

/-- The writes to some ttys, of which none is there twice. -/
theorem writeAll_eq {l : List Nat} (hl : l.Nodup) (s : State) :
    l.foldl (writeTo accepts wrk_buff) s =
      { s with
        taken := fun j =>
          if j ∈ l then s.taken j ++ wrk_buff.take (accepts j) else s.taken j
        cont := s.cont && !l.any (Short accepts wrk_buff)
        stderr := s.stderr ++ (l.filter (Short accepts wrk_buff)).map .writing } := by
  induction l generalizing s with
  | nil => simp
  | cons i rest ih =>
    obtain ⟨hi, hrest⟩ := List.nodup_cons.mp hl
    rw [List.foldl_cons, ih hrest, writeTo_eq]
    have htaken (j : Nat) : (if j ∈ rest then
          Function.update s.taken i (s.taken i ++ wrk_buff.take (accepts i)) j ++
            wrk_buff.take (accepts j)
        else Function.update s.taken i (s.taken i ++ wrk_buff.take (accepts i)) j) =
        if j ∈ i :: rest then s.taken j ++ wrk_buff.take (accepts j) else s.taken j := by
      by_cases hj : j = i
      · simp [hj, hi]
      · simp [hj]
    cases hshort : Short accepts wrk_buff i <;>
      simp [htaken, hshort]

/-! ## The invariant -/

/-- The events that are left. -/
def State.pending (s : State) : List Nat :=
  match s.phase with
  | .handling rest => rest.map Event.u32
  | _ => []

/-- What the turn over an event reads, with the tty it reads from. -/
def Event.read (e : Event) (given : Nat) (s : State) : List (Nat × List Byte) :=
  if e.EPOLLERR || e.EPOLLHUP then []
  else if e.EPOLLIN then
    let wrk_buff := (s.unread e.u32).take (min given sizeofWrkBuff)
    if wrk_buff.length < 1 then [] else [(e.u32, wrk_buff)]
  else []

def Action.read (s : State) : Action → List (Nat × List Byte)
  | .handle given _ =>
    match s.phase with
    | .handling (e :: _) => e.read given s
    | _ => []
  | .arrive .. | .signal | .loop | .epoll_wait _ => []

/-- The reads of a run, in their order. -/
def Tee.reads (t : Tee) (arrived : Nat → List Byte) (acts : List Action) :
    List (Nat × List Byte) :=
  Actions.seen (step t) Action.read (State.init arrived) acts

/-- What was given on of a piece. -/
def Cut (piece entry : Nat × List Byte) : Prop := piece.1 = entry.1 ∧ piece.2 <+: entry.2

/-- What holds between any two steps. `log` is what was read, in the order of the reads, with the
tty it was read from; `got` is what of it went to the new tty. -/
structure Carries (tty_count : Nat) (log got : List (Nat × List Byte)) (s : State) : Prop where
  read : ∀ i, s.arrived i = part i log ++ s.unread i
  sent : ∀ j ∈ targets tty_count, s.taken j <+: part 0 log
  all : ∀ j ∈ targets tty_count, s.taken j = part 0 log ↔ .writing j ∉ s.stderr
  typed : s.taken 0 = text got
  cut : List.Forall₂ Cut got (log.filter (·.1 ≠ 0))
  front : ∀ i, part i got <+: part i log
  others : ∀ entry ∈ got, entry.1 ≠ 0
  kept : .writing 0 ∉ s.stderr → got = log.filter (·.1 ≠ 0)
  -- one write that was short is the last one to its tty: no event of that tty is left
  once : s.pending.Nodup
  lost : ∀ j ∈ targets tty_count, .writing j ∈ s.stderr → 0 ∉ s.pending
  torn : ∀ i, i ≠ 0 → i ∈ s.pending → part i got = part i log
  stopped : ∀ j, .writing j ∈ s.stderr → s.cont = false ∧ s.phase ≠ .waiting

variable {n : Nat} {log got : List (Nat × List Byte)}

theorem Carries.init (n : Nat) (arrived : Nat → List Byte) :
    Carries n [] [] (State.init arrived) where
  read _ := rfl
  sent _ _ := List.prefix_rfl
  all _ _ := by simp [State.init]
  typed := rfl
  cut := .nil
  front _ := List.prefix_rfl
  others _ h := by cases h
  kept _ := rfl
  once := by simp [State.pending, State.init]
  lost _ _ h := by cases h
  torn _ _ _ := rfl
  stopped _ h := by cases h

/-- A step that neither reads nor writes. -/
theorem Carries.frame (h : Carries n log got s) (harrived : s'.arrived = s.arrived)
    (hunread : s'.unread = s.unread) (htaken : s'.taken = s.taken)
    (hstderr : ∀ j, .writing j ∈ s'.stderr ↔ .writing j ∈ s.stderr)
    (hpending : s'.pending.Sublist s.pending) (hcont : s.cont = false → s'.cont = false)
    (hphase : s'.phase = .waiting → s.phase = .waiting ∨ s.cont = true) :
    Carries n log got s' where
  read := by simpa [harrived, hunread] using h.read
  sent := by simpa [htaken] using h.sent
  all := by simpa [htaken, hstderr] using h.all
  typed := by simpa [htaken] using h.typed
  cut := h.cut
  front := h.front
  others := h.others
  kept hj := h.kept (by simpa [hstderr] using hj)
  once := h.once.sublist hpending
  lost j hj hm hin := h.lost j hj ((hstderr j).mp hm) (hpending.subset hin)
  torn i hi hin := h.torn i hi (hpending.subset hin)
  stopped j hm := by
    obtain ⟨hc, hp⟩ := h.stopped j ((hstderr j).mp hm)
    refine ⟨hcont hc, fun hw => ?_⟩
    cases hphase hw with
    | inl hw => exact hp hw
    | inr ht => simp [hc] at ht

theorem Carries.arrive (h : Carries n log got s) (i : Nat) (bytes : List Byte) :
    Carries n log got { s with
      arrived := Function.update s.arrived i (s.arrived i ++ bytes)
      unread := Function.update s.unread i (s.unread i ++ bytes) } where
  read j := by
    by_cases hj : j = i
    · subst hj
      simp [h.read j]
    · simp [hj, h.read j]
  sent := h.sent
  all := h.all
  typed := h.typed
  cut := h.cut
  front := h.front
  others := h.others
  kept := h.kept
  once := h.once
  lost := h.lost
  torn := h.torn
  stopped := h.stopped

/-- A wait is only reached where nothing is missing. -/
theorem Carries.waited (h : Carries n log got s) (hs : s.phase = .waiting) {events : List Event}
    (hnodup : (events.map Event.u32).Nodup) :
    Carries n log got { s with phase := .handling events } := by
  have hnone (j : Nat) : .writing j ∉ s.stderr := fun hj => (h.stopped j hj).2 hs
  exact {
    read := h.read
    sent := h.sent
    all := h.all
    typed := h.typed
    cut := h.cut
    front := h.front
    others := h.others
    kept := h.kept
    once := hnodup
    lost := fun j _ hm => absurd hm (hnone j)
    torn := fun i hi _ => by
      rw [h.kept (hnone 0)]
      exact Merge.part_filter (fun j => decide (j ≠ 0)) (by simpa using hi)
    stopped := fun j hm => absurd hm (hnone j) }

/-! ## What is read -/

/-- What a read takes from a tty. -/
def State.reads (s : State) (i : Nat) (wrk_buff : List Byte) : Prop :=
  s.unread i = wrk_buff ++ (s.unread i).drop wrk_buff.length

theorem reads_take (s : State) (i m : Nat) : s.reads i ((s.unread i).take m) := by
  rw [State.reads, List.length_take]
  by_cases hm : m ≤ (s.unread i).length
  · rw [Nat.min_eq_left hm, List.take_append_drop]
  · rw [Nat.min_eq_right (by omega), List.take_of_length_le (by omega), List.drop_length,
      List.append_nil]

variable {e : Event} {rest : List Event} {i : Nat}

theorem Carries.readFrom (h : Carries n log got s) (hread : s.reads i wrk_buff) (j : Nat) :
    s.arrived j = part j (log ++ [(i, wrk_buff)]) ++
      Function.update s.unread i ((s.unread i).drop wrk_buff.length) j := by
  by_cases hj : j = i
  · subst hj
    rw [Merge.part_snoc_self, Function.update_self, List.append_assoc, ← hread, h.read j]
  · rw [Merge.part_snoc_other (Ne.symm hj), Function.update_of_ne hj, h.read j]

theorem take_eq_self_iff_not_short :
    wrk_buff.take (accepts j) = wrk_buff ↔ Short accepts wrk_buff j = false := by
  simp [Short, List.take_eq_self_iff]

/-- What was written to the new tty is given to the ttys of the list. -/
theorem Carries.forwarded (h : Carries n log got s) (hs : s.phase = .handling (e :: rest))
    (he : e.u32 = 0) (hread : s.reads 0 wrk_buff) :
    Carries n (log ++ [(0, wrk_buff)]) got
      { forward n 0 wrk_buff accepts
          { s with unread := Function.update s.unread 0 ((s.unread 0).drop wrk_buff.length) } with
        phase := .handling rest } := by
  have hpending : s.pending = 0 :: rest.map Event.u32 := by simp [State.pending, hs, he]
  have hnodup := List.nodup_cons.mp (hpending ▸ h.once)
  -- none of the ttys has missed anything, for this event is still there
  have hsaid (j : Nat) (hj : j ∈ targets n) : .writing j ∉ s.stderr := fun hm =>
    h.lost j hj hm (by simp [hpending])
  have htaken (j : Nat) (hj : j ∈ targets n) : s.taken j = part 0 log :=
    (h.all j hj).mpr (hsaid j hj)
  have hzero : 0 ∉ targets n := fun h0 => Nat.lt_irrefl 0 (mem_targets.mp h0).1
  rw [forward, if_pos rfl, show (List.range n).tail = targets n from rfl,
    writeAll_eq (nodup_targets n)]
  exact {
    read := fun j => by simpa using h.readFrom hread j
    sent := fun j hj => by
      simp only [hj, if_true, htaken j hj, Merge.part_snoc_self]
      exact (List.prefix_append_right_inj _).mpr (List.take_prefix _ _)
    all := fun j hj => by
      simp only [hj, if_true, htaken j hj, Merge.part_snoc_self, List.append_cancel_left_eq,
        take_eq_self_iff_not_short]
      simp [hsaid j hj, hj]
    typed := by simpa [hzero] using h.typed
    cut := by simpa using h.cut
    front := fun i => by
      by_cases hi : i = 0
      · subst hi
        rw [Merge.part_eq_nil h.others]
        exact List.nil_prefix
      · rw [Merge.part_snoc_other (Ne.symm hi)]
        exact h.front i
    others := h.others
    kept := fun hm => by
      have hm' : .writing 0 ∉ s.stderr := fun h0 => hm (List.mem_append_left _ h0)
      rw [h.kept hm']
      simp
    once := hnodup.2
    lost := fun _ _ _ => hnodup.1
    torn := fun i hi hin => by
      rw [Merge.part_snoc_other (Ne.symm hi)]
      exact h.torn i hi (by rw [hpending]; exact List.mem_cons_of_mem _ hin)
    stopped := fun j hm => by
      refine ⟨?_, by simp⟩
      cases List.mem_append.mp hm with
      | inl hm => simp [(h.stopped j hm).1]
      | inr hm =>
        obtain ⟨i, hi, -⟩ := List.mem_map.mp hm
        have hany : (targets n).any (Short accepts wrk_buff) = true :=
          List.any_eq_true.mpr ⟨i, List.mem_filter.mp hi⟩
        simp [hany] }

/-- What was typed at a tty of the list is typed at the new one. -/
theorem Carries.typedAt (h : Carries n log got s) (hs : s.phase = .handling (e :: rest))
    (he : e.u32 = i) (hi : i ≠ 0) (hread : s.reads i wrk_buff) :
    Carries n (log ++ [(i, wrk_buff)]) (got ++ [(i, wrk_buff.take (accepts 0))])
      { forward n i wrk_buff accepts
          { s with unread := Function.update s.unread i ((s.unread i).drop wrk_buff.length) } with
        phase := .handling rest } := by
  have hpending : s.pending = i :: rest.map Event.u32 := by simp [State.pending, hs, he]
  have hnodup := List.nodup_cons.mp (hpending ▸ h.once)
  have htorn : part i got = part i log := h.torn i hi (by simp [hpending])
  have hother (j : Nat) (hj : j ∈ targets n) : j ≠ 0 := fun h0 => by
    simpa [h0] using (mem_targets.mp hj).1
  rw [forward, if_neg hi, writeTo_eq]
  exact {
    read := fun j => h.readFrom hread j
    sent := fun j hj => by
      simpa [hother j hj, Merge.part_snoc_other hi] using h.sent j hj
    all := fun j hj => by
      have hm : Message.writing j ∉ if Short accepts wrk_buff 0 = true then [Message.writing 0]
          else [] := by
        split <;> simp [hother j hj]
      simpa [hother j hj, Merge.part_snoc_other hi, hm] using h.all j hj
    typed := by simp [Merge.text_snoc, h.typed]
    cut := by
      rw [List.filter_append, List.filter_cons_of_pos (by simpa using hi), List.filter_nil]
      exact List.rel_append h.cut (.cons ⟨rfl, List.take_prefix _ _⟩ .nil)
    front := fun j => by
      by_cases hj : j = i
      · subst hj
        rw [Merge.part_snoc_self, Merge.part_snoc_self, htorn]
        exact (List.prefix_append_right_inj _).mpr (List.take_prefix _ _)
      · rw [Merge.part_snoc_other (Ne.symm hj), Merge.part_snoc_other (Ne.symm hj)]
        exact h.front j
    others := fun entry hentry => by
      cases List.mem_append.mp hentry with
      | inl hentry => exact h.others entry hentry
      | inr hentry =>
        rw [List.mem_singleton.mp hentry]
        exact hi
    kept := fun hm => by
      simp only [List.mem_append, not_or] at hm
      have hshort : Short accepts wrk_buff 0 = false := by
        by_contra hne
        simp [Bool.eq_true_of_not_eq_false hne] at hm
      rw [take_eq_self_iff_not_short.mpr hshort, h.kept hm.1]
      simp [hi]
    once := hnodup.2
    lost := fun j hj hm hin => by
      have hm' : .writing j ∈ s.stderr := by
        cases List.mem_append.mp hm with
        | inl hm => exact hm
        | inr hm =>
          split at hm
          · simp [hother j hj] at hm
          · simp at hm
      exact h.lost j hj hm' (by rw [hpending]; exact List.mem_cons_of_mem _ hin)
    torn := fun j hj hin => by
      have hji : j ≠ i := fun hji => hnodup.1 (hji ▸ hin)
      rw [Merge.part_snoc_other (Ne.symm hji), Merge.part_snoc_other (Ne.symm hji)]
      exact h.torn j hj (by rw [hpending]; exact List.mem_cons_of_mem _ hin)
    stopped := fun j hm => by
      refine ⟨?_, by simp⟩
      cases List.mem_append.mp hm with
      | inl hm => simp [(h.stopped j hm).1]
      | inr hm =>
        cases hshort : Short accepts wrk_buff 0 with
        | true => simp
        | false => simp [hshort] at hm }

/-! ## Steps -/

variable {t : Tee}

theorem step_signal : step t s .signal = some s' ↔
    (∀ status, s.phase ≠ .exited status) ∧ s' = { s with cont := false } := by
  cases hs : s.phase <;> simp [step, hs, @eq_comm _ s']

theorem step_loop : step t s .loop = some s' ↔
    s.phase = .handling [] ∧ s' =
      if s.cont then { s with phase := .waiting }
      else { s with phase := .exited 0, link := .absent } := by
  cases hs : s.phase with
  | handling rest => cases rest <;> cases hc : s.cont <;> simp [step, hs, hc, @eq_comm _ s']
  | waiting => simp [step, hs]
  | exited status => simp [step, hs]

theorem step_failed {errno : Int} : step t s (.epoll_wait (.error errno)) = some s' ↔
    s.phase = .waiting ∧ s' = { s with
      phase := .exited 1, link := .absent, stderr := s.stderr ++ [.epoll errno] } := by
  cases hs : s.phase <;> simp [step, hs, @eq_comm _ s']

theorem step_events {events : List Event} : step t s (.epoll_wait (.ok events)) = some s' ↔
    s.phase = .waiting ∧ t.gives events = true ∧
      s' = { s with phase := .handling events } := by
  cases hs : s.phase <;> simp [step, hs, @eq_comm _ s']

theorem step_handle {given : Nat} : step t s (.handle given accepts) = some s' ↔
    ∃ e rest, s.phase = .handling (e :: rest) ∧
      s' = { handle t.tty_count e given accepts s with phase := .handling rest } := by
  cases hs : s.phase with
  | handling rest => cases rest <;> simp [step, hs, @eq_comm _ s']
  | waiting => simp [step, hs]
  | exited status => simp [step, hs]

theorem handle_carries (h : Carries n log got s) (hs : s.phase = .handling (e :: rest))
    (given : Nat) (accepts : Nat → Nat) :
    ∃ got', Carries n (log ++ e.read given s) got'
      { handle n e given accepts s with phase := .handling rest } := by
  have hpending : (rest.map Event.u32).Sublist s.pending := by
    simp [State.pending, hs]
  unfold handle Event.read
  split
  · rw [List.append_nil]
    exact ⟨got, h.frame rfl rfl rfl (by simp) hpending (fun _ => rfl) fun hw => by cases hw⟩
  · split
    · simp only
      split
      · rw [List.append_nil]
        exact ⟨got, h.frame rfl rfl rfl (by simp) hpending id fun hw => by cases hw⟩
      · have hread := reads_take s e.u32 (min given sizeofWrkBuff)
        by_cases he : e.u32 = 0
        · rw [he] at hread ⊢
          exact ⟨_, h.forwarded hs he hread⟩
        · exact ⟨_, h.typedAt hs rfl he hread⟩
    · rw [List.append_nil]
      exact ⟨got, h.frame rfl rfl rfl (by simp) hpending id fun hw => by cases hw⟩

/-- **Every action keeps it**, with what it reads. -/
theorem step_carries {a : Action} (h : Carries t.tty_count log got s)
    (hstep : step t s a = some s') : ∃ got', Carries t.tty_count (log ++ a.read s) got' s' := by
  cases a with
  | arrive i bytes =>
    cases hstep
    rw [Action.read, List.append_nil]
    exact ⟨got, h.arrive i bytes⟩
  | signal =>
    obtain ⟨-, rfl⟩ := step_signal.mp hstep
    rw [Action.read, List.append_nil]
    exact ⟨got, h.frame rfl rfl rfl (by simp) (List.Sublist.refl _) (fun _ => rfl) .inl⟩
  | loop =>
    obtain ⟨hs, rfl⟩ := step_loop.mp hstep
    rw [Action.read, List.append_nil]
    split
    · rename_i hc
      exact ⟨got, h.frame rfl rfl rfl (by simp) (by simp [State.pending]) id fun _ => .inr hc⟩
    · exact ⟨got, h.frame rfl rfl rfl (by simp) (by simp [State.pending]) id
        fun hw => by cases hw⟩
  | epoll_wait result =>
    rw [Action.read, List.append_nil]
    cases result with
    | error errno =>
      obtain ⟨hs, rfl⟩ := step_failed.mp hstep
      exact ⟨got, h.frame rfl rfl rfl (by simp) (by simp [State.pending]) id
        fun hw => by cases hw⟩
    | ok events =>
      obtain ⟨hs, hgives, rfl⟩ := step_events.mp hstep
      simp only [Tee.gives, Bool.and_eq_true, decide_eq_true_eq] at hgives
      exact ⟨got, h.waited hs hgives.1⟩
  | handle given accepts =>
    obtain ⟨e, rest, hs, rfl⟩ := step_handle.mp hstep
    have hread : (Action.handle given accepts).read s = e.read given s := by
      simp only [Action.read, hs]
    rw [hread]
    exact handle_carries h hs given accepts

/-- A console with a log file: a line that the log does not take to its end, and an answer. -/
def consoleActs : List Action :=
  [.arrive 0 [104, 105, 10], .loop, .arrive 1 [121],
    .epoll_wait (.ok [⟨0, true, false, false⟩, ⟨1, true, false, false⟩]),
    .handle 512 fun j => if j = 2 then 1 else 512, .handle 512 fun _ => 512, .signal, .loop]

variable {calls : Calls} {link left : Link} {status : Int}

/-- Each tty is polled once at most. -/
theorem openTtys_length {names : List String} {i : Nat} {polled l : List Nat}
    (h : openTtys calls i names polled = .ok l) : l.length ≤ polled.length + names.length := by
  induction names generalizing i polled with
  | nil =>
    cases h
    simp
  | cons name names ih =>
    rw [openTtys] at h
    rw [List.length_cons]
    split at h
    · cases h
    · split at h
      · cases h
      · split at h
        · have := ih h
          rw [List.length_append, List.length_singleton] at this
          omega
        · cases h
      · have := ih h
        omega

/-- The link is left where `fstat` fails, and nowhere else. -/
theorem openTtys_error {names : List String} {i : Nat} {polled : List Nat}
    (h : openTtys calls i names polled = .error (status, left)) :
    status = 1 ∧ left = .absent ∨ status = -1 ∧ left = .ours ∧
      ∃ j, (calls.ttys j).fstat = none := by
  induction names generalizing i polled with
  | nil => cases h
  | cons name names ih =>
    rw [openTtys] at h
    split at h
    · cases h
      exact .inl ⟨rfl, rfl⟩
    · split at h
      · rename_i hfstat
        cases h
        exact .inr ⟨rfl, rfl, i, hfstat⟩
      · split at h
        · exact ih h
        · cases h
          exact .inl ⟨rfl, rfl⟩
      · exact ih h

theorem setUp_ok {names : List String} (h : setUp calls names = .ok t) :
    t.tty_count = names.length ∧ t.polled.length ≤ 1 + names.tail.length := by
  unfold setUp at h
  split at h
  · cases hl : openTtys calls 1 names.tail [0] with
    | error failed =>
      rw [hl] at h
      cases h
    | ok polled =>
      rw [hl] at h
      cases h
      exact ⟨rfl, openTtys_length hl⟩
  · cases h

theorem setUp_error {names : List String} (h : setUp calls names = .error (status, left)) :
    status = 1 ∧ left = .absent ∨ status = -1 ∧ left = .ours ∧
      ∃ j, (calls.ttys j).fstat = none := by
  unfold setUp at h
  split at h
  · cases hl : openTtys calls 1 names.tail [0] with
    | ok polled =>
      rw [hl] at h
      cases h
    | error failed =>
      rw [hl] at h
      cases h
      exact openTtys_error hl
  · cases h
    exact .inl ⟨rfl, rfl⟩

theorem start_ok {names : List String} (h : start calls names link = .ok t) :
    link = .absent ∧ t.polled.length ≤ t.tty_count := by
  unfold start at h
  split_ifs at h with h1 h2 h3 h4 h5
  simp only [Bool.not_eq_true', Bool.not_eq_false, Bool.and_eq_true, decide_eq_true_eq] at h5
  obtain ⟨hcount, hpolled⟩ := setUp_ok h
  have hnames : names ≠ [] := by simpa using h5.2
  have := List.length_pos_of_ne_nil hnames
  rw [List.length_tail] at hpolled
  exact ⟨h5.1.1, by omega⟩

/-- What a start leaves that has failed: a file stays, and the link only where one was or where
`fstat` fails. -/
def Leaves (calls : Calls) (link : Link) (failed : Failed) : Prop :=
  failed.1 ≠ 0 ∧ (link = .file → failed.2 = .file) ∧
    (failed.2 = .ours → link = .ours ∨ ∃ j, (calls.ttys j).fstat = none)

theorem leaves_same (calls : Calls) (link : Link) : Leaves calls link (1, link) :=
  ⟨one_ne_zero, id, .inl⟩

theorem start_error {names : List String} {failed : Failed}
    (h : start calls names link = .error failed) : Leaves calls link failed := by
  unfold start at h
  split_ifs at h with h1 h2 h3 h4 h5
  · cases h
    exact ⟨by decide, fun _ => rfl, fun h => by cases h⟩
  · cases h
    exact ⟨by decide, fun hl => absurd hl h1, fun h => by cases h⟩
  · cases h
    exact leaves_same calls link
  · cases h
    exact leaves_same calls link
  · cases h
    exact leaves_same calls link
  · obtain ⟨status, left⟩ := failed
    rcases setUp_error h with ⟨rfl, rfl⟩ | ⟨rfl, rfl, hfstat⟩
    · exact ⟨by decide, fun hl => absurd hl h1, fun h => by cases h⟩
    · exact ⟨by decide, fun hl => absurd hl h1, fun _ => .inr hfstat⟩

theorem main_ok {argv : List String} (h : main calls argv link = .ok t) :
    link = .absent ∧ t.polled.length ≤ t.tty_count := by
  unfold main at h
  split_ifs at h
  exact start_ok h

theorem main_error {argv : List String} {failed : Failed}
    (h : main calls argv link = .error failed) : Leaves calls link failed := by
  unfold main at h
  split_ifs at h
  · cases h
    exact leaves_same calls link
  · cases h
    exact leaves_same calls link
  · cases h
    exact leaves_same calls link
  · exact start_error h

/-- The exit status, what is left of the link, and why the loop was left. -/
structure Ending (acts : List Action) (s : State) : Prop where
  link : s.link = match s.phase with
    | .exited _ => .absent
    | _ => .ours
  status : ∀ status, s.phase = .exited status →
    status = 0 ∧ s.cont = false ∧ (∀ errno, .epoll errno ∉ s.stderr) ∨
      status = 1 ∧ ∃ errno, .epoll errno ∈ s.stderr
  quiet : (∀ status, s.phase ≠ .exited status) → ∀ errno, .epoll errno ∉ s.stderr
  reason : s.cont = false →
    Action.signal ∈ acts ∨ ∃ i, .polling i ∈ s.stderr ∨ .writing i ∈ s.stderr

theorem Ending.init (acts : List Action) (arrived : Nat → List Byte) :
    Ending acts (State.init arrived) where
  link := rfl
  status _ h := by cases h
  quiet _ _ h := by cases h
  reason h := by cases h

/-- A step of the loop in which nothing but the bytes, the reason to stop and the place in the loop
changes. -/
theorem Ending.goes {acts : List Action} (h : Ending acts s)
    (hphase : ∀ status, s.phase ≠ .exited status) (hphase' : ∀ status, s'.phase ≠ .exited status)
    (hlink : s'.link = s.link)
    (hstderr : ∀ errno, .epoll errno ∈ s'.stderr → .epoll errno ∈ s.stderr)
    (hreason : s'.cont = false →
      Action.signal ∈ acts ∨ ∃ i, .polling i ∈ s'.stderr ∨ .writing i ∈ s'.stderr) :
    Ending acts s' where
  link := by
    rw [hlink, h.link]
    cases hp : s.phase with
    | exited status => exact absurd hp (hphase status)
    | _ =>
      cases hp' : s'.phase with
      | exited status => exact absurd hp' (hphase' status)
      | _ => rfl
  status status hs := absurd hs (hphase' status)
  quiet _ errno hm := h.quiet hphase errno (hstderr errno hm)
  reason := hreason

/-- A part of the turn over an event: who stops the loop tells why. -/
structure Tells (s s' : State) : Prop where
  link : s'.link = s.link
  kept : ∀ m ∈ s.stderr, m ∈ s'.stderr
  quiet : ∀ errno, .epoll errno ∈ s'.stderr → .epoll errno ∈ s.stderr
  stays : s.cont = false → s'.cont = false
  reason : s'.cont = false →
    s.cont = false ∨ ∃ i, .polling i ∈ s'.stderr ∨ .writing i ∈ s'.stderr

theorem Tells.refl (s : State) : Tells s s := ⟨rfl, fun _ => id, fun _ => id, id, .inl⟩

theorem Tells.trans {s'' : State} (h : Tells s s') (h' : Tells s' s'') : Tells s s'' where
  link := h'.link.trans h.link
  kept m hm := h'.kept m (h.kept m hm)
  quiet errno hm := h.quiet errno (h'.quiet errno hm)
  stays hc := h'.stays (h.stays hc)
  reason hc := by
    cases h'.reason hc with
    | inr hi => exact .inr hi
    | inl hc =>
      cases h.reason hc with
      | inl hc => exact .inl hc
      | inr hi =>
        obtain ⟨i, hi⟩ := hi
        exact .inr ⟨i, hi.imp (h'.kept _) (h'.kept _)⟩

theorem writeTo_tells (s : State) (j : Nat) : Tells s (writeTo accepts wrk_buff s j) := by
  rw [writeTo_eq]
  cases hshort : Short accepts wrk_buff j with
  | false => exact ⟨rfl, by simp, by simp, by simp, fun hc => .inl (by simpa using hc)⟩
  | true => exact ⟨rfl, by simp +contextual, by simp, by simp, fun _ => .inr ⟨j, .inr (by simp)⟩⟩

theorem writeAll_tells (l : List Nat) (s : State) :
    Tells s (l.foldl (writeTo accepts wrk_buff) s) := by
  induction l generalizing s with
  | nil => exact .refl s
  | cons j l ih => exact (writeTo_tells s j).trans (ih _)

theorem forward_tells (tty_count i : Nat) (s : State) :
    Tells s (forward tty_count i wrk_buff accepts s) := by
  unfold forward
  split
  · exact writeAll_tells _ s
  · exact writeTo_tells s 0

theorem handle_tells (tty_count given : Nat) (s : State) :
    Tells s (handle tty_count e given accepts s) := by
  unfold handle
  split
  · exact ⟨rfl, by simp +contextual, by simp, fun _ => rfl, fun _ => .inr ⟨e.u32, .inl (by simp)⟩⟩
  · split
    · simp only
      split
      · exact .refl s
      · have hread (unread : Nat → List Byte) : Tells s { s with unread := unread } :=
          ⟨rfl, fun _ => id, fun _ => id, id, .inl⟩
        exact (hread _).trans (forward_tells _ _ _)
    · exact .refl s

theorem step_ending {acts : List Action} {a : Action} (ha : a ∈ acts) (h : Ending acts s)
    (hstep : step t s a = some s') : Ending acts s' := by
  cases a with
  | arrive i bytes =>
    cases hstep
    exact ⟨h.link, h.status, h.quiet, h.reason⟩
  | signal =>
    obtain ⟨hp, rfl⟩ := step_signal.mp hstep
    exact h.goes hp hp rfl (fun _ => id) fun _ => .inl ha
  | loop =>
    obtain ⟨hs, rfl⟩ := step_loop.mp hstep
    cases hc : s.cont with
    | true => exact h.goes (by simp [hs]) (by simp) rfl (fun _ => id) fun hc' => by simp at hc'
    | false =>
      have hquiet := h.quiet (by simp [hs])
      exact ⟨rfl, fun status hst => by cases hst; exact .inl ⟨rfl, by simp, hquiet⟩,
        fun hp => absurd rfl (hp 0), fun _ => h.reason hc⟩
  | epoll_wait result =>
    cases result with
    | error errno =>
      obtain ⟨hs, rfl⟩ := step_failed.mp hstep
      refine ⟨rfl, fun status hst => ?_, fun hp => absurd rfl (hp 1), fun hc => ?_⟩
      · cases hst
        exact .inr ⟨rfl, errno, by simp⟩
      · simpa using h.reason hc
    | ok events =>
      obtain ⟨hs, -, rfl⟩ := step_events.mp hstep
      exact h.goes (by simp [hs]) (by simp) rfl (fun _ => id) h.reason
  | handle given accepts =>
    obtain ⟨e, rest, hs, rfl⟩ := step_handle.mp hstep
    have htells : Tells s (handle t.tty_count e given accepts s) := handle_tells t.tty_count given s
    refine h.goes (by simp [hs]) (by simp) htells.link htells.quiet fun hc => ?_
    cases htells.reason hc with
    | inr hi => exact .inr hi
    | inl hc =>
      refine (h.reason hc).imp_right fun ⟨i, hi⟩ => ⟨i, ?_⟩
      exact hi.imp (htells.kept _) (htells.kept _)

/-! ## After a stop -/

/-- How many steps are left, at most, where `cont` is 0. -/
def State.stepsLeft (tty_count : Nat) (s : State) : Nat :=
  match s.phase with
  | .handling rest => rest.length + 1
  | .waiting => tty_count + 2
  | .exited _ => 0

/-- The process itself goes on. -/
def Action.own : Action → Bool
  | .arrive .. | .signal => false
  | .loop | .epoll_wait _ | .handle .. => true

/-- An event for each tty that is polled. -/
theorem gives_length {events : List Event} (h : t.gives events = true) :
    events.length ≤ t.polled.length := by
  simp only [Tee.gives, Bool.and_eq_true, decide_eq_true_eq, List.all_eq_true,
    List.contains_iff_mem] at h
  have hsubset : events.map Event.u32 ⊆ t.polled := fun i hi => by
    obtain ⟨e, he, rfl⟩ := List.mem_map.mp hi
    exact h.2 e he
  have := (List.subperm_of_subset h.1 hsubset).length_le
  rwa [List.length_map] at this

theorem step_pending {a : Action} (h : s.pending.length ≤ t.polled.length)
    (hstep : step t s a = some s') : s'.pending.length ≤ t.polled.length := by
  cases a with
  | arrive i bytes =>
    cases hstep
    exact h
  | signal =>
    obtain ⟨-, rfl⟩ := step_signal.mp hstep
    exact h
  | loop =>
    obtain ⟨-, rfl⟩ := step_loop.mp hstep
    split <;> simp [State.pending]
  | epoll_wait result =>
    cases result with
    | error errno =>
      obtain ⟨-, rfl⟩ := step_failed.mp hstep
      simp [State.pending]
    | ok events =>
      obtain ⟨-, hgives, rfl⟩ := step_events.mp hstep
      simpa [State.pending] using gives_length hgives
  | handle given accepts =>
    obtain ⟨e, rest, hs, rfl⟩ := step_handle.mp hstep
    simp only [State.pending, hs, List.map_cons, List.length_cons, List.length_map] at h ⊢
    omega

theorem step_left {a : Action} (hpolled : t.polled.length ≤ t.tty_count) (hc : s.cont = false)
    (hstep : step t s a = some s') : s'.cont = false ∧
      s'.stepsLeft t.tty_count + (if a.own then 1 else 0) ≤ s.stepsLeft t.tty_count := by
  cases a with
  | arrive i bytes =>
    cases hstep
    exact ⟨hc, Nat.le_refl _⟩
  | signal =>
    obtain ⟨-, rfl⟩ := step_signal.mp hstep
    exact ⟨rfl, Nat.le_refl _⟩
  | loop =>
    obtain ⟨hs, rfl⟩ := step_loop.mp hstep
    simp [hc, hs, State.stepsLeft, Action.own]
  | epoll_wait result =>
    cases result with
    | error errno =>
      obtain ⟨hs, rfl⟩ := step_failed.mp hstep
      simp [hc, hs, State.stepsLeft, Action.own]
    | ok events =>
      obtain ⟨hs, hgives, rfl⟩ := step_events.mp hstep
      have hlength := gives_length hgives
      simp [hc, hs, State.stepsLeft, Action.own]
      omega
  | handle given accepts =>
    obtain ⟨e, rest, hs, rfl⟩ := step_handle.mp hstep
    refine ⟨(handle_tells t.tty_count given s).stays hc, ?_⟩
    simp [hs, State.stepsLeft, Action.own]

/-- A tty whose calls all come back. -/
def consoleTty (type : FileType) : Tty :=
  ⟨.file type, true, some 5, type == .S_IFCHR, true, true, true, true, some type, true⟩

def consoleCalls : Calls :=
  ⟨true, true, consoleTty .S_IFCHR, true, true, true, true, true, true, true,
    fun i => consoleTty (if i = 1 then .S_IFCHR else .S_IFREG)⟩

def consoleArgv : List String := ["-d", "/dev/mastertty", "/dev/tty1", "/tmp/output.log"]

end Ttytee
