import Disks.Firmware.Handler
import Mathlib.Data.List.Induction

/-!
# Capture of an updater's output (`firmware/root/firmware/handler.py`)

* `operation_cases`: what an operation of the handler does.
* `run_finished`: **the handler ends at most 19 operations after the child.**
* `Kept`, `step_kept`: what was read and what is still to be read is what the child writes.
* `execute_captures`: **the log has each byte of both streams once, and the last lines are right
  unless the loop over `stderr` takes something from `stdout`.**
  `line_under_stderr`: a line that comes too early.
-/

namespace Firmware

/-! ## Streams -/

@[simp] theorem filtered_append (a b : List UInt8) :
    filtered (a ++ b) = filtered a ++ filtered b := by
  simp [filtered]

@[simp] theorem output_append (a b : List Chunk) (stream : Stream) :
    output (a ++ b) stream = output a stream ++ output b stream := by
  simp [output]

theorem output_singleton (c : Chunk) (stream : Stream) :
    output [c] stream = if c.stream = stream then c.bytes else [] := by
  by_cases h : c.stream = stream <;> simp [output, h]

/-- What a child has still to write is not changed by its turn. -/
theorem advance_output (s : State) (stream : Stream) :
    s.advance.pipe stream ++ output s.advance.turns.flatten stream =
      s.pipe stream ++ output s.turns.flatten stream := by
  unfold State.advance
  cases s.turns with
  | nil => simp [output]
  | cons chunks turns => simp

/-! ## Operations -/

/-- The stream that is read at a position, in the loop over a stream. -/
inductive Reads : Position → Stream → Phase → Stream → Prop
  | first (stream : Stream) (phase : Phase) : Reads (.first stream phase) stream phase stream
  | again (stream : Stream) (phase : Phase) : Reads (.again stream phase) stream phase .stdout

theorem Reads.cases {position : Position} {stream source : Stream} {phase : Phase}
    (h : Reads position stream phase source) :
    position = .first stream phase ∧ source = stream ∨
      position = .again stream phase ∧ source = .stdout := by
  cases h with
  | first => exact .inl ⟨rfl, rfl⟩
  | again => exact .inr ⟨rfl, rfl⟩

/-- What an operation does. -/
inductive Does (ioerror : Bool) (s : State) : State → Prop
  | poll (h : s.position = .poll) :
    Does ioerror s
      { s with position := .first .stdout (if s.turns = [] then .ended else .running) }
  | retry (stream : Stream) (h : s.position = .first stream .running) (herror : ioerror = true) :
    Does ioerror s { s with position := .poll }
  | skip (stream : Stream) (h : s.position = .first stream .ended) (herror : ioerror = true) :
    Does ioerror s { s with position := afterLoop stream .ended }
  | raise (stream : Stream) (phase : Phase) (h : s.position = .again stream phase)
    (herror : ioerror = true) : Does ioerror s { s with position := .raised }
  | leave (stream : Stream) (phase : Phase) (source : Stream)
    (h : Reads s.position stream phase source) (hnothing : s.pipe source = []) :
    Does ioerror s { s with position := afterLoop stream phase }
  | keep (stream : Stream) (phase : Phase) (source : Stream) (headers : List Record)
    (h : Reads s.position stream phase source) (hsome : s.pipe source ≠ [])
    (hheaders : ∀ r ∈ headers, r = Record.header stream) :
    Does ioerror s
      { s with
        position := .again stream phase
        pipe := Function.update s.pipe source []
        log := s.log ++ headers ++ [Record.data (filtered (s.pipe source))]
        return_lines :=
          if stream = .stdout then (s.return_lines ++ filtered (s.pipe source)).rtake 5000
          else s.return_lines }

theorem read_nothing {s : State} {stream : Stream} (h : s.pipe stream = []) :
    (s.read stream).2 = s := by
  have hpipe : Function.update s.pipe stream [] = s.pipe :=
    h ▸ Function.update_eq_self stream s.pipe
  rw [State.read, hpipe]

theorem operation_cases {s : State} (h : ¬ s.Finished) (ioerror : Bool) :
    Does ioerror s (s.operation ioerror) := by
  unfold State.operation
  cases hposition : s.position with
  | poll => exact .poll hposition
  | first stream phase =>
    cases ioerror with
    | true =>
      cases phase with
      | running => exact .retry stream hposition rfl
      | ended => exact .skip stream hposition rfl
    | false =>
      have hreads : Reads s.position stream phase stream := hposition ▸ .first stream phase
      by_cases hnothing : s.pipe stream = []
      · have hread : (s.read stream).1 = [] := hnothing
        simp only [Bool.false_eq_true, if_false, hread, if_true, read_nothing hnothing]
        exact .leave stream phase stream hreads hnothing
      · have hread : (s.read stream).1 ≠ [] := hnothing
        simp only [Bool.false_eq_true, if_false, hread]
        exact .keep stream phase stream [Record.header stream] hreads hnothing (by simp)
  | again stream phase =>
    cases ioerror with
    | true => exact .raise stream phase hposition rfl
    | false =>
      have hreads : Reads s.position stream phase .stdout := hposition ▸ .again stream phase
      by_cases hnothing : s.pipe .stdout = []
      · have hread : (s.read .stdout).1 = [] := hnothing
        simp only [Bool.false_eq_true, if_false, hread, if_true, read_nothing hnothing]
        exact .leave stream phase .stdout hreads hnothing
      · have hread : (s.read .stdout).1 ≠ [] := hnothing
        simp only [Bool.false_eq_true, if_false, hread]
        rw [State.keep, ← List.append_nil (s.read .stdout).2.log]
        exact .keep stream phase .stdout [] hreads hnothing (by simp)
  | returned => exact absurd (.inl hposition) h
  | raised => exact absurd (.inr hposition) h

theorem step_finished {s : State} (h : s.Finished) (child : Child) : child.step s = s := if_pos h

theorem step_does {s : State} (h : ¬ s.Finished) (child : Child) :
    Does (child.ioerror s.operations) s.advance (child.step s) := by
  have hadvance : ¬ s.advance.Finished := h
  rw [Child.step, if_neg h]
  exact operation_cases hadvance _

theorem Does.turns {ioerror : Bool} {s s' : State} (h : Does ioerror s s') :
    s'.turns = s.turns := by
  cases h <;> rfl

theorem run_succ (child : Child) (n : Nat) : child.run (n + 1) = child.step (child.run n) :=
  Function.iterate_succ_apply' _ _ _

/-! ## The end -/

def rank : Position → Nat
  | .returned | .raised => 0
  | .again .stderr .ended => 1
  | .first .stderr .ended => 2
  | .again .stdout .ended => 3
  | .first .stdout .ended => 4
  | .poll => 5
  | .again .stderr .running => 6
  | .first .stderr .running => 7
  | .again .stdout .running => 8
  | .first .stdout .running => 9

/-- How many operations there still are after the child's end: a loop goes on while there is
something in the pipe of `stdout`. -/
def State.left (s : State) : Nat :=
  2 * rank s.position + if s.pipe .stdout = [] then 0 else 1

theorem rank_le (position : Position) : rank position ≤ 9 := by
  rcases position with _ | ⟨_ | _, _ | _⟩ | ⟨_ | _, _ | _⟩ | _ | _ <;> decide

theorem left_le (s : State) : s.left ≤ 19 := by
  have hrank := rank_le s.position
  unfold State.left
  split <;> omega

theorem rank_afterLoop {position : Position} {stream source : Stream} {phase : Phase}
    (h : Reads position stream phase source) : rank (afterLoop stream phase) < rank position := by
  cases h <;> cases stream <;> cases phase <;> decide

theorem advance_ended {s : State} (h : s.turns = []) :
    s.advance = { s with operations := s.operations + 1 } := by
  simp [State.advance, h, output]

/-- After the child's end each operation leaves fewer. -/
theorem Does.left_lt {ioerror : Bool} {s s' : State} (h : Does ioerror s s')
    (hturns : s.turns = []) : s'.left < s.left := by
  have hflag (l : List UInt8) : (if l = [] then 0 else 1) ≤ 1 := by
    split <;> decide
  cases h with
  | poll hposition => simp [State.left, hposition, hturns, rank]
  | retry stream hposition _ => cases stream <;> simp [State.left, hposition, rank]
  | skip stream hposition _ => cases stream <;> simp [State.left, hposition, rank, afterLoop]
  | raise stream phase hposition _ =>
    cases stream <;> cases phase <;> simp [State.left, hposition, rank]
  | leave stream phase source hreads _ =>
    have hrank := rank_afterLoop hreads
    simp only [State.left]
    omega
  | keep stream phase source headers hreads hsome _ =>
    rcases hreads.cases with ⟨hposition, rfl⟩ | ⟨hposition, rfl⟩
    · have hrank : rank (.again source phase) < rank (.first source phase) := by
        cases source <;> cases phase <;> decide
      have hle := hflag (Function.update s.pipe source [] .stdout)
      simp only [State.left, hposition]
      omega
    · simp [State.left, hposition, hsome]

theorem run_turns (child : Child) (n : Nat) :
    (child.run n).Finished ∨ (child.run n).turns = child.turns.drop n := by
  induction n with
  | zero => exact .inr rfl
  | succ n ih =>
    rw [run_succ]
    by_cases hfinished : (child.run n).Finished
    · exact .inl (by rwa [step_finished hfinished])
    · refine .inr ?_
      rw [(step_does hfinished child).turns, State.advance, ih.resolve_left hfinished,
        List.tail_drop]

theorem run_add (child : Child) (m n : Nat) :
    child.run (m + n) = child.step^[n] (child.run m) := by
  rw [Child.run, Nat.add_comm, Function.iterate_add_apply]
  rfl

theorem finished_of_rank {s : State} (h : rank s.position = 0) : s.Finished := by
  revert h
  unfold State.Finished
  rcases s.position with _ | ⟨_ | _, _ | _⟩ | ⟨_ | _, _ | _⟩ | _ | _ <;> decide

theorem finished_after {s : State} {child : Child} (hturns : s.turns = []) {n : Nat}
    (hn : s.left ≤ n) : (child.step^[n] s).Finished := by
  induction n generalizing s with
  | zero =>
    have hrank : rank s.position = 0 := by
      unfold State.left at hn
      omega
    exact finished_of_rank hrank
  | succ n ih =>
    by_cases hfinished : s.Finished
    · rw [Function.iterate_fixed (step_finished hfinished child)]
      exact hfinished
    · have hdoes := step_does hfinished child
      rw [advance_ended hturns] at hdoes
      have hleft : (child.step s).left < s.left := hdoes.left_lt hturns
      exact ih (hdoes.turns.trans hturns) (by omega)

/-- **The handler ends at most 19 operations after the child.** -/
theorem run_finished (child : Child) {n : Nat} (hn : child.turns.length + 19 ≤ n) :
    (child.run n).Finished := by
  obtain ⟨k, rfl⟩ := Nat.exists_eq_add_of_le (Nat.le_of_add_right_le hn)
  rw [run_add]
  rcases run_turns child child.turns.length with hfinished | hturns
  · rw [Function.iterate_fixed (step_finished hfinished child)]
    exact hfinished
  · rw [List.drop_length] at hturns
    exact finished_after hturns (Nat.le_trans (left_le _) (by omega))

/-! ## What was read -/

def Record.text? : Record → Option (List Char)
  | .header _ => none
  | .data text => some text

/-- These pieces were read and logged in this order; what is still to be read is in the pipes, or
still to be written. -/
structure Kept (child : Child) (pieces : List Chunk) (s : State) : Prop where
  log : s.log.filterMap Record.text? = pieces.map fun piece => filtered piece.bytes
  streams : ∀ stream, output pieces stream ++ (s.pipe stream ++ output s.turns.flatten stream) =
    child.written stream

/-- Behind the end of the child, what has been emptied. -/
def emptied : Position → List Stream
  | .first .stderr .ended => [.stdout]
  | .again .stderr .ended | .returned => [.stdout, .stderr]
  | _ => []

def behindEnd : Position → Bool
  | .first _ .ended | .again _ .ended | .returned => true
  | _ => false

structure Drained (s : State) : Prop where
  turns : behindEnd s.position → s.turns = []
  pipes : ∀ stream ∈ emptied s.position, s.pipe stream = []

/-- An error reaches only reads that the poll repeats. -/
def Unharmed (child : Child) (s : State) : Prop :=
  match s.position with
  | .first _ .ended | .again _ _ => child.ioerror s.operations = false
  | _ => True

/-- What the loop over `stderr` takes from `stdout` has nothing printable. -/
def Quiet (s : State) : Prop :=
  ∀ phase, s.position = .again .stderr phase → filtered (s.advance.pipe .stdout) = []

theorem Kept.advance {child : Child} {pieces : List Chunk} {s : State} (h : Kept child pieces s) :
    Kept child pieces s.advance :=
  ⟨h.log, fun stream => advance_output s stream ▸ h.streams stream⟩

theorem headers_text {stream : Stream} {headers : List Record}
    (h : ∀ r ∈ headers, r = Record.header stream) : headers.filterMap Record.text? = [] := by
  rw [List.filterMap_eq_nil_iff]
  intro r hr
  rw [h r hr]
  rfl

theorem Kept.read {child : Child} {pieces : List Chunk} {s : State} (h : Kept child pieces s)
    {source stream : Stream} {headers : List Record}
    (hheaders : ∀ r ∈ headers, r = Record.header stream) (position : Position)
    (return_lines : List Char) :
    Kept child (pieces ++ [⟨source, s.pipe source⟩])
      { s with
        position := position
        pipe := Function.update s.pipe source []
        log := s.log ++ headers ++ [Record.data (filtered (s.pipe source))]
        return_lines := return_lines } where
  log := by
    simp [h.log, headers_text hheaders, Record.text?]
  streams st := by
    rw [← h.streams st, output_append, output_singleton]
    by_cases hst : source = st
    · subst hst
      simp
    · simp [hst, Ne.symm hst]

/-- The last printable characters of what was read from `stdout`. -/
def window (pieces : List Chunk) : List Char := (filtered (output pieces .stdout)).rtake 5000

theorem window_append (pieces more : List Chunk) :
    (window pieces ++ filtered (output more .stdout)).rtake 5000 = window (pieces ++ more) := by
  rw [window, window, output_append, filtered_append, Lines.rtake_rtake_append]

theorem window_nothing {pieces more : List Chunk} (h : filtered (output more .stdout) = []) :
    window (pieces ++ more) = window pieces := by
  rw [window, window, output_append, filtered_append, h, List.append_nil]

theorem Does.kept {child : Child} {pieces : List Chunk} {ioerror : Bool} {s s' : State}
    (h : Does ioerror s s') (hkept : Kept child pieces s) :
    ∃ pieces', Kept child pieces' s' ∧
      ((∀ phase, s.position = .again .stderr phase → filtered (s.pipe .stdout) = []) →
        s.return_lines = window pieces → s'.return_lines = window pieces') := by
  have hsame (position : Position) : Kept child pieces { s with position := position } :=
    ⟨hkept.log, hkept.streams⟩
  cases h with
  | poll | retry | skip | raise | leave => exact ⟨pieces, hsame _, fun _ hlines => hlines⟩
  | keep stream phase source headers hreads hsome hheaders =>
    refine ⟨_, hkept.read hheaders _ _, fun hquiet hlines => ?_⟩
    have hpiece := output_singleton ⟨source, s.pipe source⟩ .stdout
    cases stream with
    | stdout =>
      have hsource : source = .stdout := by
        rcases hreads.cases with ⟨-, hsource⟩ | ⟨-, hsource⟩ <;> exact hsource
      subst hsource
      rw [if_pos rfl] at hpiece
      rw [if_pos rfl, ← window_append, hpiece, hlines]
    | stderr =>
      -- this loop must not take a line from `stdout`
      have hnothing : filtered (output [⟨source, s.pipe source⟩] .stdout) = [] := by
        rcases hreads.cases with ⟨-, rfl⟩ | ⟨hposition, rfl⟩
        · rw [hpiece]
          rfl
        · rw [hpiece, if_pos rfl]
          exact hquiet phase hposition
      rw [if_neg (by decide), window_nothing hnothing, hlines]

theorem Drained.of_open {s : State} (h : behindEnd s.position = false) : Drained s where
  turns hbehind := by
    rw [h] at hbehind
    cases hbehind
  pipes stream hstream := by
    have hnone : emptied s.position = [] := by
      revert h
      rcases s.position with _ | ⟨_ | _, _ | _⟩ | ⟨_ | _, _ | _⟩ | _ | _ <;> decide
    rw [hnone] at hstream
    cases hstream

theorem Drained.advance {s : State} (h : Drained s) : Drained s.advance := by
  cases hbehind : behindEnd s.position with
  | false => exact .of_open hbehind
  | true =>
    rw [advance_ended (h.turns hbehind)]
    exact ⟨h.turns, h.pipes⟩

/-- Behind the child's end a loop is left only when its pipe is empty. -/
theorem Does.drained {ioerror : Bool} {s s' : State} (h : Does ioerror s s')
    (hsafe : ∀ stream, s.position = .first stream .ended → ioerror = false)
    (hdrained : Drained s) : Drained s' := by
  have hturns {stream source : Stream} (hreads : Reads s.position stream .ended source) :
      s.turns = [] := by
    refine hdrained.turns ?_
    rcases hreads.cases with ⟨hposition, -⟩ | ⟨hposition, -⟩
    all_goals rw [hposition]; rfl
  cases h with
  | poll =>
    by_cases hend : s.turns = []
    · refine ⟨fun _ => hend, fun stream hstream => ?_⟩
      rw [if_pos hend] at hstream
      cases hstream
    · exact .of_open (by rw [if_neg hend]; rfl)
  | retry => exact .of_open rfl
  | skip stream hposition herror =>
    rw [hsafe stream hposition] at herror
    cases herror
  | raise => exact .of_open rfl
  | leave stream phase source hreads hnothing =>
    cases phase with
    | running => exact .of_open (by cases stream <;> rfl)
    | ended =>
      refine ⟨fun _ => hturns hreads, fun st hst => ?_⟩
      cases stream with
      | stdout =>
        have hsource : source = .stdout := by
          rcases hreads.cases with ⟨-, hsource⟩ | ⟨-, hsource⟩ <;> exact hsource
        rw [List.mem_singleton.mp hst, ← hsource]
        exact hnothing
      | stderr =>
        rcases hreads.cases with ⟨hposition, rfl⟩ | ⟨hposition, -⟩
        · cases st with
          | stdout =>
            refine hdrained.pipes .stdout ?_
            rw [hposition]
            exact List.mem_singleton_self _
          | stderr => exact hnothing
        · exact hdrained.pipes st (by rw [hposition]; exact hst)
  | keep stream phase source headers hreads hsome hheaders =>
    cases phase with
    | running => exact .of_open rfl
    | ended =>
      refine ⟨fun _ => hturns hreads, fun st hst => ?_⟩
      cases stream with
      | stdout => cases hst
      | stderr =>
        rcases hreads.cases with ⟨hposition, rfl⟩ | ⟨hposition, rfl⟩
        · cases st with
          | stdout =>
            refine hdrained.pipes .stdout ?_
            rw [hposition]
            exact List.mem_singleton_self _
          | stderr => rfl
        · refine absurd (hdrained.pipes .stdout ?_) hsome
          rw [hposition]
          exact List.mem_cons_self ..

/-! ## Runs -/

theorem Does.not_raised {ioerror : Bool} {s s' : State} (h : Does ioerror s s')
    (hsafe : ∀ stream phase, s.position = .again stream phase → ioerror = false) :
    s'.position ≠ .raised := by
  cases h with
  | poll | retry | keep => exact fun hraised => by cases hraised
  | skip stream => cases stream <;> exact fun hraised => by cases hraised
  | raise stream phase hposition herror =>
    rw [hsafe stream phase hposition] at herror
    cases herror
  | leave stream phase =>
    cases stream <;> cases phase <;> exact fun hraised => by cases hraised

/-- What holds after each operation of a run without harm. -/
theorem run_kept {child : Child} (hunharmed : ∀ n, Unharmed child (child.run n)) (n : Nat) :
    (child.run n).position ≠ .raised ∧ Drained (child.run n) ∧
      ∃ pieces, Kept child pieces (child.run n) ∧
        ((∀ m < n, Quiet (child.run m)) → (child.run n).return_lines = window pieces) := by
  induction n with
  | zero =>
    have hstart : Kept child [] child.start := ⟨rfl, fun _ => rfl⟩
    exact ⟨(by decide : Position.poll ≠ .raised), .of_open rfl, [], hstart, fun _ => rfl⟩
  | succ n ih =>
    obtain ⟨hraised, hdrained, pieces, hkept, hlines⟩ := ih
    rw [run_succ]
    by_cases hfinished : (child.run n).Finished
    · rw [step_finished hfinished]
      exact ⟨hraised, hdrained, pieces, hkept, fun hquiet =>
        hlines fun m hm => hquiet m (by omega)⟩
    · have hdoes := step_does hfinished child
      have hn := hunharmed n
      have hfirst (stream : Stream) (h : (child.run n).advance.position = .first stream .ended) :
          child.ioerror (child.run n).operations = false := by
        have hposition : (child.run n).position = .first stream .ended := h
        simpa only [Unharmed, hposition] using hn
      have hagain (stream : Stream) (phase : Phase)
          (h : (child.run n).advance.position = .again stream phase) :
          child.ioerror (child.run n).operations = false := by
        have hposition : (child.run n).position = .again stream phase := h
        simpa only [Unharmed, hposition] using hn
      obtain ⟨pieces', hkept', hlines'⟩ := hdoes.kept hkept.advance
      exact ⟨hdoes.not_raised hagain, hdoes.drained hfirst hdrained.advance, pieces', hkept',
        fun hquiet =>
          hlines' (hquiet n (Nat.lt_succ_self n)) (hlines fun m hm => hquiet m (by omega))⟩

/-- Each byte of both streams is logged once, in the order of its stream. -/
def Logged (child : Child) (log : List Record) : Prop :=
  ∃ pieces : List Chunk,
    log.filterMap Record.text? = pieces.map (fun piece => filtered piece.bytes) ∧
      ∀ stream, output pieces stream = child.written stream

/-- The lines of the last 5000 printable characters of `stdout`. -/
def Child.lastLines (child : Child) : List (List Char) :=
  Lines.splitlines ((filtered (child.written .stdout)).rtake 5000)

/-- **After the child's end the handler ends; the log has each byte of both streams once; the lines
are the last ones, unless the loop over `stderr` takes something printable from `stdout`.** -/
theorem execute_captures (child : Child) :
    (∀ n, child.turns.length + 19 ≤ n → (child.run n).Finished) ∧
    ((∀ n, Unharmed child (child.run n)) → ∀ n, child.turns.length + 19 ≤ n →
      (child.run n).position = .returned ∧ Logged child (child.run n).log ∧
      ((∀ m, Quiet (child.run m)) →
        child.result (child.run n) = some (child.returncode, child.lastLines))) := by
  refine ⟨fun n hn => run_finished child hn, fun hunharmed n hn => ?_⟩
  obtain ⟨hraised, hdrained, pieces, hkept, hlines⟩ := run_kept hunharmed n
  have hreturned := (run_finished child hn).resolve_right hraised
  have hpieces (stream : Stream) : output pieces stream = child.written stream := by
    have hpipe : (child.run n).pipe stream = [] :=
      hdrained.pipes stream (by rw [hreturned]; cases stream <;> simp [emptied])
    have hturns : (child.run n).turns = [] := hdrained.turns (by rw [hreturned]; rfl)
    have hall := hkept.streams stream
    rw [hpipe, hturns] at hall
    exact (List.append_nil _).symm.trans hall
  refine ⟨hreturned, ⟨pieces, hkept.log, hpieces⟩, fun hquiet => ?_⟩
  rw [Child.result, if_pos hreturned, hlines fun m _ => hquiet m, window, hpieces,
    Child.lastLines]

theorem unharmed_of_no_error {child : Child} (h : ∀ n, child.ioerror n = false) (s : State) :
    Unharmed child s := by
  unfold Unharmed
  split <;> first | exact h _ | trivial

/-- What a text is on a stream. -/
def printed (stream : Stream) (text : String) : Chunk :=
  ⟨stream, text.toList.map fun c => c.toNat.toUInt8⟩

/-- A child that prints lines on both streams. -/
def quietChild : Child where
  turns := [[], [printed .stdout "updating\n"], [], [printed .stderr "warning\n"], [], [],
    [printed .stdout "done\n"]]
  returncode := 0

theorem quiet_captured :
    quietChild.result (quietChild.run 26) = some (0, quietChild.lastLines) := by
  have hunharmed (n : Nat) : Unharmed quietChild (quietChild.run n) :=
    unharmed_of_no_error (fun _ => rfl) _
  have hreturned : (quietChild.run 12).Finished := by decide +kernel
  have hbefore : ∀ m < 12, ∀ phase ∈ [Phase.running, Phase.ended],
      (quietChild.run m).position = .again .stderr phase →
        filtered ((quietChild.run m).advance.pipe .stdout) = [] := by
    decide +kernel
  refine (((execute_captures quietChild).2 hunharmed 26 (by decide)).2.2 fun m => ?_)
  intro phase hposition
  by_cases hm : m < 12
  · exact hbefore m hm phase (by cases phase <;> simp) hposition
  · obtain ⟨k, rfl⟩ := Nat.exists_eq_add_of_le (Nat.le_of_not_lt hm)
    rw [run_add, Function.iterate_fixed (step_finished hreturned _)] at hposition
    rcases hreturned with h | h
    all_goals
      rw [h] at hposition
      cases hposition

/-- A child whose last line comes while the handler is in the loop over `stderr`. -/
def lateChild : Child where
  turns := [[], [], [printed .stderr "warning\n"], [printed .stdout "done\n"]]
  returncode := 0

/-- The line is logged there, and not returned. -/
theorem line_under_stderr : (∀ n, Unharmed lateChild (lateChild.run n)) ∧
    (lateChild.run 23).log = [.header .stderr, .data "warning\n".toList, .data "done\n".toList] ∧
    lateChild.result (lateChild.run 23) = some (0, []) ∧
    lateChild.lastLines = ["done".toList] :=
  ⟨fun n => unharmed_of_no_error (fun _ => rfl) _, by decide +kernel, by decide +kernel,
    by decide +kernel⟩

end Firmware
