import Mathlib.Data.List.Basic
import Mathlib.Data.List.Forall2

/-!
# Scripts with jobs in the background

A script posts messages, starts jobs in the background and waits for them. A job finishes at any
time after its start, well or not; `wait` goes on when no job is running, whatever the jobs came to.

* `Runs.segments`: what a script does in phases has all jobs of a phase in the segment behind its
  message, and they finish there.
* `exists_runs`: such a script comes to its end with any outcomes of its jobs.
-/

namespace Background

variable {μ κ : Type}

inductive Instr (μ κ : Type)
  | post (m : μ)
  | start (c : κ)
  | wait

/-- What happens in a run. Jobs have numbers in the order in which they are started. -/
inductive Event (μ κ : Type)
  | posted (m : μ)
  | started (id : Nat) (c : κ)
  | finished (id : Nat) (ok : Bool)

/-- The runs of a script to its end, from the next number and the jobs that are running. -/
inductive Runs : List (Instr μ κ) → Nat → List Nat → List (Event μ κ) → Prop
  | exit {next : Nat} {running : List Nat} : Runs [] next running []
  | post {m : μ} {rest : List (Instr μ κ)} {next : Nat} {running : List Nat}
      {log : List (Event μ κ)} (h : Runs rest next running log) :
      Runs (.post m :: rest) next running (.posted m :: log)
  | start {c : κ} {rest : List (Instr μ κ)} {next : Nat} {running : List Nat}
      {log : List (Event μ κ)} (h : Runs rest (next + 1) (next :: running) log) :
      Runs (.start c :: rest) next running (.started next c :: log)
  | finish {id : Nat} {ok : Bool} {rest : List (Instr μ κ)} {next : Nat} {running : List Nat}
      {log : List (Event μ κ)} (hid : id ∈ running) (h : Runs rest next (running.erase id) log) :
      Runs rest next running (.finished id ok :: log)
  | wait {rest : List (Instr μ κ)} {next : Nat} {log : List (Event μ κ)}
      (h : Runs rest next [] log) : Runs (.wait :: rest) next [] log

/-- Phases: a message, jobs, and `wait`. -/
def body (phases : List (μ × List κ)) : List (Instr μ κ) :=
  phases.flatMap fun phase => .post phase.1 :: (phase.2.map .start ++ [.wait])

/-- What happens before the first message, and behind each. -/
def cut : List (Event μ κ) → List (Event μ κ) × List (List (Event μ κ))
  | [] => ([], [])
  | .posted _ :: log => ([], (cut log).1 :: (cut log).2)
  | .started id c :: log => (.started id c :: (cut log).1, (cut log).2)
  | .finished id ok :: log => (.finished id ok :: (cut log).1, (cut log).2)

/-- What happens behind each message. -/
def segments (log : List (Event μ κ)) : List (List (Event μ κ)) := (cut log).2

/-- The jobs of a phase are those that are started in its segment, and they finish there. -/
structure Phase (jobs : List κ) (segment : List (Event μ κ)) : Prop where
  started_iff : ∀ c, (∃ id, .started id c ∈ segment) ↔ c ∈ jobs
  finished : ∀ id c, .started id c ∈ segment → ∃ ok, .finished id ok ∈ segment

/-! ## From a message to the next -/

theorem body_cons (m : μ) (jobs : List κ) (phases : List (μ × List κ)) :
    body ((m, jobs) :: phases) = .post m :: (jobs.map .start ++ .wait :: body phases) := by
  rw [body, List.flatMap_cons, List.cons_append, List.append_assoc, List.singleton_append, body]

/-- Without messages there is one segment more to come. -/
theorem cut_append {segment : List (Event μ κ)} (h : ∀ m, .posted m ∉ segment)
    (log : List (Event μ κ)) : cut (segment ++ log) = (segment ++ (cut log).1, (cut log).2) := by
  induction segment with
  | nil => rfl
  | cons event segment ih =>
    have hrest := ih fun m hm => h m (List.mem_cons_of_mem _ hm)
    cases event with
    | posted m => exact absurd (List.mem_cons_self ..) (h m)
    | started id c => rw [List.cons_append, cut, hrest, List.cons_append]
    | finished id ok => rw [List.cons_append, cut, hrest, List.cons_append]

/-- What happens up to a `wait`: the jobs are started, and those that run finish. -/
theorem Runs.up_to_wait {jobs : List κ} {rest : List (Instr μ κ)} {next : Nat}
    {running : List Nat} {log : List (Event μ κ)}
    (h : Runs (jobs.map .start ++ .wait :: rest) next running log) :
    ∃ segment log', log = segment ++ log' ∧ Runs rest (next + jobs.length) [] log' ∧
      (∀ m, .posted m ∉ segment) ∧ Phase jobs segment ∧
      ∀ id ∈ running, ∃ ok, .finished id ok ∈ segment := by
  generalize hscript : jobs.map .start ++ .wait :: rest = script at h
  induction h generalizing jobs with
  | exit => simp at hscript
  | post _ _ => cases jobs <;> cases hscript
  | @start c _ next running log h ih =>
    cases jobs with
    | nil => cases hscript
    | cons job jobs =>
      obtain ⟨hjob, hrest⟩ := List.cons_eq_cons.mp hscript
      cases hjob
      obtain ⟨segment, log', rfl, hrun, hquiet, hphase, hrunning⟩ := ih hrest
      refine ⟨.started next c :: segment, log', rfl, ?_, ?_, ⟨?_, ?_⟩, ?_⟩
      · rwa [List.length_cons, Nat.add_comm jobs.length, ← Nat.add_assoc]
      · simpa using hquiet
      · intro d
        rw [List.mem_cons, ← hphase.started_iff d]
        simp [exists_or]
      · intro id d hmem
        rcases List.mem_cons.mp hmem with hhead | hmem
        · cases hhead
          obtain ⟨ok, hok⟩ := hrunning next (List.mem_cons_self ..)
          exact ⟨ok, List.mem_cons_of_mem _ hok⟩
        · obtain ⟨ok, hok⟩ := hphase.finished id d hmem
          exact ⟨ok, List.mem_cons_of_mem _ hok⟩
      · intro id hid
        obtain ⟨ok, hok⟩ := hrunning id (List.mem_cons_of_mem _ hid)
        exact ⟨ok, List.mem_cons_of_mem _ hok⟩
  | @finish id ok _ next running log hid h ih =>
    obtain ⟨segment, log', rfl, hrun, hquiet, hphase, hrunning⟩ := ih hscript
    refine ⟨.finished id ok :: segment, log', rfl, hrun, by simpa using hquiet, ⟨?_, ?_⟩, ?_⟩
    · intro d
      rw [← hphase.started_iff d]
      simp
    · intro id' d hmem
      have hmem : .started id' d ∈ segment := by simpa using hmem
      obtain ⟨ok, hok⟩ := hphase.finished id' d hmem
      exact ⟨ok, List.mem_cons_of_mem _ hok⟩
    · intro id' hid'
      by_cases heq : id' = id
      · rw [heq]
        exact ⟨ok, List.mem_cons_self ..⟩
      · obtain ⟨ok, hok⟩ := hrunning id' ((List.mem_erase_of_ne heq).mpr hid')
        exact ⟨ok, List.mem_cons_of_mem _ hok⟩
  | @wait _ next log h ih =>
    cases jobs with
    | nil =>
      cases hscript
      exact ⟨[], log, rfl, h, by simp, ⟨by simp, by simp⟩, by simp⟩
    | cons job jobs => cases hscript

/-- **The segments of a script in phases.** -/
theorem Runs.segments {phases : List (μ × List κ)} {next : Nat} {log : List (Event μ κ)}
    (h : Runs (body phases) next [] log) :
    (cut log).1 = [] ∧
      List.Forall₂ (fun phase => Phase phase.2) phases (Background.segments log) := by
  induction phases generalizing next log with
  | nil =>
    cases h with
    | exit => exact ⟨rfl, .nil⟩
    | finish hid _ => cases hid
  | cons phase phases ih =>
    rw [body_cons] at h
    cases h with
    | finish hid _ => cases hid
    | post h =>
      obtain ⟨segment, log', rfl, hrun, hquiet, hphase, -⟩ := h.up_to_wait
      obtain ⟨hbefore, hbehind⟩ := ih hrun
      rw [Background.segments, cut, cut_append hquiet, hbefore, List.append_nil]
      exact ⟨rfl, .cons hphase hbehind⟩

/-! ## A run to the end -/

/-- **Any outcomes can happen**: the jobs finish right behind their start. -/
theorem exists_runs (ok : Nat → Bool) (phases : List (μ × List κ)) (next : Nat) :
    ∃ log, Runs (body phases) next [] log ∧ ∀ id b, .finished id b ∈ log → b = ok id := by
  induction phases generalizing next with
  | nil => exact ⟨[], .exit, by simp⟩
  | cons phase phases ih =>
    obtain ⟨m, jobs⟩ := phase
    have hjobs : ∃ log, Runs (jobs.map .start ++ .wait :: body phases) next [] log ∧
        ∀ id b, .finished id b ∈ log → b = ok id := by
      induction jobs generalizing next with
      | nil =>
        obtain ⟨log, hlog, hok⟩ := ih next
        exact ⟨log, .wait hlog, hok⟩
      | cons job jobs ihjobs =>
        obtain ⟨log, hlog, hok⟩ := ihjobs (next + 1)
        refine ⟨.started next job :: .finished next (ok next) :: log,
          .start (.finish (List.mem_cons_self ..) (by rwa [List.erase_cons_head])), ?_⟩
        intro id b hmem
        rcases List.mem_cons.mp hmem with hhead | hmem
        · cases hhead
        · rcases List.mem_cons.mp hmem with hhead | hmem
          · cases hhead
            rfl
          · exact hok id b hmem
    obtain ⟨log, hlog, hok⟩ := hjobs
    rw [body_cons]
    exact ⟨.posted m :: log, .post hlog, by simpa using hok⟩

end Background
