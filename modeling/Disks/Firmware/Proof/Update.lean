import Disks.Firmware.Update
import Disks.Firmware.Proof.Planner
import Disks.Lib.Journal
import Mathlib.Data.List.Infix

/-!
# What one boot of the firmware updates does

* `getHandlers_pairwise`: the handlers go by their priorities.
* `Job.script`: what is to be done for a handler with these targets.
* `checkTarget_writes`, `checkTargets_writes`, `checkHandlers_writes`: what a target, a handler and
  all handlers add to the trace.
* `boot_script`: **a boot works on the first handler that has something to update, follows its
  script from the start, and gives 20 where it has come to its end.**
* `planned_leads`, `main_supplied`: what an update is made with.
-/

namespace FirmwareUpdate

open Planner Effect Journal

variable {σ τ : Type}

/-! ## What is seen in a trace -/

/-- A call of a handler that changes something. -/
inductive Step (τ : Type)
  | before (name : String)
  | update (name : String) (target : τ) (filename : String)
  | after (name : String)
deriving DecidableEq, Repr

def Event.step : Event τ → Option (Step τ)
  | .before name => some (.before name)
  | .update name target filename _ => some (.update name target filename)
  | .after name => some (.after name)
  | .listed .. | .downloaded .. => none

def Event.listing : Event τ → Option (String × List (Row τ))
  | .listed name target_list => some (name, target_list)
  | _ => none

def Event.download : Event τ → Option (String × List UInt8)
  | .downloaded filename file => some (filename, file)
  | _ => none

def steps (trace : List (Event τ)) : List (Step τ) := trace.filterMap Event.step

def listings (trace : List (Event τ)) : List (String × List (Row τ)) :=
  trace.filterMap Event.listing

def downloads (trace : List (Event τ)) : List (String × List UInt8) :=
  trace.filterMap Event.download

@[simp] theorem steps_nil : steps ([] : List (Event τ)) = [] := rfl

@[simp] theorem steps_append (a b : List (Event τ)) : steps (a ++ b) = steps a ++ steps b :=
  List.filterMap_append

@[simp] theorem listings_nil : listings ([] : List (Event τ)) = [] := rfl

@[simp] theorem listings_append (a b : List (Event τ)) :
    listings (a ++ b) = listings a ++ listings b :=
  List.filterMap_append

@[simp] theorem steps_listed (name : String) (target_list : List (Row τ))
    (trace : List (Event τ)) : steps (.listed name target_list :: trace) = steps trace :=
  rfl

@[simp] theorem listings_listed (name : String) (target_list : List (Row τ))
    (trace : List (Event τ)) :
    listings (.listed name target_list :: trace) = (name, target_list) :: listings trace :=
  rfl

@[simp] theorem steps_after (name : String) : steps [(.after name : Event τ)] = [.after name] := rfl

@[simp] theorem listings_after (name : String) : listings [(.after name : Event τ)] = [] := rfl

@[simp] theorem downloads_append (a b : List (Event τ)) :
    downloads (a ++ b) = downloads a ++ downloads b :=
  List.filterMap_append

/-! ## The order of the handlers -/

/-- The handlers go by their priorities, and then as they were found. -/
theorem getHandlers_pairwise {η : Type} {R : String × Int → String × Int → Prop}
    {handler_priority_map : List (String × Int)} (handler_module_map : String → η)
    (h : handler_priority_map.Pairwise R) :
    ∃ items : List (String × Int),
      (getHandlers handler_priority_map handler_module_map).map (·.1) = items.map (·.1) ∧
      items.Perm handler_priority_map ∧
      items.Pairwise fun x y => x.2 < y.2 ∨ x.2 = y.2 ∧ R x y := by
  refine ⟨Ranked.sorted (·.2) handler_priority_map, ?_, Ranked.sorted_perm .., ?_⟩
  · simp [getHandlers, Function.comp_def]
  · exact Ranked.pairwise_sorted _ h

/-! ## What is to be done -/

namespace Job

variable (job : Job σ τ)

/-- `firmware_targets[ name ][ model ]` -/
def wanted (name model : String) : Option String :=
  (job.firmware_targets.lookup name).bind (·.lookup model)

/-- A target has another version than the one it is to have. -/
def stale (name : String) (row : Row τ) : Bool :=
  (job.wanted name row.model).any (row.version ≠ ·)

/-- The update of a target. -/
def planned (name : String) (row : Row τ) : Option (Step τ) :=
  if job.stale name row then
    (job.wanted name row.model).bind fun target_version =>
      (job.firmware.lookup name).bind fun firmware_map =>
        (job.nextFile firmware_map row target_version).map fun filename =>
          .update name row.target filename
  else none

/-- What is to be done with these targets, up to the last update. -/
def work (name : String) (target_list : List (Row τ)) : List (Step τ) :=
  if target_list.any (job.stale name) then
    .before name :: target_list.filterMap (job.planned name)
  else []

/-- What is to be done with the targets of a handler. -/
def script (listing : String × List (Row τ)) : List (Step τ) :=
  job.work listing.1 listing.2 ++
    if listing.2.any (job.stale listing.1) then [.after listing.1] else []

/-- The handlers that have a version map, in their order. -/
def scope (handlers : List (String × Handler σ τ)) : List String :=
  (handlers.filter fun handler => (job.firmware_targets.lookup handler.1).isSome).map (·.1)

variable {job} {name : String}

theorem work_mono {a b : List (Row τ)} (h : a <+: b) : job.work name a <+: job.work name b := by
  obtain ⟨c, rfl⟩ := h
  unfold work
  by_cases ha : a.any (job.stale name) = true
  · simp [ha]
  · simp [ha]

theorem work_snoc_current {front : List (Row τ)} {row : Row τ}
    (h : job.stale name row = false) : job.work name (front ++ [row]) = job.work name front := by
  simp [work, planned, h]

theorem work_snoc_stale {front : List (Row τ)} {row : Row τ} (h : job.stale name row = true) :
    job.work name (front ++ [row]) =
      job.work name front ++ (if front.any (job.stale name) then [] else [.before name]) ++
        (job.planned name row).toList := by
  unfold work
  by_cases hfront : front.any (job.stale name) = true
  · cases hplanned : job.planned name row <;> simp [h, hfront, hplanned]
  · have hnone : front.filterMap (job.planned name) = [] := by
      simp only [List.filterMap_eq_nil_iff]
      intro x hx
      have hx' : ¬ job.stale name x = true := fun hs =>
        hfront (List.any_eq_true.mpr ⟨x, hx, hs⟩)
      simp [planned, hx']
    cases hplanned : job.planned name row <;> simp [h, hfront, hplanned, hnone]

theorem stale_iff {row : Row τ} {version_map : Assoc.Dict String String} {target_version : String}
    (hversions : job.firmware_targets.lookup name = some version_map)
    (htarget : version_map.lookup row.model = some target_version) :
    job.stale name row = true ↔ row.version ≠ target_version := by
  simp [stale, wanted, hversions, htarget]

/-! ## The check of a target -/

section turn

variable (handler : Handler σ τ) {version_map : Assoc.Dict String String}
  {firmware_map : Assoc.Dict String FirmwareMap}

theorem checkTarget_current (hversions : job.firmware_targets.lookup name = some version_map)
    {row : Row τ} (h : job.stale name row = false) :
    job.checkTarget name handler version_map firmware_map row = pure () := by
  unfold checkTarget
  cases htarget : version_map.lookup row.model with
  | none => rfl
  | some target_version =>
    have hversion : row.version = target_version := by
      simpa [h] using stale_iff hversions htarget
    exact if_pos hversion

/-- A target that is stale, with the file that `nextFile` gives for it. -/
theorem checkTarget_stale (hversions : job.firmware_targets.lookup name = some version_map)
    (hfirmware : job.firmware.lookup name = some firmware_map) {row : Row τ}
    (h : job.stale name row = true) :
    ∃ file : Option String,
      job.planned name row = file.map (.update name row.target ·) ∧
      job.checkTarget name handler version_map firmware_map row =
        prepare name handler >>= fun _ =>
          match file with
          | none => throw 1
          | some filename =>
            job.localFile filename >>= job.updateTarget name handler row.target filename := by
  unfold checkTarget
  cases htarget : version_map.lookup row.model with
  | none => simp [stale, wanted, hversions, htarget] at h
  | some target_version =>
    refine ⟨job.nextFile firmware_map row target_version, ?_, ?_⟩
    · simp [planned, h, wanted, hversions, htarget, hfirmware]
    · exact if_neg ((stale_iff hversions htarget).mp h)

theorem checkTarget_planned (hversions : job.firmware_targets.lookup name = some version_map)
    (hfirmware : job.firmware.lookup name = some firmware_map) {row : Row τ} {step : Step τ}
    (h : job.planned name row = some step) :
    ∃ filename, step = .update name row.target filename ∧
      job.checkTarget name handler version_map firmware_map row =
        prepare name handler >>= fun _ =>
          job.localFile filename >>= job.updateTarget name handler row.target filename := by
  have hs : job.stale name row = true := by
    by_contra hnot
    simp [planned, hnot] at h
  obtain ⟨file, hplanned, heq⟩ := checkTarget_stale handler hversions hfirmware hs
  cases file with
  | none => simp [hplanned] at h
  | some filename => exact ⟨filename, by simpa [hplanned, eq_comm] using h, heq⟩

theorem checkTarget_unplanned (hversions : job.firmware_targets.lookup name = some version_map)
    (hfirmware : job.firmware.lookup name = some firmware_map) {row : Row τ}
    (hs : job.stale name row = true) (h : job.planned name row = none) :
    job.checkTarget name handler version_map firmware_map row =
      prepare name handler >>= fun _ => throw 1 := by
  obtain ⟨file, hplanned, heq⟩ := checkTarget_stale handler hversions hfirmware hs
  cases file with
  | none => exact heq
  | some filename => simp [hplanned] at h

/-! ## What a target adds to the trace -/

theorem call_writes {α : Type} (m : EStateM Unit σ α) (s : State σ τ) :
    Writes State.trace (call m : Boot σ τ α) s fun new r => new = [] ∧
      match r with
      | .ok _ s' => s'.dirty = s.dirty
      | .error e _ => e = 1 := by
  refine Writes.quiet ?_ ⟨rfl, ?_⟩ <;>
  · unfold call within
    cases m s.world <;> rfl

theorem note_writes (event : Event τ) (s : State σ τ) :
    Writes State.trace (note event : Boot σ τ Unit) s fun new r =>
      new = [event] ∧ ∃ s', r = .ok ⟨⟩ s' ∧ s'.dirty = s.dirty :=
  Writes.note rfl ⟨rfl, _, rfl, rfl⟩

theorem prepare_writes (s : State σ τ) :
    Writes State.trace (prepare name handler) s fun new r =>
      listings new = [] ∧ steps new = (if s.dirty then [] else [.before name]) ∧
      match r with
      | .ok _ s' => s'.dirty = s.dirty
      | .error e _ => e = 1 := by
  unfold prepare
  refine Writes.get ?_
  by_cases hdirty : s.dirty = true
  · rw [if_pos hdirty]
    refine Writes.pure ?_
    simp [hdirty]
  · rw [if_neg hdirty]
    refine Writes.bind (note_writes _ s) ?_ ?_
    · intro new _ s' h
      obtain ⟨rfl, s'', hs, hsame⟩ := h
      cases hs
      refine (call_writes handler.beforeUpdates s').mono ?_
      intro new r h
      obtain ⟨rfl, hr⟩ := h
      refine ⟨rfl, ?_, ?_⟩
      · simp [hdirty, steps, Event.step]
      · cases r with
        | ok a t => exact Eq.trans hr hsame
        | error e t => exact hr
    · intro new e s' h
      obtain ⟨-, s'', hs, -⟩ := h
      cases hs

theorem localFile_writes (filename : String) (s : State σ τ) :
    Writes State.trace (job.localFile filename) s fun new r =>
      listings new = [] ∧ steps new = [] ∧
      match r with
      | .ok _ s' => s'.dirty = s.dirty
      | .error e _ => e = 1 := by
  unfold localFile
  refine Writes.get ?_
  cases hlookup : s.filename_cache.lookup filename with
  | some file => exact Writes.pure (by simp)
  | none =>
    refine Writes.bind (call_writes _ s) ?_ ?_
    · intro new file s' h
      obtain ⟨rfl, hdirty⟩ := h
      refine Writes.bind (P := fun new r => new = [Event.downloaded filename file] ∧
        ∃ s'', r = .ok ⟨⟩ s'' ∧ s''.dirty = s'.dirty) (Writes.note rfl ⟨rfl, _, rfl, rfl⟩) ?_ ?_
      · intro new _ s'' h
        obtain ⟨rfl, t, ht, hsame⟩ := h
        cases ht
        refine Writes.pure ⟨rfl, rfl, hsame.trans hdirty⟩
      · intro new e s'' h
        obtain ⟨-, t, ht, -⟩ := h
        cases ht
    · intro new e s' h
      obtain ⟨rfl, he⟩ := h
      exact ⟨rfl, rfl, he⟩

theorem updateTarget_writes (target : τ) (filename : String) (file : List UInt8) (s : State σ τ) :
    Writes State.trace (job.updateTarget name handler target filename file) s fun new r =>
      listings new = [] ∧
      match r with
      | .ok _ s' => s'.dirty = true ∧ steps new = [.update name target filename]
      | .error e _ => e = 1 ∧ steps new <+: [.update name target filename] := by
  unfold updateTarget
  refine Writes.bind (call_writes _ s) ?_ ?_
  · intro new _ s₁ h
    obtain ⟨rfl, -⟩ := h
    refine Writes.bind (note_writes _ s₁) ?_ ?_
    · intro new _ s' h
      obtain ⟨rfl, s'', hs, -⟩ := h
      cases hs
      refine Writes.bind (call_writes _ s') ?_ ?_
      · intro new success s'' h
        obtain ⟨rfl, -⟩ := h
        cases success with
        | true => exact Writes.quiet rfl ⟨rfl, rfl, rfl⟩
        | false => exact Writes.throw ⟨rfl, rfl, List.prefix_refl _⟩
      · intro new e s'' h
        obtain ⟨rfl, he⟩ := h
        exact ⟨rfl, he, List.prefix_refl _⟩
    · intro new e s' h
      obtain ⟨-, s'', hs, -⟩ := h
      cases hs
  · intro new e s₁ h
    obtain ⟨rfl, he⟩ := h
    exact ⟨rfl, he, List.nil_prefix⟩

/-- **What a target adds to the trace.** -/
theorem checkTarget_writes (hversions : job.firmware_targets.lookup name = some version_map)
    (hfirmware : job.firmware.lookup name = some firmware_map) (row : Row τ) (s : State σ τ) :
    Writes State.trace (job.checkTarget name handler version_map firmware_map row) s fun new r =>
      listings new = [] ∧
      match r with
      | .ok _ s' =>
        (job.stale name row = true → (job.planned name row).isSome) ∧
          s'.dirty = (s.dirty || job.stale name row) ∧
          steps new = if job.stale name row then
            (if s.dirty then [] else [.before name]) ++ (job.planned name row).toList else []
      | .error e _ =>
        e = 1 ∧ job.stale name row = true ∧
          steps new <+:
            (if s.dirty then [] else [.before name]) ++ (job.planned name row).toList := by
  by_cases hs : job.stale name row = true
  · cases hplanned : job.planned name row with
    | none =>
      rw [checkTarget_unplanned handler hversions hfirmware hs hplanned]
      refine Writes.bind (prepare_writes handler s) ?_ ?_
      · intro new _ s' h
        obtain ⟨hlist, hsteps, -⟩ := h
        exact Writes.throw (by simp [hlist, hsteps, hs])
      · intro new e s' h
        obtain ⟨hlist, hsteps, he⟩ := h
        simp [hlist, he, hs, hsteps]
    | some step =>
      obtain ⟨filename, rfl, heq⟩ :=
        checkTarget_planned handler hversions hfirmware hplanned
      rw [heq]
      refine Writes.bind (prepare_writes handler s) ?_ ?_
      · intro new _ s' h
        obtain ⟨hlist, hsteps, -⟩ := h
        refine Writes.bind (localFile_writes filename s') ?_ ?_
        · intro new' file s'' h
          obtain ⟨hlist', hsteps', -⟩ := h
          refine (updateTarget_writes handler row.target filename file s'').mono ?_
          intro new'' r h
          obtain ⟨hlist'', hr⟩ := h
          refine ⟨by simp [hlist, hlist', hlist''], ?_⟩
          cases r with
          | ok a t =>
            obtain ⟨ht, hsteps''⟩ := hr
            simp [hs, hsteps, hsteps', hsteps'', ht]
          | error e t =>
            obtain ⟨he, hsteps''⟩ := hr
            refine ⟨he, hs, ?_⟩
            rw [steps_append, steps_append, hsteps, hsteps', List.nil_append]
            exact (List.prefix_append_right_inj _).mpr hsteps''
        · intro new' e s'' h
          obtain ⟨hlist', hsteps', he⟩ := h
          simp [hlist, hlist', he, hs, hsteps, hsteps']
      · intro new e s' h
        obtain ⟨hlist, hsteps, he⟩ := h
        simp [hlist, he, hs, hsteps]
  · have hcurrent : job.stale name row = false := by simpa using hs
    rw [checkTarget_current handler hversions hcurrent]
    exact Writes.pure (by simp [hcurrent])

/-- **What the targets of a handler add to the trace.** -/
theorem checkTargets_writes (hversions : job.firmware_targets.lookup name = some version_map)
    (hfirmware : job.firmware.lookup name = some firmware_map) (target_list : List (Row τ))
    {s : State σ τ} (hclean : s.dirty = false) :
    Writes State.trace
      (target_list.forM (job.checkTarget name handler version_map firmware_map)) s fun new r =>
      listings new = [] ∧
      match r with
      | .ok _ s' =>
        s'.dirty = target_list.any (job.stale name) ∧ steps new = job.work name target_list ∧
          ∀ row ∈ target_list, job.stale name row = true → (job.planned name row).isSome
      | .error e _ => e = 1 ∧ steps new <+: job.work name target_list := by
  refine (Writes.forM (I := fun front new s' => listings new = [] ∧
      s'.dirty = front.any (job.stale name) ∧ steps new = job.work name front ∧
      ∀ row ∈ front, job.stale name row = true → (job.planned name row).isSome)
    (E := fun front row new e _ => listings new = [] ∧ e = 1 ∧
      steps new <+: job.work name (front ++ [row])) ?_ ?_).mono ?_
  · simp [hclean, work]
  · intro front row rest hrows new s' h
    obtain ⟨hlist, hdirty, hsteps, hplan⟩ := h
    refine (checkTarget_writes handler hversions hfirmware row s').mono ?_
    intro new' r h
    obtain ⟨hlist', hr⟩ := h
    cases r with
    | ok a t =>
      obtain ⟨hsome, hdirty', hsteps'⟩ := hr
      refine ⟨by simp [hlist, hlist'], by simp [hdirty', hdirty], ?_, ?_⟩
      · by_cases hs : job.stale name row = true
        · rw [work_snoc_stale hs, steps_append, hsteps, hsteps', if_pos hs, hdirty,
            List.append_assoc]
        · rw [work_snoc_current (by simpa using hs), steps_append, hsteps, hsteps', if_neg hs,
            List.append_nil]
      · intro x hx
        rcases List.mem_append.mp hx with hx | hx
        · exact hplan x hx
        · rw [List.mem_singleton.mp hx]
          exact hsome
    | error e t =>
      obtain ⟨he, hs, hsteps'⟩ := hr
      refine ⟨by simp [hlist, hlist'], he, ?_⟩
      rw [work_snoc_stale hs, steps_append, hsteps, List.append_assoc, ← hdirty]
      exact (List.prefix_append_right_inj _).mpr hsteps'
  · intro new r h
    cases r with
    | ok a t =>
      obtain ⟨hlist, hrest⟩ := h
      exact ⟨hlist, hrest⟩
    | error e t =>
      obtain ⟨front, row, rest, hrows, hlist, he, hsteps⟩ := h
      refine ⟨hlist, he, hsteps.trans (work_mono ⟨rest, ?_⟩)⟩
      simp [hrows]

end turn

/-! ## What the handlers add to the trace -/

variable (job) in
/-- What was listed and done for the handlers in scope: `clean` had nothing to update. -/
structure Walked (names : List String) (new : List (Event τ))
    (clean last : List (String × List (Row τ))) : Prop where
  listed : listings new = clean ++ last
  one : last.length ≤ 1
  order : (clean ++ last).map (·.1) <+: names
  current : ∀ listing ∈ clean, ∀ row ∈ listing.2, job.stale listing.1 row = false
  follows : steps new <+: last.flatMap job.script

variable (job) in
/-- All that is to be done for a handler that has something to update. -/
def Completed (new : List (Event τ)) (last : List (String × List (Row τ))) : Prop :=
  steps new = last.flatMap job.script ∧ (∃ listing ∈ last, listing.2.any (job.stale listing.1)) ∧
    ∀ listing ∈ last, ∀ row ∈ listing.2,
      job.stale listing.1 row = true → (job.planned listing.1 row).isSome

theorem walked_nothing (names : List String) : job.Walked names [] [] [] where
  listed := rfl
  one := Nat.zero_le _
  order := List.nil_prefix
  current := fun _ h => absurd h List.not_mem_nil
  follows := List.nil_prefix

/-- A handler that is the last one. -/
theorem walked_last {names : List String} {target_list : List (Row τ)} {new : List (Event τ)}
    (hlist : listings new = [])
    (hsteps : steps new <+: job.script (name, target_list)) :
    job.Walked (name :: names) (.listed name target_list :: new) [] [(name, target_list)] where
  listed := by simp [hlist]
  one := Nat.le_refl _
  order := by simp
  current := fun _ h => absurd h List.not_mem_nil
  follows := by simpa using hsteps

/-- A handler that has nothing to update, in front of the others. -/
theorem Walked.cons {names : List String} {target_list : List (Row τ)} {new new' : List (Event τ)}
    {clean last : List (String × List (Row τ))} (h : job.Walked names new' clean last)
    (hlist : listings new = []) (hsteps : steps new = [])
    (hcurrent : target_list.any (job.stale name) = false) :
    job.Walked (name :: names) (.listed name target_list :: (new ++ new'))
      ((name, target_list) :: clean) last where
  listed := by simp [hlist, h.listed]
  one := h.one
  order := by simpa using h.order
  current := by
    intro listing hlisting row hrow
    rcases List.mem_cons.mp hlisting with rfl | hlisting
    · simpa using List.any_eq_false.mp hcurrent row hrow
    · exact h.current listing hlisting row hrow
  follows := by simpa [hsteps] using h.follows

theorem work_nil_of_clean {target_list : List (Row τ)}
    (h : target_list.any (job.stale name) = false) : job.work name target_list = [] := by
  simp [work, h]

theorem work_follows (target_list : List (Row τ)) :
    job.work name target_list <+: job.script (name, target_list) :=
  List.prefix_append _ _

/-- `handler.afterUpdates()` -/
theorem finish_writes (handler : Handler σ τ) {s : State σ τ} :
    Writes State.trace (note (.after name) >>= fun _ => call handler.afterUpdates) s fun new r =>
      new = [.after name] ∧
      match r with
      | .ok _ s' => s'.dirty = s.dirty
      | .error e _ => e = 1 := by
  refine Writes.bind (note_writes _ s) ?_ ?_
  · intro new _ s' h
    obtain ⟨rfl, t, ht, hdirty⟩ := h
    cases ht
    refine (call_writes handler.afterUpdates s').mono ?_
    intro new' r h
    obtain ⟨rfl, hr⟩ := h
    refine ⟨rfl, ?_⟩
    cases r with
    | ok a t => exact Eq.trans hr hdirty
    | error e t => exact hr
  · intro new e t h
    obtain ⟨-, t, ht, -⟩ := h
    cases ht

/-- Behind the targets of a handler: it is the last one, or the others follow. -/
theorem behind_writes {handler : Handler σ τ} {rest : List (String × Handler σ τ)}
    {target_list : List (Row τ)} {new : List (Event τ)} {s : State σ τ}
    (ih : s.dirty = false → Writes State.trace (job.checkHandlers rest) s fun new r =>
      ∃ clean last, job.Walked (job.scope rest) new clean last ∧
        match r with
        | .ok _ s' =>
          s'.dirty = true ∧ job.Completed new last ∨
            s'.dirty = false ∧ last = [] ∧ job.scope rest = clean.map (·.1)
        | .error e _ => e = 1)
    (hlist : listings new = []) (hdirty : s.dirty = target_list.any (job.stale name))
    (hsteps : steps new = job.work name target_list)
    (hplan : ∀ row ∈ target_list, job.stale name row = true → (job.planned name row).isSome) :
    Writes State.trace
      (do
        if (← get).dirty then
          note (.after name)
          call handler.afterUpdates
        else job.checkHandlers rest) s fun new' r =>
      ∃ clean last,
        job.Walked (name :: job.scope rest) (.listed name target_list :: (new ++ new')) clean last ∧
        match r with
        | .ok _ s' =>
          s'.dirty = true ∧ job.Completed (.listed name target_list :: (new ++ new')) last ∨
            s'.dirty = false ∧ last = [] ∧ name :: job.scope rest = clean.map (·.1)
        | .error e _ => e = 1 := by
  refine Writes.get ?_
  by_cases hany : target_list.any (job.stale name) = true
  · -- something was updated: this handler is the last one
    rw [if_pos (hdirty.trans hany)]
    refine (finish_writes handler).mono ?_
    intro new' r h
    obtain ⟨rfl, hr⟩ := h
    have hall : steps (new ++ [.after name]) = job.script (name, target_list) := by
      simp [script, hsteps, hany]
    refine ⟨[], [(name, target_list)], ?_, ?_⟩
    · refine walked_last (by simp [hlist]) ?_
      rw [hall]
    · cases r with
      | error e t => exact hr
      | ok a t =>
        refine .inl ⟨Eq.trans hr (hdirty.trans hany), ?_, ⟨_, List.mem_singleton_self _, hany⟩, ?_⟩
        · simpa using hall
        · intro listing hlisting
          rw [List.mem_singleton.mp hlisting]
          exact hplan
  · have hnone : target_list.any (job.stale name) = false := by simpa using hany
    rw [work_nil_of_clean hnone] at hsteps
    rw [if_neg (by simp [hdirty, hnone])]
    refine (ih (hdirty.trans hnone)).mono ?_
    intro new' r h
    obtain ⟨clean, last, hwalked, hr⟩ := h
    refine ⟨(name, target_list) :: clean, last, hwalked.cons hlist hsteps hnone, ?_⟩
    cases r with
    | error e t => exact hr
    | ok a t =>
      rcases hr with ⟨hdirty', hall, hstale, hplan'⟩ | ⟨hdirty', hlast, hnames⟩
      · exact .inl ⟨hdirty', by simpa [hsteps] using hall, hstale, hplan'⟩
      · exact .inr ⟨hdirty', hlast, by simp [hnames]⟩

/-- **What the handlers add to the trace.** -/
theorem checkHandlers_writes (handlers : List (String × Handler σ τ)) {s : State σ τ}
    (hclean : s.dirty = false) :
    Writes State.trace (job.checkHandlers handlers) s fun new r =>
      ∃ clean last, job.Walked (job.scope handlers) new clean last ∧
        match r with
        | .ok _ s' =>
          s'.dirty = true ∧ job.Completed new last ∨
            s'.dirty = false ∧ last = [] ∧ job.scope handlers = clean.map (·.1)
        | .error e _ => e = 1 := by
  induction handlers generalizing s with
  | nil => exact Writes.pure ⟨[], [], walked_nothing _, .inr ⟨hclean, rfl, rfl⟩⟩
  | cons handler rest ih =>
    obtain ⟨name, handler⟩ := handler
    rw [checkHandlers]
    cases hversions : job.firmware_targets.lookup name with
    | none =>
      have hscope : job.scope ((name, handler) :: rest) = job.scope rest := by
        simp [scope, hversions]
      rw [hscope]
      exact ih hclean
    | some version_map =>
      have hscope : job.scope ((name, handler) :: rest) = name :: job.scope rest := by
        simp [scope, hversions]
      rw [hscope]
      cases hfirmware : job.firmware.lookup name with
      | none => exact Writes.throw ⟨[], [], walked_nothing _, rfl⟩
      | some firmware_map =>
        refine Writes.bind (call_writes handler.getTargets s) ?_ ?_
        · intro new target_list s₁ h
          obtain ⟨rfl, hs₁⟩ := h
          refine Writes.bind (note_writes _ s₁) ?_ ?_
          · intro new _ s₂ h
            obtain ⟨rfl, t, ht, hs₂⟩ := h
            cases ht
            have hclean₂ : s₂.dirty = false := (hs₂.trans hs₁).trans hclean
            refine Writes.bind (checkTargets_writes handler hversions hfirmware target_list hclean₂)
              ?_ ?_
            · intro new _ s₃ h
              obtain ⟨hlist, hdirty, hsteps, hplan⟩ := h
              exact behind_writes ih hlist hdirty hsteps hplan
            · intro new e s₃ h
              obtain ⟨hlist, he, hsteps⟩ := h
              refine ⟨[], [(name, target_list)], ?_, he⟩
              exact walked_last hlist (hsteps.trans (work_follows target_list))
          · intro new e t h
            obtain ⟨-, t, ht, -⟩ := h
            cases ht
        · intro new e s₁ h
          obtain ⟨rfl, he⟩ := h
          exact ⟨[], [], walked_nothing _, he⟩

/-! ## A boot -/

theorem setup_writes (handlers : List (String × Handler σ τ)) (s : State σ τ) :
    Writes State.trace
      (handlers.forM fun handler => (call handler.2.setup : Boot σ τ Unit)) s fun new r =>
      new = [] ∧
      match r with
      | .ok _ s' => s'.dirty = s.dirty
      | .error e _ => e = 1 := by
  refine (Writes.forM (I := fun _ new s' => new = [] ∧ s'.dirty = s.dirty)
    (E := fun _ _ new e _ => new = [] ∧ e = 1) ⟨rfl, rfl⟩ ?_).mono ?_
  · intro front handler rest _ new s' h
    obtain ⟨rfl, hdirty⟩ := h
    refine (call_writes handler.2.setup s').mono ?_
    intro new r h
    obtain ⟨rfl, hr⟩ := h
    cases r with
    | ok a t => exact ⟨rfl, Eq.trans hr hdirty⟩
    | error e t => exact ⟨rfl, hr⟩
  · intro new r h
    cases r with
    | ok a t => exact h
    | error e t =>
      obtain ⟨-, -, -, -, hnew, he⟩ := h
      exact ⟨hnew, he⟩

/-- How a boot may end. -/
def Ends (job : Job σ τ) (trace : List (Event τ)) (code : Int) : Prop :=
  ∃ clean last, job.Walked (job.scope job.handler_list) trace clean last ∧
    (code = 20 ∧ job.Completed trace last ∨
      code = 0 ∧ last = [] ∧ job.scope job.handler_list = clean.map (·.1) ∨ code = 1)

/-- The handlers, and the status. -/
theorem check_writes (job : Job σ τ) {s : State σ τ} (hclean : s.dirty = false) :
    Writes State.trace
      (do
        job.checkHandlers job.handler_list
        if (← get).dirty then
          call (job.postMessage "Firmware Changed, rebooting.")
          pure 20
        else pure 0) s fun new r =>
      match r with
      | .ok code _ => job.Ends new code
      | .error code _ => code = 1 ∧ job.Ends new code := by
  refine Writes.bind (checkHandlers_writes job.handler_list hclean) ?_ ?_
  · intro new _ s₂ h
    obtain ⟨clean, last, hwalked, hr⟩ := h
    refine Writes.get ?_
    rcases hr with ⟨hdirty, hcompleted⟩ | ⟨hdirty, hlast, hnames⟩
    · rw [if_pos hdirty]
      refine Writes.bind (call_writes _ s₂) ?_ ?_
      · intro new' _ s₃ h
        obtain ⟨rfl, -⟩ := h
        exact Writes.pure ⟨clean, last, by simpa using hwalked,
          .inl ⟨rfl, by simpa using hcompleted⟩⟩
      · intro new' e s₃ h
        obtain ⟨rfl, he⟩ := h
        exact ⟨he, clean, last, by simpa using hwalked, .inr (.inr he)⟩
    · rw [if_neg (by simp [hdirty])]
      exact Writes.pure
        ⟨clean, last, by simpa using hwalked, .inr (.inl ⟨rfl, hlast, hnames⟩)⟩
  · intro new e s₂ h
    obtain ⟨clean, last, hwalked, he⟩ := h
    exact ⟨he, clean, last, hwalked, .inr (.inr he)⟩

theorem main_writes (job : Job σ τ) {s : State σ τ} (hclean : s.dirty = false) :
    Writes State.trace job.main s fun new r =>
      match r with
      | .ok code _ => job.Ends new code
      | .error code _ => code = 1 ∧ job.Ends new code := by
  have hfails (e : Int) (he : e = 1) : e = 1 ∧ job.Ends [] e :=
    ⟨he, [], [], walked_nothing _, .inr (.inr he)⟩
  unfold main
  refine Writes.bind (call_writes _ s) ?_ ?_
  · intro new _ s₀ h
    obtain ⟨rfl, hs₀⟩ := h
    refine Writes.bind (setup_writes job.handler_list s₀) ?_ ?_
    · intro new _ s₁ h
      obtain ⟨rfl, hs₁⟩ := h
      refine Writes.bind (call_writes _ s₁) ?_ ?_
      · intro new _ s₂ h
        obtain ⟨rfl, hs₂⟩ := h
        have hclean₂ : s₂.dirty = false := Eq.trans hs₂ (Eq.trans hs₁ (Eq.trans hs₀ hclean))
        exact check_writes job hclean₂
      · intro new e s₂ h
        obtain ⟨rfl, he⟩ := h
        exact hfails e he
    · intro new e s₁ h
      obtain ⟨rfl, he⟩ := h
      exact hfails e he
  · intro new e s₀ h
    obtain ⟨rfl, he⟩ := h
    exact hfails e he

/-- **How a boot ends.** -/
theorem boot_ends (job : Job σ τ) (world : σ) :
    job.Ends (job.boot world).2.trace (job.boot world).1 := by
  obtain ⟨new, hnew, hpost⟩ := job.main_writes (s := { world }) rfl
  unfold boot
  cases hres : job.main { world } with
  | ok code s =>
    rw [hres] at hnew hpost
    have htrace : s.trace = new := by simpa [final] using hnew
    simpa [htrace] using hpost
  | error code s =>
    rw [hres] at hnew hpost
    have htrace : s.trace = new := by simpa [final] using hnew
    simpa [htrace] using hpost.2

/-! ## What an update is made with -/

/-- An update needs its file. -/
inductive Needs : Event τ → Event τ → Prop
  | file (name : String) (target : τ) (filename : String) (file : List UInt8) :
    Needs (.update name target filename file) (.downloaded filename file)

/-- The cache has what was downloaded, each file once, and updates are made with that. -/
structure Supplied (s : State σ τ) : Prop where
  cache : s.filename_cache = downloads s.trace
  once : ((downloads s.trace).map (·.1)).Nodup
  preceded : Preceded Needs s.trace

theorem call_keeps {α : Type} (m : EStateM Unit σ α) :
    Keeps Supplied (call m : Boot σ τ α) fun _ => True :=
  Keeps.within m fun _ _ hs => ⟨hs.cache, hs.once, hs.preceded⟩

/-- An event that is no download and needs none. -/
theorem supplied_note {s : State σ τ} (hs : Supplied s) (event : Event τ)
    (hdownload : event.download = none) (hneeds : ∀ y, Needs event y → y ∈ s.trace) :
    Supplied { s with trace := s.trace ++ [event] } where
  cache := by simp [hs.cache, downloads, hdownload]
  once := by simpa [downloads, hdownload] using hs.once
  preceded := hs.preceded.snoc hneeds

theorem note_keeps {event : Event τ} (hdownload : event.download = none)
    (hneeds : ∀ y, ¬ Needs event y) :
    Keeps Supplied (note event : Boot σ τ Unit) fun _ => True :=
  Keeps.modify fun _ hs => supplied_note hs event hdownload fun y hy => absurd hy (hneeds y)

theorem prepare_keeps (name : String) (handler : Handler σ τ) :
    Keeps Supplied (prepare name handler) fun _ => True := by
  unfold prepare
  refine (Keeps.get fun _ _ => trivial).bind fun s _ => Keeps.ite (fun _ => Keeps.pure trivial) ?_
  intro _
  exact (note_keeps rfl fun y hy => by cases hy).bind fun _ _ => call_keeps _

/-- A file that is there has been downloaded. -/
theorem localFile_supplied (job : Job σ τ) (filename : String) {s : State σ τ} (hs : Supplied s) :
    Supplied (final (job.localFile filename s)) ∧ ∀ file s',
      job.localFile filename s = .ok file s' → .downloaded filename file ∈ s'.trace := by
  have hget : (get : Boot σ τ (State σ τ)) s = .ok s s := rfl
  unfold localFile
  rw [bind_ok hget]
  cases hlookup : s.filename_cache.lookup filename with
  | some file =>
    refine ⟨hs, fun file' s' h => ?_⟩
    obtain ⟨rfl, rfl⟩ : file = file' ∧ s = s' := by
      cases h
      exact ⟨rfl, rfl⟩
    have hmem : (filename, file) ∈ downloads s.trace := hs.cache ▸ Assoc.mem_of_lookup hlookup
    obtain ⟨event, hevent, hdownload⟩ := List.mem_filterMap.mp hmem
    cases event <;> cases hdownload
    exact hevent
  | none =>
    have hnew : filename ∉ Assoc.keys s.filename_cache := by
      rw [← Assoc.lookup_isSome_iff, hlookup]
      exact Bool.false_ne_true
    cases hcall : (call (job.open_url (job.resource_location ++ filename)) : Boot σ τ _) s with
    | error e t =>
      have ht := (call_keeps (job.open_url (job.resource_location ++ filename)) s hs).1
      rw [hcall] at ht
      dsimp only
      rw [bind_error hcall]
      exact ⟨ht, fun _ _ h => by cases h⟩
    | ok file t =>
      have ht := (call_keeps (job.open_url (job.resource_location ++ filename)) s hs).1
      have hcache : t.filename_cache = s.filename_cache := by
        obtain ⟨world', -, rfl⟩ := within_eq_ok hcall
        rfl
      rw [hcall] at ht
      have hcached : t.filename_cache = downloads t.trace := ht.cache
      dsimp only
      rw [bind_ok hcall]
      refine ⟨⟨?_, ?_, ht.preceded.snoc fun y hy => by cases hy⟩, fun file' s' h => ?_⟩
      · change Assoc.set t.filename_cache filename file = downloads (t.trace ++ _)
        rw [hcache, Assoc.set, if_neg hnew, downloads_append, ← hcache, hcached]
        rfl
      · change ((downloads (t.trace ++ _)).map (·.1)).Nodup
        rw [downloads_append, List.map_append]
        refine List.nodup_append.mpr ⟨ht.once, List.nodup_singleton _, ?_⟩
        intro x hx y hy
        rw [List.mem_singleton.mp hy]
        rintro rfl
        change _ ∈ (downloads t.trace).map (·.1) at hx
        rw [← hcached, hcache] at hx
        exact hnew hx
      · cases h
        exact List.mem_append_right _ (List.mem_singleton_self _)

/-- An update with a file that has been downloaded. -/
theorem updateTarget_supplied (job : Job σ τ) {name : String} {handler : Handler σ τ} {target : τ}
    {filename : String} {file : List UInt8} {s : State σ τ} (hs : Supplied s)
    (hfile : .downloaded filename file ∈ s.trace) :
    Supplied (final (job.updateTarget name handler target filename file s)) := by
  have hrest : Keeps Supplied
      (call (handler.updateTarget target file) >>= fun success =>
        if success = true then modify fun s : State σ τ => { s with dirty := true }
        else throw 1) fun _ => True :=
    (call_keeps _).bind fun success _ => Keeps.ite
      (fun _ => Keeps.modify fun _ hs => ⟨hs.cache, hs.once, hs.preceded⟩) fun _ => Keeps.throw
  -- the message leaves the trace as it is
  have hmessage (m : EStateM Unit σ Unit) :
      Keeps (fun s : State σ τ => Supplied s ∧ .downloaded filename file ∈ s.trace)
        (call m) fun _ => True :=
    Keeps.within _ fun _ _ hs => ⟨⟨hs.1.cache, hs.1.once, hs.1.preceded⟩, hs.2⟩
  unfold updateTarget
  generalize hm : (call (job.postMessage _) : Boot σ τ Unit) = m
  have hfinal := (hm ▸ hmessage _ s ⟨hs, hfile⟩).1
  cases hres : m s with
  | error e t =>
    rw [hres] at hfinal
    rw [bind_error hres]
    exact hfinal.1
  | ok _ t =>
    rw [hres] at hfinal
    have hnote : (note (.update name target filename file) : Boot σ τ Unit) t =
        .ok ⟨⟩ { t with trace := t.trace ++ [.update name target filename file] } := rfl
    have hs' := supplied_note hfinal.1 (.update name target filename file) rfl fun y hy => by
      cases hy
      exact hfinal.2
    rw [bind_ok hres, bind_ok hnote]
    exact (hrest _ hs').1

theorem checkTarget_keeps (name : String) (handler : Handler σ τ)
    (version_map : Assoc.Dict String String) (firmware_map : Assoc.Dict String FirmwareMap)
    (row : Row τ) :
    Keeps Supplied (job.checkTarget name handler version_map firmware_map row) fun _ => True := by
  unfold checkTarget
  split
  · exact Keeps.pure trivial
  · refine Keeps.ite (fun _ => Keeps.pure trivial) fun _ => ?_
    refine (prepare_keeps name handler).bind fun _ _ => ?_
    split
    · exact Keeps.throw
    · rename_i filename _
      intro s hs
      obtain ⟨hfinal, hgives⟩ := localFile_supplied job filename hs
      refine ⟨?_, fun _ _ _ => trivial⟩
      cases hres : job.localFile filename s with
      | error e t =>
        rw [hres] at hfinal
        rw [bind_error hres]
        exact hfinal
      | ok file t =>
        rw [hres] at hfinal
        rw [bind_ok hres]
        exact updateTarget_supplied job hfinal (hgives file t hres)

theorem checkHandlers_keeps (handlers : List (String × Handler σ τ)) :
    Keeps Supplied (job.checkHandlers handlers) fun _ => True := by
  induction handlers with
  | nil => exact Keeps.pure trivial
  | cons handler rest ih =>
    obtain ⟨name, handler⟩ := handler
    have hcalm : ∀ y : Event τ, ¬ Needs (.after name) y := fun y hy => by cases hy
    rw [checkHandlers]
    split
    · exact ih
    · split
      · exact Keeps.throw
      · refine (call_keeps _).bind fun target_list _ => ?_
        refine (note_keeps rfl fun y hy => by cases hy).bind fun _ _ => ?_
        refine (Keeps.forM fun row _ => checkTarget_keeps name handler _ _ row).bind fun _ _ => ?_
        refine (Keeps.get fun _ _ => trivial).bind fun s _ => Keeps.ite (fun _ => ?_) fun _ => ih
        exact (note_keeps rfl hcalm).bind fun _ _ => call_keeps _

theorem boot_supplied (job : Job σ τ) (world : σ) : Supplied (job.boot world).2 := by
  have hmain : Keeps Supplied job.main fun _ => True := by
    unfold main
    refine (call_keeps _).bind fun _ _ => ?_
    refine (Keeps.forM fun handler _ => call_keeps handler.2.setup).bind fun _ _ => ?_
    refine (call_keeps _).bind fun _ _ => ?_
    refine (checkHandlers_keeps job.handler_list).bind fun _ _ => ?_
    refine (Keeps.get fun _ _ => trivial).bind fun s _ => Keeps.ite (fun _ => ?_) fun _ => ?_
    · exact (call_keeps _).bind fun _ _ => Keeps.pure trivial
    · exact Keeps.pure trivial
  have hstart : Supplied ({ world } : State σ τ) := ⟨rfl, List.nodup_nil, preceded_nil⟩
  have hfinal := (hmain _ hstart).1
  unfold boot
  cases hres : job.main { world } <;>
  · rw [hres] at hfinal
    exact hfinal

/-- What there is for an update: a target of the handler with another version than the one it is
to have, and an entry of the firmware map that leads from its version to that. -/
def Justified (job : Job σ τ) (trace : List (Event τ)) (name : String) (target : τ)
    (filename : String) : Prop :=
  ∃ target_list row target_version firmware_map model_map vermap,
    (name, target_list) ∈ listings trace ∧ row ∈ target_list ∧ row.target = target ∧
    job.wanted name row.model = some target_version ∧ row.version ≠ target_version ∧
    job.firmware.lookup name = some firmware_map ∧
    firmware_map.lookup row.model = some model_map ∧ (filename, vermap) ∈ model_map.items ∧
    Leads job.rematch row.version target_version vermap

theorem planned_cases {name : String} {row : Row τ} {step : Step τ}
    (h : job.planned name row = some step) :
    ∃ target_version firmware_map model_map filename,
      job.wanted name row.model = some target_version ∧ row.version ≠ target_version ∧
      job.firmware.lookup name = some firmware_map ∧
      firmware_map.lookup row.model = some model_map ∧
      findStep job.rematch row.version target_version model_map = some filename ∧
      step = .update name row.target filename := by
  unfold planned at h
  split at h
  · rename_i hstale
    obtain ⟨target_version, hwanted, h⟩ := Option.bind_eq_some_iff.mp h
    obtain ⟨firmware_map, hfirmware, h⟩ := Option.bind_eq_some_iff.mp h
    obtain ⟨filename, hnext, rfl⟩ := Option.map_eq_some_iff.mp h
    obtain ⟨hfound, -⟩ := Option.filter_eq_some_iff.mp hnext
    obtain ⟨model_map, hmodel, hstep⟩ := Option.bind_eq_some_iff.mp hfound
    refine ⟨target_version, firmware_map, model_map, filename, hwanted, ?_, hfirmware, hmodel,
      hstep, rfl⟩
    simpa [stale, hwanted] using hstale
  · cases h

theorem mem_script {listing : String × List (Row τ)} {name : String} {target : τ}
    {filename : String} (h : Step.update name target filename ∈ job.script listing) :
    ∃ row ∈ listing.2, job.planned listing.1 row = some (.update name target filename) := by
  unfold script work at h
  split at h
  · simpa using h
  · simp at h

/-- An update of a boot is one that there was a reason for. -/
theorem update_justified {trace : List (Event τ)} {clean last : List (String × List (Row τ))}
    (h : job.Walked (job.scope job.handler_list) trace clean last) {name : String} {target : τ}
    {filename : String} (hstep : Step.update name target filename ∈ steps trace) :
    job.Justified trace name target filename := by
  obtain ⟨listing, hlisting, hmem⟩ := List.mem_flatMap.mp (h.follows.subset hstep)
  obtain ⟨row, hrow, hplanned⟩ := mem_script hmem
  obtain ⟨target_version, firmware_map, model_map, found, hwanted, hversion, hfirmware, hmodel,
    hfound, heq⟩ := planned_cases hplanned
  obtain ⟨rfl, rfl, rfl⟩ : name = listing.1 ∧ target = row.target ∧ filename = found := by
    simpa using heq
  obtain ⟨vermap, hvermap, hleads⟩ := findStep_leads hfound
  refine ⟨listing.2, row, target_version, firmware_map, model_map, vermap, ?_, hrow, rfl, hwanted,
    hversion, hfirmware, hmodel, hvermap, hleads⟩
  rw [h.listed]
  exact List.mem_append_right _ hlisting

end Job

/-- **One boot.** The handlers are asked in their order, up to the first that has something to
update; what is done follows the script for its targets from the start, each update with a reason,
and with the file that was downloaded for it, and no file is downloaded twice. With 20 the script
has come to its end and is not empty; with 0 all handlers were asked and nothing is done. -/
theorem boot_script (job : Job σ τ) (world : σ) :
    ∃ clean last,
      job.Walked (job.scope job.handler_list) (job.boot world).2.trace clean last ∧
      ((job.boot world).1 = 20 ∧ job.Completed (job.boot world).2.trace last ∨
        (job.boot world).1 = 0 ∧ steps (job.boot world).2.trace = [] ∧
          job.scope job.handler_list = clean.map (·.1) ∨
        (job.boot world).1 = 1) ∧
      (∀ name target filename, .update name target filename ∈ steps (job.boot world).2.trace →
        job.Justified (job.boot world).2.trace name target filename) ∧
      ((downloads (job.boot world).2.trace).map (·.1)).Nodup ∧
      Preceded Job.Needs (job.boot world).2.trace := by
  obtain ⟨clean, last, hwalked, hcode⟩ := job.boot_ends world
  have hsupplied := job.boot_supplied world
  refine ⟨clean, last, hwalked, ?_, fun _ _ _ => Job.update_justified hwalked, hsupplied.once,
    hsupplied.preceded⟩
  rcases hcode with hcode | ⟨hcode, rfl, hnames⟩ | hcode
  · exact .inl hcode
  · exact .inr (.inl ⟨hcode, by simpa using hwalked.follows, hnames⟩)
  · exact .inr (.inr hcode)

end FirmwareUpdate
