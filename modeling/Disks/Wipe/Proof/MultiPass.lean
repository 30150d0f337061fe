import Disks.Wipe.MultiPass

/-!
# What the passes do to the drives

* `phases_eq`: the commands of the four passes, for well-formed arguments.
* `multi_pass_wipes_iff`: when every drive that is not trimmed gets the four passes, one behind the
  other, and a failure is reported.
-/

namespace Wipe

open Background
open Manager (Text dev)

/-- `drive:method`, of the name of a drive. -/
structure Argument where
  drive : Text
  method : Text
  drive_clean : ∀ c ∈ drive, c ≠ ':' ∧ c ≠ '/' ∧ ¬ isBlank c
  method_clean : ∀ c ∈ method, c ≠ ':' ∧ ¬ isBlank c

namespace Argument

def text (a : Argument) : Text := a.drive ++ ':' :: a.method

/-- The variables in a turn for the argument. -/
def vars (a : Argument) : Vars := ⟨a.text, a.drive, a.method⟩

def isTrim (a : Argument) : Bool := a.method = "trim".toList

def isWipedrive (a : Argument) : Bool := a.method = "wipedrive".toList

end Argument

/-- A command writes a value over a drive. -/
def Writes (value : Nat) (drive : Text) (c : Command) : Prop :=
  c = .wipedrive value (dev drive) ∨ c = .dd value (dev drive)

/-- The drive gets the four passes: in the segment of each, a job writes its value over the drive,
and finishes. -/
def Wiped (log : List (Event String Command)) (drive : Text) : Prop :=
  List.Forall₂ (fun value segment => ∃ id c ok, .started id c ∈ segment ∧ Writes value drive c ∧
    .finished id ok ∈ segment) [0, 175, 255, 0] (segments log)

/-- Every pass has finished on all drives before the next one begins. -/
def Separate (log : List (Event String Command)) : Prop :=
  ∀ segment ∈ segments log, ∀ id c, .started id c ∈ segment → ∃ ok, .finished id ok ∈ segment

/-- A job has failed. -/
def Failed (log : List (Event String Command)) : Prop := ∃ id, .finished id false ∈ log

/-- The last argument is for `dd`, and it is the only drive that is not trimmed. -/
def LastOnly (args : List Argument) : Prop :=
  ∀ a ∈ args, a.isTrim = false →
    ∃ last ∈ args.getLast?, last.isTrim = false ∧ last.isWipedrive = false ∧ a.drive = last.drive

/-! ## The loops -/

namespace Argument

variable (a : Argument)

theorem words_text : words [a.text] = [a.text] := by
  have hblank : ∀ c ∈ a.text, isBlank c = false := by
    intro c hc
    rw [← Bool.not_eq_true]
    rcases List.mem_append.mp hc with hc | hc
    · exact (a.drive_clean c hc).2.2
    · rcases List.mem_cons.mp hc with rfl | hc
      · decide
      · exact (a.method_clean c hc).2
  have hne : a.text ≠ [] := by simp [text]
  rw [words, List.flatMap_singleton, List.splitOnP_eq_singleton hblank]
  simp [hne]

theorem splitOn_text : a.text.splitOn ':' = [a.drive, a.method] := by
  have hjoin : a.text = [':'].intercalate [a.drive, a.method] := by
    simp [text, List.intercalate]
  rw [hjoin, List.splitOn_intercalate]
  · intro s hs hmem
    rcases List.mem_cons.mp hs with rfl | hs
    · exact (a.drive_clean _ hmem).1 rfl
    · rw [List.mem_singleton.mp hs] at hmem
      exact (a.method_clean _ hmem).1 rfl
  · exact List.cons_ne_nil _ _

theorem fields_text (vars : Vars) (h : vars.item = a.text) : fields vars = a.vars := by
  unfold fields cutField
  rw [h, splitOn_text]
  cases vars
  cases h
  rfl

end Argument

theorem words_texts (args : List Argument) :
    words (args.map Argument.text) = args.map Argument.text := by
  induction args with
  | nil => rfl
  | cons a args ih =>
    have hcons : words (a.text :: args.map Argument.text) =
        words [a.text] ++ words (args.map Argument.text) := by
      simp [words]
    rw [List.map_cons, hcons, ih, a.words_text, List.singleton_append]

/-- A loop over the items. -/
theorem forLoop_items (command : Vars → Option Command) (vars : Vars) (args : List Argument) :
    (forLoop setItem command vars (args.map Argument.text)).1 =
        args.filterMap (fun a => command a.vars) ∧
      (forLoop setItem command vars (args.map Argument.text)).2.item =
        (args.getLast?.map Argument.text).getD vars.item := by
  induction args generalizing vars with
  | nil => exact ⟨rfl, rfl⟩
  | cons a args ih =>
    have hfields : fields (setItem vars a.text) = a.vars := a.fields_text _ rfl
    obtain ⟨hcommands, hitem⟩ := ih a.vars
    rw [List.map_cons, forLoop, hfields]
    refine ⟨?_, ?_⟩
    · change (command a.vars).toList ++ _ = _
      rw [hcommands]
      cases hcommand : command a.vars <;> simp [hcommand]
    · change (forLoop setItem command a.vars _).2.item = _
      rw [hitem]
      cases args with
      | nil => rfl
      | cons b args =>
        rw [List.getLast?_cons_cons]
        obtain ⟨last, hlast⟩ := Option.isSome_iff_exists.mp
          (List.getLast?_isSome.mpr (List.cons_ne_nil b args))
        rw [hlast]
        rfl

/-- The last loop: its turns are all for one item. -/
theorem forLoop_stale (command : Vars → Option Command) {a : Argument} {vars : Vars}
    (h : vars.item = a.text) (rest : List Text) :
    (forLoop setDrive command vars rest).1 = rest.filterMap fun _ => command a.vars := by
  induction rest generalizing vars with
  | nil => rfl
  | cons word rest ih =>
    have hfields : fields (setDrive vars word) = a.vars := a.fields_text _ h
    rw [forLoop, hfields]
    change (command a.vars).toList ++ (forLoop setDrive command a.vars rest).1 = _
    rw [ih rfl, List.filterMap_cons]
    cases command a.vars <;> rfl

/-! ## The commands of the passes -/

/-- The commands of the last pass. -/
def lastJobs (args : List Argument) : List Command :=
  match args.getLast? with
  | none => []
  | some last => args.filterMap fun _ => lastPass last.vars

/-- **The commands of the four passes.** -/
theorem phases_eq (args : List Argument) : phases (args.map Argument.text) =
    [("Wiping With Zeros", args.filterMap fun a => zerosPass a.vars),
      ("Wiping With Pattern", args.filterMap fun a => patternPass a.vars),
      ("Wiping With Ones", args.filterMap fun a => onesPass a.vars),
      ("Wiping With Zeros", lastJobs args)] := by
  have hlast (vars : Vars) :
      (forLoop setDrive lastPass (forLoop setItem onesPass vars (args.map Argument.text)).2
        (args.map Argument.text)).1 = lastJobs args := by
    have hitem := (forLoop_items onesPass vars args).2
    unfold lastJobs
    cases hlast : args.getLast? with
    | none =>
      rw [List.getLast?_eq_none_iff.mp hlast]
      rfl
    | some last =>
      rw [hlast] at hitem
      rw [forLoop_stale lastPass hitem, List.filterMap_map]
      rfl
  simp only [phases, words_texts, hlast, (forLoop_items _ _ args).1]

theorem dev_inj {s t : Text} : dev s = dev t ↔ s = t := List.append_right_inj _

namespace Argument

variable {a : Argument}

/-- A name is no path. -/
theorem drive_ne_dev (drive : Text) : a.drive ≠ dev drive := by
  intro h
  have hslash : '/' ∈ a.drive := by
    rw [h]
    exact List.mem_append_left _ (by decide)
  exact (a.drive_clean _ hslash).2.1 rfl

/-- In the first three passes a drive that is not trimmed is written over. -/
theorem pass_writes (h : a.isTrim = false) :
    (∃ c, zerosPass a.vars = some c ∧ Writes 0 a.drive c) ∧
      (∃ c, patternPass a.vars = some c ∧ Writes 175 a.drive c) ∧
      ∃ c, onesPass a.vars = some c ∧ Writes 255 a.drive c := by
  have htrim : a.vars.proc ≠ "trim".toList := of_decide_eq_false h
  unfold zerosPass patternPass onesPass
  by_cases hwipedrive : a.vars.proc = "wipedrive".toList
  · simp only [if_pos hwipedrive]
    exact ⟨⟨_, rfl, .inl rfl⟩, ⟨_, rfl, .inl rfl⟩, ⟨_, rfl, .inl rfl⟩⟩
  · simp only [if_neg hwipedrive, if_neg htrim]
    exact ⟨⟨_, rfl, .inr rfl⟩, ⟨_, rfl, .inr rfl⟩, ⟨_, rfl, .inr rfl⟩⟩

/-- In the last pass a drive is written over where it is that of the item, and that is for `dd`. -/
theorem lastPass_writes_iff {drive : Text} :
    (∃ c, lastPass a.vars = some c ∧ Writes 0 drive c) ↔
      a.isTrim = false ∧ a.isWipedrive = false ∧ drive = a.drive := by
  unfold lastPass isTrim isWipedrive
  by_cases hwipedrive : a.vars.proc = "wipedrive".toList
  · have hmethod : a.method = "wipedrive".toList := hwipedrive
    rw [if_pos hwipedrive, hmethod]
    refine iff_of_false ?_ (by simp)
    intro h
    obtain ⟨c, hc, hwrites⟩ := h
    cases hc
    rcases hwrites with h | h
    · exact drive_ne_dev drive (Command.wipedrive.inj h).2
    · cases h
  · rw [if_neg hwipedrive]
    have hnot : a.method ≠ "wipedrive".toList := hwipedrive
    by_cases htrim : a.vars.proc = "trim".toList
    · have hmethod : a.method = "trim".toList := htrim
      rw [if_pos htrim, hmethod]
      simp
    · have hmethod : a.method ≠ "trim".toList := htrim
      rw [if_neg htrim, decide_eq_false hnot, decide_eq_false hmethod]
      constructor
      · intro h
        obtain ⟨c, hc, hwrites⟩ := h
        cases hc
        rcases hwrites with h | h
        · cases h
        · exact ⟨rfl, rfl, (dev_inj.mp (Command.dd.inj h).2).symm⟩
      · intro h
        rw [h.2.2]
        exact ⟨_, rfl, .inr rfl⟩

end Argument

/-! ## Runs -/

variable {args : List Argument} {log : List (Event String Command)}

/-- The segments of a run are those of the four passes. -/
theorem segments_eq (h : Runs (multiPass (args.map Argument.text)) 0 [] log) :
    ∃ zeros pattern ones last, segments log = [zeros, pattern, ones, last] ∧
      Phase (args.filterMap fun a => zerosPass a.vars) zeros ∧
      Phase (args.filterMap fun a => patternPass a.vars) pattern ∧
      Phase (args.filterMap fun a => onesPass a.vars) ones ∧ Phase (lastJobs args) last := by
  have hsegments := h.segments.2
  rw [phases_eq] at hsegments
  generalize segments log = found at hsegments
  obtain _ | ⟨hzeros, _ | ⟨hpattern, _ | ⟨hones, _ | ⟨hlast, hnone⟩⟩⟩⟩ := hsegments
  cases hnone
  exact ⟨_, _, _, _, rfl, hzeros, hpattern, hones, hlast⟩

/-- A pass writes over a drive where one of its commands does. -/
theorem phase_writes_iff {value : Nat} {drive : Text} {jobs : List Command}
    {segment : List (Event String Command)} (h : Phase jobs segment) :
    (∃ id c ok, .started id c ∈ segment ∧ Writes value drive c ∧ .finished id ok ∈ segment) ↔
      ∃ c ∈ jobs, Writes value drive c := by
  constructor
  · intro hdone
    obtain ⟨id, c, ok, hstarted, hwrites, -⟩ := hdone
    exact ⟨c, (h.started_iff c).mp ⟨id, hstarted⟩, hwrites⟩
  · intro hjob
    obtain ⟨c, hc, hwrites⟩ := hjob
    obtain ⟨id, hstarted⟩ := (h.started_iff c).mpr hc
    obtain ⟨ok, hfinished⟩ := h.finished id c hstarted
    exact ⟨id, c, ok, hstarted, hwrites, hfinished⟩

theorem lastJobs_writes_iff {a : Argument} (ha : a ∈ args) :
    (∃ c ∈ lastJobs args, Writes 0 a.drive c) ↔
      ∃ last ∈ args.getLast?, last.isTrim = false ∧ last.isWipedrive = false ∧
        a.drive = last.drive := by
  obtain ⟨last, hlast⟩ := Option.isSome_iff_exists.mp
    (List.getLast?_isSome.mpr (List.ne_nil_of_mem ha))
  simp only [lastJobs, hlast, Option.mem_some, exists_eq_left', List.mem_filterMap,
    ← Argument.lastPass_writes_iff]
  constructor
  · intro h
    obtain ⟨c, ⟨_, -, hc⟩, hwrites⟩ := h
    exact ⟨c, hc, hwrites⟩
  · intro h
    obtain ⟨c, hc, hwrites⟩ := h
    exact ⟨c, ⟨a, ha, hc⟩, hwrites⟩

/-- A drive that is not trimmed gets the first three passes, and the last one where it is the drive
of the last argument. -/
theorem wiped_iff (h : Runs (multiPass (args.map Argument.text)) 0 [] log) {a : Argument}
    (ha : a ∈ args) (htrim : a.isTrim = false) :
    Wiped log a.drive ↔ ∃ last ∈ args.getLast?, last.isTrim = false ∧
      last.isWipedrive = false ∧ a.drive = last.drive := by
  obtain ⟨zeros, pattern, ones, last, hsegments, hzeros, hpattern, hones, hlast⟩ := segments_eq h
  obtain ⟨⟨z, hz, hzw⟩, ⟨p, hp, hpw⟩, ⟨o, ho, how⟩⟩ := Argument.pass_writes htrim
  rw [Wiped, hsegments]
  simp only [List.forall₂_cons, List.forall₂_nil_left_iff, and_true, phase_writes_iff hzeros,
    phase_writes_iff hpattern, phase_writes_iff hones, phase_writes_iff hlast,
    lastJobs_writes_iff ha]
  constructor
  · exact fun hall => hall.2.2.2
  · exact fun hall => ⟨⟨z, List.mem_filterMap.mpr ⟨a, ha, hz⟩, hzw⟩,
      ⟨p, List.mem_filterMap.mpr ⟨a, ha, hp⟩, hpw⟩, ⟨o, List.mem_filterMap.mpr ⟨a, ha, ho⟩, how⟩,
      hall⟩

/-- Every pass waits for all of its jobs. -/
theorem separate (h : Runs (multiPass (args.map Argument.text)) 0 [] log) : Separate log := by
  obtain ⟨zeros, pattern, ones, last, hsegments, hzeros, hpattern, hones, hlast⟩ := segments_eq h
  rw [Separate, hsegments]
  simp only [List.forall_mem_cons, List.not_mem_nil, false_implies, implies_true, and_true]
  exact ⟨hzeros.finished, hpattern.finished, hones.finished, hlast.finished⟩

/-- **When a run wipes the drives**: the last argument is for `dd` and for the only drive that is
not trimmed, and no job fails. -/
theorem multi_pass_wipes_iff (args : List Argument) {log : List (Event String Command)}
    (h : Runs (multiPass (args.map Argument.text)) 0 [] log) :
    ((∀ a ∈ args, a.isTrim = false → Wiped log a.drive) ∧ Separate log ∧
        (Failed log → exitStatus ≠ 0)) ↔ LastOnly args ∧ ¬ Failed log := by
  have hwiped : (∀ a ∈ args, a.isTrim = false → Wiped log a.drive) ↔ LastOnly args := by
    refine forall_congr' fun a => forall_congr' fun ha => forall_congr' fun htrim => ?_
    exact wiped_iff h ha htrim
  have hexit : (Failed log → exitStatus ≠ 0) ↔ ¬ Failed log :=
    ⟨fun hcode hfailed => hcode hfailed rfl, fun hnot hfailed => absurd hfailed hnot⟩
  rw [hwiped, hexit]
  exact ⟨fun hall => ⟨hall.1, hall.2.2⟩, fun hall => ⟨hall.1, separate h, hall.2⟩⟩

theorem sda_clean : ∀ c ∈ "sda".toList, c ≠ ':' ∧ c ≠ '/' ∧ ¬ isBlank c := by
  simp [isBlank]

theorem sdb_clean : ∀ c ∈ "sdb".toList, c ≠ ':' ∧ c ≠ '/' ∧ ¬ isBlank c := by
  simp [isBlank]

theorem dd_clean : ∀ c ∈ "dd".toList, c ≠ ':' ∧ ¬ isBlank c := by
  simp [isBlank]

/-- `sda:dd` -/
def sda : Argument := ⟨"sda".toList, "dd".toList, sda_clean, dd_clean⟩

/-- `sdb:dd` -/
def sdb : Argument := ⟨"sdb".toList, "dd".toList, sdb_clean, dd_clean⟩

theorem runs_well (args : List Argument) :
    ∃ log, Runs (multiPass (args.map Argument.text)) 0 [] log ∧ ¬ Failed log := by
  obtain ⟨log, hruns, hok⟩ := exists_runs (fun _ => true) (phases (args.map Argument.text)) 0
  refine ⟨log, hruns, fun hfailed => ?_⟩
  obtain ⟨id, hid⟩ := hfailed
  cases hok id false hid

/-- One drive. -/
theorem one_drive_wiped :
    ∃ log, Runs (multiPass ([sda].map Argument.text)) 0 [] log ∧
      (∀ a ∈ [sda], a.isTrim = false → Wiped log a.drive) ∧ Separate log ∧
      (Failed log → exitStatus ≠ 0) := by
  obtain ⟨log, hruns, hwell⟩ := runs_well [sda]
  refine ⟨log, hruns, (multi_pass_wipes_iff [sda] hruns).mpr ⟨?_, hwell⟩⟩
  intro a ha _
  rw [List.mem_singleton.mp ha]
  exact ⟨sda, rfl, by decide, by decide, rfl⟩

/-- Two drives: the first one has no zeros at the end, though nothing fails. -/
theorem first_drive_left :
    ∃ log, Runs (multiPass ([sda, sdb].map Argument.text)) 0 [] log ∧ ¬ Failed log ∧
      sda.isTrim = false ∧ ¬ Wiped log sda.drive := by
  obtain ⟨log, hruns, hwell⟩ := runs_well [sda, sdb]
  refine ⟨log, hruns, hwell, by decide, ?_⟩
  rw [wiped_iff hruns (List.mem_cons_self ..) (by decide)]
  intro h
  obtain ⟨last, hlast, -, -, hdrive⟩ := h
  cases hlast
  revert hdrive
  decide

end Wipe
