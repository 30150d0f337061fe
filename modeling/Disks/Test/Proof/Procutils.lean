import Disks.Lib.Triple
import Disks.Test.Procutils
import Disks.Test.Proof.InUse

/-!
# What a command does to the drives of a test

* `running`: the processes that are running, by what has been seen of them.
* `Safe`: what holds of a trace at any moment.
* `Record`: what holds of the drives and the trace between two steps of the program.
* `runOnEachDrive_does`, `runOnEachDriveWait_does`: **a command is run on the drives that are good,
  on one device once, and those that remain good are the ones that it succeeded on.**
-/

namespace DriveTest

open DiskTest Effect
open Manager (Text Name)

/-! ## What is seen in a trace -/

/-- The drives whose process is running. -/
def Event.run (procs : List TestDrive) : Event → List TestDrive
  | .started drive _ => procs ++ [drive]
  | .returned drive _ _ => procs.erase drive
  | .killed drive _ => procs.erase drive
  | _ => procs

def running (trace : List Event) : List TestDrive := trace.foldl Event.run []

@[simp] theorem running_nil : running [] = [] := rfl

@[simp] theorem running_concat (trace : List Event) (event : Event) :
    running (trace ++ [event]) = event.run (running trace) := by
  rw [running, List.foldl_append]
  rfl

/-- The devices of drives. -/
def devices (procs : List TestDrive) : List Name := procs.filterMap (·.block_name)

/-- What may be seen: a command is of these, on a drive that may be tested, a result is written
where results are, and a light is that of a drive that may be tested and has a device. -/
def Event.Allowed (fit : TestDrive → Prop) (commands : List Command) (saves lights : Prop) :
    Event → Prop
  | .started drive cmd => fit drive ∧ cmd ∈ commands
  | .saved .. => saves
  | .lit drive => lights ∧ fit drive ∧ drive.block_path.isSome
  | _ => True

/-- A command or a light on a drive that was put aside before, or a command behind a light. -/
def Event.TooLate : Event → Event → Prop
  | .pruned drive _ _, .started other _ => other = drive
  | .pruned drive _ _, .lit other => other = drive
  | .lit _, .started .. => True
  | _, _ => False

theorem Event.TooLate.begins {earlier later : Event} (h : earlier.TooLate later) :
    (∃ drive cmd, later = .started drive cmd) ∨ ∃ drive, later = .lit drive := by
  cases later with
  | started drive cmd => exact .inl ⟨drive, cmd, rfl⟩
  | lit drive => exact .inr ⟨drive, rfl⟩
  | returned | terminated | killed | pruned | saved | dark | thrashed | stored =>
    cases earlier <;> cases h

/-- What holds of a trace at any moment. -/
structure Safe (fit : TestDrive → Prop) (commands : List Command) (saves lights : Prop)
    (trace : List Event) : Prop where
  exclusive : ∀ front, front <+: trace → (devices (running front)).Nodup
  alone : ∀ front drive, front ++ [.lit drive] <+: trace → running front = []
  inTime : trace.Pairwise fun earlier later => ¬ earlier.TooLate later
  allowed : ∀ event ∈ trace, event.Allowed fit commands saves lights

section safe

variable {fit : TestDrive → Prop} {commands : List Command} {saves lights : Prop}
  {trace : List Event} {event : Event}

theorem Safe.nil : Safe fit commands saves lights [] where
  exclusive front h := by
    rw [List.prefix_nil.mp h]
    exact List.nodup_nil
  alone front drive h := by simp at h
  inTime := List.Pairwise.nil
  allowed _ h := absurd h List.not_mem_nil

theorem Safe.concat (h : Safe fit commands saves lights trace)
    (hexclusive : (devices (event.run (running trace))).Nodup)
    (halone : ∀ drive, event = .lit drive → running trace = [])
    (hinTime : ∀ earlier ∈ trace, ¬ earlier.TooLate event)
    (hallowed : event.Allowed fit commands saves lights) :
    Safe fit commands saves lights (trace ++ [event]) where
  exclusive front hfront := by
    rcases List.prefix_concat_iff.mp hfront with rfl | hfront
    · rwa [running_concat]
    · exact h.exclusive front hfront
  alone front drive hfront := by
    rcases List.prefix_concat_iff.mp hfront with heq | hfront
    · obtain ⟨rfl, hevent⟩ := List.append_inj' heq rfl
      exact halone drive (List.singleton_inj.mp hevent).symm
    · exact h.alone front drive hfront
  inTime := by
    refine List.pairwise_append.mpr ⟨h.inTime, List.pairwise_singleton _ _, ?_⟩
    intro earlier hearlier later hlater
    rw [List.mem_singleton] at hlater
    exact hlater ▸ hinTime earlier hearlier
  allowed x hx := by
    rcases List.mem_append.mp hx with hx | hx
    · exact h.allowed x hx
    · exact List.mem_singleton.mp hx ▸ hallowed

theorem devices_sublist {procs procs' : List TestDrive} (h : procs.Sublist procs') :
    (devices procs).Sublist (devices procs') :=
  h.filterMap _

/-- The event is no command that is started, no drive that is put aside, no result that is written
and no light. -/
def Event.Harmless : Event → Prop
  | .started .. => False
  | .pruned .. => False
  | .saved .. => False
  | .lit _ => False
  | _ => True

theorem Event.Harmless.run_sublist (h : event.Harmless) (procs : List TestDrive) :
    (event.run procs).Sublist procs := by
  cases event with
  | started | pruned | saved | lit => exact absurd h id
  | returned drive cmd rc => exact List.erase_sublist
  | killed drive cmd => exact List.erase_sublist
  | terminated | dark | thrashed | stored => exact List.Sublist.refl procs

theorem Safe.harmless (h : Safe fit commands saves lights trace) (hevent : event.Harmless) :
    Safe fit commands saves lights (trace ++ [event]) := by
  refine h.concat ?_ ?_ ?_ ?_
  · exact (h.exclusive trace (List.prefix_refl _)).sublist
      (devices_sublist (hevent.run_sublist _))
  · rintro drive rfl
    exact absurd hevent id
  · intro earlier _ hlate
    rcases hlate.begins with ⟨drive, cmd, rfl⟩ | ⟨drive, rfl⟩ <;> exact hevent
  · cases event with
    | started | pruned | saved | lit => exact absurd hevent id
    | returned | terminated | killed | dark | thrashed | stored => trivial

theorem Safe.pruned (h : Safe fit commands saves lights trace) (drive : TestDrive) (reason : String)
    (skip : Bool) : Safe fit commands saves lights (trace ++ [.pruned drive reason skip]) := by
  refine h.concat (h.exclusive trace (List.prefix_refl _)) (fun _ heq => by cases heq) ?_ trivial
  intro earlier _ hlate
  rcases hlate.begins with ⟨_, _, heq⟩ | ⟨_, heq⟩ <;> cases heq

end safe

/-! ## The drives and the trace -/

@[simp] theorem prune_skip_reasons (m : DriveManager) (drive : TestDrive) (reason : String)
    (report skip : Bool) : (m.prune drive reason report skip).skip_reasons =
      if skip then Assoc.set m.skip_reasons drive reason else m.skip_reasons := by
  cases skip <;> cases report <;> rfl

@[simp] theorem prune_bad_reasons (m : DriveManager) (drive : TestDrive) (reason : String)
    (report skip : Bool) : (m.prune drive reason report skip).bad_reasons =
      if skip then m.bad_reasons else Assoc.set m.bad_reasons drive reason := by
  cases skip <;> cases report <;> rfl

/-- A command is for a drive: it has a device where one is needed, and no other drive has it. -/
def Command.For (cmd : Command) (drives : List TestDrive) (drive : TestDrive) : Prop :=
  (drive.block_name = none → cmd.needsBlock = false) ∧
    ∀ other ∈ drives, drive.block_name.isSome → other.block_name = drive.block_name → other = drive

/-- No command of the script failed on the drive. -/
def Clean (trace : List Event) (drive : TestDrive) : Prop :=
  ∀ cmd, (∀ rc, .returned drive cmd rc ∈ trace → rc = 0) ∧ .terminated drive cmd ∉ trace ∧
    .killed drive cmd ∉ trace

/-- What is seen tells that a drive has failed. -/
def Event.Blames (drive : TestDrive) : Event → Prop
  | .returned other _ rc => other = drive ∧ rc ≠ 0
  | .terminated other _ => other = drive
  | .killed other _ => other = drive
  | _ => False

theorem Clean.concat {trace : List Event} {drive : TestDrive} {event : Event}
    (h : Clean trace drive) (hevent : ¬ event.Blames drive) : Clean (trace ++ [event]) drive := by
  intro cmd
  obtain ⟨hreturned, hterminated, hkilled⟩ := h cmd
  refine ⟨fun rc hmem => ?_, fun hmem => ?_, fun hmem => ?_⟩
  · rcases List.mem_append.mp hmem with hmem | hmem
    · exact hreturned rc hmem
    · rw [List.mem_singleton] at hmem
      subst hmem
      by_contra hrc
      exact hevent ⟨rfl, hrc⟩
  · rcases List.mem_append.mp hmem with hmem | hmem
    · exact hterminated hmem
    · rw [List.mem_singleton] at hmem
      subst hmem
      exact hevent rfl
  · rcases List.mem_append.mp hmem with hmem | hmem
    · exact hkilled hmem
    · rw [List.mem_singleton] at hmem
      subst hmem
      exact hevent rfl

/-- The drives of a test. -/
structure Setting where
  drives : List TestDrive
  nodup : drives.Nodup
  fit : TestDrive → Prop
  commands : List Command
  saves : Prop
  lights : Prop

/-- What holds of the lists of drives and the trace: `fit` of the good drives, `passed` are the
commands that have been run, `procs` the drives whose process is running, and `doubt` a drive that
has failed but is not put aside yet. -/
structure Record (setting : Setting) (fit : TestDrive → Prop) (passed : List Command)
    (procs : List TestDrive) (doubt : Option TestDrive) (m : DriveManager) (trace : List Event) :
    Prop where
  safe : Safe setting.fit setting.commands setting.saves setting.lights trace
  procs : running trace = procs
  perm : (m.good_list ++ (Assoc.keys m.skip_reasons ++ Assoc.keys m.bad_reasons)).Perm
    setting.drives
  aside : ∀ drive reason skip, .pruned drive reason skip ∈ trace → drive ∉ m.good_list
  fit : ∀ drive ∈ m.good_list, fit drive
  clean : ∀ drive ∈ m.good_list, doubt ≠ some drive → Clean trace drive
  passed : ∀ cmd ∈ passed, ∀ drive ∈ m.good_list, doubt ≠ some drive →
    cmd.For setting.drives drive → .returned drive cmd 0 ∈ trace

namespace Record

variable {setting : Setting} {fit : TestDrive → Prop} {passed : List Command}
  {procs : List TestDrive} {doubt : Option TestDrive} {m : DriveManager} {trace : List Event}
  {drive : TestDrive} {cmd : Command}

theorem good_nodup (h : Record setting fit passed procs doubt m trace) : m.good_list.Nodup :=
  (List.nodup_append.mp (h.perm.nodup_iff.mpr setting.nodup)).1

theorem good_subset (h : Record setting fit passed procs doubt m trace)
    (hdrive : drive ∈ m.good_list) : drive ∈ setting.drives :=
  h.perm.subset (List.mem_append_left _ hdrive)

/-- A good drive is neither skipped nor bad. -/
theorem not_aside (h : Record setting fit passed procs doubt m trace)
    (hdrive : drive ∈ m.good_list) :
    drive ∉ Assoc.keys m.skip_reasons ∧ drive ∉ Assoc.keys m.bad_reasons := by
  have hnodup := List.nodup_append.mp (h.perm.nodup_iff.mpr setting.nodup)
  refine ⟨fun hmem => ?_, fun hmem => ?_⟩
  · exact hnodup.2.2 drive hdrive drive (List.mem_append_left _ hmem) rfl
  · exact hnodup.2.2 drive hdrive drive (List.mem_append_right _ hmem) rfl

/-- A drive that is put aside goes from one list to another. -/
theorem prune_perm (h : Record setting fit passed procs doubt m trace)
    (hdrive : drive ∈ m.good_list) (reason : String) (report skip : Bool) :
    ((m.prune drive reason report skip).good_list ++
      (Assoc.keys (m.prune drive reason report skip).skip_reasons ++
        Assoc.keys (m.prune drive reason report skip).bad_reasons)).Perm
      (m.good_list ++ (Assoc.keys m.skip_reasons ++ Assoc.keys m.bad_reasons)) := by
  obtain ⟨hskip, hbad⟩ := h.not_aside hdrive
  have herase : m.good_list.Perm (drive :: m.good_list.erase drive) :=
    List.perm_cons_erase hdrive
  rw [prune_good_list]
  refine List.Perm.trans ?_ (herase.append_right _).symm
  rw [prune_skip_reasons, prune_bad_reasons]
  cases skip with
  | true =>
    rw [if_pos rfl, if_pos rfl, Assoc.keys_set, if_neg hskip, List.append_assoc,
      List.singleton_append, ← List.append_assoc]
    exact List.perm_middle.trans (by simp)
  | false =>
    rw [if_neg Bool.false_ne_true, if_neg Bool.false_ne_true, Assoc.keys_set, if_neg hbad,
      ← List.append_assoc, ← List.append_assoc]
    exact (List.perm_append_singleton ..).trans (by simp)

/-- A command is started on a good drive whose device no process has, before there are lights. -/
theorem started (h : Record setting fit passed procs none m trace) (hdrive : drive ∈ m.good_list)
    (hdark : ∀ other, .lit other ∉ trace) (hfit : fit drive → setting.fit drive)
    (hcmd : cmd ∈ setting.commands) (hdevices : (devices (procs ++ [drive])).Nodup) :
    Record setting fit passed (procs ++ [drive]) none m (trace ++ [.started drive cmd]) where
  safe := by
    refine h.safe.concat ?_ (fun _ heq => by cases heq) ?_ ⟨hfit (h.fit drive hdrive), hcmd⟩
    · simpa [Event.run, h.procs] using hdevices
    · intro earlier hearlier hlate
      cases earlier with
      | pruned other reason skip =>
        cases hlate
        exact h.aside drive reason skip hearlier hdrive
      | lit other => exact hdark other hearlier
      | started | returned | terminated | killed | saved | dark | thrashed | stored => exact hlate
  procs := by simp [Event.run, h.procs]
  perm := h.perm
  aside other reason skip hmem := h.aside other reason skip (by simpa using hmem)
  fit := h.fit
  clean other hother hdoubt := by
    simpa [Clean] using h.clean other hother hdoubt
  passed c hc other hother hdoubt hfor :=
    List.mem_append_left _ (h.passed c hc other hother hdoubt hfor)

/-- Something that is seen; `doubt'` is the drive that it blames. -/
theorem note {event : Event} {doubt' : Option TestDrive}
    (h : Record setting fit passed procs doubt m trace) (hevent : event.Harmless)
    (hdoubt : ∀ drive, doubt = some drive → doubt' = some drive)
    (hblame : ∀ drive ∈ m.good_list, doubt' ≠ some drive → ¬ event.Blames drive) :
    Record setting fit passed (event.run procs) doubt' m (trace ++ [event]) where
  safe := h.safe.harmless hevent
  procs := by rw [running_concat, h.procs]
  perm := h.perm
  aside drive reason skip hmem := by
    rcases List.mem_append.mp hmem with hmem | hmem
    · exact h.aside drive reason skip hmem
    · rw [List.mem_singleton] at hmem
      subst hmem
      exact absurd hevent id
  fit := h.fit
  clean drive hdrive hne :=
    (h.clean drive hdrive fun heq => hne (hdoubt drive heq)).concat (hblame drive hdrive hne)
  passed cmd hcmd drive hdrive hne hfor :=
    List.mem_append_left _
      (h.passed cmd hcmd drive hdrive (fun heq => hne (hdoubt drive heq)) hfor)

/-- A command that succeeded. -/
theorem returned_zero (h : Record setting fit passed procs none m trace) :
    Record setting fit passed (Event.run procs (.returned drive cmd 0)) none m
      (trace ++ [.returned drive cmd 0]) :=
  h.note trivial (fun _ heq => heq) fun _ _ _ hblame => hblame.2 rfl

/-- A command that failed. -/
theorem returned_failed (h : Record setting fit passed procs none m trace) {rc : Int} :
    Record setting fit passed (Event.run procs (.returned drive cmd rc)) (some drive) m
      (trace ++ [.returned drive cmd rc]) :=
  h.note trivial (fun _ heq => (by cases heq)) fun _ _ hne hblame => hne (by rw [hblame.1])

/-- Something that is seen of a drive that is put aside. -/
theorem note_aside {event : Event} (h : Record setting fit passed procs none m trace)
    (hdrive : drive ∉ m.good_list) (hevent : event.Harmless)
    (honly : ∀ other, event.Blames other → other = drive) :
    Record setting fit passed (event.run procs) none m (trace ++ [event]) :=
  h.note hevent (fun _ heq => heq)
    fun other hother _ hblame => hdrive (honly other hblame ▸ hother)

/-- A good drive is put aside. -/
theorem prune (h : Record setting fit passed procs doubt m trace) (hdrive : drive ∈ m.good_list)
    (hdoubt : ∀ other, doubt = some other → other = drive) (reason : String) (report skip : Bool) :
    Record setting fit passed procs none (m.prune drive reason report skip)
      (trace ++ [.pruned drive reason skip]) := by
  have hgood : (m.prune drive reason report skip).good_list = m.good_list.erase drive :=
    prune_good_list ..
  have hstays (other : TestDrive) (hother : other ∈ m.good_list.erase drive) :
      other ∈ m.good_list ∧ doubt ≠ some other := by
    rw [h.good_nodup.mem_erase_iff] at hother
    exact ⟨hother.2, fun heq => hother.1 (hdoubt other heq)⟩
  refine ⟨h.safe.pruned .., ?_, (prune_perm h hdrive ..).trans h.perm, ?_, ?_, ?_, ?_⟩
  · simpa [Event.run] using h.procs
  · intro other reason' skip' hmem
    rw [hgood]
    rcases List.mem_append.mp hmem with hmem | hmem
    · exact fun hother => h.aside other reason' skip' hmem (hstays other hother).1
    · cases List.mem_singleton.mp hmem
      exact fun hother => (h.good_nodup.mem_erase_iff.mp hother).1 rfl
  · intro other hother
    rw [hgood] at hother
    exact h.fit other (hstays other hother).1
  · intro other hother _
    rw [hgood] at hother
    exact (h.clean other (hstays other hother).1 (hstays other hother).2).concat id
  · intro cmd hcmd other hother _ hfor
    rw [hgood] at hother
    exact List.mem_append_left _
      (h.passed cmd hcmd other (hstays other hother).1 (hstays other hother).2 hfor)

end Record

/-! ## The drives that a command is run on -/

section selected

variable {cmd : Command}

theorem selected_sublist (cmd : Command) (drives : List TestDrive)
    (block_list : List (Option Name)) :
    (selected cmd drives block_list).Sublist drives := by
  induction drives generalizing block_list with
  | nil => exact List.Sublist.refl []
  | cons drive rest ih =>
    unfold selected
    by_cases hnone : (drive.block_name.isNone && cmd.needsBlock) = true
    · rw [if_pos hnone]
      exact (ih block_list).cons drive
    · by_cases hseen : (drive.block_name.isSome && block_list.contains drive.block_name) = true
      · rw [if_neg hnone, if_pos hseen]
        exact (ih block_list).cons drive
      · rw [if_neg hnone, if_neg hseen]
        exact (ih _).cons_cons drive

/-- No device is selected twice, nor one of the list. -/
theorem devices_selected (cmd : Command) (drives : List TestDrive)
    (block_list : List (Option Name)) :
    (devices (selected cmd drives block_list)).Nodup ∧
      ∀ name ∈ devices (selected cmd drives block_list), some name ∉ block_list := by
  induction drives generalizing block_list with
  | nil => simp [selected, devices]
  | cons drive rest ih =>
    unfold selected
    by_cases hnone : (drive.block_name.isNone && cmd.needsBlock) = true
    · rw [if_pos hnone]
      exact ih block_list
    by_cases hseen : (drive.block_name.isSome && block_list.contains drive.block_name) = true
    · rw [if_neg hnone, if_pos hseen]
      exact ih block_list
    rw [if_neg hnone, if_neg hseen]
    obtain ⟨hnodup, hnew⟩ := ih (block_list ++ [drive.block_name])
    cases hname : drive.block_name with
    | none =>
      simp only [devices, List.filterMap_cons, hname] at hnodup hnew ⊢
      exact ⟨hnodup, fun name hmem hlist => hnew name hmem (List.mem_append_left _ hlist)⟩
    | some name =>
      have hfresh : some name ∉ block_list := by simpa [hname] using hseen
      simp only [devices, List.filterMap_cons, hname, List.nodup_cons, List.mem_cons]
        at hnodup hnew ⊢
      refine ⟨⟨fun hmem => hnew name hmem (by simp), hnodup⟩, ?_⟩
      rintro other (rfl | hmem)
      · exact hfresh
      · exact fun hlist => hnew other hmem (List.mem_append_left _ hlist)

/-- A drive that the command is for is selected. -/
theorem mem_selected {drives : List TestDrive} {drive : TestDrive} (h : drive ∈ drives)
    (hfor : cmd.For drives drive) {block_list : List (Option Name)}
    (hblock : drive.block_name.isSome → drive.block_name ∉ block_list) :
    drive ∈ selected cmd drives block_list := by
  induction drives generalizing block_list with
  | nil => exact absurd h List.not_mem_nil
  | cons other rest ih =>
    have hrest : cmd.For rest drive :=
      ⟨hfor.1, fun x hx => hfor.2 x (List.mem_cons_of_mem _ hx)⟩
    unfold selected
    by_cases heq : drive = other
    · subst heq
      have hnone : ¬ (drive.block_name.isNone && cmd.needsBlock) = true := by
        simpa using hfor.1
      have hseen : ¬ (drive.block_name.isSome && block_list.contains drive.block_name) = true := by
        simpa using hblock
      rw [if_neg hnone, if_neg hseen]
      exact List.mem_cons_self
    · have hmem : drive ∈ rest := (List.mem_cons.mp h).resolve_left heq
      by_cases hnone : (other.block_name.isNone && cmd.needsBlock) = true
      · rw [if_pos hnone]
        exact ih hmem hrest hblock
      by_cases hseen : (other.block_name.isSome && block_list.contains other.block_name) = true
      · rw [if_neg hnone, if_pos hseen]
        exact ih hmem hrest hblock
      rw [if_neg hnone, if_neg hseen]
      refine List.mem_cons_of_mem _ (ih hmem hrest fun hsome hlist => ?_)
      rcases List.mem_append.mp hlist with hlist | hlist
      · exact hblock hsome hlist
      · exact heq (hfor.2 other List.mem_cons_self hsome (List.mem_singleton.mp hlist).symm).symm

end selected

/-! ## What a part of the program does -/

variable {σ α β : Type}

abbrev Assertion := DriveManager → List Event → Prop

/-- From drives and a trace with `P`, `m` leads to those with `Q`, and the trace is safe also where
it raises. -/
def Does (setting : Setting) (P : Assertion) (m : Test σ α) (Q : α → Assertion) : Prop :=
  Triple (fun s => P s.manager s.trace) m (fun a s => Q a s.manager s.trace)
    fun _ s => Safe setting.fit setting.commands setting.saves setting.lights s.trace

/-- An assertion with a safe trace. -/
def Assures (setting : Setting) (P : Assertion) : Prop :=
  ∀ m trace, P m trace → Safe setting.fit setting.commands setting.saves setting.lights trace

section does

variable {setting : Setting} {P Q : Assertion} {R : β → Assertion}

theorem Does.pure {a : α} {Q : α → Assertion} (h : ∀ m trace, P m trace → Q a m trace) :
    Does setting P (Pure.pure a : Test σ α) Q :=
  Triple.pure fun s hs => h s.manager s.trace hs

theorem Does.throw {e : Halt} {Q : α → Assertion} (hP : Assures setting P) :
    Does setting P (MonadExcept.throw e : Test σ α) Q :=
  Triple.throw fun s hs => hP s.manager s.trace hs

theorem Does.bind {m : Test σ α} {f : α → Test σ β} {Q : α → Assertion}
    (hm : Does setting P m Q) (hf : ∀ a, Does setting (Q a) (f a) R) :
    Does setting P (m >>= f) R :=
  Triple.bind hm hf

/-- A part that looks at the state first. -/
theorem Does.get {f : State σ → Test σ β}
    (h : ∀ s, P s.manager s.trace →
      Does setting (fun m trace => P m trace ∧ m = s.manager) (f s) R) :
    Does setting P (MonadState.get >>= f) R :=
  fun s hs => h s hs s ⟨hs, rfl⟩

theorem Does.pre {m : Test σ α} {Q : α → Assertion} (h : Does setting P m Q) {P' : Assertion}
    (hP : ∀ m trace, P' m trace → P m trace) : Does setting P' m Q :=
  Triple.pre h fun s hs => hP s.manager s.trace hs

theorem Does.post {m : Test σ α} {Q Q' : α → Assertion} (h : Does setting P m Q)
    (hQ : ∀ a m trace, Q a m trace → Q' a m trace) : Does setting P m Q' :=
  Triple.mono h (fun a s hs => hQ a s.manager s.trace hs) fun _ _ hs => hs

theorem Does.ite {c : Prop} [Decidable c] {m₁ m₂ : Test σ α} {Q : α → Assertion}
    (h₁ : c → Does setting P m₁ Q) (h₂ : ¬ c → Does setting P m₂ Q) :
    Does setting P (if c then m₁ else m₂) Q :=
  Triple.ite h₁ h₂

/-- A loop over a list, with an invariant of how far it has come. -/
theorem Does.forM {I : List β → Assertion} {f : β → Test σ PUnit} {l : List β}
    (turn : ∀ front b rest, l = front ++ b :: rest →
      Does setting (I front) (f b) fun _ => I (front ++ [b])) :
    Does setting (I []) (l.forM f) fun _ => I l :=
  Triple.forM (I := fun front (s : State σ) => I front s.manager s.trace) turn

theorem Does.forM_keeps {f : β → Test σ PUnit} {l : List β}
    (turn : ∀ b ∈ l, Does setting P (f b) fun _ => P) : Does setting P (l.forM f) fun _ => P :=
  Triple.forM_keeps turn

theorem does_call (hP : Assures setting P) (m : EStateM Unit σ α) :
    Does setting P (call m) fun _ => P :=
  Triple.within m (fun _ _ h => h) fun s _ h => hP s.manager s.trace h

theorem does_sleep (host : Host σ) (delay : Nat) : Does setting P (host.sleep delay) fun _ => P :=
  Triple.modify fun _ h => h

theorem does_note {event : Event} (h : ∀ m trace, P m trace → Q m (trace ++ [event])) :
    Does setting P (note event : Test σ Unit) fun _ => Q :=
  Triple.modify fun s hs => h s.manager s.trace hs

theorem does_whenever {condition : Bool} {m : Test σ Unit}
    (hm : condition = true → Does setting P m fun _ => Q)
    (hskip : condition = false → ∀ m trace, P m trace → Q m trace) :
    Does setting P (whenever condition m) fun _ => Q := by
  exact Does.ite hm fun hcondition => Does.pure (hskip (by simpa using hcondition))

theorem does_prune (host : Host σ) {drive : TestDrive} {reason : String} {report skip : Bool}
    (h : ∀ m trace, P m trace →
      Q (m.prune drive reason report skip) (trace ++ [.pruned drive reason skip]))
    (hQ : Assures setting Q) :
    Does setting P (host.prune drive reason report skip) fun _ => Q := by
  have hcall (m : EStateM Unit σ Unit) (c : Bool) :
      Does setting Q (whenever c (call m)) fun _ => Q :=
    does_whenever (fun _ => does_call hQ m) fun _ _ _ hs => hs
  have hlists : Does setting P
      (modify fun s =>
        { s with
          manager := s.manager.prune drive reason report skip
          trace := s.trace ++ [.pruned drive reason skip] } : Test σ Unit) fun _ => Q :=
    Triple.modify fun s hs => h s.manager s.trace hs
  exact hlists.bind fun _ => (hcall _ _).bind fun _ => hcall _ _

end does

/-! ## A command on the drives -/

/-- A command or what comes of it. -/
def Event.OfCommand : Event → Prop
  | .started .. => True
  | .returned .. => True
  | .terminated .. => True
  | .killed .. => True
  | _ => False

/-- An assertion about the marks on the drives, which commands have nothing to do with, before
there are lights. -/
structure Lasting (marks : Assertion) : Prop where
  dark : ∀ {m trace}, marks m trace → ∀ drive, .lit drive ∉ trace
  seen : ∀ {m trace event}, event.OfCommand → marks m trace → marks m (trace ++ [event])
  aside : ∀ {m trace drive} reason report skip, m.good_list.Nodup → marks m trace →
    marks (m.prune drive reason report skip) (trace ++ [.pruned drive reason skip])

/-- Between two commands: these have been run. -/
structure Stage (setting : Setting) (fit : TestDrive → Prop) (marks : Assertion)
    (passed : List Command) (m : DriveManager) (trace : List Event) : Prop where
  record : Record setting fit passed [] none m trace
  marks : marks m trace

/-- How far a command has come on `jobs`, the drives of `good` that it is for, and on which it is
done. -/
structure Progress (setting : Setting) (fit : TestDrive → Prop) (marks : Assertion)
    (passed : List Command) (good : List TestDrive) (cmd : Command)
    (jobs procs done : List TestDrive) (m : DriveManager) (trace : List Event) : Prop where
  record : Record setting fit passed procs none m trace
  marks : marks m trace
  subset : m.good_list ⊆ good
  todo : ∀ drive ∈ jobs, drive ∉ done → drive ∈ m.good_list
  done : ∀ drive ∈ done, drive ∈ m.good_list → .returned drive cmd 0 ∈ trace

section command

variable {setting : Setting} {fit : TestDrive → Prop} {marks : Assertion} {passed : List Command}
  {good : List TestDrive} {cmd : Command} {jobs procs done : List TestDrive} {drive : TestDrive}
  (host : Host σ)

theorem Progress.assures :
    Assures setting (Progress setting fit marks passed good cmd jobs procs done) :=
  fun _ _ h => h.record.safe

theorem Stage.assures : Assures setting (Stage setting fit marks passed) :=
  fun _ _ h => h.record.safe

/-- A drive that a command failed on is put aside. -/
theorem Progress.prune {m : DriveManager} {trace : List Event} {doubt : Option TestDrive}
    (hmarks : Lasting marks) (hnow : marks m trace)
    (hrecord : Record setting fit passed procs doubt m trace) (hsubset : m.good_list ⊆ good)
    (htodo : ∀ drive ∈ jobs, drive ∉ done → drive ∈ m.good_list)
    (hdone : ∀ drive ∈ done, drive ∈ m.good_list → .returned drive cmd 0 ∈ trace)
    (hjob : drive ∈ jobs) (hnew : drive ∉ done)
    (hdoubt : ∀ other, doubt = some other → other = drive) (reason : String) :
    Progress setting fit marks passed good cmd jobs procs (done ++ [drive])
      (m.prune drive reason true false) (trace ++ [.pruned drive reason false]) where
  record := hrecord.prune (htodo drive hjob hnew) hdoubt reason true false
  marks := hmarks.aside reason true false hrecord.good_nodup hnow
  subset := by
    rw [prune_good_list]
    exact fun other hother => hsubset (List.erase_subset hother)
  todo other hother hmem := by
    rw [List.mem_append, List.mem_singleton, not_or] at hmem
    rw [prune_good_list]
    exact hrecord.good_nodup.mem_erase_iff.mpr ⟨hmem.2, htodo other hother hmem.1⟩
  done other hother hmem := by
    rw [prune_good_list, hrecord.good_nodup.mem_erase_iff] at hmem
    have hbefore : other ∈ done := by simpa [hmem.1] using hother
    exact List.mem_append_left _ (hdone other hbefore hmem.2)

/-- What comes of a return code. -/
theorem returned_does (hmarks : Lasting marks) (hjob : drive ∈ jobs) (hnew : drive ∉ done)
    (rc : Int) (reason : String) :
    Does setting (Progress setting fit marks passed good cmd jobs procs done)
      (note (.returned drive cmd rc) >>= fun _ =>
        whenever (rc ≠ 0) (host.prune drive reason true false))
      fun _ => Progress setting fit marks passed good cmd jobs (procs.erase drive)
        (done ++ [drive]) := by
  by_cases hrc : rc = 0
  · subst hrc
    refine (does_note (Q := Progress setting fit marks passed good cmd jobs (procs.erase drive)
      (done ++ [drive])) fun m trace h => ?_).bind fun _ =>
      does_whenever (fun h => absurd h (by decide)) fun _ _ _ h => h
    refine ⟨h.record.returned_zero, hmarks.seen trivial h.marks, h.subset, ?_, ?_⟩
    · exact fun other hother hmem => h.todo other hother fun hdone => hmem (by simp [hdone])
    · intro other hother hgood
      rcases List.mem_append.mp hother with hother | hother
      · exact List.mem_append_left _ (h.done other hother hgood)
      · rw [List.mem_singleton.mp hother]
        exact List.mem_append_right _ (List.mem_singleton_self _)
  · -- between the return code and `prune`, the drive is in doubt
    refine (does_note (Q := fun m trace =>
      marks m trace ∧ Record setting fit passed (procs.erase drive) (some drive) m trace ∧
        m.good_list ⊆ good ∧
        (∀ drive ∈ jobs, drive ∉ done → drive ∈ m.good_list) ∧
        ∀ drive ∈ done, drive ∈ m.good_list → .returned drive cmd 0 ∈ trace)
      fun m trace h => ?_).bind fun _ => does_whenever (fun _ => ?_) fun h => ?_
    · exact ⟨hmarks.seen trivial h.marks, h.record.returned_failed, h.subset, h.todo,
        fun other hother hgood => List.mem_append_left _ (h.done other hother hgood)⟩
    · exact does_prune host (fun m trace ⟨hnow, hrecord, hsubset, htodo, hdone⟩ =>
        Progress.prune hmarks hnow hrecord hsubset htodo hdone hjob hnew
          (fun other heq => (Option.some.inj heq).symm) reason) Progress.assures
    · exact absurd hrc (by simpa using h)

theorem runOn_does (hmarks : Lasting marks) (hfit : ∀ drive, fit drive → setting.fit drive)
    (hcmd : cmd ∈ setting.commands) (stdin : Option Text) (hjob : drive ∈ jobs)
    (hnew : drive ∉ done) :
    Does setting (Progress setting fit marks passed good cmd jobs [] done)
      (host.runOn cmd stdin drive)
      fun _ => Progress setting fit marks passed good cmd jobs [] (done ++ [drive]) := by
  have hstarted : Does setting (Progress setting fit marks passed good cmd jobs [] done)
      (note (.started drive cmd) : Test σ Unit)
      fun _ => Progress setting fit marks passed good cmd jobs [drive] done := by
    refine does_note fun m trace h =>
      ⟨?_, hmarks.seen trivial h.marks, h.subset, h.todo, ?_⟩
    · refine h.record.started (h.todo drive hjob hnew) (hmarks.dark h.marks) (hfit drive)
        hcmd ?_
      cases hname : drive.block_name <;> simp [devices, hname]
    · exact fun other hother hgood => List.mem_append_left _ (h.done other hother hgood)
  refine hstarted.bind fun _ => (does_call Progress.assures _).bind fun out => ?_
  refine (returned_does host hmarks hjob hnew out.rc _).post fun _ m trace h => ?_
  rwa [List.erase_cons_head] at h

/-- The drives that the loop comes to. -/
theorem Progress.begin {m : DriveManager} {trace : List Event}
    (h : Stage setting fit marks passed m trace) :
    Progress setting fit marks passed m.good_list cmd (selected cmd m.good_list []) [] [] m trace :=
  ⟨h.record, h.marks, fun _ hmem => hmem, fun _ hmem _ => (selected_sublist ..).subset hmem,
    fun _ hmem => absurd hmem List.not_mem_nil⟩

/-- The command is done on all drives that it is for. -/
theorem Progress.end {m m₀ : DriveManager} {trace : List Event}
    (h : Progress setting fit marks passed m₀.good_list cmd (selected cmd m₀.good_list []) []
      (selected cmd m₀.good_list []) m trace)
    (hgood : m₀.good_list ⊆ setting.drives) :
    Stage setting fit marks (passed ++ [cmd]) m trace := by
  refine ⟨{ h.record with passed := fun c hc drive hdrive hne hfor => ?_ }, h.marks⟩
  rcases List.mem_append.mp hc with hc | hc
  · exact h.record.passed c hc drive hdrive hne hfor
  · rw [List.mem_singleton] at hc
    subst hc
    refine h.done drive
      (mem_selected (h.subset hdrive) ⟨hfor.1, ?_⟩ fun _ => List.not_mem_nil) hdrive
    exact fun other hother => hfor.2 other (hgood hother)

/-- **A command that is run on one drive after the other.** -/
theorem runOnEachDrive_does (hmarks : Lasting marks) (hfit : ∀ drive, fit drive → setting.fit drive)
    (hcmd : cmd ∈ setting.commands) (stdin : Option Text) :
    Does setting (Stage setting fit marks passed) (host.runOnEachDrive cmd stdin)
      fun _ => Stage setting fit marks (passed ++ [cmd]) := by
  refine Does.get fun s hs => ?_
  have hloop : Does setting
      (Progress setting fit marks passed s.manager.good_list cmd
        (selected cmd s.manager.good_list []) [] [])
      ((selected cmd s.manager.good_list []).forM (host.runOn cmd stdin))
      fun _ => Progress setting fit marks passed s.manager.good_list cmd
        (selected cmd s.manager.good_list []) [] (selected cmd s.manager.good_list []) := by
    refine Does.forM (I := fun front => Progress setting fit marks passed s.manager.good_list cmd
      (selected cmd s.manager.good_list []) [] front) fun front drive rest hl => ?_
    have hnodup := hs.record.good_nodup.sublist (selected_sublist cmd s.manager.good_list [])
    rw [hl] at hnodup
    refine runOn_does host hmarks hfit hcmd stdin (hl ▸ by simp) fun hmem => ?_
    exact (List.nodup_append.mp hnodup).2.2 drive hmem drive List.mem_cons_self rfl
  refine (hloop.pre ?_).post fun _ m trace h => h.end fun drive hmem => hs.record.good_subset hmem
  rintro m trace ⟨hstage, rfl⟩
  exact Progress.begin hstage

/-! ## A command on all drives at the same time -/

/-- The processes are started, on the drives behind those of `front`. -/
theorem startAll_does (hmarks : Lasting marks) (hfit : ∀ drive, fit drive → setting.fit drive)
    (hcmd : cmd ∈ setting.commands) {front rest : List TestDrive} (hjobs : jobs = front ++ rest)
    (hdevices : (devices jobs).Nodup) :
    Does setting (Progress setting fit marks passed good cmd jobs front []) (host.startAll cmd rest)
      fun started m trace => Progress setting fit marks passed good cmd jobs jobs [] m trace ∧
        started.map (·.drive) = rest ∧ ∀ job ∈ started, job.cmd = cmd := by
  induction rest generalizing front with
  | nil =>
    rw [List.append_nil] at hjobs
    exact Does.pure fun m trace h => ⟨hjobs ▸ h, rfl, by simp⟩
  | cons drive rest ih =>
    have hjobs' : jobs = (front ++ [drive]) ++ rest := by simpa using hjobs
    have hstarted : Does setting (Progress setting fit marks passed good cmd jobs front [])
        (note (.started drive cmd) : Test σ Unit)
        fun _ => Progress setting fit marks passed good cmd jobs (front ++ [drive]) [] := by
      refine does_note fun m trace h =>
      ⟨?_, hmarks.seen trivial h.marks, h.subset, h.todo, ?_⟩
      · refine h.record.started (h.todo drive (hjobs ▸ by simp) List.not_mem_nil)
          (hmarks.dark h.marks) (hfit drive) hcmd ?_
        rw [hjobs'] at hdevices
        exact hdevices.sublist (devices_sublist (List.sublist_append_left ..))
      · exact fun other hother => absurd hother List.not_mem_nil
    refine hstarted.bind fun _ => (does_call Progress.assures _).bind fun proc =>
      (does_sleep host _).bind fun _ => (ih hjobs').bind fun started => ?_
    exact Does.pure fun m trace ⟨h, hdrives, hcmds⟩ => ⟨h, by simp [hdrives], by simpa using hcmds⟩

/-- The loop only waits. -/
theorem waitFor_does {P : Assertion} (hP : Assures setting P) (endTime : Option Nat)
    (started : List Host.Job) (fuel : Nat) :
    Does setting P (host.waitFor endTime started fuel) fun _ => P := by
  induction fuel with
  | zero => exact Does.throw hP
  | succ fuel ih =>
    refine Does.get fun s _ => Does.ite (fun _ => Does.pure fun _ _ h => h.1) fun _ => ?_
    refine ((does_sleep host _).pre fun _ _ h => h.1).bind fun _ => Does.get fun s' _ => ?_
    exact Does.ite (fun _ => Does.pure fun _ _ h => h.1) fun _ => ih.pre fun _ _ h => h.1

theorem Progress.note_aside {m : DriveManager} {trace : List Event} (event : Event)
    (h : Progress setting fit marks passed good cmd jobs procs done m trace)
    (hmarks : Lasting marks) (hdrive : drive ∉ m.good_list) (hevent : event.Harmless)
    (hcommand : event.OfCommand) (honly : ∀ other, event.Blames other → other = drive) :
    Progress setting fit marks passed good cmd jobs (event.run procs) done m (trace ++ [event]) :=
  ⟨h.record.note_aside hdrive hevent honly, hmarks.seen hcommand h.marks, h.subset, h.todo,
    fun other hother hgood => List.mem_append_left _ (h.done other hother hgood)⟩

/-- A process that has not ended is told to, and is killed where it does not. -/
theorem stop_does (hmarks : Lasting marks) (job : Host.Job) (now : Nat) (hjob : job.drive ∈ jobs)
    (hnew : job.drive ∉ done) :
    Does setting (Progress setting fit marks passed good cmd jobs procs done) (host.stop job now)
      fun _ => Progress setting fit marks passed good cmd jobs (procs.erase job.drive)
        (done ++ [job.drive]) := by
  have hpruned : Does setting (Progress setting fit marks passed good cmd jobs procs done)
      (host.prune job.drive (notInTime (job.cmd.format job.drive)) true false)
      fun _ m trace => Progress setting fit marks passed good cmd jobs procs (done ++ [job.drive])
        m trace ∧ job.drive ∉ m.good_list := by
    refine does_prune host (fun m trace h => ⟨?_, ?_⟩) fun _ _ h => h.1.record.safe
    · exact Progress.prune hmarks h.marks h.record h.subset h.todo h.done hjob hnew
        (fun other heq => by cases heq) _
    · rw [prune_good_list]
      exact fun hmem => (h.record.good_nodup.mem_erase_iff.mp hmem).1 rfl
  have hterminated : Does setting
      (fun m trace => Progress setting fit marks passed good cmd jobs procs (done ++ [job.drive])
        m trace ∧ job.drive ∉ m.good_list)
      (note (.terminated job.drive job.cmd) : Test σ Unit)
      fun _ m trace => Progress setting fit marks passed good cmd jobs procs (done ++ [job.drive])
        m trace ∧ job.drive ∉ m.good_list :=
    does_note fun m trace h =>
      ⟨h.1.note_aside (.terminated job.drive job.cmd) hmarks h.2 trivial trivial
        fun _ hblame => hblame.symm, h.2⟩
  refine hpruned.bind fun _ => hterminated.bind fun _ =>
    (does_sleep host _).bind fun _ => Does.get fun s _ => ?_
  cases job.proc.terminated now s.clock with
  | none =>
    exact does_note fun m trace h =>
      h.1.1.note_aside (.killed job.drive job.cmd) hmarks h.1.2 trivial trivial
        fun _ hblame => hblame.symm
  | some rc =>
    exact does_note fun m trace h =>
      h.1.1.note_aside (.returned job.drive job.cmd rc) hmarks h.1.2 trivial trivial
        fun _ hblame => hblame.1.symm

theorem checkResult_does (hmarks : Lasting marks) (job : Host.Job) (hcmd : job.cmd = cmd)
    (now : Nat) (hjob : job.drive ∈ jobs) (hnew : job.drive ∉ done) :
    Does setting (Progress setting fit marks passed good cmd jobs procs done)
      (host.checkResult job now)
      fun _ => Progress setting fit marks passed good cmd jobs (procs.erase job.drive)
        (done ++ [job.drive]) := by
  unfold Host.checkResult
  cases job.proc.poll now with
  | none => exact stop_does host hmarks job now hjob hnew
  | some rc =>
    subst hcmd
    exact returned_does host hmarks hjob hnew rc _

/-- The results, of the processes behind those of `front`. -/
theorem checkResults_does (hmarks : Lasting marks) {front : List TestDrive}
    {started : List Host.Job}
    (hjobs : jobs = front ++ started.map (·.drive)) (hnodup : jobs.Nodup)
    (hcmds : ∀ job ∈ started, job.cmd = cmd) :
    Does setting
      (Progress setting fit marks passed good cmd jobs (started.map (·.drive)) front)
      (host.checkResults started)
      fun _ => Progress setting fit marks passed good cmd jobs [] jobs := by
  induction started generalizing front with
  | nil =>
    rw [List.map_nil, List.append_nil] at hjobs
    exact Does.pure fun m trace h => hjobs ▸ h
  | cons job started ih =>
    have hjobs' : jobs = (front ++ [job.drive]) ++ started.map (·.drive) := by simpa using hjobs
    have hnew : job.drive ∉ front := fun hmem => by
      rw [hjobs, List.map_cons] at hnodup
      exact (List.nodup_append.mp hnodup).2.2 _ hmem _ List.mem_cons_self rfl
    refine Does.get fun s _ => ?_
    have hjob : job.drive ∈ jobs := by simp [hjobs]
    have hturn : Does setting
        (Progress setting fit marks passed good cmd jobs ((job :: started).map (·.drive)) front)
        (host.checkResult job s.clock)
        fun _ => Progress setting fit marks passed good cmd jobs (started.map (·.drive))
          (front ++ [job.drive]) := by
      refine (checkResult_does host hmarks job (hcmds job List.mem_cons_self) s.clock hjob
        hnew).post fun _ m trace h => ?_
      rwa [List.map_cons, List.erase_cons_head] at h
    refine (hturn.pre fun m trace h => h.1).bind fun _ => ?_
    exact (ih hjobs' fun x hx => hcmds x (List.mem_cons_of_mem _ hx)).bind
      fun _ => Does.pure fun _ _ h => h

/-- **A command that is run on all drives at the same time.** -/
theorem runOnEachDriveWait_does (hmarks : Lasting marks)
    (hfit : ∀ drive, fit drive → setting.fit drive)
    (hcmd : cmd ∈ setting.commands) (maxTime : Int) :
    Does setting (Stage setting fit marks passed) (host.runOnEachDriveWait cmd maxTime)
      fun _ => Stage setting fit marks (passed ++ [cmd]) := by
  refine Does.get fun s hs => Does.ite (fun hempty => ?_) fun _ => ?_
  · refine Does.pure fun m trace h =>
      ⟨{ h.1.record with passed := fun c _ drive hdrive => ?_ }, h.1.marks⟩
    have hgood : s.manager.good_list = [] := by simpa [DriveManager.working_list] using hempty
    rw [h.2, hgood] at hdrive
    exact absurd hdrive List.not_mem_nil
  · have hnodup := hs.record.good_nodup.sublist (selected_sublist cmd s.manager.good_list [])
    have hbegin : ∀ m trace, Stage setting fit marks passed m trace ∧ m = s.manager →
        Progress setting fit marks passed s.manager.good_list cmd
          (selected cmd s.manager.good_list []) [] [] m trace := by
      rintro m trace ⟨hstage, rfl⟩
      exact Progress.begin hstage
    refine ((startAll_does host hmarks hfit hcmd (List.nil_append _).symm
      (devices_selected cmd s.manager.good_list []).1).pre hbegin).bind fun started => ?_
    refine Does.get fun s' hs' => ?_
    obtain ⟨-, hdrives, hcmds⟩ := hs'
    refine (waitFor_does host (fun _ _ h => h.1.1.record.safe) _ _ _).bind fun _ => ?_
    have hjobs : selected cmd s.manager.good_list [] = [] ++ started.map (·.drive) := by
      simp [hdrives]
    refine ((checkResults_does host hmarks hjobs hnodup hcmds).pre fun m trace h => ?_).post
      fun _ m trace h => h.end fun drive hmem => hs.record.good_subset hmem
    rw [hdrives]
    exact h.1.1

end command

end DriveTest
