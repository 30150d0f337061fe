import Disks.Test.DriveTest
import Disks.Test.Proof.Procutils

/-!
# What a test says of the drives

* `Options.script`: the commands of a test, in their order.
* `Marks`: what stands on the drives, and what the server was told.
* `choose_does`, `tests_does`, `finish_does`: the parts of the program.
* `test_safe`: **at any moment of a test, commands run on drives that may be tested and have not
  failed, and on each device one at a time; the lights come behind the commands.**
* `test_verdicts`: **a drive that is told to be good has passed each command.**
* `skip_refines`: the drives that are skipped are those of the model of the lists.
-/

namespace DriveTest

open DiskTest Effect
open Manager (Text Name)

/-! ## The commands of a test -/

def given (condition : Bool) (commands : List Command) : List Command :=
  if condition then commands else []

namespace Options

variable (options : Options)

def rounds : List Command :=
  given (!options.no_conveyancetest) [CONVEYANCETEST_CMD] ++
    (given (options.round1 > 0) [round options options.round1] ++
      (given (options.rdelay > 0) [SUSPEND_CMD, WAKE_CMD] ++
        (given (options.round2 > 0) [round options options.round2] ++
          given (options.pdelay > 0) [SUSPEND_CMD, WAKE_CMD])))

def filesystems : List Command :=
  [FDISK_CMD, MKFS_CMD, MK_MOUNT_POINT_CMD, MOUNT_CMD] ++
    ([BONNIE_CMD options.bonnie] ++
      ([UNMOUNT_CMD, FSCK_CMD] ++ given (options.bdelay > 0) [SUSPEND_CMD, WAKE_CMD]))

def wipe : List Command := [WIPE_CMD] ++ given (options.wdelay > 0) [SUSPEND_CMD, WAKE_CMD]

/-- The commands, in the order in which they are run. -/
def script : List Command :=
  options.rounds ++
    (given (options.destructive && options.bonnie ≠ "0") options.filesystems ++
      (given (options.destructive && !options.no_wipe) options.wipe ++
        (given (options.destructive && options.no_wipe) [CLRPARTTABLE_CMD] ++
          (given (!options.no_selftest)
              [if options.short_selftest then SHORTSELFTEST_CMD else SELFTEST_CMD] ++
            given (options.fdelay > 0) [SUSPEND_CMD, WAKE_CMD]))))

/-- Results are written to the drives. -/
def saves : Bool := options.destructive && !options.no_saveresults

/-- The lights of the good drives are turned on. -/
def lights : Bool := !options.no_lightup

end Options

/-- A drive that may be tested. -/
def Fit (options : Options) (machine : Machine) (drive : TestDrive) : Prop :=
  (∀ mount_list, mountList machine.mtab = some mount_list →
    UnThrashable machine mount_list drive = false) ∧
    (options.no_partition_check = false → Partitioned machine drive = false)

/-! ## What stands on the drives -/

/-- What was written, shown and told: `saved`, `lit`, `marked` and `stored` are the drives that it
is done for. -/
structure Marks (saved lit marked stored : List TestDrive) (m : DriveManager)
    (trace : List Event) : Prop where
  failed : ∀ drive, .saved drive false ∈ trace → drive ∈ Assoc.keys m.bad_reasons
  passed : ∀ drive, .saved drive true ∈ trace → drive ∈ m.good_list ∧ drive ∈ saved
  saved : ∀ drive ∈ saved, drive ∈ m.good_list → drive.block_path.isSome →
    .saved drive true ∈ trace
  lights : ∀ drive, .lit drive ∈ trace → drive ∈ lit
  thrashed : ∀ drive, .thrashed drive ∈ trace → drive ∈ marked ∨
    drive ∈ Assoc.keys m.skip_reasons ∧ NO_THRASH_MODELS.contains drive.model
  marked : ∀ drive ∈ marked, .thrashed drive ∈ trace
  told : ∀ drive, .stored drive ∈ trace → drive ∈ stored
  stored : ∀ drive ∈ stored, drive ∈ m.good_list → .stored drive ∈ trace

theorem mem_keys_set {β : Type} {d : Assoc.Dict TestDrive β} {k drive : TestDrive} (b : β)
    (h : drive ∈ Assoc.keys d) : drive ∈ Assoc.keys (Assoc.set d k b) := by
  rw [Assoc.keys_set]
  by_cases hk : k ∈ Assoc.keys d
  · rwa [if_pos hk]
  · rw [if_neg hk]
    exact List.mem_append_left _ h

section prune

variable {m : DriveManager} {drive : TestDrive} {reason : String} {report skip : Bool}

theorem mem_skip_prune {other : TestDrive} (h : other ∈ Assoc.keys m.skip_reasons) :
    other ∈ Assoc.keys (m.prune drive reason report skip).skip_reasons := by
  rw [prune_skip_reasons]
  cases skip with
  | true => exact mem_keys_set reason h
  | false => exact h

theorem mem_bad_prune {other : TestDrive} (h : other ∈ Assoc.keys m.bad_reasons) :
    other ∈ Assoc.keys (m.prune drive reason report skip).bad_reasons := by
  rw [prune_bad_reasons]
  cases skip with
  | true => exact h
  | false => exact mem_keys_set reason h

end prune

theorem mem_concat_ne {trace : List Event} {x y : Event} (h : x ∈ trace ++ [y]) (hne : x ≠ y) :
    x ∈ trace :=
  (List.mem_append.mp h).resolve_right fun h => hne (List.mem_singleton.mp h)

/-- A drive that was not marked is put aside. -/
theorem Marks.prune {saved : List TestDrive} {m : DriveManager} {trace : List Event}
    {drive : TestDrive} (h : Marks saved [] [] [] m trace) (hnodup : m.good_list.Nodup)
    (hsaved : drive ∉ saved) (reason : String) (report skip : Bool) :
    Marks saved [] [] [] (m.prune drive reason report skip)
      (trace ++ [.pruned drive reason skip]) where
  failed other hmem := mem_bad_prune (h.failed other (mem_concat_ne hmem Event.noConfusion))
  passed other hmem := by
    obtain ⟨hgood, hother⟩ := h.passed other (mem_concat_ne hmem Event.noConfusion)
    rw [prune_good_list, hnodup.mem_erase_iff]
    exact ⟨⟨fun heq => hsaved (heq ▸ hother), hgood⟩, hother⟩
  saved other hother hgood hpath := by
    rw [prune_good_list] at hgood
    exact List.mem_append_left _ (h.saved other hother (List.mem_of_mem_erase hgood) hpath)
  lights other hmem := h.lights other (mem_concat_ne hmem Event.noConfusion)
  thrashed other hmem :=
    (h.thrashed other (mem_concat_ne hmem Event.noConfusion)).imp_right
      fun hskip => ⟨mem_skip_prune hskip.1, hskip.2⟩
  marked other hother := absurd hother List.not_mem_nil
  told other hmem := h.told other (mem_concat_ne hmem Event.noConfusion)
  stored other hother := absurd hother List.not_mem_nil

/-- The event is a mark on a drive. -/
def Event.IsMark : Event → Prop
  | .saved .. => True
  | .lit _ => True
  | .thrashed _ => True
  | .stored _ => True
  | _ => False

theorem Event.OfCommand.not_isMark {event : Event} (h : event.OfCommand) : ¬ event.IsMark := by
  cases event with
  | started | returned | terminated | killed => exact id
  | pruned | saved | lit | dark | thrashed | stored => exact absurd h id

/-- Something that is seen and is no mark. -/
theorem Marks.seen {saved lit marked stored : List TestDrive} {m : DriveManager}
    {trace : List Event} {event : Event} (h : Marks saved lit marked stored m trace)
    (hevent : ¬ event.IsMark) : Marks saved lit marked stored m (trace ++ [event]) := by
  have hmem (x : Event) (hx : x.IsMark) (h : x ∈ trace ++ [event]) : x ∈ trace :=
    mem_concat_ne h fun heq => hevent (heq ▸ hx)
  refine ⟨?_, ?_, ?_, ?_, ?_, ?_, ?_, ?_⟩
  · exact fun drive hdrive => h.failed drive (hmem _ trivial hdrive)
  · exact fun drive hdrive => h.passed drive (hmem _ trivial hdrive)
  · exact fun drive hdrive hgood hpath => List.mem_append_left _ (h.saved drive hdrive hgood hpath)
  · exact fun drive hdrive => h.lights drive (hmem _ trivial hdrive)
  · exact fun drive hdrive => h.thrashed drive (hmem _ trivial hdrive)
  · exact fun drive hdrive => List.mem_append_left _ (h.marked drive hdrive)
  · exact fun drive hdrive => h.told drive (hmem _ trivial hdrive)
  · exact fun drive hdrive hgood => List.mem_append_left _ (h.stored drive hdrive hgood)

theorem Marks.lasting : Lasting (Marks [] [] [] []) where
  dark h drive hdrive := absurd (h.lights drive hdrive) List.not_mem_nil
  seen hevent h := h.seen hevent.not_isMark
  aside reason report skip hnodup h := h.prune hnodup List.not_mem_nil reason report skip

/-! ## The loops over the drives -/

variable {σ : Type} {setting : Setting} {fit holds : TestDrive → Prop} {marks : Assertion}
  {passed : List Command} {good : List TestDrive} {drive : TestDrive} (host : Host σ)

/-- Behind the turn for a drive of `good`: no other drive is put aside, and this one is or has the
property. -/
structure Turned (setting : Setting) (fit holds : TestDrive → Prop) (marks : Assertion)
    (passed : List Command) (good : List TestDrive) (drive : TestDrive) (m : DriveManager)
    (trace : List Event) : Prop where
  stage : Stage setting fit marks passed m trace
  others : ∀ other ∈ good, other ≠ drive → other ∈ m.good_list
  subset : m.good_list ⊆ good
  holds : drive ∈ m.good_list → holds drive

/-- A turn for a drive of `good`. -/
def Turns (setting : Setting) (fit holds : TestDrive → Prop) (marks : Assertion)
    (passed : List Command) (drive : TestDrive) (turn : Test σ Unit) : Prop :=
  ∀ good, Does setting
    (fun m trace => Stage setting fit marks passed m trace ∧ m.good_list = good ∧ drive ∈ good)
    turn fun _ => Turned setting fit holds marks passed good drive

theorem Turned.stay {m : DriveManager} {trace : List Event} (hholds : holds drive)
    (h : Stage setting fit marks passed m trace ∧ m.good_list = good ∧ drive ∈ good) :
    Turned setting fit holds marks passed good drive m trace :=
  ⟨h.1, fun _ hother _ => h.2.1 ▸ hother, fun _ hother => h.2.1 ▸ hother, fun _ => hholds⟩

theorem Turned.prune {m : DriveManager} {trace : List Event} (hmarks : Lasting marks)
    (h : Stage setting fit marks passed m trace ∧ m.good_list = good ∧ drive ∈ good)
    (reason : String) (report skip : Bool) :
    Turned setting fit holds marks passed good drive (m.prune drive reason report skip)
      (trace ++ [.pruned drive reason skip]) := by
  obtain ⟨hstage, rfl, hdrive⟩ := h
  have hnodup := hstage.record.good_nodup
  refine ⟨⟨hstage.record.prune hdrive (fun other heq => by cases heq) reason report skip,
    hmarks.aside reason report skip hnodup hstage.marks⟩, ?_, ?_, ?_⟩
  · intro other hother hne
    rw [prune_good_list]
    exact hnodup.mem_erase_iff.mpr ⟨hne, hother⟩
  · rw [prune_good_list]
    exact fun other hother => List.erase_subset hother
  · rw [prune_good_list]
    exact fun hmem => absurd rfl (hnodup.mem_erase_iff.mp hmem).1

/-- The drive is put aside. -/
theorem prune_turns (hmarks : Lasting marks) {reason : String} {report skip : Bool} :
    Turns setting fit holds marks passed drive (host.prune drive reason report skip) :=
  fun _ => does_prune host (fun _ _ h => Turned.prune hmarks h reason report skip)
    fun _ _ h => h.stage.record.safe

theorem pure_turns (hholds : holds drive) :
    Turns setting fit holds marks passed drive (pure () : Test σ Unit) :=
  fun _ => Does.pure fun _ _ h => Turned.stay hholds h

/-- The drive is put aside under a condition; else it has the property. -/
theorem whenever_turns {condition : Bool} {turn : Test σ Unit}
    (hturn : Turns setting fit holds marks passed drive turn)
    (hholds : condition = false → holds drive) :
    Turns setting fit holds marks passed drive (whenever condition turn) :=
  fun good => does_whenever (fun _ => hturn good) fun hcondition _ _ h =>
    Turned.stay (hholds hcondition) h

/-- Something is asked first. -/
theorem call_turns {α : Type} (m : EStateM Unit σ α) {turn : α → Test σ Unit}
    (hturn : ∀ a, Turns setting fit holds marks passed drive (turn a)) :
    Turns setting fit holds marks passed drive (call m >>= turn) :=
  fun good => (does_call (fun _ _ h => h.1.record.safe) m).bind fun a => hturn a good

/-- **A loop over the good drives.** -/
theorem forEach_does {turn : TestDrive → Test σ Unit}
    (hturn : ∀ drive, Turns setting fit holds marks passed drive (turn drive)) :
    Does setting (Stage setting fit marks passed)
      (MonadState.get >>= fun s => s.manager.good_list.forM turn)
      fun _ => Stage setting (fun drive => fit drive ∧ holds drive) marks passed := by
  refine Does.get fun s hs => ?_
  -- the drives that the loop has not come to are as they were
  have hloop : Does setting
      (fun m trace => Stage setting fit marks passed m trace ∧
        (∀ drive ∈ s.manager.good_list, drive ∉ [] → drive ∈ m.good_list) ∧
        m.good_list ⊆ s.manager.good_list ∧ ∀ drive ∈ [], drive ∈ m.good_list → holds drive)
      (s.manager.good_list.forM turn)
      fun _ m trace => Stage setting fit marks passed m trace ∧
        (∀ drive ∈ s.manager.good_list, drive ∉ s.manager.good_list → drive ∈ m.good_list) ∧
        m.good_list ⊆ s.manager.good_list ∧
        ∀ drive ∈ s.manager.good_list, drive ∈ m.good_list → holds drive := by
    refine Does.forM (I := fun front m trace => Stage setting fit marks passed m trace ∧
      (∀ drive ∈ s.manager.good_list, drive ∉ front → drive ∈ m.good_list) ∧
      m.good_list ⊆ s.manager.good_list ∧ ∀ drive ∈ front, drive ∈ m.good_list → holds drive)
      fun front drive rest hl s' hs' => ?_
    have hnodup := hs.record.good_nodup
    rw [hl] at hnodup
    have hnew : drive ∉ front := fun hmem =>
      (List.nodup_append.mp hnodup).2.2 drive hmem drive List.mem_cons_self rfl
    have hmem : drive ∈ s.manager.good_list := by simp [hl]
    obtain ⟨hstage, htodo, hsubset, hfront⟩ := hs'
    have h := hturn drive s'.manager.good_list s' ⟨hstage, rfl, htodo drive hmem hnew⟩
    refine ⟨fun a s'' hok => ?_, h.2⟩
    obtain ⟨hstage', hothers, hsub, hholds⟩ := h.1 a s'' hok
    refine ⟨hstage', ?_, fun other hother => hsubset (hsub hother), ?_⟩
    · intro other hother hfar
      rw [List.mem_append, List.mem_singleton, not_or] at hfar
      exact hothers other (htodo other hother hfar.1) hfar.2
    · intro other hother hgood
      rcases List.mem_append.mp hother with hother | hother
      · exact hfront other hother (hsub hgood)
      · rw [List.mem_singleton] at hother
        subst hother
        exact hholds hgood
  refine (hloop.pre ?_).post ?_
  · rintro m trace ⟨hstage, rfl⟩
    exact ⟨hstage, fun drive hdrive _ => hdrive, fun _ h => h, fun drive hdrive => by cases hdrive⟩
  · rintro - m trace ⟨hstage, -, hsubset, hholds⟩
    exact ⟨{ hstage.record with
      fit := fun drive hdrive =>
        ⟨hstage.record.fit drive hdrive, hholds drive (hsubset hdrive) hdrive⟩ }, hstage.marks⟩

/-- A drive may have less to it. -/
theorem Stage.weaken {m : DriveManager} {trace : List Event} {fit' : TestDrive → Prop}
    (h : Stage setting fit marks passed m trace) (hfit : ∀ drive, fit drive → fit' drive) :
    Stage setting fit' marks passed m trace :=
  ⟨{ h.record with fit := fun drive hdrive => hfit drive (h.record.fit drive hdrive) }, h.marks⟩

/-- A loop over the good drives that finds out nothing about them. -/
theorem forEach_keeps {turn : TestDrive → Test σ Unit}
    (hturn : ∀ drive, Turns setting fit (fun _ => True) marks passed drive (turn drive)) :
    Does setting (Stage setting fit marks passed)
      (MonadState.get >>= fun s => s.manager.good_list.forM turn)
      fun _ => Stage setting fit marks passed :=
  (forEach_does hturn).post fun _ _ _ h => h.weaken fun _ hfit => hfit.1

theorem judge_turns (hmarks : Lasting marks) (verdict : Verdict) :
    Turns setting fit (fun _ => True) marks passed drive (host.judge drive verdict) := by
  cases verdict with
  | kept => exact pure_turns trivial
  | pruned reason report => exact prune_turns host hmarks
  | keyError drive_type => exact fun _ => Does.throw fun _ _ h => h.1.record.safe

theorem evaluateAll_does (hmarks : Lasting marks) (operation : String) :
    Does setting (Stage setting fit marks passed) (host.evaluateAll operation)
      fun _ => Stage setting fit marks passed :=
  forEach_keeps fun _ => call_turns _ fun verdict => judge_turns host hmarks verdict

/-! ## The drives that are tested -/

/-- A drive is marked: it was skipped for its model, or belongs to those that are. -/
theorem Marks.mark {saved lit marked marked' stored : List TestDrive} {m : DriveManager}
    {trace : List Event} (h : Marks saved lit marked stored m trace) (hkeep : marked ⊆ marked')
    (honly : marked' ⊆ marked ++ [drive])
    (hdrive : drive ∈ marked' ∨
      drive ∈ Assoc.keys m.skip_reasons ∧ NO_THRASH_MODELS.contains drive.model)
    (thrashed : List TestDrive) :
    Marks saved lit marked' stored { m with thrashed } (trace ++ [.thrashed drive]) where
  failed other hmem := h.failed other (mem_concat_ne hmem Event.noConfusion)
  passed other hmem := h.passed other (mem_concat_ne hmem Event.noConfusion)
  saved other hother hgood hpath := List.mem_append_left _ (h.saved other hother hgood hpath)
  lights other hmem := h.lights other (mem_concat_ne hmem Event.noConfusion)
  thrashed other hmem := by
    rcases List.mem_append.mp hmem with hmem | hmem
    · exact (h.thrashed other hmem).imp_left fun hmarked => hkeep hmarked
    · cases List.mem_singleton.mp hmem
      exact hdrive
  marked other hother := by
    rcases List.mem_append.mp (honly hother) with hmarked | heq
    · exact List.mem_append_left _ (h.marked other hmarked)
    · rw [List.mem_singleton.mp heq]
      exact List.mem_append_right _ (List.mem_singleton_self _)
  told other hmem := h.told other (mem_concat_ne hmem Event.noConfusion)
  stored other hother hgood := List.mem_append_left _ (h.stored other hother hgood)

theorem Record.mark {procs : List TestDrive} {m : DriveManager} {trace : List Event}
    (h : Record setting fit passed procs none m trace) (thrashed : List TestDrive) :
    Record setting fit passed (Event.run procs (.thrashed drive)) none { m with thrashed }
      (trace ++ [.thrashed drive]) := by
  have hnote : Record setting fit passed (Event.run procs (.thrashed drive)) none m
      (trace ++ [.thrashed drive]) := h.note trivial (fun _ heq => heq) fun _ _ _ => id
  exact ⟨hnote.safe, hnote.procs, hnote.perm, hnote.aside, hnote.fit, hnote.clean, hnote.passed⟩

theorem mark_does {P Q : Assertion} (hP : Assures setting P)
    (h : ∀ m trace, P m trace →
      Q { m with thrashed := m.thrashed ++ [drive] } (trace ++ [.thrashed drive])) :
    Does setting P (host.mark drive) fun _ => Q :=
  (does_call hP _).bind fun _ => Triple.modify fun s hs => h s.manager s.trace hs

/-- The drives that may not be tested are skipped. -/
theorem unThrashable_turns (machine : Machine) (mount_list : List Text) :
    Turns setting fit (fun drive => UnThrashable machine mount_list drive = false)
      (Marks [] [] [] []) passed drive (host.unThrashable machine mount_list drive) := by
  unfold Host.unThrashable
  by_cases hremovable : drive.block_name.any machine.isRemovable = true
  · rw [if_pos hremovable]
    exact prune_turns host Marks.lasting
  by_cases hmounted : drive.block_path.any mount_list.contains = true
  · rw [if_neg hremovable, if_pos hmounted]
    exact prune_turns host Marks.lasting
  by_cases hmodel : NO_THRASH_MODELS.contains drive.model = true
  · rw [if_neg hremovable, if_neg hmounted, if_pos hmodel]
    intro good
    have hpruned : Does setting
        (fun m trace => Stage setting fit (Marks [] [] [] []) passed m trace ∧ m.good_list = good ∧
          drive ∈ good)
        (host.prune drive "No Thrash Disk" false true)
        fun _ m trace => Turned setting fit
            (fun drive => UnThrashable machine mount_list drive = false)
            (Marks [] [] [] []) passed good drive m trace ∧ drive ∈ Assoc.keys m.skip_reasons := by
      refine does_prune host (fun m trace h => ⟨Turned.prune Marks.lasting h _ _ _, ?_⟩)
        fun _ _ h => h.1.stage.record.safe
      rw [prune_skip_reasons, if_pos rfl, Assoc.keys_set]
      by_cases hmem : drive ∈ Assoc.keys m.skip_reasons <;> simp [hmem]
    refine hpruned.bind fun _ => mark_does host (fun _ _ h => h.1.stage.record.safe) ?_
    rintro m trace ⟨h, hskip⟩
    exact ⟨⟨h.stage.record.mark _, h.stage.marks.mark (fun _ hother => hother) (by simp)
      (.inr ⟨hskip, hmodel⟩) _⟩, h.others, h.subset, h.holds⟩
  by_cases hvirtual : drive.isVirtualDisk = true
  · rw [if_neg hremovable, if_neg hmounted, if_neg hmodel, if_pos hvirtual]
    exact prune_turns host Marks.lasting
  · rw [if_neg hremovable, if_neg hmounted, if_neg hmodel, if_neg hvirtual]
    refine pure_turns ?_
    unfold UnThrashable
    rw [Bool.or_eq_false_iff, Bool.or_eq_false_iff, Bool.or_eq_false_iff]
    exact ⟨⟨⟨by simpa using hremovable, by simpa using hmounted⟩, by simpa using hmodel⟩,
      by simpa using hvirtual⟩

theorem skipUnThrashable_does (machine : Machine) :
    Does setting (Stage setting fit (Marks [] [] [] []) passed) (host.skipUnThrashable machine)
      fun _ => Stage setting (fun drive => fit drive ∧
        ∀ mount_list, mountList machine.mtab = some mount_list →
          UnThrashable machine mount_list drive = false) (Marks [] [] [] []) passed := by
  unfold Host.skipUnThrashable
  cases hmount : mountList machine.mtab with
  | none => exact Does.throw Stage.assures
  | some mount_list =>
    refine (forEach_does fun drive => unThrashable_turns host machine mount_list).post
      fun _ m trace h => h.weaken fun drive hfit => ⟨hfit.1, fun other heq => ?_⟩
    cases heq
    exact hfit.2

theorem skipWithFilesystems_does (hmarks : Lasting marks) (machine : Machine) :
    Does setting (Stage setting fit marks passed) (host.skipWithFilesystems machine)
      fun _ => Stage setting (fun drive => fit drive ∧ Partitioned machine drive = false) marks
        passed :=
  forEach_does fun _ => whenever_turns (prune_turns host hmarks) fun h => h

/-- **The drives are sorted out**: those that are left may be tested. -/
theorem choose_does (options : Options) (machine : Machine) :
    Does setting (Stage setting (fun _ => True) (Marks [] [] [] []) passed)
      (host.choose options machine)
      fun _ => Stage setting (Fit options machine) (Marks [] [] [] []) passed := by
  have hdead : Does setting (Stage setting (fun _ => True) (Marks [] [] [] []) passed)
      host.pruneAllreadyDead fun _ => Stage setting (fun _ => True) (Marks [] [] [] []) passed :=
    forEach_keeps fun _ => call_turns _ fun _ =>
      whenever_turns (prune_turns host Marks.lasting) fun _ => trivial
  have hthrashed : Does setting (Stage setting (fun _ => True) (Marks [] [] [] []) passed)
      host.skipAllreadyThrashed fun _ => Stage setting (fun _ => True) (Marks [] [] [] []) passed :=
    forEach_keeps fun _ => call_turns _ fun _ =>
      whenever_turns (prune_turns host Marks.lasting) fun _ => trivial
  refine hdead.bind fun _ => (does_whenever (fun _ => hthrashed) fun _ _ _ h => h).bind fun _ =>
    (does_call Stage.assures _).bind fun _ => (evaluateAll_does host Marks.lasting _).bind fun _ =>
    (skipUnThrashable_does host machine).bind fun _ => ?_
  refine does_whenever (fun _ => ?_) fun hcheck m trace h => h.weaken fun drive hfit => ?_
  · exact (skipWithFilesystems_does host Marks.lasting machine).post fun _ m trace h =>
      h.weaken fun drive hfit => ⟨hfit.1.2, fun _ => hfit.2⟩
  · exact ⟨hfit.2, fun hno => by simp [hno] at hcheck⟩

/-! ## The tests -/

section tests

variable {commands : List Command} {cmd : Command} {test : Test σ Unit} {condition : Bool}
  (hmarks : Lasting marks) (hfit : ∀ drive, fit drive → setting.fit drive)

/-- Without good drives any command has been run on all of them. -/
theorem Stage.empty {m : DriveManager} {trace : List Event}
    (h : Stage setting fit marks passed m trace) (commands : List Command)
    (hempty : m.good_list = []) :
    Stage setting fit marks (passed ++ commands) m trace :=
  ⟨{ h.record with
    passed := fun _ _ drive hdrive => by rw [hempty] at hdrive; cases hdrive }, h.marks⟩

theorem noDrives_does : Does setting (Stage setting fit marks passed) (noDrives : Test σ Bool)
    fun none m trace => Stage setting fit marks passed m trace ∧
      (none = true → m.good_list = []) := by
  refine Does.get fun s _ => Does.pure fun m trace h => ⟨h.1, fun hempty => ?_⟩
  rw [h.2]
  simpa [DriveManager.working_list] using hempty

/-- Tests that an option asks for. -/
theorem whenever_does (hcommands : given condition commands ⊆ setting.commands)
    (htest : commands ⊆ setting.commands → Does setting (Stage setting fit marks passed) test
      fun _ => Stage setting fit marks (passed ++ commands)) :
    Does setting (Stage setting fit marks passed) (whenever condition test)
      fun _ => Stage setting fit marks (passed ++ given condition commands) := by
  cases condition with
  | true => exact htest hcommands
  | false => exact Does.pure fun m trace h => by simpa [given] using h

/-- A cooldown, which is left out without good drives. -/
theorem cooldown_does {delay : Int} (hcommands : given (delay > 0) commands ⊆ setting.commands)
    (htest : commands ⊆ setting.commands → Does setting (Stage setting fit marks passed) test
      fun _ => Stage setting fit marks (passed ++ commands)) :
    Does setting (Stage setting fit marks passed) (cooldown delay test)
      fun _ => Stage setting fit marks (passed ++ given (delay > 0) commands) := by
  refine noDrives_does.bind fun none => does_whenever (fun hgo => ?_) fun hskip m trace h => ?_
  · have hdelay : decide (delay > 0) = true := (Bool.and_eq_true_iff.mp hgo).1
    rw [hdelay] at hcommands ⊢
    exact (htest hcommands).pre fun _ _ h => h.1
  · by_cases hdelay : delay > 0
    · exact h.1.empty _ (h.2 (by simpa [hdelay] using hskip))
    · simpa [given, hdelay] using h.1

include hmarks in
theorem phase_does
    (htest : Does setting (Stage setting fit marks passed) test
      fun _ => Stage setting fit marks (passed ++ commands)) (msg operation : String) :
    Does setting (Stage setting fit marks passed) (host.phase msg test operation)
      fun _ => Stage setting fit marks (passed ++ commands) :=
  (does_call Stage.assures _).bind fun _ => htest.bind fun _ =>
    evaluateAll_does host hmarks operation

include hmarks hfit

theorem runTest_does (hcmd : cmd ∈ setting.commands) (maxTime : Int) :
    Does setting (Stage setting fit marks passed) (host.runTest cmd maxTime)
      fun _ => Stage setting fit marks (passed ++ [cmd]) :=
  (runOnEachDriveWait_does host hmarks hfit hcmd maxTime).bind fun _ => Does.pure fun _ _ h => h

theorem doSpinDownSleep_does (hcommands : [SUSPEND_CMD, WAKE_CMD] ⊆ setting.commands)
    (delay : Int) :
    Does setting (Stage setting fit marks passed) (host.doSpinDownSleep delay)
      fun _ => Stage setting fit marks (passed ++ [SUSPEND_CMD, WAKE_CMD]) := by
  refine (runOnEachDrive_does host hmarks hfit (hcommands (by simp)) none).bind fun _ =>
    noDrives_does.bind fun none => Does.ite (fun hnone => Does.pure fun m trace h => ?_)
      fun _ => ((does_sleep host _).pre fun _ _ h => h.1).bind fun _ =>
        (runOnEachDrive_does host hmarks hfit (hcommands (by simp)) Option.none).bind fun _ =>
          (does_sleep host _).post fun _ m trace h => ?_
  · simpa using h.1.empty [WAKE_CMD] (h.2 hnone)
  · simpa using h

theorem doPartitionFormatMount_does
    (hcommands : [FDISK_CMD, MKFS_CMD, MK_MOUNT_POINT_CMD, MOUNT_CMD] ⊆ setting.commands)
    (maxTime : Int) :
    Does setting (Stage setting fit marks passed) (host.doPartitionFormatMount maxTime)
      fun _ => Stage setting fit marks
        (passed ++ [FDISK_CMD, MKFS_CMD, MK_MOUNT_POINT_CMD, MOUNT_CMD]) := by
  refine (runOnEachDrive_does host hmarks hfit (hcommands (by simp)) _).bind fun _ =>
    noDrives_does.bind fun none => Does.ite (fun hnone => Does.pure fun m trace h => ?_)
      fun _ => ((does_sleep host _).pre fun _ _ h => h.1).bind fun _ =>
        (runTest_does host hmarks hfit (hcommands (by simp)) maxTime).bind fun _ =>
          (runOnEachDrive_does host hmarks hfit (hcommands (by simp)) _).bind fun _ =>
            (runOnEachDrive_does host hmarks hfit (hcommands (by simp)) _).post
              fun _ m trace h => ?_
  · simpa using h.1.empty [MKFS_CMD, MK_MOUNT_POINT_CMD, MOUNT_CMD] (h.2 hnone)
  · simpa using h

theorem doUnmountCheckFilesystem_does (hcommands : [UNMOUNT_CMD, FSCK_CMD] ⊆ setting.commands)
    (maxTime : Int) :
    Does setting (Stage setting fit marks passed) (host.doUnmountCheckFilesystem maxTime)
      fun _ => Stage setting fit marks (passed ++ [UNMOUNT_CMD, FSCK_CMD]) := by
  refine (runOnEachDrive_does host hmarks hfit (hcommands (by simp)) _).bind fun _ =>
    (runTest_does host hmarks hfit (hcommands (by simp)) maxTime).post fun _ m trace h => ?_
  simpa using h

/-! ## The parts of a test -/

theorem rounds_does (options : Options) (hcommands : options.rounds ⊆ setting.commands) :
    Does setting (Stage setting fit marks passed) (host.rounds options)
      fun _ => Stage setting fit marks (passed ++ options.rounds) := by
  obtain ⟨hconveyance, hrest⟩ := List.append_subset.mp hcommands
  obtain ⟨hround1, hrest⟩ := List.append_subset.mp hrest
  obtain ⟨hrdelay, hrest⟩ := List.append_subset.mp hrest
  obtain ⟨hround2, hpdelay⟩ := List.append_subset.mp hrest
  refine (whenever_does hconveyance fun h =>
    phase_does host hmarks (runTest_does host hmarks hfit (h (by simp)) _) _ _).bind fun _ =>
    (whenever_does hround1 fun h =>
      phase_does host hmarks (runTest_does host hmarks hfit (h (by simp)) _) _ _).bind fun _ =>
    (cooldown_does hrdelay fun h =>
      phase_does host hmarks (doSpinDownSleep_does host hmarks hfit h _) _ _).bind fun _ =>
    (whenever_does hround2 fun h =>
      phase_does host hmarks (runTest_does host hmarks hfit (h (by simp)) _) _ _).bind fun _ =>
    (cooldown_does hpdelay fun h =>
      phase_does host hmarks (doSpinDownSleep_does host hmarks hfit h _) _ _).post
      fun _ m trace h => ?_
  simpa [Options.rounds] using h

theorem filesystems_does (options : Options) (hcommands : options.filesystems ⊆ setting.commands) :
    Does setting (Stage setting fit marks passed) (host.filesystems options)
      fun _ => Stage setting fit marks (passed ++ options.filesystems) := by
  obtain ⟨hformat, hrest⟩ := List.append_subset.mp hcommands
  obtain ⟨hbonnie, hrest⟩ := List.append_subset.mp hrest
  obtain ⟨hcheck, hbdelay⟩ := List.append_subset.mp hrest
  refine (phase_does host hmarks (doPartitionFormatMount_does host hmarks hfit hformat _) _ _).bind
    fun _ =>
    (phase_does host hmarks (runTest_does host hmarks hfit (hbonnie (by simp)) _) _ _).bind fun _ =>
    (phase_does host hmarks (doUnmountCheckFilesystem_does host hmarks hfit hcheck _) _ _).bind
      fun _ =>
    (whenever_does hbdelay fun h =>
      phase_does host hmarks (doSpinDownSleep_does host hmarks hfit h _) _ _).post
      fun _ m trace h => ?_
  simpa [Options.filesystems] using h

theorem wipe_does (options : Options) (hcommands : options.wipe ⊆ setting.commands) :
    Does setting (Stage setting fit marks passed) (host.wipe options)
      fun _ => Stage setting fit marks (passed ++ options.wipe) := by
  obtain ⟨hwipe, hwdelay⟩ := List.append_subset.mp hcommands
  refine (phase_does host hmarks (runTest_does host hmarks hfit (hwipe (by simp)) _) _ _).bind
    fun _ =>
    (cooldown_does hwdelay fun h =>
      phase_does host hmarks (doSpinDownSleep_does host hmarks hfit h _) _ _).post
      fun _ m trace h => ?_
  simpa [Options.wipe] using h

/-- **The tests run their script.** -/
theorem tests_does (options : Options) (hcommands : options.script ⊆ setting.commands) :
    Does setting (Stage setting fit marks passed) (host.tests options)
      fun _ => Stage setting fit marks (passed ++ options.script) := by
  obtain ⟨hrounds, hrest⟩ := List.append_subset.mp hcommands
  obtain ⟨hfilesystems, hrest⟩ := List.append_subset.mp hrest
  obtain ⟨hwipe, hrest⟩ := List.append_subset.mp hrest
  obtain ⟨hclear, hrest⟩ := List.append_subset.mp hrest
  obtain ⟨hselftest, hfdelay⟩ := List.append_subset.mp hrest
  refine (rounds_does host hmarks hfit options hrounds).bind fun _ =>
    (whenever_does hfilesystems fun h => filesystems_does host hmarks hfit options h).bind fun _ =>
    (whenever_does hwipe fun h => wipe_does host hmarks hfit options h).bind fun _ =>
    (whenever_does hclear fun h =>
      phase_does host hmarks (runTest_does host hmarks hfit (h (by simp)) _) _ _).bind fun _ =>
    (whenever_does hselftest fun h =>
      phase_does host hmarks (runTest_does host hmarks hfit (h (by simp)) _) _ _).bind fun _ =>
    (cooldown_does hfdelay fun h => (does_call Stage.assures _).bind fun _ =>
      doSpinDownSleep_does host hmarks hfit h _).post fun _ m trace h => ?_
  simpa [Options.script] using h

end tests

/-! ## The results -/

section finish

variable {α : Type} {saved lit marked stored : List TestDrive} {m : DriveManager}
  {trace : List Event}

theorem attempt_does {P : Assertion} (m : EStateM String σ Unit) :
    Does setting P (attempt m : Test σ (Option String)) fun _ => P := by
  intro s hs
  unfold attempt
  cases m s.world with
  | ok a world => exact ⟨fun _ _ h => (by cases h; exact hs), fun _ _ h => by cases h⟩
  | error e world => exact ⟨fun _ _ h => (by cases h; exact hs), fun _ _ h => by cases h⟩

/-- A result is written. -/
theorem Record.save {pass : Bool} (h : Record setting fit passed [] none m trace)
    (hsaves : setting.saves) :
    Record setting fit passed [] none m (trace ++ [.saved drive pass]) where
  safe := by
    refine h.safe.concat ?_ (fun _ heq => by cases heq) ?_ hsaves
    · rw [h.procs]
      exact List.nodup_nil
    · intro earlier _ hlate
      rcases hlate.begins with ⟨_, _, heq⟩ | ⟨_, heq⟩ <;> cases heq
  procs := by simp [Event.run, h.procs]
  perm := h.perm
  aside other reason skip hmem :=
    h.aside other reason skip (mem_concat_ne hmem Event.noConfusion)
  fit := h.fit
  clean other hother hne := (h.clean other hother hne).concat id
  passed cmd hcmd other hother hne hfor :=
    List.mem_append_left _ (h.passed cmd hcmd other hother hne hfor)

/-- `FAIL` on a bad drive. -/
theorem Marks.fail (h : Marks saved lit marked stored m trace)
    (hdrive : drive ∈ Assoc.keys m.bad_reasons) :
    Marks saved lit marked stored m (trace ++ [.saved drive false]) where
  failed other hmem := by
    rcases List.mem_append.mp hmem with hmem | hmem
    · exact h.failed other hmem
    · cases List.mem_singleton.mp hmem
      exact hdrive
  passed other hmem := h.passed other (mem_concat_ne hmem (by simp))
  saved other hother hgood hpath := List.mem_append_left _ (h.saved other hother hgood hpath)
  lights other hmem := h.lights other (mem_concat_ne hmem Event.noConfusion)
  thrashed other hmem := h.thrashed other (mem_concat_ne hmem Event.noConfusion)
  marked other hother := List.mem_append_left _ (h.marked other hother)
  told other hmem := h.told other (mem_concat_ne hmem Event.noConfusion)
  stored other hother hgood := List.mem_append_left _ (h.stored other hother hgood)

/-- A drive that nothing is to be written to. -/
theorem Marks.pass_over (h : Marks saved lit marked stored m trace)
    (hdrive : drive ∈ m.good_list → drive.block_path = none) :
    Marks (saved ++ [drive]) lit marked stored m trace :=
  { h with
    passed := fun other hmem =>
      ⟨(h.passed other hmem).1, List.mem_append_left _ (h.passed other hmem).2⟩
    saved := fun other hother hgood hpath => by
      rcases List.mem_append.mp hother with hother | hother
      · exact h.saved other hother hgood hpath
      · rw [List.mem_singleton] at hother
        subst hother
        rw [hdrive hgood] at hpath
        cases hpath }

/-- `PASS` on a good drive. -/
theorem Marks.pass (h : Marks saved lit marked stored m trace) (hdrive : drive ∈ m.good_list) :
    Marks (saved ++ [drive]) lit marked stored m (trace ++ [.saved drive true]) where
  failed other hmem := h.failed other (mem_concat_ne hmem (by simp))
  passed other hmem := by
    rcases List.mem_append.mp hmem with hmem | hmem
    · exact ⟨(h.passed other hmem).1, List.mem_append_left _ (h.passed other hmem).2⟩
    · cases List.mem_singleton.mp hmem
      exact ⟨hdrive, List.mem_append_right _ (List.mem_singleton_self _)⟩
  saved other hother hgood hpath := by
    rcases List.mem_append.mp hother with hother | hother
    · exact List.mem_append_left _ (h.saved other hother hgood hpath)
    · rw [List.mem_singleton.mp hother]
      exact List.mem_append_right _ (List.mem_singleton_self _)
  lights other hmem := h.lights other (mem_concat_ne hmem Event.noConfusion)
  thrashed other hmem := h.thrashed other (mem_concat_ne hmem Event.noConfusion)
  marked other hother := List.mem_append_left _ (h.marked other hother)
  told other hmem := h.told other (mem_concat_ne hmem Event.noConfusion)
  stored other hother hgood := List.mem_append_left _ (h.stored other hother hgood)

/-- The server was told to store a drive. -/
theorem Marks.store {stored' : List TestDrive} (h : Marks saved lit marked stored m trace)
    (hkeep : stored ⊆ stored') (honly : stored' ⊆ stored ++ [drive]) (hdrive : drive ∈ stored') :
    Marks saved lit marked stored' m (trace ++ [.stored drive]) where
  failed other hmem := h.failed other (mem_concat_ne hmem Event.noConfusion)
  passed other hmem := h.passed other (mem_concat_ne hmem Event.noConfusion)
  saved other hother hgood hpath := List.mem_append_left _ (h.saved other hother hgood hpath)
  lights other hmem := h.lights other (mem_concat_ne hmem Event.noConfusion)
  thrashed other hmem := h.thrashed other (mem_concat_ne hmem Event.noConfusion)
  marked other hother := List.mem_append_left _ (h.marked other hother)
  told other hmem := by
    rcases List.mem_append.mp hmem with hmem | hmem
    · exact hkeep (h.told other hmem)
    · cases List.mem_singleton.mp hmem
      exact hdrive
  stored other hother hgood := by
    rcases List.mem_append.mp (honly hother) with hother | hother
    · exact List.mem_append_left _ (h.stored other hother hgood)
    · rw [List.mem_singleton.mp hother]
      exact List.mem_append_right _ (List.mem_singleton_self _)

theorem Record.store (h : Record setting fit passed [] none m trace) :
    Record setting fit passed (Event.run [] (.stored drive)) none m
      (trace ++ [.stored drive]) :=
  h.note trivial (fun _ heq => heq) fun _ _ _ => id

/-- The results of the bad drives. -/
theorem saveBad_does (hsaves : setting.saves) :
    Does setting (Stage setting fit (Marks [] [] [] []) passed)
      (MonadState.get >>= fun s =>
        s.manager.bad_reasons.forM fun item => host.saveBad item.1 item.2)
      fun _ => Stage setting fit (Marks [] [] [] []) passed := by
  refine Does.get fun s _ => ?_
  have hloop : Does setting
      (fun m trace => Stage setting fit (Marks [] [] [] []) passed m trace ∧ m = s.manager)
      (s.manager.bad_reasons.forM fun item => host.saveBad item.1 item.2)
      fun _ m trace => Stage setting fit (Marks [] [] [] []) passed m trace ∧ m = s.manager := by
    refine Does.forM_keeps fun item hitem => ?_
    unfold Host.saveBad
    cases item.1.block_path with
    | none => exact Does.pure fun _ _ h => h
    | some path =>
      refine Does.get fun s' _ => ((attempt_does _).pre fun _ _ h => h.1).bind fun e => ?_
      cases e with
      | some e => exact Does.pure fun _ _ h => h
      | none =>
        refine does_note fun m trace h => ⟨⟨h.1.record.save hsaves, h.1.marks.fail ?_⟩, h.2⟩
        rw [h.2]
        exact List.mem_map_of_mem hitem
  exact hloop.post fun _ _ _ h => h.1

/-- The results of the good drives; one that cannot be written is bad. -/
theorem saveGood_does (hsaves : setting.saves) :
    Does setting (Stage setting fit (Marks [] [] [] []) passed)
      (MonadState.get >>= fun s => s.manager.good_list.forM host.saveGood)
      fun _ m trace => ∃ saved, Stage setting fit (Marks saved [] [] []) passed m trace ∧
        m.good_list ⊆ saved := by
  refine Does.get fun s hs => ?_
  have hloop : Does setting
      (fun m trace => Stage setting fit (Marks [] [] [] []) passed m trace ∧
        (∀ drive ∈ s.manager.good_list, drive ∉ [] → drive ∈ m.good_list) ∧
        m.good_list ⊆ s.manager.good_list)
      (s.manager.good_list.forM host.saveGood)
      fun _ m trace => Stage setting fit (Marks s.manager.good_list [] [] []) passed m trace ∧
        (∀ drive ∈ s.manager.good_list, drive ∉ s.manager.good_list → drive ∈ m.good_list) ∧
        m.good_list ⊆ s.manager.good_list := by
    refine Does.forM (I := fun front m trace =>
      Stage setting fit (Marks front [] [] []) passed m trace ∧
        (∀ drive ∈ s.manager.good_list, drive ∉ front → drive ∈ m.good_list) ∧
        m.good_list ⊆ s.manager.good_list) fun front drive rest hl => ?_
    have hnodup := hs.record.good_nodup
    rw [hl] at hnodup
    have hnew : drive ∉ front := fun hmem =>
      (List.nodup_append.mp hnodup).2.2 drive hmem drive List.mem_cons_self rfl
    have hmem : drive ∈ s.manager.good_list := by simp [hl]
    have hmore (other : TestDrive) (hfar : other ∉ front ++ [drive]) : other ∉ front :=
      fun hfront => hfar (List.mem_append_left _ hfront)
    unfold Host.saveGood
    cases hpath : drive.block_path with
    | none =>
      refine Does.pure fun m trace h => ⟨⟨h.1.record, h.1.marks.pass_over fun _ => hpath⟩, ?_,
        h.2.2⟩
      exact fun other hother hfar => h.2.1 other hother (hmore other hfar)
    | some path =>
      refine Does.get fun s' _ => ((attempt_does _).pre fun _ _ h => h.1).bind fun e => ?_
      cases e with
      | none =>
        refine does_note fun m trace h =>
          ⟨⟨h.1.record.save hsaves, h.1.marks.pass (h.2.1 drive hmem hnew)⟩, ?_, h.2.2⟩
        exact fun other hother hfar => h.2.1 other hother (hmore other hfar)
      | some e =>
        refine does_prune host (fun m trace h => ?_) fun _ _ h => h.1.record.safe
        have hgood := h.2.1 drive hmem hnew
        have hgoods := h.1.record.good_nodup
        have hgone : drive ∉ (m.prune drive ("Exception when saving results to drive: " ++ e ++ " ")
            true false).good_list := by
          rw [prune_good_list]
          exact fun hmem => (hgoods.mem_erase_iff.mp hmem).1 rfl
        refine ⟨⟨h.1.record.prune hgood (fun other heq => by cases heq) _ _ _,
          (h.1.marks.prune hgoods hnew _ _ _).pass_over fun hmem => absurd hmem hgone⟩, ?_, ?_⟩
        · intro other hother hfar
          rw [List.mem_append, List.mem_singleton, not_or] at hfar
          rw [prune_good_list]
          exact hgoods.mem_erase_iff.mpr ⟨hfar.2, h.2.1 other hother hfar.1⟩
        · rw [prune_good_list]
          exact fun other hother => h.2.2 (List.erase_subset hother)
  refine (hloop.pre ?_).post fun _ m trace h => ⟨s.manager.good_list, h.1, h.2.2⟩
  rintro m trace ⟨hstage, rfl⟩
  exact ⟨hstage, fun drive hdrive _ => hdrive, fun _ h => h⟩

theorem prompt_does {P : Assertion} (hP : Assures setting P) (text : Text) (fuel : Nat) :
    Does setting P (host.prompt text fuel) fun _ => P := by
  induction fuel with
  | zero => exact Does.throw hP
  | succ fuel ih =>
    exact (does_call hP _).bind fun _ => Does.ite (fun _ => Does.pure fun _ _ h => h) fun _ => ih

/-- The light of a good drive is turned on. -/
theorem Record.light (h : Record setting fit passed [] none m trace) (hdrive : drive ∈ m.good_list)
    (hfit : fit drive → setting.fit drive) (hlights : setting.lights)
    (hpath : drive.block_path.isSome) :
    Record setting fit passed [] none m (trace ++ [.lit drive]) where
  safe := by
    refine h.safe.concat ?_ (fun _ _ => h.procs) ?_ ⟨hlights, hfit (h.fit drive hdrive), hpath⟩
    · rw [h.procs]
      exact List.nodup_nil
    · intro earlier hearlier hlate
      cases earlier with
      | pruned other reason skip =>
        cases hlate
        exact h.aside drive reason skip hearlier hdrive
      | started | returned | terminated | killed | saved | lit | dark | thrashed | stored =>
        exact hlate
  procs := by simp [Event.run, h.procs]
  perm := h.perm
  aside other reason skip hmem :=
    h.aside other reason skip (mem_concat_ne hmem Event.noConfusion)
  fit := h.fit
  clean other hother hne := (h.clean other hother hne).concat id
  passed cmd hcmd other hother hne hfor :=
    List.mem_append_left _ (h.passed cmd hcmd other hother hne hfor)

theorem Record.dark (h : Record setting fit passed [] none m trace) :
    Record setting fit passed (Event.run [] (.dark drive)) none m (trace ++ [.dark drive]) :=
  h.note trivial (fun _ heq => heq) fun _ _ _ => id

theorem Marks.light (h : Marks saved lit marked stored m trace) (hdrive : drive ∈ lit) :
    Marks saved lit marked stored m (trace ++ [.lit drive]) where
  failed other hmem := h.failed other (mem_concat_ne hmem Event.noConfusion)
  passed other hmem := h.passed other (mem_concat_ne hmem Event.noConfusion)
  saved other hother hgood hpath := List.mem_append_left _ (h.saved other hother hgood hpath)
  lights other hmem := by
    rcases List.mem_append.mp hmem with hmem | hmem
    · exact h.lights other hmem
    · cases List.mem_singleton.mp hmem
      exact hdrive
  thrashed other hmem := h.thrashed other (mem_concat_ne hmem Event.noConfusion)
  marked other hother := List.mem_append_left _ (h.marked other hother)
  told other hmem := h.told other (mem_concat_ne hmem Event.noConfusion)
  stored other hother hgood := List.mem_append_left _ (h.stored other hother hgood)

theorem lightup_does (hfit : ∀ drive, fit drive → setting.fit drive) (hlights : setting.lights)
    {before : DriveManager} {rest : List TestDrive} (hrest : rest ⊆ before.good_list) :
    Does setting
      (fun m trace => Stage setting fit (Marks saved before.good_list [] []) passed m trace ∧
        m = before)
      (host.lightup rest)
      fun _ m trace => Stage setting fit (Marks saved before.good_list [] []) passed m trace ∧
        m = before := by
  induction rest with
  | nil => exact Does.pure fun _ _ h => h
  | cons drive rest ih =>
    have hdrive : drive ∈ before.good_list := hrest List.mem_cons_self
    have hmore := ih fun other hother => hrest (List.mem_cons_of_mem _ hother)
    unfold Host.lightup
    cases hpath : drive.block_path with
    | none => exact hmore
    | some path =>
      refine (does_note fun m trace h => ⟨⟨h.1.record.light (h.2 ▸ hdrive) (hfit drive) hlights ?_,
        h.1.marks.light hdrive⟩, h.2⟩).bind fun _ =>
        (does_call (fun _ _ h => h.1.record.safe) _).bind fun _ => hmore.bind fun _ =>
          Does.pure fun _ _ h => h
      rw [hpath]
      rfl

/-- The lights go on and off; what is known of the good drives stays known. -/
theorem doLightupDrives_does (hfit : ∀ drive, fit drive → setting.fit drive)
    (hlights : setting.lights) (known : List TestDrive → Prop) :
    Does setting
      (fun m trace => Stage setting fit (Marks saved [] [] []) passed m trace ∧ known m.good_list)
      host.doLightupDrives
      fun _ m trace => ∃ lit, Stage setting fit (Marks saved lit [] []) passed m trace ∧
        known m.good_list := by
  have hnone : Does setting
      (fun m trace => Stage setting fit (Marks saved [] [] []) passed m trace ∧ known m.good_list)
      (noDrives : Test σ Bool)
      fun _ m trace => Stage setting fit (Marks saved [] [] []) passed m trace ∧
        known m.good_list :=
    Does.get fun _ _ => Does.pure fun _ _ h => h.1
  refine hnone.bind fun _ => Does.ite
    (fun _ => (prompt_does host (fun _ _ h => h.1.record.safe) _ _).post fun _ _ _ h => ⟨[], h⟩)
    fun _ => (prompt_does host (fun _ _ h => h.1.record.safe) _ _).bind fun _ =>
      Does.get fun s hs => ?_
  let P : Assertion := fun m trace =>
    Stage setting fit (Marks saved s.manager.good_list [] []) passed m trace ∧ m = s.manager
  have hP : Assures setting P := fun _ _ h => h.1.record.safe
  have hon : Does setting P (host.lightup s.manager.good_list) fun _ => P :=
    lightup_does host hfit hlights fun _ h => h
  have hoff (lightuper_list : List TestDrive) : Does setting P
      (lightuper_list.forM fun drive => (note (.dark drive) : Test σ Unit)) fun _ => P :=
    Does.forM_keeps fun drive _ => does_note fun m trace h =>
      ⟨⟨h.1.record.dark, h.1.marks.seen id⟩, h.2⟩
  refine (hon.pre ?_).bind fun lightuper_list => (prompt_does host hP _ _).bind fun _ =>
    (hoff lightuper_list).post fun _ m trace h => ?_
  · rintro m trace ⟨⟨hstage, -⟩, rfl⟩
    exact ⟨⟨hstage.record, { hstage.marks with
      lights := fun drive hmem => absurd (hstage.marks.lights drive hmem) List.not_mem_nil }⟩, rfl⟩
  · exact ⟨s.manager.good_list, h.1, by rw [h.2]; exact hs.2⟩

/-- The good drives are marked; that they are these stays known. -/
theorem mark_good_does (known : List TestDrive → Prop) :
    Does setting
      (fun m trace => Stage setting fit (Marks saved lit [] []) passed m trace ∧ known m.good_list)
      host.markGoodThrashed
      fun _ m trace => Stage setting fit (Marks saved lit m.good_list []) passed m trace ∧
        known m.good_list := by
  refine Does.get fun s hs => ?_
  have hloop : Does setting
      (fun m trace => Stage setting fit (Marks saved lit [] []) passed m trace ∧
        m.good_list = s.manager.good_list)
      (s.manager.good_list.forM host.mark)
      fun _ m trace => Stage setting fit (Marks saved lit s.manager.good_list []) passed m trace ∧
        m.good_list = s.manager.good_list := by
    refine Does.forM (I := fun front m trace =>
      Stage setting fit (Marks saved lit front []) passed m trace ∧
        m.good_list = s.manager.good_list) fun front drive rest _ => ?_
    refine mark_does host (fun _ _ h => h.1.record.safe) fun m trace h => ⟨⟨h.1.record.mark _, ?_⟩,
      h.2⟩
    exact h.1.marks.mark (fun _ hmem => List.mem_append_left _ hmem) (fun _ hmem => hmem)
      (.inl (List.mem_append_right _ (List.mem_singleton_self _))) _
  refine (hloop.pre fun m trace h => ⟨h.1.1, by rw [h.2]⟩).post fun _ m trace h => ?_
  rw [h.2]
  exact ⟨h.1, hs.2⟩

/-- The good drives are stored. -/
theorem storeGood_does (known : List TestDrive → Prop) :
    Does setting
      (fun m trace => Stage setting fit (Marks saved lit m.good_list []) passed m trace ∧
        known m.good_list)
      host.storeGood
      fun _ m trace => Stage setting fit (Marks saved lit m.good_list m.good_list) passed m trace ∧
        known m.good_list := by
  refine Does.get fun s hs => ?_
  have hloop : Does setting
      (fun m trace => Stage setting fit (Marks saved lit s.manager.good_list []) passed m trace ∧
        m = s.manager)
      (s.manager.good_list.forM fun drive => do
        if ← call (host.store drive) then note (.stored drive) else throw (.exit 1))
      fun _ m trace => Stage setting fit (Marks saved lit s.manager.good_list s.manager.good_list)
        passed m trace ∧ m = s.manager := by
    refine Does.forM (I := fun front m trace => Stage setting fit
      (Marks saved lit s.manager.good_list front) passed m trace ∧ m = s.manager)
      fun front drive rest _ => (does_call (fun _ _ h => h.1.record.safe) _).bind fun known => ?_
    refine Does.ite (fun _ => does_note fun m trace h => ⟨⟨h.1.record.store, ?_⟩, h.2⟩)
      fun _ => Does.throw fun _ _ h => h.1.record.safe
    exact h.1.marks.store (fun _ hmem => List.mem_append_left _ hmem) (fun _ hmem => hmem)
      (List.mem_append_right _ (List.mem_singleton_self _))
  refine (hloop.pre ?_).post ?_
  · rintro m trace ⟨⟨hstage, -⟩, rfl⟩
    exact ⟨hstage, rfl⟩
  · rintro - m trace ⟨hstage, rfl⟩
    exact ⟨hstage, hs.2⟩

/-- The skipped drives are stored where the server knows them. -/
theorem storeSkipped_does (known : List TestDrive → Prop) :
    Does setting
      (fun m trace => Stage setting fit (Marks saved lit m.good_list m.good_list) passed m trace ∧
        known m.good_list)
      host.storeSkipped
      fun _ m trace => Stage setting fit
        (Marks saved lit m.good_list (m.good_list ++ Assoc.keys m.skip_reasons)) passed m trace ∧
        known m.good_list := by
  refine Does.get fun s hs => ?_
  have hloop : Does setting
      (fun m trace => Stage setting fit (Marks saved lit s.manager.good_list
        (s.manager.good_list ++ Assoc.keys s.manager.skip_reasons)) passed m trace ∧ m = s.manager)
      ((Assoc.keys s.manager.skip_reasons).forM fun drive => do
        whenever (← call (host.store drive)) (note (.stored drive)))
      fun _ m trace => Stage setting fit (Marks saved lit s.manager.good_list
        (s.manager.good_list ++ Assoc.keys s.manager.skip_reasons)) passed m trace ∧
        m = s.manager := by
    refine Does.forM_keeps fun drive hdrive =>
      (does_call (fun _ _ h => h.1.record.safe) _).bind fun known => ?_
    refine does_whenever (fun _ => does_note fun m trace h => ⟨⟨h.1.record.store, ?_⟩, h.2⟩)
      fun _ _ _ h => h
    exact h.1.marks.store (fun _ hmem => hmem) (fun _ hmem => List.mem_append_left _ hmem)
      (List.mem_append_right _ hdrive)
  refine (hloop.pre ?_).post ?_
  · rintro m trace ⟨⟨hstage, -⟩, rfl⟩
    refine ⟨⟨hstage.record, { hstage.marks with
      told := fun drive hmem => List.mem_append_left _ (hstage.marks.told drive hmem)
      stored := fun drive hmem hgood => hstage.marks.stored drive hgood hgood }⟩, rfl⟩
  · rintro - m trace ⟨hstage, rfl⟩
    exact ⟨hstage, hs.2⟩

end finish

/-! ## A test -/

/-- What a test that has come to its end says of its drives. -/
structure Verdicts (options : Options) (machine : Machine) (drives : List TestDrive)
    (m : DriveManager) (trace : List Event) : Prop where
  partition : (m.good_list ++ (Assoc.keys m.skip_reasons ++ Assoc.keys m.bad_reasons)).Perm drives
  fit : ∀ drive ∈ m.good_list, Fit options machine drive
  clean : ∀ drive ∈ m.good_list, Clean trace drive
  tested : ∀ drive ∈ m.good_list, ∀ cmd ∈ options.script, cmd.For drives drive →
    .returned drive cmd 0 ∈ trace
  marked : ∀ drive ∈ m.good_list, .thrashed drive ∈ trace ∧ .stored drive ∈ trace
  thrashed : ∀ drive, .thrashed drive ∈ trace → drive ∈ m.good_list ∨
    drive ∈ Assoc.keys m.skip_reasons ∧ NO_THRASH_MODELS.contains drive.model
  stored : ∀ drive, .stored drive ∈ trace → drive ∉ Assoc.keys m.bad_reasons
  written : options.saves = true → ∀ drive ∈ m.good_list, drive.block_path.isSome →
    .saved drive true ∈ trace
  passed : ∀ drive, .saved drive true ∈ trace → drive ∈ m.good_list
  failed : ∀ drive, .saved drive false ∈ trace → drive ∈ Assoc.keys m.bad_reasons

theorem Does.exists {ι α : Type} {P : ι → Assertion} {m : Test σ α} {Q : α → Assertion}
    (h : ∀ i, Does setting (P i) m Q) : Does setting (fun m trace => ∃ i, P i m trace) m Q :=
  fun s hs => h hs.choose s hs.choose_spec

/-- What is left after the tests: the last evaluation, and the results. -/
theorem finish_does (options : Options) (machine : Machine)
    (hfit : ∀ drive, Fit options machine drive → setting.fit drive)
    (hsaves : options.saves = true → setting.saves)
    (hlights : options.lights = true → setting.lights) :
    Does setting (Stage setting (Fit options machine) (Marks [] [] [] []) options.script)
      (host.finish options) fun _ m trace => Verdicts options machine setting.drives m trace ∧
        Safe setting.fit setting.commands setting.saves setting.lights trace := by
  have hsave : Does setting (Stage setting (Fit options machine) (Marks [] [] [] []) options.script)
      (whenever (options.destructive && !options.no_saveresults) (do
        call (host.postMessage "Saving Results....")
        host.doSaveResults))
      fun _ m trace => ∃ saved, Stage setting (Fit options machine) (Marks saved [] [] [])
        options.script m trace ∧ (options.saves = true → m.good_list ⊆ saved) := by
    refine does_whenever (fun h => (does_call Stage.assures _).bind fun _ =>
      (saveBad_does host (hsaves h)).bind fun _ =>
        (saveGood_does host (hsaves h)).post fun _ m trace h => ?_) fun h m trace hstage => ?_
    · exact h.imp fun saved hsaved => ⟨hsaved.1, fun _ => hsaved.2⟩
    · exact ⟨[], hstage, fun hs => by rw [Options.saves, h] at hs; cases hs⟩
  refine (does_call Stage.assures _).bind fun _ => (evaluateAll_does host Marks.lasting _).bind
    fun _ => hsave.bind fun _ => Does.exists fun saved => ?_
  -- the drives that have been written to are kept in mind
  have hlight : Does setting (fun m trace => Stage setting (Fit options machine)
        (Marks saved [] [] []) options.script m trace ∧
          (options.saves = true → m.good_list ⊆ saved))
      (whenever (!options.no_lightup) host.doLightupDrives)
      fun _ m trace => ∃ lit, Stage setting (Fit options machine) (Marks saved lit [] [])
        options.script m trace ∧ (options.saves = true → m.good_list ⊆ saved) :=
    does_whenever (fun h => doLightupDrives_does host hfit (hlights h)
      fun good => options.saves = true → good ⊆ saved) fun _ _ _ h => ⟨[], h⟩
  refine hlight.bind fun _ => Does.exists fun lit =>
    (mark_good_does host fun good => options.saves = true → good ⊆ saved).bind fun _ =>
    (storeGood_does host fun good => options.saves = true → good ⊆ saved).bind fun _ =>
    (storeSkipped_does host fun good => options.saves = true → good ⊆ saved).post
      fun _ m trace ⟨⟨hrecord, hmarks⟩, hsaved⟩ => ?_
  refine ⟨⟨hrecord.perm, hrecord.fit, fun drive hdrive => hrecord.clean drive hdrive (by simp),
    fun drive hdrive cmd hcmd hfor => hrecord.passed cmd hcmd drive hdrive (by simp) hfor,
    fun drive hdrive => ⟨hmarks.marked drive hdrive,
      hmarks.stored drive (List.mem_append_left _ hdrive) hdrive⟩,
    hmarks.thrashed, fun drive hmem hbad => ?_,
    fun hs drive hdrive => hmarks.saved drive (hsaved hs hdrive) hdrive,
    fun drive hmem => (hmarks.passed drive hmem).1, hmarks.failed⟩, hrecord.safe⟩
  -- the lists have no drive in common
  have hnodup := List.nodup_append.mp (hrecord.perm.nodup_iff.mpr setting.nodup)
  rcases List.mem_append.mp (hmarks.told drive hmem) with hgood | hskip
  · exact hnodup.2.2 drive hgood drive (List.mem_append_right _ hbad) rfl
  · exact (List.nodup_append.mp hnodup.2.1).2.2 drive hskip drive hbad rfl

/-- The setting of a test. -/
def Setting.make (options : Options) (machine : Machine) (drives : List TestDrive)
    (hnodup : drives.Nodup) : Setting where
  drives := drives
  nodup := hnodup
  fit := Fit options machine
  commands := options.script
  saves := options.saves = true
  lights := options.lights = true

theorem main_does (options : Options) (machine : Machine) {drives : List TestDrive}
    (hnodup : drives.Nodup) :
    Does (.make options machine drives hnodup)
      (Stage (.make options machine drives hnodup) (fun _ => True) (Marks [] [] [] []) [])
      (host.main options machine)
      fun code m trace => code = 0 ∧ Verdicts options machine drives m trace ∧
        Safe (Fit options machine) options.script (options.saves = true)
          (options.lights = true) trace := by
  refine (does_call Stage.assures _).bind fun _ => noDrives_does.bind fun none =>
    Does.ite (fun _ => Does.throw fun _ _ h => h.1.record.safe) fun _ => ?_
  refine ((choose_does host options machine).pre fun _ _ h => h.1).bind fun _ =>
    (tests_does host Marks.lasting (fun _ h => h) options fun _ h => h).bind fun _ =>
    ((finish_does host options machine (fun _ h => h) (fun h => h)
      fun h => h).pre fun m trace h => ?_).bind fun _ =>
    Does.pure fun _ _ h => ⟨rfl, h⟩
  rw [List.nil_append] at h
  exact h

theorem stage_init (options : Options) (machine : Machine) {drives : List TestDrive}
    (hnodup : drives.Nodup) :
    Stage (.make options machine drives hnodup) (fun _ => True) (Marks [] [] [] []) []
      { good_list := drives } [] := by
  refine ⟨⟨Safe.nil, rfl, ?_, ?_, fun _ _ => trivial, ?_, ?_⟩, ⟨?_, ?_, ?_, ?_, ?_, ?_, ?_, ?_⟩⟩ <;>
    simp [Assoc.keys, Clean, Setting.make]

/-- A machine where the conveyance test fails on the drive with a `2`. -/
def bench : Host Unit where
  evaluate _ _ := pure .kept
  Popen cmd := pure
    { poll := fun _ => some (if ['2'] <:+ cmd then 1 else 0)
      stdout := fun _ => []
      stderr := fun _ => []
      terminated := fun _ _ => none
      lasting := fun _ _ _ _ h => h }
  communicate _ _ := pure ⟨0, [], []⟩
  setFault _ := pure ()
  postMessage _ := pure ()
  writeStatus _ _ := pure ()
  readline := pure []
  gmtime _ := []
  late _ := 0
  fuel := 5

def benchDrive (name : Name) : TestDrive where
  drive :=
    { port := .SCSI [] [], name := name.text, block_name := some name, libdrive_name := name.text
      devpath := none }
  model := []

def benchDrives : List TestDrive :=
  [benchDrive ⟨['d', '1'], by decide, by decide⟩, benchDrive ⟨['d', '2'], by decide, by decide⟩]

def benchOptions : Options :=
  { round1 := 0, rdelay := 0, round2 := 0, pdelay := 0, no_selftest := true, fdelay := 0
    no_lightup := true }

def benchMachine : Machine := ⟨[], [], fun _ => none⟩

/-- The test comes to its end, with one good drive. -/
theorem bench_ends :
    (match bench.run benchOptions benchMachine benchDrives () with
    | .ok _ s => s.manager.good_list.length == 1
    | .error _ _ => false) = true := by
  decide +kernel

/-- A part of the program that has come back has done this to the lists. -/
def Lists (m : Test σ Unit) (f : DiskTest.DriveManager → DiskTest.DriveManager) : Prop :=
  ∀ before, Triple (fun s => s.manager = before) m (fun _ s => s.manager = f before)
    fun _ _ => True

/-- Something outside leaves the lists. -/
theorem call_lists {α : Type} (m : EStateM Unit σ α) (before : DiskTest.DriveManager) :
    Triple (fun s : State σ => s.manager = before) (call m) (fun _ s => s.manager = before)
      fun _ _ => True :=
  Triple.within m (fun _ _ h => h) fun _ _ _ => trivial

theorem prune_lists (reason : String) (report skip : Bool) :
    Lists (host.prune drive reason report skip) fun m => m.prune drive reason report skip := by
  intro before
  have hcall (m : EStateM Unit σ Unit) (c : Bool) (after : DiskTest.DriveManager) :
      Triple (fun s : State σ => s.manager = after) (whenever c (call m))
        (fun _ s => s.manager = after) fun _ _ => True :=
    Triple.ite (fun _ => call_lists m after) fun _ => Triple.pure fun _ h => h
  have hlists : Triple (fun s : State σ => s.manager = before)
      (modify fun s =>
        { s with
          manager := s.manager.prune drive reason report skip
          trace := s.trace ++ [.pruned drive reason skip] } : Test σ Unit)
      (fun _ s => s.manager = before.prune drive reason report skip) fun _ _ => True :=
    Triple.modify fun s h => by rw [h]
  exact hlists.bind fun _ => (hcall _ _ _).bind fun _ => hcall _ _ _

theorem unThrashable_lists (machine : Machine) (mount_list : List Text) (drive : TestDrive) :
    Lists (host.unThrashable machine mount_list drive)
      fun m => DiskTest.unThrashable machine mount_list m drive := by
  intro before
  change Triple _ _
    (fun _ (s : State σ) => s.manager = DiskTest.unThrashable machine mount_list before drive) _
  unfold Host.unThrashable DiskTest.unThrashable
  by_cases hremovable : drive.block_name.any machine.isRemovable = true
  · rw [if_pos hremovable, if_pos hremovable]
    exact prune_lists host _ _ _ before
  by_cases hmounted : drive.block_path.any mount_list.contains = true
  · rw [if_neg hremovable, if_neg hremovable, if_pos hmounted, if_pos hmounted]
    exact prune_lists host _ _ _ before
  by_cases hmodel : NO_THRASH_MODELS.contains drive.model = true
  · rw [if_neg hremovable, if_neg hremovable, if_neg hmounted, if_neg hmounted, if_pos hmodel,
      if_pos hmodel]
    exact (prune_lists host _ _ _ before).bind fun _ =>
      (call_lists _ _).bind fun _ => Triple.modify fun s h => by rw [h]
  by_cases hvirtual : drive.isVirtualDisk = true
  · rw [if_neg hremovable, if_neg hremovable, if_neg hmounted, if_neg hmounted, if_neg hmodel,
      if_neg hmodel, if_pos hvirtual, if_pos hvirtual]
    exact prune_lists host _ _ _ before
  · rw [if_neg hremovable, if_neg hremovable, if_neg hmounted, if_neg hmounted, if_neg hmodel,
      if_neg hmodel, if_neg hvirtual, if_neg hvirtual]
    exact Triple.pure fun _ h => h

theorem withFilesystems_lists (partitioned : List Text) (drive : TestDrive) :
    Lists (whenever (drive.block_name.any (partitioned.contains ·.text))
        (host.prune drive "Has Partitions" false true))
      fun m => withFilesystems partitioned m drive := by
  intro before
  change Triple _ _ (fun _ (s : State σ) => s.manager = withFilesystems partitioned before drive) _
  unfold whenever withFilesystems
  by_cases h : drive.block_name.any (partitioned.contains ·.text) = true
  · rw [if_pos h, if_pos h]
    exact prune_lists host _ _ _ before
  · rw [if_neg h, if_neg h]
    exact Triple.pure fun _ hs => hs

/-- A loop over the good drives. -/
theorem forEach_lists {turn : TestDrive → Test σ PUnit}
    {f : DiskTest.DriveManager → TestDrive → DiskTest.DriveManager}
    (hturn : ∀ drive, Lists (turn drive) fun m => f m drive) :
    Lists (MonadState.get >>= fun s => s.manager.good_list.forM turn)
      fun m => m.good_list.foldl f m := by
  intro before
  refine Triple.get fun s => ?_
  have hloop : Triple (fun t : State σ => t.manager = [].foldl f before)
      (s.manager.good_list.forM turn)
      (fun _ t => t.manager = s.manager.good_list.foldl f before) fun _ _ => True := by
    refine Triple.forM (I := fun front (t : State σ) => t.manager = front.foldl f before)
      fun front drive _ _ => ?_
    rw [List.foldl_append]
    exact hturn drive _
  rintro t ⟨rfl, rfl⟩
  exact hloop t rfl

theorem skipUnThrashable_refines (machine : Machine) {s s' : State σ} {a : Unit}
    (h : host.skipUnThrashable machine s = .ok a s') :
    s.manager.skipUnThrashable machine = some s'.manager := by
  unfold Host.skipUnThrashable at h
  unfold DiskTest.DriveManager.skipUnThrashable
  cases hmount : mountList machine.mtab with
  | none =>
    rw [hmount] at h
    cases h
  | some mount_list =>
    rw [hmount] at h
    rw [Option.map_some,
      (forEach_lists (unThrashable_lists host machine mount_list) _).ok rfl h]

theorem skipWithFilesystems_refines (machine : Machine) {s s' : State σ} {a : Unit}
    (h : host.skipWithFilesystems machine s = .ok a s') :
    s.manager.skipWithFilesystems machine = s'.manager :=
  ((forEach_lists (withFilesystems_lists host (partitioned machine.partitions)) _).ok rfl h).symm

/-- **The drives that are sorted out are those of the model of the lists**: those that remain are
not to be skipped and have no partition that is seen. -/
theorem skip_refines (machine : Machine) {s s' : State σ} {a : Unit}
    (h : (host.skipUnThrashable machine >>= fun _ => host.skipWithFilesystems machine) s =
      .ok a s') :
    ∃ m, s.manager.skipUnThrashable machine = some m ∧
      s'.manager = m.skipWithFilesystems machine ∧
      ∃ mount_list, mountList machine.mtab = some mount_list ∧ ∀ drive,
        drive ∈ s'.manager.working_list ↔ drive ∈ s.manager.good_list ∧
          UnThrashable machine mount_list drive = false ∧ Partitioned machine drive = false := by
  obtain ⟨b, t, hskip, hrest⟩ := bind_eq_ok.mp h
  have hlists := skipUnThrashable_refines host machine hskip
  have hfilesystems := skipWithFilesystems_refines host machine hrest
  refine ⟨t.manager, hlists, hfilesystems.symm, ?_⟩
  rw [← hfilesystems]
  exact mem_working_list_iff hlists

end DriveTest
