import Disks.Config.Proof.Queries
import Disks.Lib.Fold
import Mathlib.Data.Set.Card

/-!
# A turn of `configPackage`

What one turn of the loop over the templates does, in terms of the files and rows before it. A file
is `Local` to a target if it exists and the target has no row, or another hash in it. A target
`Asks` for a build where its file is missing or its row is old or has another hash; a local file is
`Noticed` if it is looked at when a build has been asked for.

* `Turn.look_checked`, `Turn.looks_checked`: what the loop over the targets keeps (`Checked`).
* `Turn.result_cases`: **every way a turn can end.**
-/

namespace LibConfig

open Path Fold

/-! ## Local changes -/

section row

variable {Hash Time : Type} (sha1 : Str → Hash)

/-- The file exists and is not what the database has for the target. -/
def Local (row : Option (TargetInfo Hash Time)) (fs : File → Option Str) (f : File) : Prop :=
  ∃ content, fs f = some content ∧ ∀ r, row = some r → r.hash ≠ some (sha1 content)

theorem local_congr {row : Option (TargetInfo Hash Time)} {fs fs' : File → Option Str} {f : File}
    (h : fs f = fs' f) : Local sha1 row fs f ↔ Local sha1 row fs' f := by
  unfold Local
  rw [h]

variable [LinearOrder Time] (last_modified : Option Time)

/-- The target asks for a build: its file is missing, or its row is old or has another hash. -/
def Due (row : Option (TargetInfo Hash Time)) (fs : File → Option Str) (f : File) : Prop :=
  fs f = none ∨ ∃ r, row = some r ∧ (later last_modified r.last_built = some true ∨
    ∃ content, fs f = some content ∧ r.hash ≠ some (sha1 content))

theorem due_congr {row : Option (TargetInfo Hash Time)} {fs fs' : File → Option Str} {f : File}
    (h : fs f = fs' f) : Due sha1 last_modified row fs f ↔ Due sha1 last_modified row fs' f := by
  unfold Due
  rw [h]

/-- The comparison of the target's times raises. -/
def Raises (row : Option (TargetInfo Hash Time)) : Prop :=
  ∃ r, row = some r ∧ later last_modified r.last_built = none

theorem raises_iff (row : Option (TargetInfo Hash Time)) :
    (row.any fun r => (later last_modified r.last_built).isNone) = true ↔
      Raises last_modified row := by
  cases row <;> simp [Raises]

instance (row : Option (TargetInfo Hash Time)) : Decidable (Raises last_modified row) :=
  decidable_of_iff _ (raises_iff last_modified row)

end row

/-- A place in a list is one before its last element, or that of the last element. -/
theorem split_snoc {α : Type} {xs before rest : List α} {x y : α}
    (h : xs ++ [x] = before ++ y :: rest) :
    (xs = before ∧ x = y) ∨ ∃ front, xs = before ++ y :: front := by
  rcases List.eq_nil_or_concat rest with rfl | ⟨front, last, rfl⟩
  · obtain ⟨hxs, hlast⟩ := List.append_inj' h rfl
    exact .inl ⟨hxs, by simpa using hlast⟩
  · rw [List.concat_eq_append, ← List.cons_append, ← List.append_assoc] at h
    exact .inr ⟨front, (List.append_inj' h rfl).1⟩

variable {Hash Time : Type} [LinearOrder Time]

/-! ## A turn of the loop over the templates -/

/-- A template and the state its turn starts in. -/
structure Turn (Hash Time : Type) where
  env : Env Hash Time
  package : Str
  opts : Options
  last_modified : Option Time
  template_db_list : Str → Option (Option Hash)
  s : System Hash Time
  t : Template

namespace Turn

variable (T : Turn Hash Time)

/-- The answer to the query for the targets' rows. -/
def rows : Except Error (Str → Option (TargetInfo Hash Time)) :=
  getTargets T.env T.package T.t.name T.s

def row (target : Str) : Option (TargetInfo Hash Time) :=
  match T.rows with
  | .ok target_db_list => target_db_list target
  | .error _ => none

/-- The target asks for a build. -/
def Asks (target : Str) : Prop :=
  Due T.env.sha1 T.last_modified (T.row target) T.s.fs (targetFile T.env T.opts target)

/-- The file the turn looks at for the target is local. -/
def Changed (target : Str) : Prop :=
  Local T.env.sha1 (T.row target) T.s.fs (targetFile T.env T.opts target)

/-- Among these targets, the local file of `target` is looked at when a build has been asked for. -/
def Noticed (targets : List Str) (target : Str) : Prop :=
  ∃ before rest, targets = before ++ target :: rest ∧ T.Changed target ∧
    ∃ x ∈ before ++ [target], T.Asks x

/-! ## The loop over the targets -/

variable {T}

theorem noticed_snoc {targets : List Str} {x y : Str} : T.Noticed (targets ++ [x]) y ↔
    T.Noticed targets y ∨ y = x ∧ T.Changed x ∧ ∃ z ∈ targets ++ [x], T.Asks z := by
  constructor
  · rintro ⟨before, rest, hsplit, hlocal, hdue⟩
    rcases split_snoc hsplit with ⟨rfl, rfl⟩ | ⟨front, hfront⟩
    · exact .inr ⟨rfl, hlocal, hdue⟩
    · exact .inl ⟨before, front, hfront, hlocal, hdue⟩
  · rintro (⟨before, rest, rfl, hlocal, hdue⟩ | ⟨rfl, hlocal, hdue⟩)
    · exact ⟨before, rest ++ [x], by simp, hlocal, hdue⟩
    · exact ⟨targets, [], rfl, hlocal, hdue⟩

theorem Noticed.asks {targets : List Str} {x : Str} (h : T.Noticed targets x) :
    ∃ z ∈ targets, T.Asks z := by
  obtain ⟨before, rest, rfl, -, z, hz, hask⟩ := h
  refine ⟨z, ?_, hask⟩
  rcases List.mem_append.1 hz with hz | hz
  · exact List.mem_append_left _ hz
  · exact List.mem_append_right _ (List.mem_singleton.1 hz ▸ List.mem_cons_self ..)

variable (T) in
/-- The loop saves local files. -/
def Saving : Prop := T.opts.force = true ∧ T.opts.no_backups = false ∧ T.opts.dry_run = false

variable (T) in
/-- The file is saved when these targets have been looked at. -/
def Saved (targets : List Str) (f : File) : Prop :=
  T.Saving ∧ ∃ x, T.Noticed targets x ∧ targetFile T.env T.opts x = f

theorem saved_snoc {targets : List Str} {x : Str} {f : File} : T.Saved (targets ++ [x]) f ↔
    T.Saved targets f ∨ T.Saving ∧ targetFile T.env T.opts x = f ∧ T.Changed x ∧
      ∃ z ∈ targets ++ [x], T.Asks z := by
  unfold Saved
  simp only [noticed_snoc]
  constructor
  · rintro ⟨hsaving, y, hy | ⟨rfl, hlocal, hdue⟩, hf⟩
    · exact .inl ⟨hsaving, y, hy, hf⟩
    · exact .inr ⟨hsaving, hf, hlocal, hdue⟩
  · rintro (⟨hsaving, y, hy, hf⟩ | ⟨hsaving, hf, hlocal, hdue⟩)
    · exact ⟨hsaving, y, .inl hy, hf⟩
    · exact ⟨hsaving, x, .inr ⟨rfl, hlocal, hdue⟩, hf⟩

theorem saved_finite (targets : List Str) : {f | T.Saved targets f}.Finite := by
  refine ((targets.map (targetFile T.env T.opts)).finite_toSet).subset ?_
  rintro f ⟨-, x, hx, rfl⟩
  obtain ⟨before, rest, rfl, -⟩ := hx
  exact List.mem_map_of_mem (by simp)

variable (T) in
/-- The name the file is saved under if `n` files were saved before. -/
def suffix (n : Nat) : Str := T.env.strftime (T.env.clock (T.s.ticks + n))

variable (T) in
/-- Of these targets the file is saved, after `n` others. -/
def SavedAt (targets : List Str) (f : File) (n : Nat) : Prop :=
  T.Saving ∧ ∃ before x rest, targets = before ++ x :: rest ∧ targetFile T.env T.opts x = f ∧
    T.Changed x ∧ (∃ z ∈ before ++ [x], T.Asks z) ∧ ¬ T.Saved before f ∧
    n = {g | T.Saved before g}.ncard

theorem savedAt_snoc {targets : List Str} {x : Str} {f : File} {n : Nat} :
    T.SavedAt (targets ++ [x]) f n ↔ T.SavedAt targets f n ∨
      T.Saving ∧ targetFile T.env T.opts x = f ∧ T.Changed x ∧
        (∃ z ∈ targets ++ [x], T.Asks z) ∧ ¬ T.Saved targets f ∧
        n = {g | T.Saved targets g}.ncard := by
  constructor
  · rintro ⟨hsaving, before, y, rest, hsplit, hy⟩
    rcases split_snoc hsplit with ⟨rfl, rfl⟩ | ⟨front, hfront⟩
    · exact .inr ⟨hsaving, hy⟩
    · exact .inl ⟨hsaving, before, y, front, hfront, hy⟩
  · rintro (⟨hsaving, before, y, rest, rfl, hy⟩ | ⟨hsaving, hx⟩)
    · exact ⟨hsaving, before, y, rest ++ [x], by simp, hy⟩
    · exact ⟨hsaving, targets, x, [], rfl, hx⟩

theorem SavedAt.saved {targets : List Str} {f : File} {n : Nat} (h : T.SavedAt targets f n) :
    T.Saved targets f := by
  obtain ⟨hsaving, before, x, rest, hsplit, hf, hchanged, hasks, -⟩ := h
  exact ⟨hsaving, x, ⟨before, rest, hsplit, hchanged, hasks⟩, hf⟩

theorem SavedAt.content {targets : List Str} {f : File} {n : Nat} (h : T.SavedAt targets f n) :
    ∃ content, T.s.fs f = some content := by
  obtain ⟨-, before, x, rest, -, rfl, ⟨content, hcontent, -⟩, -⟩ := h
  exact ⟨content, hcontent⟩

theorem saved_iff {targets : List Str} {f : File} :
    T.Saved targets f ↔ ∃ n, T.SavedAt targets f n := by
  refine ⟨fun h => ?_, fun ⟨n, h⟩ => h.saved⟩
  induction targets using List.reverseRecOn with
  | nil =>
    obtain ⟨-, x, hx, -⟩ := h
    simpa using hx.asks
  | append_singleton targets x ih =>
    by_cases hold : T.Saved targets f
    · obtain ⟨n, hn⟩ := ih hold
      exact ⟨n, savedAt_snoc.2 (.inl hn)⟩
    · obtain ⟨hsaving, hf, hchanged, hasks⟩ := (saved_snoc.1 h).resolve_left hold
      exact ⟨_, savedAt_snoc.2 (.inr ⟨hsaving, hf, hchanged, hasks, hold, rfl⟩)⟩

variable (T) in
/-- What the loop has found and done after these targets. -/
structure Checked (targets : List Str) (c : Check Hash Time) : Prop where
  need_build : c.need_build = true ↔ ∃ x ∈ targets, T.Asks x
  no_build : c.no_build = true ↔ T.opts.force = false ∧ ∃ x, T.Noticed targets x
  saved : ∀ f, T.Saved targets f → c.s.fs f = none
  others : ∀ f, ¬ T.Saved targets f → c.s.fs f = T.s.fs f
  -- the saved files are those of the turn and what they do not replace
  aside : ∀ f n, T.SavedAt targets f n → c.s.saved f (T.suffix n) = T.s.fs f
  before : ∀ f suffix, (∀ n, T.SavedAt targets f n → T.suffix n ≠ suffix) →
    c.s.saved f suffix = T.s.saved f suffix
  ops : ∃ renames, c.s.ops = T.s.ops ++ renames ∧
    (∀ op ∈ renames, ∃ f suffix, op = .rename f suffix) ∧
    ∀ f suffix, .rename f suffix ∈ renames ↔ ∃ n, T.SavedAt targets f n ∧ T.suffix n = suffix
  tables : c.s.targets = T.s.targets ∧ c.s.templates = T.s.templates ∧
    c.s.valuesLastModified = T.s.valuesLastModified
  ticks : c.s.ticks = T.s.ticks + {f | T.Saved targets f}.ncard

/-- What a target asks for is not changed by the files saved before it: whose file is gone, a build
has been asked for already. -/
theorem Checked.asks_iff {targets : List Str} {c : Check Hash Time} (h : T.Checked targets c)
    (x : Str) :
    c.need_build = true ∨ Due T.env.sha1 T.last_modified (T.row x) c.s.fs
        (targetFile T.env T.opts x) ↔ ∃ z ∈ targets ++ [x], T.Asks z := by
  have hsnoc : (∃ z ∈ targets ++ [x], T.Asks z) ↔ (∃ z ∈ targets, T.Asks z) ∨ T.Asks x := by
    simp [or_and_right, exists_or]
  rw [hsnoc, ← h.need_build]
  by_cases hsaved : T.Saved targets (targetFile T.env T.opts x)
  · obtain ⟨-, y, hy, -⟩ := hsaved
    have := h.need_build.2 hy.asks
    simp [this]
  · rw [due_congr _ _ (h.others _ hsaved)]
    exact Iff.rfl

/-- Nor does it find a local file that was saved. -/
theorem Checked.changed_iff {targets : List Str} {c : Check Hash Time} (h : T.Checked targets c)
    (x : Str) : Local T.env.sha1 (T.row x) c.s.fs (targetFile T.env T.opts x) ↔
      ¬ T.Saved targets (targetFile T.env T.opts x) ∧ T.Changed x := by
  by_cases hsaved : T.Saved targets (targetFile T.env T.opts x)
  · simp [hsaved, Local, h.saved _ hsaved]
  · rw [local_congr _ (h.others _ hsaved)]
    simp [hsaved, Changed]

theorem not_saved_nil (f : File) : ¬ T.Saved [] f := fun ⟨_, x, hx, _⟩ => by
  simpa using hx.asks

theorem checked_nil : T.Checked [] ⟨false, false, T.s⟩ := by
  have hnoticed (x : Str) : ¬ T.Noticed [] x := fun h => by simpa using h.asks
  have hat (f : File) (n : Nat) : ¬ T.SavedAt [] f n := fun h => not_saved_nil f h.saved
  refine ⟨by simp, by simp [hnoticed], fun f hf => absurd hf (not_saved_nil f), fun _ _ => rfl,
    fun f n h => absurd h (hat f n), fun _ _ _ => rfl, ⟨[], by simp, by simp, by simp [hat]⟩,
    ⟨rfl, rfl, rfl⟩, ?_⟩
  simp [not_saved_nil]

/-- A target whose file stays as it is. -/
theorem Checked.keep {targets : List Str} {c : Check Hash Time} (h : T.Checked targets c) {x : Str}
    {b b' : Bool} (hbuild : b = true ↔ ∃ z ∈ targets ++ [x], T.Asks z)
    (hskip : b' = true ↔ T.opts.force = false ∧ ∃ y, T.Noticed (targets ++ [x]) y)
    (hold : T.Saving → T.Changed x → (∃ z ∈ targets ++ [x], T.Asks z) →
      T.Saved targets (targetFile T.env T.opts x)) :
    T.Checked (targets ++ [x]) ⟨b, b', c.s⟩ := by
  have hsaved (f : File) : T.Saved (targets ++ [x]) f ↔ T.Saved targets f := by
    rw [saved_snoc]
    refine or_iff_left_of_imp ?_
    rintro ⟨hsaving, rfl, hchanged, hasks⟩
    exact hold hsaving hchanged hasks
  have hat (f : File) (n : Nat) : T.SavedAt (targets ++ [x]) f n ↔ T.SavedAt targets f n := by
    rw [savedAt_snoc]
    refine or_iff_left ?_
    rintro ⟨hsaving, rfl, hchanged, hasks, hnew, -⟩
    exact hnew (hold hsaving hchanged hasks)
  obtain ⟨renames, hops, hrenames, hsaves⟩ := h.ops
  exact ⟨hbuild, hskip, by simpa only [hsaved] using h.saved, by simpa only [hsaved] using h.others,
    by simpa only [hat] using h.aside, by simpa only [hat] using h.before,
    ⟨renames, hops, hrenames, by simpa only [hat] using hsaves⟩, h.tables,
    by simpa only [hsaved] using h.ticks⟩

/-- A target whose local file is saved. -/
theorem Checked.save {targets : List Str} {c : Check Hash Time} (h : T.Checked targets c) {x : Str}
    {b : Bool} (hbuild : b = true ↔ ∃ z ∈ targets ++ [x], T.Asks z) (hsaving : T.Saving)
    (hchanged : T.Changed x) (hasks : ∃ z ∈ targets ++ [x], T.Asks z)
    (hnew : ¬ T.Saved targets (targetFile T.env T.opts x)) :
    T.Checked (targets ++ [x])
      ⟨b, c.no_build, rename T.env (targetFile T.env T.opts x) c.s⟩ := by
  have hsnoc (f : File) : T.Saved (targets ++ [x]) f ↔
      f = targetFile T.env T.opts x ∨ T.Saved targets f := by
    rw [saved_snoc, or_comm, @eq_comm _ f]
    exact or_congr_left ⟨fun hf => hf.2.1, fun hf => ⟨hsaving, hf, hchanged, hasks⟩⟩
  have hat (f : File) (n : Nat) : T.SavedAt (targets ++ [x]) f n ↔ T.SavedAt targets f n ∨
      f = targetFile T.env T.opts x ∧ n = {g | T.Saved targets g}.ncard := by
    rw [savedAt_snoc, @eq_comm _ f]
    refine or_congr_right ⟨fun hf => ⟨hf.2.1, hf.2.2.2.2.2⟩, fun ⟨hf, hn⟩ => ?_⟩
    exact ⟨hsaving, hf, hchanged, hasks, hf ▸ hnew, hn⟩
  have hsuffix : T.env.strftime (now T.env c.s) = T.suffix {g | T.Saved targets g}.ncard := by
    rw [now, h.ticks]
    rfl
  have hforce : T.opts.force ≠ false := by simp [hsaving.1]
  refine ⟨hbuild, ?_, fun f hf => ?_, fun f hf => ?_, fun f n hf => ?_, fun f suffix hf => ?_, ?_,
    h.tables, ?_⟩
  · simp [h.no_build, hforce]
  · simp only [rename]
    split
    · rfl
    · rename_i hne
      exact h.saved f (((hsnoc f).1 hf).resolve_left hne)
  · rw [hsnoc, not_or] at hf
    simp only [rename]
    rw [if_neg hf.1]
    exact h.others f hf.2
  · simp only [rename, hsuffix]
    rcases (hat f n).1 hf with hf | ⟨rfl, rfl⟩
    · have hne : f ≠ targetFile T.env T.opts x := fun heq => hnew (heq ▸ hf.saved)
      rw [if_neg fun hsame => hne hsame.1]
      exact h.aside f n hf
    · rw [if_pos ⟨rfl, rfl⟩]
      exact h.others _ hnew
  · simp only [rename, hsuffix]
    have hother : ¬ (f = targetFile T.env T.opts x ∧
        suffix = T.suffix {g | T.Saved targets g}.ncard) := fun ⟨hfile, hsame⟩ =>
      hf _ ((hat f _).2 (.inr ⟨hfile, rfl⟩)) hsame.symm
    rw [if_neg hother]
    exact h.before f suffix fun n hn => hf n ((hat f n).2 (.inl hn))
  · obtain ⟨renames, hops, hrenames, hsaves⟩ := h.ops
    refine ⟨renames ++ [.rename (targetFile T.env T.opts x) (T.env.strftime (now T.env c.s))], ?_,
      ?_, fun f suffix => ?_⟩
    · simp [rename, hops]
    · simpa [or_imp, forall_and] using hrenames
    · simp only [List.mem_append, hsaves, hat, hsuffix, List.mem_singleton, FileOp.rename.injEq,
        or_and_right, exists_or]
      refine or_congr_right ⟨fun ⟨hfile, hsame⟩ => ⟨_, ⟨hfile, rfl⟩, hsame.symm⟩, ?_⟩
      rintro ⟨_, ⟨hfile, rfl⟩, hsame⟩
      exact ⟨hfile, hsame.symm⟩
  · have hset : {f | T.Saved (targets ++ [x]) f} =
        insert (targetFile T.env T.opts x) {f | T.Saved targets f} := Set.ext hsnoc
    have hncard := Set.ncard_insert_of_notMem (s := {f | T.Saved targets f}) hnew
      (saved_finite targets)
    rw [hset, hncard]
    simp only [rename, h.ticks]
    omega

/-! ## How far the loop gets -/

section

variable (T)

/-- SQLite refuses the query, or the comparison of the times of a target raises. -/
def Raised : Prop :=
  (∃ e, T.rows = .error e) ∨ ∃ x ∈ T.t.target_list, Raises T.last_modified (T.row x)

/-- The targets that the loop gets behind. -/
def looked : List Str :=
  if T.t.name ∉ T.opts.master_template_list then []
  else
    match T.rows with
    | .error _ => []
    | .ok _ => T.t.target_list.takeWhile fun x => ¬ Raises T.last_modified (T.row x)

end

theorem looked_of_not_raised (hname : T.t.name ∈ T.opts.master_template_list)
    (hok : ¬ T.Raised) : T.looked = T.t.target_list := by
  unfold looked
  rw [if_neg (not_not.2 hname)]
  cases hrows : T.rows with
  | error e => exact absurd (.inl ⟨e, hrows⟩) hok
  | ok target_db_list =>
    refine List.takeWhile_eq_self_iff.2 fun x hx => ?_
    simpa using fun hraises => hok (.inr ⟨x, hx, hraises⟩)

end Turn

variable [DecidableEq Hash]

/-! ## One target -/

section examine

variable {last_modified : Option Time} {row : Option (TargetInfo Hash Time)}

theorem examine_raises {hash : Option Hash} {b : Bool} (h : Raises last_modified row) :
    examine last_modified row hash b = none := by
  obtain ⟨r, rfl, hlater⟩ := h
  simp [examine, hlater]

/-- A target that does not raise: whether a build has been asked for, and whether its file is
local. -/
theorem examine_spec (sha1 : Str → Hash) (fs : File → Option Str) (f : File) (b : Bool)
    (h : ¬ Raises last_modified row) :
    ∃ b' msg, examine last_modified row ((fs f).map sha1) b = some (b', msg) ∧
      (b' = true ↔ b = true ∨ Due sha1 last_modified row fs f) ∧
      (msg.isSome = true ↔ Local sha1 row fs f) := by
  unfold examine Due Local
  cases row with
  | none => cases hfs : fs f <;> simp
  | some r =>
    cases hlater : later last_modified r.last_built with
    | none => exact absurd ⟨r, rfl, hlater⟩ h
    | some old =>
      cases hfs : fs f with
      | none => simp [hlater]
      | some content =>
        by_cases hhash : r.hash = some (sha1 content)
        · simp [hhash, hlater]
        · simp [hhash, Ne.symm hhash, hlater]

end examine

namespace Turn

variable (T : Turn Hash Time)

def result : Except (Error × System Hash Time) (System Hash Time) :=
  configTemplate T.env T.package T.opts T.last_modified T.template_db_list T.s T.t

/-- One turn of the loop over the targets. -/
def look (c : Check Hash Time) (target : Str) :
    Except (Error × System Hash Time) (Check Hash Time) :=
  checkTarget T.env T.opts T.last_modified T.row c target

variable {T}

/-- **One target.** -/
theorem look_checked {targets : List Str} {c : Check Hash Time} (h : T.Checked targets c) (x : Str)
    (hok : ¬ Raises T.last_modified (T.row x)) :
    ∃ c', T.look c x = .ok c' ∧ T.Checked (targets ++ [x]) c' := by
  obtain ⟨b, msg, hexamine, hbuild, hmsg⟩ :=
    examine_spec T.env.sha1 c.s.fs (targetFile T.env T.opts x) c.need_build hok
  rw [h.asks_iff] at hbuild
  rw [h.changed_iff] at hmsg
  simp only [look, checkTarget, hexamine]
  by_cases hfound : b = true ∧ msg.isSome = true
  · rw [if_pos hfound]
    obtain ⟨hnew, hchanged⟩ := hmsg.1 hfound.2
    have hasks := hbuild.1 hfound.1
    by_cases hforce : T.opts.force = true
    · rw [if_neg (by simp [hforce])]
      by_cases hsaving : T.opts.no_backups = true ∨ T.opts.dry_run = true
      · rw [if_pos hsaving]
        refine ⟨_, rfl, h.keep hbuild (by simp [h.no_build, hforce]) fun hs => ?_⟩
        rcases hsaving with hb | hd
        · exact absurd hs.2.1 (by simp [hb])
        · exact absurd hs.2.2 (by simp [hd])
      · rw [if_neg hsaving]
        simp only [not_or, Bool.not_eq_true] at hsaving
        exact ⟨_, rfl, h.save hbuild ⟨hforce, hsaving⟩ hchanged hasks hnew⟩
    · rw [if_pos hforce]
      simp only [Bool.not_eq_true] at hforce
      have hnoticed : ∃ y, T.Noticed (targets ++ [x]) y :=
        ⟨x, noticed_snoc.2 (.inr ⟨rfl, hchanged, hasks⟩)⟩
      refine ⟨_, rfl, h.keep hbuild (by simp [hforce, hnoticed]) fun hs => ?_⟩
      exact absurd hs.1 (by simp [hforce])
  · rw [if_neg hfound]
    have hold : T.Changed x → (∃ z ∈ targets ++ [x], T.Asks z) →
        T.Saved targets (targetFile T.env T.opts x) := by
      intro hchanged hasks
      by_contra hnew
      exact hfound ⟨hbuild.2 hasks, hmsg.2 ⟨hnew, hchanged⟩⟩
    refine ⟨_, rfl, h.keep hbuild ?_ fun _ => hold⟩
    rw [h.no_build]
    refine and_congr_right fun hforce => exists_congr fun y => ?_
    rw [noticed_snoc]
    refine ⟨.inl, fun hy => hy.resolve_right ?_⟩
    rintro ⟨-, hchanged, hasks⟩
    have := (hold hchanged hasks).1.1
    simp [hforce] at this

/-- **The loop over the targets** ends behind the last one, or where a comparison raises. -/
theorem looks_checked {targets : List Str} {c : Check Hash Time} (h : T.Checked targets c)
    (xs : List Str) :
    ((∀ x ∈ xs, ¬ Raises T.last_modified (T.row x)) ∧
        ∃ c', xs.foldlM T.look c = .ok c' ∧ T.Checked (targets ++ xs) c') ∨
      (∃ x ∈ xs, Raises T.last_modified (T.row x)) ∧
        ∃ c', xs.foldlM T.look c = .error (.typeError, c'.s) ∧
          T.Checked (targets ++ xs.takeWhile fun x => ¬ Raises T.last_modified (T.row x)) c' := by
  induction xs generalizing targets c with
  | nil => exact .inl ⟨by simp, c, rfl, by simpa using h⟩
  | cons x xs ih =>
    rw [foldlM_cons]
    by_cases hraises : Raises T.last_modified (T.row x)
    · refine .inr ⟨⟨x, List.mem_cons_self .., hraises⟩, c, ?_, ?_⟩
      · simp only [look, checkTarget, examine_raises hraises]
      · simpa [hraises] using h
    · obtain ⟨c', hlook, h'⟩ := look_checked h x hraises
      rw [hlook]
      rcases ih h' with ⟨hok, c'', hrun, h''⟩ | ⟨⟨y, hy, hraise⟩, c'', hrun, h''⟩
      · refine .inl ⟨?_, c'', hrun, by simpa using h''⟩
        rintro y hy
        rcases List.mem_cons.1 hy with rfl | hy
        · exact hraises
        · exact hok y hy
      · refine .inr ⟨⟨y, List.mem_cons_of_mem _ hy, hraise⟩, c'', hrun, ?_⟩
        simpa [hraises] using h''

variable (T)

/-- Nothing asks for a build. -/
def Idle : Prop :=
  T.opts.dest_rootdir = [] ∧
    templateDue T.env T.opts T.t (T.template_db_list T.t.name) = false ∧
    ∀ x ∈ T.t.target_list, ¬ T.Asks x

/-- A local file stands in the way of a build without `force`. -/
def Blocked : Prop := T.opts.force = false ∧ ∃ x, T.Noticed T.t.target_list x

/-- The turn ends before the template is rendered. -/
def Skips : Prop :=
  T.t.name ∉ T.opts.master_template_list ∨ T.opts.dry_run = true ∨ T.Raised ∨ T.Idle ∨ T.Blocked

/-- **Every way a turn can end**: the template is not asked for; the query or a comparison raises;
the build is blocked or only tried; nothing asks for one; or the template is rendered. -/
theorem result_cases : ∃ c, T.Checked T.looked c ∧
    (T.t.name ∉ T.opts.master_template_list ∧ T.result = .ok T.s ∧ c.s = T.s ∨
      T.t.name ∈ T.opts.master_template_list ∧
        (T.Raised ∧ (∃ e, T.result = .error (e, c.s)) ∨
          ¬ T.Raised ∧ T.looked = T.t.target_list ∧
            ((T.Blocked ∨ T.opts.dry_run = true) ∧ T.result = .ok c.s ∨
              T.opts.dry_run = false ∧ T.Idle ∧ T.result = .ok (markChecked T.env T.package T.t
                (T.template_db_list T.t.name) T.row c.s) ∨
              ¬ T.Skips ∧ T.result =
                if T.opts.dest_rootdir ≠ [] then .ok (renderTemplate T.env T.opts T.t c.s)
                else record T.env T.package T.t (T.template_db_list T.t.name).isSome
                  (renderTemplate T.env T.opts T.t c.s)))) := by
  by_cases hname : T.t.name ∉ T.opts.master_template_list
  · refine ⟨⟨false, false, T.s⟩, ?_, .inl ⟨hname, ?_, rfl⟩⟩
    · simpa [looked, hname] using checked_nil
    · rw [result, configTemplate, if_pos hname]
  have hasked := not_not.1 hname
  cases hrows : T.rows with
  | error e =>
    refine ⟨⟨false, false, T.s⟩, ?_, .inr ⟨hasked, .inl ⟨.inl ⟨e, hrows⟩, e, ?_⟩⟩⟩
    · simpa [looked, hasked, hrows] using checked_nil
    · rw [rows] at hrows
      simp only [result, configTemplate, if_neg hname, hrows]
  | ok target_db_list =>
    obtain rfl : T.row = target_db_list := funext fun x => by rw [row, hrows]
    have hgiven : getTargets T.env T.package T.t.name T.s = .ok T.row := hrows
    have hlook : T.look = checkTarget T.env T.opts T.last_modified T.row := rfl
    rcases looks_checked T.checked_nil T.t.target_list with
      ⟨hok, c, hrun, hc⟩ | ⟨hraises, c, hrun, hc⟩
    · have hraised : ¬ T.Raised := by
        rintro (⟨e, he⟩ | ⟨x, hx, hraises⟩)
        · rw [hrows] at he
          cases he
        · exact hok x hx hraises
      have hlooked := looked_of_not_raised hasked hraised
      refine ⟨c, hlooked ▸ hc, .inr ⟨hasked, .inr ⟨hraised, hlooked, ?_⟩⟩⟩
      rw [List.nil_append] at hc
      rw [hlook] at hrun
      simp only [result, configTemplate, if_neg hname, hgiven, hrun]
      by_cases hskip : c.no_build = true
      · rw [if_pos hskip]
        exact .inl ⟨.inl (hc.no_build.1 hskip), rfl⟩
      rw [if_neg hskip]
      by_cases hdry : T.opts.dry_run = true
      · rw [if_pos hdry]
        exact .inl ⟨.inr hdry, rfl⟩
      rw [if_neg hdry]
      by_cases hidle : ¬ (c.need_build ||
          templateDue T.env T.opts T.t (T.template_db_list T.t.name)) ∧ T.opts.dest_rootdir = []
      · rw [if_pos hidle]
        simp only [Bool.or_eq_true, not_or, Bool.not_eq_true] at hidle
        obtain ⟨⟨hneed, hdue⟩, hdest⟩ := hidle
        refine .inr (.inl ⟨by simpa using hdry, ⟨hdest, hdue, fun x hx hask => ?_⟩, rfl⟩)
        have := hc.need_build.2 ⟨x, hx, hask⟩
        simp [hneed] at this
      · rw [if_neg hidle]
        refine .inr (.inr ⟨?_, rfl⟩)
        rintro (h | h | h | ⟨hdest, hdue, h⟩ | h)
        · exact hname h
        · exact hdry h
        · exact hraised h
        · refine hidle ⟨?_, hdest⟩
          simp only [Bool.or_eq_true, hdue, or_false, Bool.false_eq_true]
          intro hneed
          obtain ⟨x, hx, hask⟩ := hc.need_build.1 hneed
          exact h x hx hask
        · exact hskip (hc.no_build.2 h)
    · refine ⟨c, ?_, .inr ⟨hasked, .inl ⟨.inr hraises, .typeError, ?_⟩⟩⟩
      · simpa [looked, hasked, hrows] using hc
      · rw [hlook] at hrun
        simp only [result, configTemplate, if_neg hname, hgiven, hrun]

end Turn

end LibConfig
