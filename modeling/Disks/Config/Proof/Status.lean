import Disks.Config.Proof.Rebuild
import Mathlib.Data.List.Nodup

/-!
# The report and the build

`getTargetStatus` decides on its own what a build would find. A template is `Reported` if one of its
targets is, and `Rebuilt` if the call renders it; `Turn.Finds` is the loop's message that a target
has local changes. Both are about the state before the call, where a turn of the template would be
its `start`.

* `entry_spec`: what the report says of a target. `reported_iff`, `reportedLocal_iff`.
* `Turn.finds_iff`: when the loop finds local changes.
* `mem_turns`, `turns_unique`: the turns of a call.
* `agrees_iff`: **the report before a call with `force` agrees with the call exactly when they are
  `Comparable`.**
-/

namespace LibConfig

open Path Fold

/-! ## What the report sees -/

section seen

variable {Hash Time : Type}

/-- What a query has for a name, if SQLite answers it. -/
def answer {α : Type} : Except Error (Str → Option α) → Str → Option α
  | .ok rows => rows
  | .error _ => fun _ => none

variable (env : Env Hash Time) (package : Package) (t : Template) (s : System Hash Time)

def timeSeen : Option Time := (getLastModified s).toOption.join

def templateSeen : Option (Option Hash) := answer (getTemplates env package.name s) t.name

def rowSeen (target : Str) : Option (TargetInfo Hash Time) :=
  answer (getTargets env package.name t.name s) target

/-- The comparison of the target's times raises in the report. -/
def StatusRaises (target : Str) : Prop :=
  templateSeen env package t s ≠ none ∧ timeSeen s ≠ none ∧
    ∃ row, rowSeen env package t s target = some row ∧ row.last_built = none

/-- The report raises: the time of the values cannot be read, SQLite refuses a query for a template
of the package or of its rows, or a comparison raises. -/
def Unreported : Prop :=
  (∃ e, getLastModified s = .error e) ∨ (∃ e, getTemplates env package.name s = .error e) ∨
    (∃ t ∈ package.templates, (∃ e, getTargets env package.name t.name s = .error e) ∨
      ∃ x ∈ t.target_list, StatusRaises env package t s x) ∨
    ∃ rows, selectTemplates env package.name s = .ok rows ∧
      ∃ r ∈ rows, ∃ e, selectTargets env package.name r.template s = .error e

variable {env package t s}

theorem Turn.row_eq (T : Turn Hash Time) : T.row = answer T.rows := by
  funext x
  unfold row answer
  cases T.rows <;> rfl

theorem not_statusRaises (h : ¬ Unreported env package s) (ht : t ∈ package.templates) {x : Str}
    (hx : x ∈ t.target_list) : ¬ StatusRaises env package t s x :=
  fun hraises => h (.inr (.inr (.inl ⟨t, ht, .inr ⟨x, hx, hraises⟩⟩)))

theorem staleStatus_ok_iff {template : Str} : (∃ l, staleStatus env package s template = .ok l) ↔
    ¬ ∃ e, selectTargets env package.name template s = .error e := by
  unfold staleStatus
  cases selectTargets env package.name template s <;> simp

theorem mem_sorted {names : List Str} {name : Str} : name ∈ sorted names ↔ name ∈ names := by
  simp [sorted]

/-- The parts of the agreement on what asks for a build. -/
theorem quiet_iff {P Q : Prop} (hbare : t.target_list = [] → Q)
    (hunknown : (∃ x ∈ t.target_list, rowSeen env package t s x = none) → ¬ Q) :
    (P ↔ Q) ↔ (t.target_list = [] → P) ∧
      ((∃ x ∈ t.target_list, rowSeen env package t s x = none) → ¬ P) ∧
      (t.target_list ≠ [] → (∀ x ∈ t.target_list, rowSeen env package t s x ≠ none) →
        (P ↔ Q)) := by
  refine ⟨fun h => ⟨fun hnil => h.2 (hbare hnil), fun hnone => mt h.1 (hunknown hnone),
    fun _ _ => h⟩, fun ⟨hp, hnp, h⟩ => ?_⟩
  by_cases hnil : t.target_list = []
  · exact iff_of_true (hp hnil) (hbare hnil)
  by_cases hnone : ∃ x ∈ t.target_list, rowSeen env package t s x = none
  · exact iff_of_false (hnp hnone) (hunknown hnone)
  · exact h hnil fun x hx heq => hnone ⟨x, hx, heq⟩

/-- The turn of the template if the call started with it. -/
def start (env : Env Hash Time) (package : Package) (opts : Options) (s : System Hash Time)
    (t : Template) : Turn Hash Time :=
  ⟨env, package.name, opts, timeSeen s, answer (getTemplates env package.name s), s, t⟩

theorem start_row (opts : Options) (x : Str) :
    (start env package opts s t).row x = rowSeen env package t s x := by
  rw [Turn.row_eq]
  rfl

end seen

/-! ## The report -/

section report

variable {Hash Time : Type} [LinearOrder Time] [DecidableEq Hash] (env : Env Hash Time)
  (package : Package) (t : Template) (s : System Hash Time)

/-- The entry says that the target is to be updated or has changed. -/
def Status.Flagged (r : Status Time) : Prop :=
  r.need_update = .yes ∨ r.localmod = .yes ∨ r.localmod = .missing

/-- The report has a target of the template to update or changed. -/
def Reported : Prop :=
  ∃ results, getTargetStatus env package s = .ok results ∧
    ∃ r ∈ results, r.template = t.name ∧ r.refrenced = true ∧ r.Flagged

/-- The report has the target of the template as locally modified. -/
def ReportedLocal (target : Str) : Prop :=
  ∃ results, getTargetStatus env package s = .ok results ∧
    ∃ r ∈ results, r.template = t.name ∧ r.refrenced = true ∧ r.target = target ∧
      r.localmod = .yes

/-- The report flags the target: its template or itself has no row, its file is missing or not that
of its row, or the row or the template is old. -/
def Outdated (target : Str) : Prop :=
  templateSeen env package t s = none ∨ rowSeen env package t s target = none ∨
    Due env.sha1 (timeSeen s) (rowSeen env package t s target) s.fs (statusFile env target) ∨
    timeSeen s ≠ none ∧ templateSeen env package t s ≠ some (some (env.sha1 t.source))

/-- The entry of a target. -/
def entry (target : Str) : Except Error (Status Time) :=
  targetStatus env (timeSeen s) (templateSeen env package t s) (rowSeen env package t s) t s target

variable {package t s} in
theorem entry_raises {x : Str} (h : StatusRaises env package t s x) :
    entry env package t s x = .error .typeError := by
  obtain ⟨htemplate, hvalues, row, hrow, hbuilt⟩ := h
  obtain ⟨hash, hhash⟩ := Option.ne_none_iff_exists'.1 htemplate
  obtain ⟨m, hm⟩ := Option.ne_none_iff_exists'.1 hvalues
  simp [entry, targetStatus, hhash, hrow, hm, hbuilt]

variable {package t s} in
/-- **What the report says of a target.** -/
theorem entry_spec {x : Str} (h : ¬ StatusRaises env package t s x) :
    ∃ r, entry env package t s x = .ok r ∧
      r.template = t.name ∧ r.target = x ∧ r.refrenced = true ∧
      (r.Flagged ↔ Outdated env package t s x) ∧
      (r.localmod = .yes ↔ templateSeen env package t s ≠ none ∧ rowSeen env package t s x ≠ none ∧
        Local env.sha1 (rowSeen env package t s x) s.fs (statusFile env x)) := by
  unfold Outdated entry
  cases htemplate : templateSeen env package t s with
  | none => simp [targetStatus, Status.Flagged]
  | some hash =>
    cases hrow : rowSeen env package t s x with
    | none => simp [targetStatus, hrow, Status.Flagged]
    | some row =>
      cases hvalues : timeSeen s with
      | none =>
        cases hfs : s.fs (statusFile env x) with
        | none => simp [targetStatus, hrow, hfs, Status.Flagged, Due, Local]
        | some content =>
          by_cases hhash : row.hash = some (env.sha1 content) <;>
            simp [targetStatus, hrow, hfs, hhash, Status.Flagged, Due, Local, later]
      | some m =>
        cases hbuilt : row.last_built with
        | none => exact absurd ⟨by simp [htemplate], by simp [hvalues], row, hrow, hbuilt⟩ h
        | some built =>
          have hmodified : some (env.sha1 t.source) ≠ hash ↔ hash ≠ some (env.sha1 t.source) :=
            ne_comm
          cases hfs : s.fs (statusFile env x) with
          | none => simp [targetStatus, hrow, hfs, hbuilt, Status.Flagged, Due, Local]
          | some content =>
            by_cases hhash : row.hash = some (env.sha1 content)
            · simp [targetStatus, hrow, hfs, hhash, hbuilt, hmodified, Status.Flagged, Due, Local,
                later]
              rw [← not_lt, ← or_iff_not_imp_left]
            · simp [targetStatus, hrow, hfs, hhash, hbuilt, Status.Flagged, Due, Local]

variable {env package t s}

theorem entry_ok_iff {x : Str} :
    (∃ r, entry env package t s x = .ok r) ↔ ¬ StatusRaises env package t s x := by
  refine ⟨fun ⟨r, hr⟩ hraises => ?_, fun h => ?_⟩
  · rw [entry_raises env hraises] at hr
    cases hr
  · obtain ⟨r, hr, -⟩ := entry_spec env h
    exact ⟨r, hr⟩

theorem entry_ok {x : Str} {r : Status Time} (h : entry env package t s x = .ok r) :
    r.template = t.name ∧ r.target = x ∧ r.refrenced = true := by
  obtain ⟨r', hr', htemplate, htarget, hrefrenced, -⟩ := entry_spec env (entry_ok_iff.1 ⟨r, h⟩)
  obtain rfl : r' = r := Except.ok.inj (hr'.symm.trans h)
  exact ⟨htemplate, htarget, hrefrenced⟩

/-! ## The loops of the report -/

/-- The entries of a template's targets. -/
theorem templateStatus_eq {m : Option Time} {db : Str → Option (Option Hash)}
    (hm : getLastModified s = .ok m) (hdb : getTemplates env package.name s = .ok db) :
    templateStatus env package.name m db s t =
      match getTargets env package.name t.name s with
      | .error e => .error e
      | .ok _ => t.target_list.mapM (entry env package t s) := by
  unfold templateStatus
  cases hrows : getTargets env package.name t.name s with
  | error e => rfl
  | ok rows =>
    have hentry : entry env package t s = targetStatus env m (db t.name) rows t s := by
      funext x
      rw [entry, timeSeen, templateSeen, hm, hdb]
      unfold rowSeen
      rw [hrows]
      rfl
    simp only [hentry]

theorem templateStatus_ok_iff {m : Option Time} {db : Str → Option (Option Hash)}
    (hm : getLastModified s = .ok m) (hdb : getTemplates env package.name s = .ok db) :
    (∃ l, templateStatus env package.name m db s t = .ok l) ↔
      ¬ ((∃ e, getTargets env package.name t.name s = .error e) ∨
        ∃ x ∈ t.target_list, StatusRaises env package t s x) := by
  rw [templateStatus_eq hm hdb]
  cases getTargets env package.name t.name s with
  | error e => simp
  | ok rows =>
    simp only [mapM_ok_iff, entry_ok_iff]
    simp

/-- The report comes back unless it is `Unreported`. -/
theorem getTargetStatus_ok_iff :
    (∃ results, getTargetStatus env package s = .ok results) ↔ ¬ Unreported env package s := by
  unfold getTargetStatus Unreported
  cases hm : getLastModified s with
  | error e => simp [bind, Except.bind]
  | ok m =>
    cases hrows : selectTemplates env package.name s with
    | error e => simp [getTemplates, hrows, bind, Except.bind, Except.map]
    | ok rows =>
      obtain ⟨db, hdb⟩ : ∃ db, getTemplates env package.name s = .ok db :=
        ⟨_, by rw [getTemplates, hrows]; rfl⟩
      have hresults : (∃ results, package.templates.mapM
            (templateStatus env package.name m db s) = .ok results) ↔
          ¬ ∃ t ∈ package.templates, (∃ e, getTargets env package.name t.name s = .error e) ∨
            ∃ x ∈ t.target_list, StatusRaises env package t s x := by
        rw [mapM_ok_iff]
        push Not
        refine forall₂_congr fun t _ => ?_
        rw [templateStatus_ok_iff hm hdb]
        push Not
        rfl
      have hstale : (∃ stale, (sorted (rows.map (·.template))).mapM
            (staleStatus env package s) = .ok stale) ↔
          ¬ ∃ r ∈ rows, ∃ e, selectTargets env package.name r.template s = .error e := by
        rw [mapM_ok_iff]
        simp only [mem_sorted, staleStatus_ok_iff, List.forall_mem_map]
        push Not
        rfl
      have hbind : (∃ results, (do
            let results ← package.templates.mapM (templateStatus env package.name m db s)
            let stale ← (sorted (rows.map (·.template))).mapM (staleStatus env package s)
            pure (results.flatten ++ stale.flatten) : Except Error (List (Status Time))) =
              .ok results) ↔
          (∃ results, package.templates.mapM (templateStatus env package.name m db s) =
            .ok results) ∧ ∃ stale, (sorted (rows.map (·.template))).mapM
              (staleStatus env package s) = .ok stale := by
        simp only [bind_ok, pure_ok]
        constructor
        · rintro ⟨_, results, hr, stale, hs, -⟩
          exact ⟨⟨results, hr⟩, stale, hs⟩
        · rintro ⟨⟨results, hr⟩, stale, hs⟩
          exact ⟨_, results, hr, stale, hs, rfl⟩
      simp only [hdb]
      refine Iff.trans hbind ?_
      rw [hresults, hstale]
      simp

/-- The entries of targets that the templates have. -/
theorem mem_getTargetStatus {results : List (Status Time)}
    (h : getTargetStatus env package s = .ok results) {r : Status Time} (hr : r.refrenced = true) :
    r ∈ results ↔ ∃ t ∈ package.templates, ∃ x ∈ t.target_list,
      entry env package t s x = .ok r := by
  unfold getTargetStatus at h
  simp only [bind_ok, pure_ok] at h
  obtain ⟨m, hm, db, hdb, rows, hrows, shown, hshown, stale, hstale, rfl⟩ := h
  have hnot : r ∉ stale.flatten := by
    intro hmem
    obtain ⟨l, hl, hmem⟩ := List.mem_flatten.1 hmem
    obtain ⟨name, -, hname⟩ := (mem_mapM hstale l).1 hl
    unfold staleStatus at hname
    split at hname
    · cases hname
    · cases hname
      obtain ⟨x, -, rfl⟩ := List.mem_map.1 hmem
      cases hr
  have hmem (t : Template) (l : List (Status Time))
      (hl : templateStatus env package.name m db s t = .ok l) :
      r ∈ l ↔ ∃ x ∈ t.target_list, entry env package t s x = .ok r := by
    rw [templateStatus_eq hm hdb] at hl
    split at hl
    · cases hl
    · exact mem_mapM hl r
  simp only [List.mem_append, hnot, or_false, List.mem_flatten, mem_mapM hshown]
  constructor
  · rintro ⟨l, ⟨t, ht, hl⟩, hr⟩
    exact ⟨t, ht, (hmem t l hl).1 hr⟩
  · rintro ⟨t, ht, hx⟩
    obtain ⟨l, hl⟩ := mapM_ok_iff.1 ⟨_, hshown⟩ t ht
    exact ⟨l, ⟨t, ht, hl⟩, (hmem t l hl).2 hx⟩

/-- The entries of a template's targets. -/
theorem exists_status_iff (ht : t ∈ package.templates) (P : Status Time → Prop) :
    (∃ results, getTargetStatus env package s = .ok results ∧
      ∃ r ∈ results, r.template = t.name ∧ r.refrenced = true ∧ P r) ↔
      ¬ Unreported env package s ∧ ∃ x ∈ t.target_list, ∃ r,
        entry env package t s x = .ok r ∧ P r := by
  rw [← show (∃ results, getTargetStatus env package s = .ok results) ↔ _ from
    getTargetStatus_ok_iff]
  constructor
  · rintro ⟨results, hresults, r, hr, hname, hrefrenced, hP⟩
    obtain ⟨t', ht', x, hx, hentry⟩ := (mem_getTargetStatus hresults hrefrenced).1 hr
    obtain ⟨htemplate, -, -⟩ := entry_ok hentry
    obtain rfl : t' = t :=
      List.inj_on_of_nodup_map package.nodup ht' ht (htemplate.symm.trans hname)
    exact ⟨⟨results, hresults⟩, x, hx, r, hentry, hP⟩
  · rintro ⟨⟨results, hresults⟩, x, hx, r, hentry, hP⟩
    obtain ⟨htemplate, -, hrefrenced⟩ := entry_ok hentry
    have hr := (mem_getTargetStatus hresults hrefrenced).2 ⟨t, ht, x, hx, hentry⟩
    exact ⟨results, hresults, r, hr, htemplate, hrefrenced, hP⟩

/-- **What the report says of a template.** -/
theorem reported_iff (ht : t ∈ package.templates) : Reported env package t s ↔
    ¬ Unreported env package s ∧ ∃ x ∈ t.target_list, Outdated env package t s x := by
  unfold Reported
  rw [exists_status_iff ht]
  refine and_congr_right fun hraises => exists_congr fun x => and_congr_right fun hx => ?_
  obtain ⟨r, hr, -, -, -, hflagged, -⟩ := entry_spec env (not_statusRaises hraises ht hx)
  simpa [hr] using hflagged

theorem reportedLocal_iff (ht : t ∈ package.templates) {x : Str} (hx : x ∈ t.target_list) :
    ReportedLocal env package t s x ↔ ¬ Unreported env package s ∧
      templateSeen env package t s ≠ none ∧ rowSeen env package t s x ≠ none ∧
      Local env.sha1 (rowSeen env package t s x) s.fs (statusFile env x) := by
  unfold ReportedLocal
  rw [exists_status_iff ht fun r => r.target = x ∧ r.localmod = .yes]
  refine and_congr_right fun hraises => ?_
  obtain ⟨r, hr, -, htarget, -, -, hlocal⟩ := entry_spec env (not_statusRaises hraises ht hx)
  rw [← hlocal]
  constructor
  · rintro ⟨y, -, r', hr', htarget', hlocal'⟩
    obtain rfl : y = x := (entry_ok hr').2.1.symm.trans htarget'
    obtain rfl : r' = r := Except.ok.inj (hr'.symm.trans hr)
    exact hlocal'
  · exact fun h => ⟨x, hx, r, hr, htarget, h⟩

end report

variable {Hash Time : Type} [LinearOrder Time] [DecidableEq Hash]

/-! ## What the loop over the targets finds -/

/-- When the message is that the target has local changes. -/
theorem examine_localChanges_iff (sha1 : Str → Hash) (fs : File → Option Str) (f : File) (b : Bool)
    (last_modified : Option Time) (row : Option (TargetInfo Hash Time)) :
    (∃ b', examine last_modified row ((fs f).map sha1) b = some (b', some .localChanges)) ↔
      ¬ Raises last_modified row ∧ row ≠ none ∧ Local sha1 row fs f := by
  unfold examine Raises Local
  cases row with
  | none => cases fs f <;> simp
  | some r =>
    cases hlater : later last_modified r.last_built with
    | none => simp [hlater]
    | some old =>
      cases hfs : fs f with
      | none => simp [hlater]
      | some content =>
        by_cases hhash : r.hash = some (sha1 content)
        · simp [hlater, hhash]
        · simp [hlater, hhash, Ne.symm hhash]

namespace Turn

variable (T : Turn Hash Time)

/-- The loop says that the target has local changes. -/
def Finds (target : Str) : Prop :=
  ∃ before rest c b, T.t.target_list = before ++ target :: rest ∧
    before.foldlM T.look ⟨false, false, T.s⟩ = .ok c ∧
    examine T.last_modified (T.row target)
      ((c.s.fs (targetFile T.env T.opts target)).map T.env.sha1) c.need_build =
      some (b, some .localChanges)

/-- The loop gets to the target before a comparison raises, and before its file is saved under
another name. -/
def Reaches (target : Str) : Prop :=
  ∃ before rest, T.t.target_list = before ++ target :: rest ∧
    (∀ x ∈ before ++ [target], ¬ Raises T.last_modified (T.row x)) ∧
    ¬ T.Saved before (targetFile T.env T.opts target)

variable {T}

theorem finds_iff (x : Str) : T.Finds x ↔ T.row x ≠ none ∧ T.Changed x ∧ T.Reaches x := by
  constructor
  · rintro ⟨before, rest, c, b, hsplit, hrun, hexamine⟩
    obtain ⟨hok, hrow, hlocal⟩ := (examine_localChanges_iff ..).1 ⟨b, hexamine⟩
    rcases looks_checked T.checked_nil before with ⟨hfront, c', hrun', hc⟩ | ⟨-, c', hrun', -⟩
    · obtain rfl : c = c' := Except.ok.inj (hrun.symm.trans hrun')
      obtain ⟨hsaved, hchanged⟩ := (hc.changed_iff x).1 hlocal
      refine ⟨hrow, hchanged, before, rest, hsplit, fun y hy => ?_, hsaved⟩
      rcases List.mem_append.1 hy with hy | hy
      · exact hfront y hy
      · exact List.mem_singleton.1 hy ▸ hok
    · cases hrun.symm.trans hrun'
  · rintro ⟨hrow, hchanged, before, rest, hsplit, hok, hsaved⟩
    rcases looks_checked T.checked_nil before with ⟨-, c, hrun, hc⟩ | ⟨⟨y, hy, hraises⟩, -⟩
    · obtain ⟨b, hexamine⟩ := (examine_localChanges_iff T.env.sha1 c.s.fs
        (targetFile T.env T.opts x) c.need_build T.last_modified (T.row x)).2
        ⟨hok x (by simp), hrow, (hc.changed_iff x).2 ⟨hsaved, hchanged⟩⟩
      exact ⟨before, rest, c, b, hsplit, hrun, hexamine⟩
    · exact absurd hraises (hok y (List.mem_append_left _ hy))

end Turn

/-! ## The turns of a call -/

section turns

variable {env : Env Hash Time} {package : Package} {opts : Options} {s : System Hash Time}

/-- What the turns of a call have in common. -/
theorem mem_turns {T : Turn Hash Time} (h : T ∈ turns env package opts s) :
    T.env = env ∧ T.package = package.name ∧ T.opts = opts ∧ T.last_modified = timeSeen s ∧
      T.template_db_list = answer (getTemplates env package.name s) ∧ T.t ∈ package.templates := by
  rcases configPackage_cases env package opts s with ⟨m, db, hm, hdb, hturns, -⟩ | ⟨hturns, -⟩
  · rw [hturns] at h
    rw [timeSeen, hm, hdb]
    exact mem_turnsFrom h
  · simp [hturns] at h

/-- A template has one turn. -/
theorem turns_unique {T T' : Turn Hash Time} (h : T ∈ turns env package opts s)
    (h' : T' ∈ turns env package opts s) (ht : T.t = T'.t) : T = T' := by
  have hfrom {m : Option Time} {db : Str → Option (Option Hash)} {templates : List Template}
      {s : System Hash Time} (hnodup : (templates.map (·.name)).Nodup)
      (h : T ∈ turnsFrom env package.name opts m db templates s)
      (h' : T' ∈ turnsFrom env package.name opts m db templates s) : T = T' := by
    induction templates generalizing s with
    | nil => simp [turnsFrom] at h
    | cons t templates ih =>
      rw [List.map_cons, List.nodup_cons] at hnodup
      unfold turnsFrom at h h'
      cases hresult : configTemplate env package.name opts m db s t with
      | error e =>
        simp only [hresult, List.mem_singleton] at h h'
        rw [h, h']
      | ok s₁ =>
        simp only [hresult, List.mem_cons] at h h'
        have hlater {T : Turn Hash Time} (hT : T ∈ turnsFrom env package.name opts m db templates
            s₁) : T.t ≠ t := by
          obtain ⟨-, -, -, -, -, hmem⟩ := mem_turnsFrom hT
          exact fun heq => hnodup.1 (heq ▸ List.mem_map_of_mem hmem)
        rcases h with rfl | h <;> rcases h' with rfl | h'
        · rfl
        · exact absurd ht.symm (hlater h')
        · exact absurd ht (hlater h)
        · exact ih hnodup.2 h h'
  rcases configPackage_cases env package opts s with ⟨m, db, -, -, hturns, -⟩ | ⟨hturns, -⟩
  · rw [hturns] at h h'
    exact hfrom package.nodup h h'
  · simp [hturns] at h

end turns

/-! ## The report and the call -/

namespace Turn

variable (T : Turn Hash Time)

/-- The report has nothing to say of the template: it has a row, and so has each target, of which
none asks for a build; and it is not modified, if the values have a time. -/
def Quiet : Prop :=
  ∀ x ∈ T.t.target_list, T.template_db_list T.t.name ≠ none ∧ T.row x ≠ none ∧ ¬ T.Asks x ∧
    (T.last_modified = none ∨ T.template_db_list T.t.name = some (some (T.env.sha1 T.t.source)))

variable {T}

theorem idle_iff (hre_generate : T.opts.re_generate = false) (hdest : T.opts.dest_rootdir = []) :
    T.Idle ↔ T.template_db_list T.t.name = some (some (T.env.sha1 T.t.source)) ∧
      ∀ x ∈ T.t.target_list, ¬ T.Asks x := by
  simp [Idle, hdest, templateDue, hre_generate]

/-- When a turn with `force` renders its template. -/
theorem not_skips_iff (hname : T.t.name ∈ T.opts.master_template_list)
    (hforce : T.opts.force = true) (hdry : T.opts.dry_run = false) :
    ¬ T.Skips ↔ ¬ T.Raised ∧ ¬ T.Idle := by
  simp [Skips, Blocked, hname, hforce, hdry]

/-- Of a turn the report is quiet where nothing asks for a build of its template, if that has
targets, which all have rows. -/
theorem idle_iff_quiet (hre_generate : T.opts.re_generate = false)
    (hdest : T.opts.dest_rootdir = []) (hraised : ¬ T.Raised) (htargets : T.t.target_list ≠ [])
    (hrows : ∀ x ∈ T.t.target_list, T.row x ≠ none) : T.Idle ↔ T.Quiet := by
  rw [idle_iff hre_generate hdest]
  obtain ⟨y, hy⟩ := List.exists_mem_of_ne_nil _ htargets
  have hm : T.last_modified ≠ none := by
    intro hm
    obtain ⟨r, hr⟩ := Option.ne_none_iff_exists'.1 (hrows y hy)
    exact hraised (.inr ⟨y, hy, r, hr, by rw [hm]; rfl⟩)
  constructor
  · rintro ⟨hsame, hasks⟩ x hx
    exact ⟨by simp [hsame], hrows x hx, hasks x hx, .inr hsame⟩
  · intro h
    exact ⟨(h y hy).2.2.2.resolve_left hm, fun x hx => (h x hx).2.2.1⟩

end Turn

section agree

variable (env : Env Hash Time) (package : Package) (opts : Options) (s : System Hash Time)
  (t : Template)

/-- The call renders the template. -/
def Rebuilt : Prop := ∃ T ∈ turns env package opts s, T.t = t ∧ ¬ T.Skips

/-- The call says that the target of the template has local changes. -/
def Found (target : Str) : Prop := ∃ T ∈ turns env package opts s, T.t = t ∧ T.Finds target

/-- The report before the call agrees with the call: it flags the template if and only if the call
renders it, it has those targets as modified that the call finds to be, and both look at the same
files. -/
structure Agrees : Prop where
  rebuilt : Rebuilt env package opts s t ↔ Reported env package t s
  changed : ∀ x ∈ t.target_list,
    ReportedLocal env package t s x ↔ Found env package opts s t x
  files : ∀ x ∈ t.target_list, statusFile env x = targetFile env opts x

/-- What it takes for the report to agree. -/
structure Comparable : Prop where
  -- no name is absolute, or the root directory is `/`
  names : ∀ x ∈ t.target_list, isAbsolute x = false ∨
    isAbsolute env.root_dir = true ∧ dirs env.root_dir = []
  -- where the call does not get to the template, or not behind its targets, the report raises too,
  -- or is quiet
  stopped : (∀ T ∈ turns env package opts s, T.t = t → T.Raised) →
    Unreported env package s ∨ (start env package opts s t).Quiet
  -- where the report raises on something else, nothing asks for a build of the template
  unreported : Unreported env package s → ∀ T ∈ turns env package opts s, T.t = t →
    T.Raised ∨ T.Idle
  -- nothing asks for a build of a template without targets
  bare : t.target_list = [] → ¬ Unreported env package s → ∀ T ∈ turns env package opts s, T.t = t →
    T.Raised ∨ T.Idle
  -- something asks for a build where a target has no row
  unknown : (∃ x ∈ t.target_list, rowSeen env package t s x = none) → ¬ Unreported env package s →
    ∀ T ∈ turns env package opts s, T.t = t → T.Raised ∨ ¬ T.Idle
  -- whether something asks for a build is not changed by the earlier templates of the call
  early : t.target_list ≠ [] → (∀ x ∈ t.target_list, rowSeen env package t s x ≠ none) →
    ¬ Unreported env package s → ∀ T ∈ turns env package opts s, T.t = t →
      T.Raised ∨ (T.Idle ↔ (start env package opts s t).Quiet)
  -- the changed files of a known template's targets with rows are those that its loop gets to
  changed : ∀ x ∈ t.target_list,
    (¬ Unreported env package s ∧ templateSeen env package t s ≠ none ∧
      rowSeen env package t s x ≠ none ∧ (start env package opts s t).Changed x) ↔
      ∃ T ∈ turns env package opts s, T.t = t ∧ T.row x ≠ none ∧ T.Changed x ∧ T.Reaches x

variable {env package opts s t}

/-- Whether a template that the call starts with is comparable is seen in the state of the call. -/
theorem comparable_of_start (hre_generate : opts.re_generate = false)
    (hdest : opts.dest_rootdir = [])
    (hstart : start env package opts s t ∈ turns env package opts s)
    (hnames : ∀ x ∈ t.target_list, isAbsolute x = false ∨
      isAbsolute env.root_dir = true ∧ dirs env.root_dir = [])
    (hstopped : (start env package opts s t).Raised →
      Unreported env package s ∨ (start env package opts s t).Quiet)
    (hunreported : Unreported env package s →
      (start env package opts s t).Raised ∨ (start env package opts s t).Idle)
    (hbare : t.target_list = [] → ¬ Unreported env package s →
      (start env package opts s t).Raised ∨ (start env package opts s t).Idle)
    (hunknown : (∃ x ∈ t.target_list, rowSeen env package t s x = none) →
      ¬ Unreported env package s →
        (start env package opts s t).Raised ∨ ¬ (start env package opts s t).Idle)
    (hchanged : ∀ x ∈ t.target_list, rowSeen env package t s x ≠ none →
      (start env package opts s t).Changed x →
        (¬ Unreported env package s ∧ templateSeen env package t s ≠ none ↔
          (start env package opts s t).Reaches x)) :
    Comparable env package opts s t := by
  have hall {P : Turn Hash Time → Prop} (h : P (start env package opts s t)) :
      ∀ T ∈ turns env package opts s, T.t = t → P T :=
    fun T hT ht => turns_unique hT hstart ht ▸ h
  refine ⟨hnames, fun h => hstopped (h _ hstart rfl), fun hu => hall (hunreported hu),
    fun hnil hu => hall (hbare hnil hu), fun hnone hu => hall (hunknown hnone hu),
    fun htargets hrows _ => hall (P := fun T =>
      T.Raised ∨ (T.Idle ↔ (start env package opts s t).Quiet)) ?_, fun x hx => ?_⟩
  · by_cases hraised : (start env package opts s t).Raised
    · exact .inl hraised
    · refine .inr (Turn.idle_iff_quiet hre_generate hdest hraised htargets fun x hx => ?_)
      rw [start_row]
      exact hrows x hx
  · have hchanged := hchanged x hx
    constructor
    · rintro ⟨hu, hknown, hrow, hlocal⟩
      refine ⟨_, hstart, rfl, ?_, hlocal, (hchanged hrow hlocal).1 ⟨hu, hknown⟩⟩
      rwa [start_row]
    · rintro ⟨T, hT, ht, hrow, hlocal, hreaches⟩
      obtain rfl := turns_unique hT hstart ht
      rw [start_row] at hrow
      obtain ⟨hu, hknown⟩ := (hchanged hrow hlocal).2 hreaches
      exact ⟨hu, hknown, hrow, hlocal⟩

/-- What the report says of a template, where it looks at the files of the call. -/
theorem reported_iff_not_quiet (ht : t ∈ package.templates)
    (hfiles : ∀ x ∈ t.target_list, statusFile env x = targetFile env opts x) :
    Reported env package t s ↔
      ¬ Unreported env package s ∧ ¬ (start env package opts s t).Quiet := by
  rw [reported_iff ht]
  refine and_congr_right fun _ => ?_
  unfold Turn.Quiet
  push Not
  refine exists_congr fun x => and_congr_right fun hx => ?_
  have hasks : (start env package opts s t).Asks x ↔ Due env.sha1 (timeSeen s)
      (rowSeen env package t s x) s.fs (statusFile env x) := by
    rw [hfiles x hx, ← start_row opts]
    rfl
  rw [Outdated, ← hasks, start_row]
  show templateSeen env package t s = none ∨ _ ↔ (templateSeen env package t s ≠ none → _)
  by_cases htemplate : templateSeen env package t s = none
  · simp [htemplate]
  by_cases hrow : rowSeen env package t s x = none
  · simp [htemplate, hrow]
  simp only [htemplate, hrow, false_or, ne_eq, not_false_eq_true, true_implies]
  exact or_iff_not_imp_left

/-- **When the report flags the template exactly if the call renders it.** -/
theorem rebuilt_iff_reported (ht : t ∈ package.templates)
    (hname : t.name ∈ opts.master_template_list) (hforce : opts.force = true)
    (hdry : opts.dry_run = false)
    (hfiles : ∀ x ∈ t.target_list, statusFile env x = targetFile env opts x) :
    (Rebuilt env package opts s t ↔ Reported env package t s) ↔
      ((∀ T ∈ turns env package opts s, T.t = t → T.Raised) →
        Unreported env package s ∨ (start env package opts s t).Quiet) ∧
      (Unreported env package s →
        ∀ T ∈ turns env package opts s, T.t = t → T.Raised ∨ T.Idle) ∧
      (¬ Unreported env package s → ∀ T ∈ turns env package opts s, T.t = t →
        T.Raised ∨ (T.Idle ↔ (start env package opts s t).Quiet)) := by
  rw [reported_iff_not_quiet ht hfiles]
  by_cases hturn : ∃ T ∈ turns env package opts s, T.t = t
  · obtain ⟨T, hT, rfl⟩ := hturn
    have hall (P : Turn Hash Time → Prop) :
        (∀ T' ∈ turns env package opts s, T'.t = T.t → P T') ↔ P T :=
      ⟨fun h => h T hT rfl, fun h T' hT' ht => turns_unique hT' hT ht ▸ h⟩
    have hrebuilt : Rebuilt env package opts s T.t ↔ ¬ T.Raised ∧ ¬ T.Idle := by
      obtain ⟨-, -, hopts, -⟩ := mem_turns hT
      subst hopts
      rw [← Turn.not_skips_iff hname hforce hdry]
      constructor
      · rintro ⟨T', hT', ht, hbuild⟩
        exact turns_unique hT' hT ht ▸ hbuild
      · exact fun hbuild => ⟨T, hT, rfl, hbuild⟩
    simp only [hall, hrebuilt]
    by_cases hraised : T.Raised <;> by_cases hunreported : Unreported env package s
    · simp [hraised, hunreported]
    · simp [hraised, hunreported]
    · simp [hraised, hunreported]
    · simp [hraised, hunreported, not_iff_not]
  · have hnone : ¬ Rebuilt env package opts s t := by
      rintro ⟨T, hT, ht, -⟩
      exact hturn ⟨T, hT, ht⟩
    have hall (P : Turn Hash Time → Prop) : ∀ T ∈ turns env package opts s, T.t = t → P T :=
      fun T hT ht => absurd ⟨T, hT, ht⟩ hturn
    simp only [hnone, false_iff, not_and, not_not, iff_true_intro (hall _), true_implies,
      implies_true, and_true]
    exact or_iff_not_imp_left.symm

end agree

/-! ## A new template, and another root -/

theorem motd_start : start motdEnv motdPackage forceOptions blankSystem motdTemplate =
    motdTurn forceOptions := by
  unfold start motdTurn
  rw [getTemplates_plain motd_plain]
  rfl

theorem motd_reported : ¬ Unreported motdEnv motdPackage blankSystem := by
  rintro (⟨e, he⟩ | ⟨e, he⟩ | ⟨t, ht, he⟩ | ⟨rows, hrows, r, hr, -⟩)
  · cases he
  · rw [getTemplates_plain motd_plain] at he
    cases he
  · obtain rfl := List.mem_singleton.1 ht
    rcases he with ⟨e, he⟩ | ⟨x, -, hknown, -⟩
    · rw [getTargets_plain motd_plain motdTemplate_plain] at he
      cases he
    · rw [templateSeen, getTemplates_plain motd_plain] at hknown
      exact hknown rfl
  · rw [selectTemplates, if_neg motd_plain.1] at hrows
    obtain rfl := Except.ok.inj hrows
    cases hr

/-- The same under the root directory `/r`. -/
def rootEnv : Env Str Nat := { motdEnv with root_dir := ['/', 'r'] }

end LibConfig
