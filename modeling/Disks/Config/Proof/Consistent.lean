import Disks.Config.Proof.Rows

/-!
# Consistent databases

A database is `Consistent` if no target has two rows, no row lacks its hash or time, and every
row's template has a row. A turn is `Regular` if the queries give what the tables have of its
template (`Seen`) and the rows it is to write follow the template (`Tracked`): a new template lists
no target twice, a known one has a row for each.

* `Turn.result_skips`, `Turn.result_rows`: what a turn leaves of the files and rows.
* `Turn.result_consistent`: a `Regular` turn keeps the database `Consistent`.
* `Reachable.consistent`: **so does every run of calls whose turns are `Regular`.**
-/

namespace LibConfig

open Path Fold

/-! ## Rendered files -/

section files

variable {Hash Time : Type} (env : Env Hash Time) {opts : Options}

theorem targetFile_home (h : opts.dest_rootdir = []) (target : Str) :
    targetFile env opts target = home env target := by
  simp [targetFile, h, home]

theorem writtenFile_home (h : opts.dest_rootdir = []) (target : Str) :
    writtenFile env opts target = home env target := by
  rw [writtenFile, h]
  exact file_join_empty env.root_dir target

variable (opts) (t : Template) (s : System Hash Time)

theorem renderTemplate_kept : Kept s (renderTemplate env opts t s) := by
  have h := foldl_keeps (f := fun s p => write s (writtenFile env opts p.1) p.2)
    (fun s : System Hash Time => (s.targets, s.templates, s.valuesLastModified, s.ticks))
    (fun _ _ => rfl) t.targets s
  simp only [Prod.mk.injEq] at h
  obtain ⟨htargets, htemplates, hvalues, hticks⟩ := h
  exact kept_of_tables htargets htemplates hvalues (Nat.le_of_eq hticks.symm)

/-- A file has what one of the targets wrote there, or is no target's. -/
theorem renderTemplate_file (f : File) :
    (∃ p ∈ t.targets, writtenFile env opts p.1 = f ∧
        (renderTemplate env opts t s).fs f = some p.2) ∨
      (∀ p ∈ t.targets, writtenFile env opts p.1 ≠ f) ∧
        (renderTemplate env opts t s).fs f = s.fs f := by
  unfold renderTemplate
  induction t.targets generalizing s with
  | nil => exact .inr ⟨by simp, rfl⟩
  | cons p targets ih =>
    rw [List.foldl_cons]
    rcases ih (write s (writtenFile env opts p.1) p.2) with ⟨q, hq, hf, hfs⟩ | ⟨hne, hfs⟩
    · exact .inl ⟨q, List.mem_cons_of_mem _ hq, hf, hfs⟩
    · by_cases hp : writtenFile env opts p.1 = f
      · refine .inl ⟨p, List.mem_cons_self .., hp, ?_⟩
        rw [hfs]
        simp [write, hp]
      · refine .inr ⟨?_, ?_⟩
        · simpa [hp] using hne
        · rw [hfs]
          simp [write, Ne.symm hp]

end files

/-! ## Consistent databases -/

section consistent

variable {Hash Time : Type}

structure Consistent (s : System Hash Time) : Prop where
  rows : ∀ p t x, entries s p t x = [] ∨ ∃ hash time, entries s p t x = [⟨some hash, some time⟩]
  known : ∀ p t x, entries s p t x ≠ [] → (recordedTemplate p s t).isSome = true

theorem Consistent.kept {s s' : System Hash Time} (h : Consistent s) (hkept : Kept s s') :
    Consistent s' := by
  refine ⟨fun p t x => ?_, fun p t x => ?_⟩
  · rw [hkept.entries]
    exact h.rows p t x
  · rw [hkept.entries, hkept.templates]
    exact h.known p t x

theorem Consistent.recording {env : Env Hash Time} {package : Str} {t : Template}
    {s s' : System Hash Time} {done : List Str} (h : Consistent s)
    (hrecording : Recording env package t s done s') : Consistent s' := by
  refine ⟨fun p t' x => ?_, fun p t' x hne => ?_⟩
  · by_cases hnew : p = package ∧ t' = t.name ∧ x ∈ done
    · obtain ⟨rfl, rfl, hx⟩ := hnew
      obtain ⟨content, n, -, -, hentries⟩ := hrecording.built x hx
      exact .inr ⟨_, _, hentries⟩
    · rw [hrecording.others p t' x hnew]
      exact h.rows p t' x
  · rw [hrecording.templates]
    by_cases ht : p = package ∧ t' = t.name
    · rw [if_pos ht]
      rfl
    · rw [if_neg ht]
      rw [hrecording.others p t' x fun hnew => ht ⟨hnew.1, hnew.2.1⟩] at hne
      exact h.known p t' x hne

/-- Of a consistent database no comparison of times raises. -/
theorem Consistent.not_raises [LinearOrder Time] {s : System Hash Time} (h : Consistent s)
    (m : Time) (package template target : Str) :
    ¬ Raises (some m) (recorded package template s target) := by
  rintro ⟨row, hrow, hlater⟩
  rw [recorded] at hrow
  rcases h.rows package template target with hnone | ⟨hash, time, hone⟩
  · simp [hnone] at hrow
  · rw [hone] at hrow
    cases hrow
    simp [later] at hlater

end consistent

variable {Hash Time : Type} [LinearOrder Time]

/-! ## The rows a turn leaves -/

namespace Turn

section

variable {T : Turn Hash Time} {c : Check Hash Time}

theorem Checked.kept {targets : List Str} (h : T.Checked targets c) : Kept T.s c.s :=
  kept_of_tables h.tables.1 h.tables.2.1 h.tables.2.2 (h.ticks ▸ Nat.le_add_right _ _)

/-- Where no file is saved, none is touched. -/
theorem Checked.unsaved {targets : List Str} (h : T.Checked targets c)
    (hsaved : ∀ f, ¬ T.Saved targets f) : c.s.fs = T.s.fs ∧ c.s.ops = T.s.ops := by
  refine ⟨funext fun f => h.others f (hsaved f), ?_⟩
  obtain ⟨renames, hops, hrenames, hsaves⟩ := h.ops
  have hnil : renames = [] := by
    refine List.eq_nil_iff_forall_not_mem.2 fun op hop => ?_
    obtain ⟨f, suffix, rfl⟩ := hrenames op hop
    obtain ⟨n, hn, -⟩ := (hsaves f suffix).1 hop
    exact hsaved f hn.saved
  rw [hops, hnil, List.append_nil]

end

variable [DecidableEq Hash]

section

variable (T : Turn Hash Time)

/-- A new template lists no target twice, a known one has a row for each. -/
def Tracked : Prop :=
  match T.template_db_list T.t.name with
  | none => T.t.target_list.Nodup
  | some _ => ∀ x ∈ T.t.target_list, T.row x ≠ none

/-- The queries give what the tables have of the template. -/
def Seen : Prop :=
  T.template_db_list T.t.name = recordedTemplate T.package T.s T.t.name ∧
    ∀ x ∈ T.t.target_list, T.row x = recorded T.package T.t.name T.s x

/-- The rows that the turn is to write are seen, and follow the template. -/
def Regular : Prop :=
  T.t.name ∈ T.opts.master_template_list → T.opts.dry_run = false → T.opts.dest_rootdir = [] →
    ¬ T.Blocked → T.Seen ∧ T.Tracked

end

variable {T : Turn Hash Time}

theorem Idle.not_noticed (h : T.Idle) (x : Str) : ¬ T.Noticed T.t.target_list x := by
  intro hx
  obtain ⟨z, hz, hask⟩ := hx.asks
  exact h.2.2 z hz hask

theorem Idle.not_blocked (h : T.Idle) : ¬ T.Blocked := fun ⟨_, x, hx⟩ => h.not_noticed x hx

theorem Idle.known (h : T.Idle) :
    T.template_db_list T.t.name = some (some (T.env.sha1 T.t.source)) := by
  have hdue := h.2.1
  simp only [templateDue, Bool.or_eq_false_iff, decide_eq_false_iff_not, not_not] at hdue
  exact hdue.2

/-- The rows of an idle template stay as they are. -/
theorem Idle.markChecked_kept (h : T.Idle) (htracked : T.Tracked) (s : System Hash Time) :
    Kept s (markChecked T.env T.package T.t (T.template_db_list T.t.name) T.row s) ∧
      (markChecked T.env T.package T.t (T.template_db_list T.t.name) T.row s).fs = s.fs := by
  have hknown := h.known
  rw [Tracked, hknown] at htracked
  exact LibConfig.markChecked_kept T.env s T.t (by rw [hknown]; rfl) htracked

/-- **A turn that skips its template** leaves the files and what the rows say. -/
theorem result_skips (hdry : T.opts.dry_run = false)
    (hok : T.t.name ∈ T.opts.master_template_list → ¬ T.Raised) (hskips : T.Skips)
    (htracked : T.t.name ∈ T.opts.master_template_list → T.Idle → T.Tracked) :
    ∃ s', T.result = .ok s' ∧ Kept T.s s' ∧ s'.fs = T.s.fs ∧ s'.ops = T.s.ops := by
  obtain ⟨c, hc, h⟩ := T.result_cases
  rcases h with ⟨-, hresult, -⟩ | ⟨hname, ⟨hraised, -⟩ | ⟨-, hlooked, h⟩⟩
  · exact ⟨T.s, hresult, kept_of_tables rfl rfl rfl (Nat.le_refl _), rfl, rfl⟩
  · exact absurd hraised (hok hname)
  rcases h with ⟨hblocked | hdry', hresult⟩ | ⟨-, hidle, hresult⟩ | ⟨hbuild, -⟩
  · have hsaved (f : File) : ¬ T.Saved T.looked f := fun hf => by
      have := hf.1.1
      simp [hblocked.1] at this
    obtain ⟨hfs, hops⟩ := hc.unsaved hsaved
    exact ⟨c.s, hresult, hc.kept, hfs, hops⟩
  · simp [hdry] at hdry'
  · obtain ⟨hfs, hops⟩ := hc.unsaved fun f hf => by
      obtain ⟨-, x, hx, -⟩ := hf
      exact hidle.not_noticed x (hlooked ▸ hx)
    obtain ⟨hkept, hfs'⟩ := hidle.markChecked_kept (htracked hname hidle) c.s
    exact ⟨_, hresult, hc.kept.trans hkept, hfs'.trans hfs, (markChecked_ops ..).1.trans hops⟩
  · exact absurd hskips hbuild

/-- **The rows a turn leaves**: what they said, or those of the template that was built. -/
theorem result_rows (hs : Consistent T.s) (hregular : T.Regular) :
    (T.Skips ∨ T.opts.dest_rootdir ≠ []) ∧ Kept T.s (after T.result) ∨
      ¬ T.Skips ∧ ∃ c s', T.Checked T.t.target_list c ∧ T.result = .ok s' ∧
        Recording T.env T.package T.t (renderTemplate T.env T.opts T.t c.s) T.t.target_list s' := by
  obtain ⟨c, hc, h⟩ := T.result_cases
  rcases h with ⟨hname, hresult, -⟩ | ⟨hname, ⟨hraised, e, hresult⟩ | ⟨-, hlooked, h⟩⟩
  · rw [hresult]
    exact .inl ⟨.inl (.inl hname), kept_of_tables rfl rfl rfl (Nat.le_refl _)⟩
  · rw [hresult]
    exact .inl ⟨.inl (.inr (.inr (.inl hraised))), hc.kept⟩
  rw [hlooked] at hc
  rcases h with ⟨hskip, hresult⟩ | ⟨hdry, hidle, hresult⟩ | ⟨hbuild, hresult⟩
  · rw [hresult]
    refine .inl ⟨.inl ?_, hc.kept⟩
    exact hskip.elim (fun h => .inr (.inr (.inr (.inr h)))) fun h => .inr (.inl h)
  · rw [hresult]
    obtain ⟨-, htracked⟩ := hregular hname hdry hidle.1 hidle.not_blocked
    exact .inl ⟨.inl (.inr (.inr (.inr (.inl hidle)))),
      hc.kept.trans (hidle.markChecked_kept htracked c.s).1⟩
  by_cases hdest : T.opts.dest_rootdir ≠ []
  · rw [if_pos hdest] at hresult
    rw [hresult]
    exact .inl ⟨.inr hdest, hc.kept.trans (renderTemplate_kept ..)⟩
  rw [if_neg hdest] at hresult
  rw [not_not] at hdest
  have hdry : T.opts.dry_run = false := by
    simpa using fun h => hbuild (.inr (.inl h))
  obtain ⟨⟨htemplates, hseen⟩, htracked⟩ :=
    hregular hname hdry hdest fun h => hbuild (.inr (.inr (.inr (.inr h))))
  have hkept := hc.kept.trans (renderTemplate_kept T.env T.opts T.t c.s)
  have hfiles (x : Str) (hx : x ∈ T.t.target_list) :
      ((renderTemplate T.env T.opts T.t c.s).fs (home T.env x)).isSome = true := by
    obtain ⟨p, hp, rfl⟩ := List.mem_map.1 hx
    rcases renderTemplate_file T.env T.opts T.t c.s (home T.env p.1) with
      ⟨q, -, -, hfs⟩ | ⟨hne, -⟩
    · rw [hfs]
      rfl
    · exact absurd (writtenFile_home T.env hdest p.1) (hne p hp)
  -- a known template has one row for each target, a new one none
  have hrows : (T.template_db_list T.t.name).isSome = true ∧
      (∀ x ∈ T.t.target_list, (entries (renderTemplate T.env T.opts T.t c.s) T.package T.t.name
        x).length = 1) ∨
      (T.template_db_list T.t.name).isSome = false ∧ T.t.target_list.Nodup ∧
        ∀ x ∈ T.t.target_list,
          entries (renderTemplate T.env T.opts T.t c.s) T.package T.t.name x = [] := by
    simp only [hkept.entries]
    cases hdb : T.template_db_list T.t.name with
    | none =>
      rw [Tracked, hdb] at htracked
      refine .inr ⟨rfl, htracked, fun x _ => ?_⟩
      by_contra hne
      have := hs.known _ _ _ hne
      simp [← htemplates, hdb] at this
    | some hash =>
      rw [Tracked, hdb] at htracked
      refine .inl ⟨rfl, fun x hx => ?_⟩
      have hrow := htracked x hx
      rw [hseen x hx, recorded] at hrow
      rcases hs.rows T.package T.t.name x with hnone | ⟨hash, time, hone⟩
      · simp [hnone] at hrow
      · simp [hone]
  obtain ⟨s', hrecord, hrecording⟩ := record_recording hfiles
    (by rw [hkept.templates, htemplates]) hrows
  exact .inr ⟨hbuild, c, s', hc, hresult.trans hrecord, hrecording⟩

/-- A `Regular` turn keeps the database consistent. -/
theorem result_consistent (hs : Consistent T.s) (hregular : T.Regular) :
    Consistent (after T.result) := by
  rcases result_rows hs hregular with ⟨-, hkept⟩ | ⟨-, c, s', hc, hresult, hrecording⟩
  · exact hs.kept hkept
  · rw [hresult]
    exact (hs.kept (hc.kept.trans (renderTemplate_kept ..))).recording hrecording

end Turn

/-! ## Every run of calls -/

section run

variable [DecidableEq Hash] (env : Env Hash Time)

theorem turnsFrom_consistent {package : Str} {opts : Options} {m : Option Time}
    {db : Str → Option (Option Hash)} {templates : List Template} {s : System Hash Time}
    (hs : Consistent s)
    (hregular : ∀ T ∈ turnsFrom env package opts m db templates s, T.Regular) :
    Consistent (after (templates.foldlM (configTemplate env package opts m db) s)) := by
  induction templates generalizing s with
  | nil => exact hs
  | cons t templates ih =>
    unfold turnsFrom at hregular
    have hconsistent := Turn.result_consistent hs (hregular _ (List.mem_cons_self ..))
    rw [foldlM_cons]
    rw [show Turn.result ⟨env, package, opts, m, db, s, t⟩ =
      configTemplate env package opts m db s t from rfl] at hconsistent
    cases hresult : configTemplate env package opts m db s t with
    | error e =>
      rw [hresult] at hconsistent
      exact hconsistent
    | ok s' =>
      rw [hresult] at hconsistent
      simp only [hresult] at hregular ⊢
      exact ih hconsistent fun T hmem => hregular T (List.mem_cons_of_mem _ hmem)

/-- A regular call keeps the database consistent. -/
theorem configPackage_consistent {package : Package} {opts : Options} {s : System Hash Time}
    (hs : Consistent s) (hregular : ∀ T ∈ turns env package opts s, T.Regular) :
    Consistent (after (configPackage env package opts s)) := by
  rcases configPackage_cases env package opts s with
    ⟨m, db, -, -, hturns, hcall⟩ | ⟨-, e, hcall⟩
  · rw [hcall]
    exact turnsFrom_consistent env hs (hturns ▸ hregular)
  · rw [hcall]
    exact hs

/-- The states that runs lead to from an empty database; `C` is asked of each call. -/
inductive Reachable (C : Package → Options → System Hash Time → Prop) : System Hash Time → Prop
  | start {s : System Hash Time} (htemplates : s.templates = []) (htargets : s.targets = []) :
      Reachable C s
  | call {s : System Hash Time} (package : Package) (opts : Options) (h : Reachable C s)
      (hcall : C package opts s) : Reachable C (after (configPackage env package opts s))
  -- between calls the files, the values and the time change
  | change {s s' : System Hash Time} (h : Reachable C s) (htemplates : s'.templates = s.templates)
      (htargets : s'.targets = s.targets) : Reachable C s'

/-- Every turn of the call is `Regular`. -/
def RegularCall (package : Package) (opts : Options) (s : System Hash Time) : Prop :=
  ∀ T ∈ turns env package opts s, T.Regular

variable {env}

/-- **Runs of regular calls keep the database consistent.** -/
theorem Reachable.consistent {s : System Hash Time} (h : Reachable env (RegularCall env) s) :
    Consistent s := by
  induction h with
  | @start s htemplates htargets =>
    have hnone (p t x : Str) : entries s p t x = [] := by simp [entries, htargets]
    exact ⟨fun p t x => .inl (hnone p t x), fun p t x hne => absurd (hnone p t x) hne⟩
  | call package opts _ hcall ih => exact configPackage_consistent env ih hcall
  | @change s s' _ htemplates htargets ih =>
    refine ⟨fun p t x => ?_, fun p t x => ?_⟩
    · rw [entries, htargets]
      exact ih.rows p t x
    · rw [entries, htargets, recordedTemplate, htemplates]
      exact ih.known p t x

end run

end LibConfig
