import Disks.Config.Proof.Turn
import Mathlib.Data.Nat.Basic

/-!
# Local changes of target files

Which files `configPackage` overwrites. A template's files are `Endangered` if they are local by
what the tables have; a call keeps them if it writes none without `force`, saves each first with
`force` and backups, and replaces no file saved before.

* `Turn.result_ops`, `Turn.result_saved`: what a turn does to the files.
* `Turn.keeps_iff`: a turn keeps local changes exactly when it is `Guarded`.
* `configPackage_ops`: what a call does to the files is what its turns do.
* `configPackage_keeps_iff`: **a call keeps local changes exactly when every turn of it is
  `Guarded`.** `configPackage_saves`: what it saves is there when it ends.
-/

namespace LibConfig

open Path Fold

/-! ## What is done to the files -/

section files

variable {Hash Time : Type}

/-- What was done to the files from one state to another. -/
def newOps (s s' : System Hash Time) : List FileOp := s'.ops.drop s.ops.length

theorem newOps_of_append {s s' : System Hash Time} {ops : List FileOp}
    (h : s'.ops = s.ops ++ ops) : newOps s s' = ops := by
  rw [newOps, h, List.drop_left]

/-- Every write of the file stands after a `rename` of it. -/
def SavedFirst (ops : List FileOp) (f : File) : Prop :=
  ∀ (i : Nat) (content : Str), ops[i]? = some (.write f content) →
    ∃ j < i, ∃ suffix, ops[j]? = some (.rename f suffix)

variable (env : Env Hash Time) (package : Str) (opts : Options) (t : Template)

/-- What rendering a template does to the files. -/
def writes : List FileOp := t.targets.map fun p => .write (writtenFile env opts p.1) p.2

variable {env opts t} in
theorem mem_writes {x : Str} (h : x ∈ t.target_list) :
    ∃ content, .write (writtenFile env opts x) content ∈
      (writes env opts t : List FileOp) := by
  obtain ⟨⟨x, content⟩, hp, rfl⟩ := List.mem_map.1 h
  exact ⟨content, List.mem_map_of_mem hp⟩

variable {env opts t} in
theorem not_rename_mem_writes {f : File} {suffix : Str} :
    .rename f suffix ∉ writes env opts t := by
  simp [writes]

variable {env opts t} in
/-- Files saved in the loop over the targets are saved before they are written. -/
theorem savedFirst_iff {renames : List FileOp} {x : Str} (hx : x ∈ t.target_list)
    (hrenames : ∀ op ∈ renames, ∃ f suffix, op = .rename f suffix) :
    SavedFirst (renames ++ writes env opts t) (writtenFile env opts x) ↔
      ∃ suffix, .rename (writtenFile env opts x) suffix ∈ renames := by
  constructor
  · intro h
    obtain ⟨content, hmem⟩ := mem_writes hx
    obtain ⟨i, hi⟩ := List.mem_iff_getElem?.1 (List.mem_append_right renames hmem)
    obtain ⟨j, -, suffix, hj⟩ := h i content hi
    refine ⟨suffix, (List.mem_append.1 (List.mem_of_getElem? hj)).resolve_right ?_⟩
    exact not_rename_mem_writes
  · rintro ⟨suffix, hmem⟩ i content hi
    obtain ⟨j, hj⟩ := List.mem_iff_getElem?.1 hmem
    obtain ⟨hlen, -⟩ := List.getElem?_eq_some_iff.1 hj
    refine ⟨j, ?_, suffix, by rwa [List.getElem?_append_left hlen]⟩
    by_contra hle
    rw [List.getElem?_append_left (by omega)] at hi
    obtain ⟨f, suffix', hop⟩ := hrenames _ (List.mem_of_getElem? hi)
    cases hop

theorem renderTemplate_ops (s : System Hash Time) :
    (renderTemplate env opts t s).ops = s.ops ++ writes env opts t ∧
      (renderTemplate env opts t s).saved = s.saved := by
  unfold renderTemplate writes
  induction t.targets generalizing s with
  | nil => simp
  | cons p targets ih =>
    obtain ⟨hops, hsaved⟩ := ih (write s (writtenFile env opts p.1) p.2)
    rw [List.foldl_cons, hops, hsaved]
    simp [write]

theorem markChecked_ops (template_hash : Option (Option Hash))
    (target_db_list : Str → Option (TargetInfo Hash Time)) (s : System Hash Time) :
    (markChecked env package t template_hash target_db_list s).ops = s.ops ∧
      (markChecked env package t template_hash target_db_list s).saved = s.saved := by
  unfold markChecked
  split
  · exact foldl_inv (f := fun s target => insertTarget env package t.name target none s)
      (I := fun s' : System Hash Time => s'.ops = s.ops ∧ s'.saved = s.saved) (fun _ _ _ h => h)
      ⟨rfl, rfl⟩
  · refine foldl_inv (I := fun s' : System Hash Time => s'.ops = s.ops ∧ s'.saved = s.saved)
      (fun s' x _ h => ?_) ⟨rfl, rfl⟩
    split <;> exact h

theorem record_ops (known : Bool) (s : System Hash Time) :
    (after (record env package t known s)).ops = s.ops ∧
      (after (record env package t known s)).saved = s.saved := by
  have hkeeps := foldlM_keeps (f := recordTarget env package t known)
    (fun s : System Hash Time => (s.ops, s.saved)) (fun s x => by
      unfold recordTarget
      split
      · rfl
      · split <;> rfl) t.target_list
    (if known then updateTemplate env package t.name (some (env.sha1 t.source)) s
      else insertTemplate env package t.name (some (env.sha1 t.source)) true s)
  rw [Prod.mk.injEq] at hkeeps
  cases known <;> exact hkeeps

end files

variable {Hash Time : Type} [LinearOrder Time] [DecidableEq Hash]

namespace Turn

variable (T : Turn Hash Time)

/-- A turn leaves the files that the loop over the targets leaves, or renders the template. -/
theorem result_checked : ∃ c, T.Checked T.looked c ∧ (after T.result).saved = c.s.saved ∧
    (T.Skips ∧ (after T.result).ops = c.s.ops ∨ ¬ T.Skips ∧ T.looked = T.t.target_list ∧
      (after T.result).ops = c.s.ops ++ writes T.env T.opts T.t) := by
  obtain ⟨c, hc, h⟩ := T.result_cases
  refine ⟨c, hc, ?_⟩
  rcases h with ⟨hname, hresult, hsame⟩ | ⟨-, ⟨hraised, e, hresult⟩ | ⟨-, hlooked, h⟩⟩
  · rw [hresult, after_ok, hsame]
    exact ⟨rfl, .inl ⟨.inl hname, rfl⟩⟩
  · rw [hresult]
    exact ⟨rfl, .inl ⟨.inr (.inr (.inl hraised)), rfl⟩⟩
  rcases h with ⟨hskip, hresult⟩ | ⟨-, hidle, hresult⟩ | ⟨hbuild, hresult⟩
  · rw [hresult]
    exact ⟨rfl, .inl ⟨hskip.elim (fun h => .inr (.inr (.inr (.inr h)))) fun h => .inr (.inl h),
      rfl⟩⟩
  · obtain ⟨hops, hsaved⟩ := markChecked_ops T.env T.package T.t (T.template_db_list T.t.name)
      T.row c.s
    rw [hresult]
    exact ⟨hsaved, .inl ⟨.inr (.inr (.inr (.inl hidle))), hops⟩⟩
  · obtain ⟨hops, hsaved⟩ := renderTemplate_ops T.env T.opts T.t c.s
    rw [hresult]
    split
    · exact ⟨hsaved, .inr ⟨hbuild, hlooked, hops⟩⟩
    · obtain ⟨hops', hsaved'⟩ := record_ops T.env T.package T.t
        (T.template_db_list T.t.name).isSome (renderTemplate T.env T.opts T.t c.s)
      exact ⟨hsaved'.trans hsaved, .inr ⟨hbuild, hlooked, hops'.trans hops⟩⟩

/-- **What a turn does to the files.** -/
theorem result_ops : ∃ renames : List FileOp,
    (∀ op ∈ renames, ∃ f suffix, op = .rename f suffix) ∧
      (∀ f suffix, .rename f suffix ∈ renames ↔
        ∃ n, T.SavedAt T.looked f n ∧ T.suffix n = suffix) ∧
      (T.Skips ∧ (after T.result).ops = T.s.ops ++ renames ∨
        ¬ T.Skips ∧ T.looked = T.t.target_list ∧
          (after T.result).ops = T.s.ops ++ (renames ++ writes T.env T.opts T.t)) := by
  obtain ⟨c, hc, -, h⟩ := T.result_checked
  obtain ⟨renames, hops, hrenames, hsaved⟩ := hc.ops
  refine ⟨renames, hrenames, hsaved, ?_⟩
  rw [← List.append_assoc, ← hops]
  exact h

/-- What a turn leaves of the saved files. -/
theorem result_saved :
    (∀ f n, T.SavedAt T.looked f n → (after T.result).saved f (T.suffix n) = T.s.fs f) ∧
      ∀ f suffix, (∀ n, T.SavedAt T.looked f n → T.suffix n ≠ suffix) →
        (after T.result).saved f suffix = T.s.saved f suffix := by
  obtain ⟨c, hc, hsaved, -⟩ := T.result_checked
  rw [hsaved]
  exact ⟨hc.aside, hc.before⟩

/-- The file that the template writes is local by what the tables have. -/
def Endangered (target : Str) : Prop :=
  Local T.env.sha1 (recorded T.package T.t.name T.s target) T.s.fs
    (writtenFile T.env T.opts target)

/-- The turn overwrites no local file of the template: without `force` none is written, with `force`
and backups each is saved first. What is saved is there afterwards, and what was saved before. -/
structure Keeps : Prop where
  unforced : ∀ target ∈ T.t.target_list, T.Endangered target → T.opts.force = false →
    ∀ content, .write (writtenFile T.env T.opts target) content ∉ newOps T.s (after T.result)
  forced : ∀ target ∈ T.t.target_list, T.Endangered target → T.opts.force = true →
    T.opts.no_backups = false →
      SavedFirst (newOps T.s (after T.result)) (writtenFile T.env T.opts target)
  aside : ∀ f suffix, .rename f suffix ∈ newOps T.s (after T.result) → ∃ content,
    T.s.fs f = some content ∧ (after T.result).saved f suffix = some content
  before : ∀ f suffix content, T.s.saved f suffix = some content →
    (after T.result).saved f suffix = some content

/-- The turn does not build the template, or protects its local files. -/
def Protects : Prop :=
  T.Skips ∨ (T.opts.force = false ∧ ∀ x ∈ T.t.target_list, ¬ T.Endangered x) ∨
    (T.opts.force = true ∧ (T.opts.no_backups = true ∨ ∀ x ∈ T.t.target_list, T.Endangered x →
      ∃ y, T.Noticed T.t.target_list y ∧
        targetFile T.env T.opts y = writtenFile T.env T.opts x))

/-- The names of the files to save are free, or taken by files that are the same. -/
def Spares : Prop :=
  ∀ f n, T.SavedAt T.looked f n →
    T.s.saved f (T.suffix n) = none ∨ T.s.saved f (T.suffix n) = T.s.fs f

def Guarded : Prop := T.Protects ∧ T.Spares

variable {T}

/-- What a turn saves is there afterwards. -/
theorem aside {f : File} {suffix : Str} (h : .rename f suffix ∈ newOps T.s (after T.result)) :
    ∃ content, T.s.fs f = some content ∧ (after T.result).saved f suffix = some content := by
  obtain ⟨renames, -, hsaved, hops⟩ := T.result_ops
  have hmem : .rename f suffix ∈ renames := by
    rcases hops with ⟨-, hops⟩ | ⟨-, -, hops⟩
    · exact newOps_of_append hops ▸ h
    · rw [newOps_of_append hops] at h
      exact (List.mem_append.1 h).resolve_right not_rename_mem_writes
  obtain ⟨n, hn, rfl⟩ := (hsaved f suffix).1 hmem
  obtain ⟨content, hcontent⟩ := hn.content
  exact ⟨content, hcontent, (T.result_saved.1 f n hn).trans hcontent⟩

/-- What was saved before is there exactly when the turn `Spares` it. -/
theorem before_iff : (∀ f suffix content, T.s.saved f suffix = some content →
    (after T.result).saved f suffix = some content) ↔ T.Spares := by
  obtain ⟨haside, hbefore⟩ := T.result_saved
  constructor
  · intro h f n hn
    cases hold : T.s.saved f (T.suffix n) with
    | none => exact .inl rfl
    | some content => exact .inr ((h _ _ _ hold).symm.trans (haside f n hn))
  · intro h f suffix content hold
    by_cases hsaved : ∃ n, T.SavedAt T.looked f n ∧ T.suffix n = suffix
    · obtain ⟨n, hn, rfl⟩ := hsaved
      rw [haside f n hn]
      rcases h f n hn with hnone | hsame
      · cases hnone.symm.trans hold
      · exact hsame.symm.trans hold
    · rw [hbefore f suffix fun n hn hsame => hsaved ⟨n, hn, hsame⟩]
      exact hold

/-- No local file is overwritten exactly when the turn `Protects` them. -/
theorem protects_iff : (∀ target ∈ T.t.target_list, T.Endangered target →
    (T.opts.force = false → ∀ content,
      .write (writtenFile T.env T.opts target) content ∉ newOps T.s (after T.result)) ∧
    (T.opts.force = true → T.opts.no_backups = false →
      SavedFirst (newOps T.s (after T.result)) (writtenFile T.env T.opts target))) ↔
      T.Protects := by
  obtain ⟨renames, hrenames, hsaved, ⟨hskip, hops⟩ | ⟨hbuild, hlooked, hops⟩⟩ := T.result_ops
  · have hnew := newOps_of_append hops
    refine iff_of_true (fun target _ _ => ?_) (.inl hskip)
    rw [hnew]
    refine ⟨fun _ content hmem => ?_, fun _ _ i content hi => ?_⟩
    · obtain ⟨f, suffix, hop⟩ := hrenames _ hmem
      cases hop
    · obtain ⟨f, suffix, hop⟩ := hrenames _ (List.mem_of_getElem? hi)
      cases hop
  have hdry : T.opts.dry_run = false := by
    simpa using fun h => hbuild (.inr (.inl h))
  unfold Protects
  rw [or_iff_right hbuild, newOps_of_append hops]
  by_cases hforce : T.opts.force = true
  · by_cases hbackups : T.opts.no_backups = true
    · simp [hforce, hbackups]
    · simp only [Bool.not_eq_true] at hbackups
      simp only [hforce, hbackups, Bool.true_eq_false, Bool.false_eq_true, false_and, false_or,
        true_and, false_implies, forall_const]
      refine forall_congr' fun x => imp_congr_right fun hx => imp_congr_right fun _ => ?_
      have hrenamed (f : File) : (∃ suffix, .rename f suffix ∈ renames) ↔
          ∃ y, T.Noticed T.t.target_list y ∧ targetFile T.env T.opts y = f := by
        have hf : T.Saved T.t.target_list f ↔
            ∃ y, T.Noticed T.t.target_list y ∧ targetFile T.env T.opts y = f :=
          and_iff_right ⟨hforce, hbackups, hdry⟩
        rw [← hf, saved_iff, ← hlooked]
        simp only [hsaved]
        exact ⟨fun ⟨_, n, hn, _⟩ => ⟨n, hn⟩, fun ⟨n, hn⟩ => ⟨_, n, hn, rfl⟩⟩
      rw [savedFirst_iff hx hrenames, hrenamed]
  · simp only [Bool.not_eq_true] at hforce
    simp only [hforce, Bool.false_eq_true, false_implies, and_true, forall_const, true_and,
      false_and, or_false]
    refine forall_congr' fun x => imp_congr_right fun hx => imp_congr_right fun _ => ?_
    refine iff_of_false (fun h => ?_) id
    obtain ⟨content, hmem⟩ := mem_writes hx
    exact h content (List.mem_append_right _ hmem)

/-- **A turn keeps local changes exactly when it is `Guarded`.** -/
theorem keeps_iff : T.Keeps ↔ T.Guarded := by
  rw [Guarded, ← protects_iff, ← before_iff]
  constructor
  · intro h
    exact ⟨fun x hx hlocal => ⟨h.unforced x hx hlocal, h.forced x hx hlocal⟩, h.before⟩
  · rintro ⟨hprotects, hbefore⟩
    exact ⟨fun x hx hlocal => (hprotects x hx hlocal).1,
      fun x hx hlocal => (hprotects x hx hlocal).2, fun _ _ => aside, hbefore⟩

end Turn

/-! ## The call -/

section call

variable (env : Env Hash Time) (package : Str) (opts : Options) (last_modified : Option Time)
  (template_db_list : Str → Option (Option Hash))

/-- The turns of the loop over the templates. -/
def turnsFrom : List Template → System Hash Time → List (Turn Hash Time)
  | [], _ => []
  | t :: templates, s =>
    ⟨env, package, opts, last_modified, template_db_list, s, t⟩ ::
      match configTemplate env package opts last_modified template_db_list s t with
      | .ok s' => turnsFrom templates s'
      | .error _ => []

variable {env package opts last_modified template_db_list} in
/-- What the turns of the loop have in common. -/
theorem mem_turnsFrom {templates : List Template} {s : System Hash Time} {T : Turn Hash Time}
    (h : T ∈ turnsFrom env package opts last_modified template_db_list templates s) :
    T.env = env ∧ T.package = package ∧ T.opts = opts ∧ T.last_modified = last_modified ∧
      T.template_db_list = template_db_list ∧ T.t ∈ templates := by
  induction templates generalizing s with
  | nil => simp [turnsFrom] at h
  | cons t templates ih =>
    unfold turnsFrom at h
    rcases List.mem_cons.1 h with rfl | h
    · exact ⟨rfl, rfl, rfl, rfl, rfl, List.mem_cons_self ..⟩
    · split at h
      · obtain ⟨henv, hpackage, hopts, hm, hdb, ht⟩ := ih h
        exact ⟨henv, hpackage, hopts, hm, hdb, List.mem_cons_of_mem _ ht⟩
      · cases h

theorem Turn.ops_append (T : Turn Hash Time) :
    (after T.result).ops = T.s.ops ++ newOps T.s (after T.result) := by
  obtain ⟨renames, -, -, ⟨-, hops⟩ | ⟨-, -, hops⟩⟩ := T.result_ops <;>
    rw [newOps_of_append hops, hops]

theorem turnsFrom_ops (templates : List Template) (s : System Hash Time) :
    (after (templates.foldlM
      (configTemplate env package opts last_modified template_db_list) s)).ops =
      s.ops ++ (turnsFrom env package opts last_modified template_db_list templates s).flatMap
        fun T => newOps T.s (after T.result) := by
  induction templates generalizing s with
  | nil => simp [turnsFrom, pure, Except.pure]
  | cons t templates ih =>
    have hturn :=
      Turn.ops_append ⟨env, package, opts, last_modified, template_db_list, s, t⟩
    rw [foldlM_cons]
    unfold turnsFrom
    rw [List.flatMap_cons]
    unfold Turn.result at hturn
    rw [show Turn.result ⟨env, package, opts, last_modified, template_db_list, s, t⟩ =
      configTemplate env package opts last_modified template_db_list s t from rfl]
    cases hresult : configTemplate env package opts last_modified template_db_list s t with
    | error e =>
      rw [hresult] at hturn
      simpa using hturn
    | ok s' =>
      rw [hresult] at hturn
      simp only at hturn ⊢
      rw [ih s', ← List.append_assoc, ← hturn, after_ok]

/-- Where all turns keep local changes, what they save is there in the end, and what was saved
before. -/
theorem turnsFrom_saved (templates : List Template) (s : System Hash Time)
    (h : ∀ T ∈ turnsFrom env package opts last_modified template_db_list templates s, T.Keeps) :
    (∀ f suffix content, s.saved f suffix = some content → (after (templates.foldlM
        (configTemplate env package opts last_modified template_db_list) s)).saved f suffix =
          some content) ∧
      ∀ T ∈ turnsFrom env package opts last_modified template_db_list templates s, ∀ f suffix,
        .rename f suffix ∈ newOps T.s (after T.result) → ∃ content, T.s.fs f = some content ∧
          (after (templates.foldlM
            (configTemplate env package opts last_modified template_db_list) s)).saved f suffix =
              some content := by
  induction templates generalizing s with
  | nil => exact ⟨fun _ _ _ h => h, fun T hT => absurd hT (by simp [turnsFrom])⟩
  | cons t templates ih =>
    unfold turnsFrom at h ⊢
    have hT := h _ (List.mem_cons_self ..)
    have hbefore := hT.before
    have haside := hT.aside
    rw [foldlM_cons]
    rw [show Turn.result ⟨env, package, opts, last_modified, template_db_list, s, t⟩ =
      configTemplate env package opts last_modified template_db_list s t from rfl]
      at hbefore haside
    cases hresult : configTemplate env package opts last_modified template_db_list s t with
    | error e =>
      rw [hresult] at hbefore haside
      refine ⟨hbefore, fun T hmem => ?_⟩
      obtain rfl := List.mem_singleton.1 hmem
      intro f suffix hop
      refine haside f suffix ?_
      rw [← hresult]
      exact hop
    | ok s' =>
      rw [hresult] at hbefore haside
      simp only [hresult] at h ⊢
      obtain ⟨hkept, hrest⟩ := ih s' fun T hT => h T (List.mem_cons_of_mem _ hT)
      refine ⟨fun f suffix content hf => hkept f suffix content (hbefore f suffix content hf),
        fun T hmem f suffix hop => ?_⟩
      rcases List.mem_cons.1 hmem with rfl | hmem
      · obtain ⟨content, hcontent, hsaved⟩ := haside f suffix (by rw [← hresult]; exact hop)
        exact ⟨content, hcontent, hkept f suffix content hsaved⟩
      · exact hrest T hmem f suffix hop

end call

section configPackage

variable (env : Env Hash Time) (package : Package) (opts : Options) (s : System Hash Time)

/-- The turns of a call of `configPackage`; where the time of the values cannot be read or SQLite
refuses the query for the templates there are none. -/
def turns : List (Turn Hash Time) :=
  match getLastModified s, getTemplates env package.name s with
  | .ok last_modified, .ok template_db_list =>
    turnsFrom env package.name opts last_modified template_db_list package.templates s
  | _, _ => []

/-- A call goes through its turns, or does nothing. -/
theorem configPackage_cases :
    (∃ last_modified template_db_list, getLastModified s = .ok last_modified ∧
      getTemplates env package.name s = .ok template_db_list ∧
      turns env package opts s =
        turnsFrom env package.name opts last_modified template_db_list package.templates s ∧
      configPackage env package opts s = package.templates.foldlM
        (configTemplate env package.name opts last_modified template_db_list) s) ∨
    turns env package opts s = [] ∧ ∃ e, configPackage env package opts s = .error (e, s) := by
  unfold turns configPackage
  cases getLastModified s with
  | error e => exact .inr ⟨rfl, e, rfl⟩
  | ok last_modified =>
    cases getTemplates env package.name s with
    | error e => exact .inr ⟨rfl, e, rfl⟩
    | ok template_db_list => exact .inl ⟨last_modified, template_db_list, rfl, rfl, rfl, rfl⟩

/-- What a call does to the files is what its turns do. -/
theorem configPackage_ops : (after (configPackage env package opts s)).ops =
    s.ops ++ (turns env package opts s).flatMap fun T => newOps T.s (after T.result) := by
  rcases configPackage_cases env package opts s with
    ⟨m, db, -, -, hturns, hcall⟩ | ⟨hturns, e, hcall⟩
  · rw [hturns, hcall]
    exact turnsFrom_ops ..
  · simp [hturns, hcall]

/-- What a call saves is there when it ends. -/
theorem configPackage_saves (h : ∀ T ∈ turns env package opts s, T.Keeps) :
    ∀ T ∈ turns env package opts s, ∀ f suffix,
      .rename f suffix ∈ newOps T.s (after T.result) → ∃ content, T.s.fs f = some content ∧
        (after (configPackage env package opts s)).saved f suffix = some content := by
  rcases configPackage_cases env package opts s with
    ⟨m, db, -, -, hturns, hcall⟩ | ⟨hturns, -⟩
  · rw [hturns] at h
    rw [hturns, hcall]
    exact (turnsFrom_saved env package.name opts m db package.templates s h).2
  · simp [hturns]

end configPackage

/-! ## A new template over an existing file -/

/-- The files of a machine that counts its seconds from zero. -/
def motdEnv : Env Str Nat where
  root_dir := ['/']
  sha1 := id
  clock := id
  strftime time := (toString time).toList
  hashText := id
  timeText time := (toString time).toList
  number text := (String.ofList text).toNat?
  templatesWhere _ _ := .error .operationalError
  targetsWhere _ _ _ := .error .operationalError

/-- The template `m` writes the file `/m`. -/
def motdTemplate : Template := ⟨['m'], ['t'], [(['/', 'm'], ['t'])]⟩

def motdPackage : Package := ⟨['p'], [motdTemplate], by decide⟩

/-- No package was built yet, and somebody wrote the file. -/
def motdSystem : System Str Nat where
  fs f := if f = ⟨true, [['m']]⟩ then some ['l'] else none
  saved _ _ := none
  templates := []
  targets := []
  valuesLastModified := .time 0
  ticks := 0
  ops := []

def motdOptions : Options := ⟨[['m']], false, false, false, false, []⟩

theorem motd_file : writtenFile motdEnv motdOptions ['/', 'm'] = ⟨true, [['m']]⟩ := by decide

end LibConfig
