import Disks.Config.Proof.LocalChanges
import Disks.Lib.Table

/-!
# The rows of the targets

What the calls that write the tables do to what the rows say (`entries`, `recordedTemplate`).

* `markChecked_kept`: a known template that needs no build keeps its rows.
* `recordTarget_recording`, `record_recording`: **one row for each target that was built.**
-/

namespace LibConfig

open Path Fold Table

section tables

variable {Hash Time : Type}

/-! ## The tables -/

variable (env : Env Hash Time) (s : System Hash Time) {package template target : Str}

theorem entries_insertTarget_self (built : Option Hash) :
    entries (insertTarget env package template target built s) package template target =
      entries s package template target ++ [⟨built, built.map fun _ => now env s⟩] := by
  simp [entries, insertTarget]

theorem entries_insertTarget_of_ne {p t x : Str}
    (h : ¬ (p = package ∧ t = template ∧ x = target)) (built : Option Hash) :
    entries (insertTarget env package template target built s) p t x = entries s p t x := by
  have h' : ¬ (package = p ∧ template = t ∧ target = x) := fun ⟨h₁, h₂, h₃⟩ =>
    h ⟨h₁.symm, h₂.symm, h₃.symm⟩
  simp [entries, insertTarget, h']

theorem entries_updateTarget_self (built : Option Hash) :
    entries (updateTarget env package template target built s) package template target =
      (entries s package template target).map fun i =>
        match built with
        | none => i
        | some hash => ⟨some hash, some (now env s)⟩ := by
  unfold entries updateTarget
  rw [filter_update_self fun r hr => by cases built <;> exact hr, List.map_map, List.map_map]
  refine List.map_congr_left fun r _ => ?_
  cases built <;> rfl

theorem entries_updateTarget_of_ne {p t x : Str}
    (h : ¬ (p = package ∧ t = template ∧ x = target)) (built : Option Hash) :
    entries (updateTarget env package template target built s) p t x = entries s p t x := by
  unfold entries updateTarget
  rw [filter_update_of_disjoint]
  rintro r ⟨rfl, rfl, rfl⟩
  have hne : ¬ (r.package = p ∧ r.template = t ∧ r.target = x) := fun ⟨h₁, h₂, h₃⟩ =>
    h ⟨h₁.symm, h₂.symm, h₃.symm⟩
  exact ⟨hne, by cases built <;> exact hne⟩

/-- A checked target's rows say what they said. -/
theorem entries_checkTarget (p t x : Str) :
    entries (updateTarget env package template target none s) p t x = entries s p t x := by
  by_cases h : p = package ∧ t = template ∧ x = target
  · obtain ⟨rfl, rfl, rfl⟩ := h
    simp [entries_updateTarget_self]
  · exact entries_updateTarget_of_ne env s h none

theorem recordedTemplate_insertTemplate (hash : Option Hash) (built : Bool) (p t : Str) :
    recordedTemplate p (insertTemplate env package template hash built s) t =
      if p = package ∧ t = template then some hash else recordedTemplate p s t := by
  unfold recordedTemplate insertTemplate
  by_cases h : p = package ∧ t = template
  · obtain ⟨rfl, rfl⟩ := h
    simp
  · have hne : ¬ (package = p ∧ template = t) := fun ⟨h₁, h₂⟩ => h ⟨h₁.symm, h₂.symm⟩
    rw [if_neg h, List.filter_append, List.filter_cons_of_neg (by simpa using hne),
      List.filter_nil, List.append_nil]

theorem recordedTemplate_updateTemplate (built : Option Hash) (p t : Str) :
    recordedTemplate p (updateTemplate env package template built s) t =
      if p = package ∧ t = template then
        (recordedTemplate p s t).map fun hash => if built.isSome then built else hash
      else recordedTemplate p s t := by
  unfold recordedTemplate updateTemplate
  by_cases h : p = package ∧ t = template
  · obtain ⟨rfl, rfl⟩ := h
    rw [if_pos ⟨rfl, rfl⟩]
    simp only
    rw [filter_update_self fun r hr => by cases built <;> exact hr, List.getLast?_map,
      Option.map_map, Option.map_map]
    congr 1
    funext r
    cases built <;> rfl
  · rw [if_neg h]
    simp only
    rw [filter_update_of_disjoint]
    rintro r ⟨rfl, rfl⟩
    have hne : ¬ (r.package = p ∧ r.template = t) := fun ⟨h₁, h₂⟩ => h ⟨h₁.symm, h₂.symm⟩
    exact ⟨hne, by cases built <;> exact hne⟩

/-- The rows say what they said, but for the times of the last check. -/
structure Kept (s s' : System Hash Time) : Prop where
  entries : ∀ p t x, entries s' p t x = entries s p t x
  templates : ∀ p t, recordedTemplate p s' t = recordedTemplate p s t
  values : s'.valuesLastModified = s.valuesLastModified
  ticks : s.ticks ≤ s'.ticks

variable {s} in
theorem kept_of_tables {s' : System Hash Time} (htargets : s'.targets = s.targets)
    (htemplates : s'.templates = s.templates)
    (hvalues : s'.valuesLastModified = s.valuesLastModified) (hticks : s.ticks ≤ s'.ticks) :
    Kept s s' := by
  refine ⟨fun p t x => ?_, fun p t => ?_, hvalues, hticks⟩
  · rw [LibConfig.entries, htargets, LibConfig.entries]
  · rw [recordedTemplate, htemplates, recordedTemplate]

variable {s} in
theorem Kept.trans {s₁ s₂ : System Hash Time} (h : Kept s s₁) (h' : Kept s₁ s₂) : Kept s s₂ :=
  ⟨fun p t x => (h'.entries p t x).trans (h.entries p t x),
    fun p t => (h'.templates p t).trans (h.templates p t), h'.values.trans h.values,
    Nat.le_trans h.ticks h'.ticks⟩

/-! ## A template that needs no build -/

/-- The rows of a known template whose targets all have rows stay as they are. -/
theorem markChecked_kept (t : Template) {template_hash : Option (Option Hash)}
    {target_db_list : Str → Option (TargetInfo Hash Time)} (hknown : template_hash.isSome = true)
    (hrows : ∀ x ∈ t.target_list, target_db_list x ≠ none) :
    Kept s (markChecked env package t template_hash target_db_list s) ∧
      (markChecked env package t template_hash target_db_list s).fs = s.fs := by
  obtain ⟨hash, rfl⟩ := Option.isSome_iff_exists.1 hknown
  unfold markChecked
  refine foldl_inv (I := fun s' => Kept s s' ∧ s'.fs = s.fs) (fun s' x hx h => ?_)
    ⟨⟨?_, ?_, ?_, ?_⟩, ?_⟩
  · obtain ⟨row, hrow⟩ := Option.ne_none_iff_exists'.1 (hrows x hx)
    simp only [hrow]
    refine ⟨h.1.trans ⟨fun p t x => entries_checkTarget .., fun _ _ => rfl, rfl, ?_⟩, h.2⟩
    exact Nat.le_succ _
  · exact fun _ _ _ => rfl
  · intro p t'
    rw [recordedTemplate_updateTemplate]
    simp
  · rfl
  · exact Nat.le_succ _
  · rfl

/-! ## A template that was built -/

/-- The file of a target under the root directory. -/
def home (target : Str) : File := file (join env.root_dir (split target))

/-- The rows when these targets of a template that was built have been recorded. -/
structure Recording (package : Str) (t : Template) (s : System Hash Time) (done : List Str)
    (s' : System Hash Time) : Prop where
  files : s'.fs = s.fs
  values : s'.valuesLastModified = s.valuesLastModified
  ticks : s.ticks ≤ s'.ticks
  templates : ∀ p t', recordedTemplate p s' t' =
    if p = package ∧ t' = t.name then some (some (env.sha1 t.source)) else recordedTemplate p s t'
  built : ∀ x ∈ done, ∃ content n, s.fs (home env x) = some content ∧ s.ticks ≤ n ∧
    entries s' package t.name x = [⟨some (env.sha1 content), some (env.clock n)⟩]
  others : ∀ p t' x, ¬ (p = package ∧ t' = t.name ∧ x ∈ done) → entries s' p t' x = entries s p t' x

variable {env s} in
/-- **The row of one target.** -/
theorem recordTarget_recording {t : Template} {done : List Str} {s' : System Hash Time}
    {x content : Str} {known : Bool} (h : Recording env package t s done s')
    (hfile : s.fs (home env x) = some content)
    (hrow : known = true ∧ (entries s package t.name x).length = 1 ∨
      known = false ∧ x ∉ done ∧ entries s package t.name x = []) :
    ∃ s'', recordTarget env package t known s' x = .ok s'' ∧
      Recording env package t s (done ++ [x]) s'' := by
  -- the new row of the target, and that the others stay
  have hnew (s'' : System Hash Time) (hself : entries s'' package t.name x =
        [⟨some (env.sha1 content), some (now env s')⟩])
      (hothers : ∀ p t' y, ¬ (p = package ∧ t' = t.name ∧ y = x) →
        entries s'' p t' y = entries s' p t' y)
      (hfs : s''.fs = s'.fs) (hvalues : s''.valuesLastModified = s'.valuesLastModified)
      (hticks : s''.ticks = s'.ticks + 1) (htemplates : s''.templates = s'.templates) :
      Recording env package t s (done ++ [x]) s'' := by
    refine ⟨hfs.trans h.files, hvalues.trans h.values, ?_, fun p t' => ?_, fun y hy => ?_,
      fun p t' y hy => ?_⟩
    · rw [hticks]
      exact Nat.le_succ_of_le h.ticks
    · rw [recordedTemplate, htemplates]
      exact h.templates p t'
    · by_cases hyx : y = x
      · subst hyx
        exact ⟨content, s'.ticks, hfile, h.ticks, hself⟩
      · obtain ⟨c, n, hc, hn, hentries⟩ := h.built y (by simpa [hyx] using hy)
        exact ⟨c, n, hc, hn, (hothers _ _ _ fun hy => hyx hy.2.2).trans hentries⟩
    · rw [hothers p t' y fun hsame => hy ⟨hsame.1, hsame.2.1, by simp [hsame.2.2]⟩]
      exact h.others p t' y fun hsame => hy ⟨hsame.1, hsame.2.1, by simp [hsame.2.2]⟩
  have hread : s'.fs (file (join env.root_dir (split x))) = some content := by
    rw [h.files]
    exact hfile
  unfold recordTarget
  simp only [hread]
  rcases hrow with ⟨rfl, hone⟩ | ⟨rfl, hx, hnone⟩
  · obtain ⟨i, hi⟩ : ∃ i, entries s' package t.name x = [i] := by
      by_cases hdone : x ∈ done
      · obtain ⟨c, n, -, -, hentries⟩ := h.built x hdone
        exact ⟨_, hentries⟩
      · rw [h.others package t.name x fun hd => hdone hd.2.2]
        exact List.length_eq_one_iff.1 hone
    refine ⟨_, rfl, hnew _ ?_ (fun p t' y hy => entries_updateTarget_of_ne _ _ hy _) rfl rfl rfl
      rfl⟩
    rw [entries_updateTarget_self, hi]
    rfl
  · refine ⟨_, rfl, hnew _ ?_ (fun p t' y hy => entries_insertTarget_of_ne _ _ hy _) rfl rfl rfl
      rfl⟩
    rw [entries_insertTarget_self, h.others package t.name x fun hd => hx hd.2.2, hnone]
    rfl

variable {env s} in
/-- **The rows of a template that was built**: its files exist, and a new one lists no target twice
where a known one has one row of each. -/
theorem record_recording {t : Template} {known : Bool}
    (hfiles : ∀ x ∈ t.target_list, (s.fs (home env x)).isSome)
    (htemplate : known = (recordedTemplate package s t.name).isSome)
    (hrows : known = true ∧ (∀ x ∈ t.target_list, (entries s package t.name x).length = 1) ∨
      known = false ∧ t.target_list.Nodup ∧ ∀ x ∈ t.target_list, entries s package t.name x = []) :
    ∃ s', record env package t known s = .ok s' ∧ Recording env package t s t.target_list s' := by
  unfold record
  refine foldlM_prefix (fun front x rest hsplit s' h => ?_) ⟨?_, ?_, ?_, fun p t' => ?_, ?_, ?_⟩
  · have hx : x ∈ t.target_list := by simp [hsplit]
    obtain ⟨content, hcontent⟩ := Option.isSome_iff_exists.1 (hfiles x hx)
    refine recordTarget_recording h hcontent ?_
    rcases hrows with ⟨hknown, hone⟩ | ⟨hknown, hnodup, hnone⟩
    · exact .inl ⟨hknown, hone x hx⟩
    · refine .inr ⟨hknown, fun hfront => ?_, hnone x hx⟩
      rw [hsplit, List.nodup_append] at hnodup
      exact hnodup.2.2 x hfront x (List.mem_cons_self ..) rfl
  · split <;> rfl
  · split <;> rfl
  · split <;> exact Nat.le_succ _
  · cases known with
    | true =>
      obtain ⟨hash, hhash⟩ := Option.isSome_iff_exists.1 htemplate.symm
      rw [if_pos rfl, recordedTemplate_updateTemplate]
      refine ite_congr rfl (fun ⟨hp, ht⟩ => ?_) fun _ => rfl
      subst hp ht
      simp [hhash]
    | false =>
      rw [if_neg (by simp), recordedTemplate_insertTemplate]
  · simp
  · intro p t' x _
    split <;> rfl

end tables

end LibConfig
