import Disks.Cinp.Uri

/-!
# Taking URIs apart and putting them together

A text is of one `Form` at most behind its root, and the regular expression captures the parts of
the form.

* `path_sound`, `path_complete`, `form_unique`: the forms are what the regular expression matches.
* `split_root`, `split_sound`: what `split` returns, by the form.
* `round_trip`: **`split` gives back what `build` was given, `extractIds` the ids of a list of URIs,
  and what `split` accepts it finds again in what `build` makes of it.**
-/

namespace Cinp

open Regex Regex.Pattern

/-! ## The form of a path -/

/-- A name of a namespace, a model or an action. -/
def Token (t : Text) : Prop := t ≠ [] ∧ ∀ c ∈ t, isToken c

/-- What stands between two colons. -/
def Segment (t : Text) : Prop := ∀ c ∈ t, isId c

/-- What follows the root, in parts. -/
structure Form where
  names : List Text
  model : Option Text
  rec_id : Option Text
  action : Option Text
  tail : Text

def Form.text (f : Form) : Text :=
  closed '/' f.names ++ (f.model.getD [] ++ (f.rec_id.getD [] ++ (f.action.getD [] ++ f.tail)))

structure Form.Valid (f : Form) : Prop where
  names : ∀ t ∈ f.names, Token t
  model : ∀ t, f.model = some t → Token t
  rec_id : ∀ t, f.rec_id = some t → ∃ segments, (∀ s ∈ segments, Segment s) ∧
    t = ':' :: closed ':' segments
  action : ∀ t, f.action = some t → ∃ a, Token a ∧ t = '(' :: (a ++ [')'])
  tail : f.tail = [] ∨ f.tail = ['\n']

/-- What a match captures of a form. -/
structure Form.Captured (f : Form) (c : Captures Char) : Prop where
  names : c.group 2 = some (closed '/' f.names)
  model : c.group 4 = f.model
  rec_id : c.group 5 = f.rec_id
  action : c.group 7 = f.action

/-! ## What the regular expression matches -/

theorem name_iff (s rest : Text) : (∃ c, Matches (plus (one isToken)) s c rest) ↔ Token s := by
  simp only [matches_plus_one, Token]
  constructor
  · intro h
    obtain ⟨_, hne, hall, -⟩ := h
    exact ⟨hne, hall⟩
  · intro h
    exact ⟨[], h.1, h.2, rfl⟩

theorem segment_iff (s rest : Text) : (∃ c, Matches (star (one isId)) s c rest) ↔ Segment s := by
  simp only [matches_star_one, Segment, exists_and_left, exists_eq, and_true]

theorem namespaces_iff (s rest : Text) : (∃ c, Matches namespaces s c rest) ↔
    ∃ names, (∀ t ∈ names, Token t) ∧ s = closed '/' names := by
  rw [← matches_closed name_iff s rest]
  constructor
  · intro h
    obtain ⟨c, hc⟩ := h
    obtain ⟨d, -, hd⟩ := matches_group.mp hc
    exact ⟨d, hd⟩
  · intro h
    obtain ⟨d, hd⟩ := h
    exact ⟨_, .group hd⟩

theorem ids_iff (s rest : Text) :
    (∃ c, Matches (seq (one (· = ':')) (star (group 6 (seq (star (one isId)) (one (· = ':'))))))
      s c rest) ↔ ∃ segments, (∀ t ∈ segments, Segment t) ∧ s = ':' :: closed ':' segments := by
  constructor
  · intro h
    obtain ⟨c, hc⟩ := h
    obtain ⟨t, u, _, d, rfl, rfl, ht, hu⟩ := matches_seq.mp hc
    obtain ⟨x, hx, rfl, rfl⟩ := matches_one.mp ht
    obtain ⟨segments, hsegments, rfl⟩ := (matches_closed segment_iff u rest).mp ⟨d, hu⟩
    rw [of_decide_eq_true hx]
    exact ⟨segments, hsegments, rfl⟩
  · intro h
    obtain ⟨segments, hsegments, rfl⟩ := h
    obtain ⟨d, hd⟩ := (matches_closed (n := 6) segment_iff _ rest).mpr ⟨segments, hsegments, rfl⟩
    exact ⟨_, .seq (s := [':']) (.one rfl) hd⟩

theorem action_iff (s rest : Text) :
    (∃ c, Matches (seq (one (· = '(')) (seq (plus (one isToken)) (one (· = ')')))) s c rest) ↔
      ∃ a, Token a ∧ s = '(' :: (a ++ [')']) := by
  constructor
  · intro h
    obtain ⟨c, hc⟩ := h
    obtain ⟨t, u, _, d, rfl, rfl, ht, hu⟩ := matches_seq.mp hc
    obtain ⟨x, hx, rfl, rfl⟩ := matches_one.mp ht
    obtain ⟨a, v, e, _, rfl, rfl, ha, hv⟩ := matches_seq.mp hu
    obtain ⟨y, hy, rfl, rfl⟩ := matches_one.mp hv
    rw [of_decide_eq_true hx, of_decide_eq_true hy]
    exact ⟨a, (name_iff a _).mp ⟨e, ha⟩, rfl⟩
  · intro h
    obtain ⟨a, ha, rfl⟩ := h
    obtain ⟨d, hd⟩ := (name_iff a ([')'] ++ rest)).mpr ha
    exact ⟨_, .seq (s := ['(']) (.one rfl) (.seq hd (.one rfl))⟩

/-- What the regular expression matches behind the root is of a form, and captures its parts. -/
theorem path_sound {s rest : Text} {c : Captures Char} (h : Matches path s c rest) :
    ∃ f : Form, f.Valid ∧ s ++ rest = f.text ∧ f.Captured c := by
  obtain ⟨s₁, t₁, c₁, d₁, rfl, rfl, h₁, h⟩ := matches_seq.mp h
  obtain ⟨s₂, t₂, c₂, d₂, rfl, rfl, h₂, h⟩ := matches_seq.mp h
  obtain ⟨s₃, t₃, c₃, d₃, rfl, rfl, h₃, h⟩ := matches_seq.mp h
  obtain ⟨s₄, t₄, c₄, d₄, rfl, rfl, h₄, h⟩ := matches_seq.mp h
  obtain ⟨hend, rfl, rfl⟩ := matches_ahead.mp h
  obtain ⟨names, hnames, rfl⟩ := (namespaces_iff _ _).mp ⟨c₁, h₁⟩
  obtain ⟨rfl, hmodel⟩ := h₂.opt_group
  obtain ⟨rfl, hids⟩ := h₃.opt_group
  obtain ⟨rfl, haction⟩ := h₄.opt_group
  refine ⟨⟨names, c₂.group 4, c₃.group 5, c₄.group 7, rest⟩, ?_, ?_, ?_⟩
  · exact ⟨hnames, fun t ht => (name_iff t _).mp (hmodel t ht),
      fun t ht => (ids_iff t _).mp (hids t ht), fun t ht => (action_iff t _).mp (haction t ht),
      of_decide_eq_true hend⟩
  · simp [Form.text]
  -- each group is captured by its own part only
  have hno (n : Nat) {a : Pattern Char} {s rest : Text} {c : Captures Char}
      (ha : Matches a s c rest) (hn : n ∉ a.groups) : c.group n = none := ha.group_none hn
  constructor
  · simp [group_append, h₁.group_self, hno 2 h₂ (by decide), hno 2 h₃ (by decide),
      hno 2 h₄ (by decide)]
  · simp [group_append, hno 4 h₁ (by decide), hno 4 h₃ (by decide), hno 4 h₄ (by decide)]
  · simp [group_append, hno 5 h₁ (by decide), hno 5 h₂ (by decide), hno 5 h₄ (by decide)]
  · simp [group_append, hno 7 h₁ (by decide), hno 7 h₂ (by decide), hno 7 h₃ (by decide)]

/-- Each form is matched. -/
theorem path_complete {f : Form} (h : f.Valid) :
    ∃ s c, s ++ f.tail = f.text ∧ Matches path s c f.tail := by
  have hend : Matches (ahead atEnd) [] [] f.tail := .ahead (decide_eq_true h.tail)
  obtain ⟨c₄, h₄, -⟩ := opt_group_matches (n := 7) fun t ht =>
    (action_iff t ([] ++ f.tail)).mpr (h.action t ht)
  obtain ⟨c₃, h₃, -⟩ := opt_group_matches (n := 5) fun t ht =>
    (ids_iff t ((f.action.getD [] ++ []) ++ f.tail)).mpr (h.rec_id t ht)
  obtain ⟨c₂, h₂, -⟩ := opt_group_matches (n := 4) fun t ht =>
    (name_iff t ((f.rec_id.getD [] ++ (f.action.getD [] ++ [])) ++ f.tail)).mpr (h.model t ht)
  obtain ⟨c₁, h₁⟩ := (namespaces_iff _ ((f.model.getD [] ++ (f.rec_id.getD [] ++
    (f.action.getD [] ++ []))) ++ f.tail)).mpr ⟨f.names, h.names, rfl⟩
  exact ⟨_, _, by simp [Form.text], .seq h₁ (.seq h₂ (.seq h₃ (.seq h₄ hend)))⟩

/-! ## A text is of one form -/

theorem getD_inj {o o' : Option Text} (h : ∀ t, o = some t → t ≠ [])
    (h' : ∀ t, o' = some t → t ≠ []) (heq : o.getD [] = o'.getD []) : o = o' := by
  cases o with
  | none =>
    cases o' with
    | none => rfl
    | some t => exact absurd heq.symm (h' t rfl)
  | some t =>
    cases o' with
    | none => exact absurd heq (h t rfl)
    | some t' => exact congrArg some heq

section heads

variable {f : Form} (h : f.Valid)
include h

theorem Form.Valid.action_head : ∀ x ∈ (f.action.getD [] ++ f.tail).head?, x = '(' ∨ x = '\n' := by
  intro x hx
  cases ha : f.action with
  | none =>
    obtain ht | ht := h.tail
    · simp [ha, ht] at hx
    · simp only [ha, ht, Option.getD_none, List.nil_append, List.head?_cons, Option.mem_def,
        Option.some.injEq] at hx
      exact .inr hx.symm
  | some t =>
    obtain ⟨a, -, rfl⟩ := h.action t ha
    simp only [ha, Option.getD_some, List.cons_append, List.head?_cons, Option.mem_def,
      Option.some.injEq] at hx
    exact .inl hx.symm

theorem Form.Valid.rec_id_head :
    ∀ x ∈ (f.rec_id.getD [] ++ (f.action.getD [] ++ f.tail)).head?,
      x = ':' ∨ x = '(' ∨ x = '\n' := by
  intro x hx
  cases hr : f.rec_id with
  | none =>
    rw [hr] at hx
    exact .inr (h.action_head x hx)
  | some t =>
    obtain ⟨segments, -, rfl⟩ := h.rec_id t hr
    simp only [hr, Option.getD_some, List.cons_append, List.head?_cons, Option.mem_def,
      Option.some.injEq] at hx
    exact .inl hx.symm

theorem Form.Valid.model_token : ∀ x ∈ f.model.getD [], isToken x := by
  cases hm : f.model with
  | none => simp
  | some t => exact (h.model t hm).2

/-- The characters of ids and colons. -/
theorem Form.Valid.rec_id_chars : ∀ x ∈ f.rec_id.getD [], isId x ∨ x = ':' := by
  cases hr : f.rec_id with
  | none => simp
  | some t =>
    obtain ⟨segments, hsegments, rfl⟩ := h.rec_id t hr
    intro x hx
    obtain rfl | hx := List.mem_cons.mp hx
    · exact .inr rfl
    · simp only [closed, List.mem_flatten, List.mem_map] at hx
      obtain ⟨_, ⟨s, hs, rfl⟩, hx⟩ := hx
      obtain hx | hx := List.mem_append.mp hx
      · exact .inl (hsegments s hs x hx)
      · exact .inr (List.mem_singleton.mp hx)

theorem Form.Valid.action_chars : ∀ x ∈ f.action.getD [], x ≠ '\n' := by
  cases ha : f.action with
  | none => simp
  | some t =>
    obtain ⟨a, ha', rfl⟩ := h.action t ha
    intro x hx hnewline
    subst hnewline
    simp only [Option.getD_some, List.mem_cons, List.mem_append, List.not_mem_nil, or_false] at hx
    obtain hx | hx | hx := hx
    · exact absurd hx (by decide)
    · exact absurd (ha'.2 _ hx) (by decide)
    · exact absurd hx (by decide)

end heads

/-- The names end where a text of a class is not followed by a slash. -/
theorem names_unique {names names' : List Text} (hnames : ∀ t ∈ names, Token t)
    (hnames' : ∀ t ∈ names', Token t) {m m' r r' : Text} (hm : ∀ x ∈ m, isToken x)
    (hm' : ∀ x ∈ m', isToken x) (hr : ∀ x ∈ r.head?, ¬ isToken x ∧ x ≠ '/')
    (hr' : ∀ x ∈ r'.head?, ¬ isToken x ∧ x ≠ '/')
    (h : closed '/' names ++ (m ++ r) = closed '/' names' ++ (m' ++ r')) :
    names = names' ∧ m ++ r = m' ++ r' := by
  have hslash (u : Text) : ∀ x ∈ ('/' :: u).head?, ¬ isToken x := by
    intro x hx
    obtain rfl := Option.some.inj hx
    decide
  induction names generalizing names' with
  | nil =>
    cases names' with
    | nil => exact ⟨rfl, h⟩
    | cons t names' =>
      rw [closed_cons, List.append_assoc, List.append_assoc] at h
      obtain ⟨-, hrest⟩ := span_eq hm (hnames' t (List.mem_cons_self ..)).2
        (fun x hx => (hr x hx).1) (hslash _) h
      exact absurd rfl (hr '/' (by rw [hrest]; rfl)).2
  | cons t names ih =>
    obtain ⟨ht, hnames⟩ := List.forall_mem_cons.mp hnames
    rw [closed_cons, List.append_assoc, List.append_assoc] at h
    cases names' with
    | nil =>
      obtain ⟨-, hrest⟩ := span_eq ht.2 hm' (hslash _) (fun x hx => (hr' x hx).1) h
      have hne := hr' '/' (by rw [← hrest]; rfl)
      exact absurd rfl hne.2
    | cons t' names' =>
      obtain ⟨ht', hrest'⟩ := List.forall_mem_cons.mp hnames'
      rw [closed_cons, List.append_assoc, List.append_assoc] at h
      obtain ⟨rfl, hrest⟩ := span_eq ht.2 ht'.2 (hslash _) (hslash _) h
      obtain ⟨rfl, hbody⟩ := ih hnames hrest' (List.cons_eq_cons.mp hrest).2
      exact ⟨rfl, hbody⟩

/-- **A text is of one form at most.** -/
theorem form_unique {f g : Form} (hf : f.Valid) (hg : g.Valid) (h : f.text = g.text) : f = g := by
  have hdelimiter {x : Char} (hx : x = ':' ∨ x = '(' ∨ x = '\n') : ¬ isToken x ∧ x ≠ '/' := by
    obtain rfl | rfl | rfl := hx <;> decide
  obtain ⟨hnames, hbody⟩ := names_unique hf.names hg.names hf.model_token hg.model_token
    (fun x hx => hdelimiter (hf.rec_id_head x hx)) (fun x hx => hdelimiter (hg.rec_id_head x hx)) h
  obtain ⟨hmodel, hbody⟩ := span_eq hf.model_token hg.model_token
    (fun x hx => (hdelimiter (hf.rec_id_head x hx)).1)
    (fun x hx => (hdelimiter (hg.rec_id_head x hx)).1) hbody
  have hid {x : Char} (hx : x = '(' ∨ x = '\n') : ¬ (isId x ∨ x = ':') := by
    obtain rfl | rfl := hx <;> decide
  obtain ⟨hrec_id, hbody⟩ := span_eq hf.rec_id_chars hg.rec_id_chars
    (fun x hx => hid (hf.action_head x hx)) (fun x hx => hid (hg.action_head x hx)) hbody
  have htail {f : Form} (h : f.Valid) : ∀ x ∈ f.tail.head?, ¬ x ≠ '\n' := by
    intro x hx
    obtain ht | ht := h.tail
    · simp [ht] at hx
    · rw [ht] at hx
      exact not_not.mpr (Option.some.inj hx).symm
  obtain ⟨haction, hrest⟩ := span_eq hf.action_chars hg.action_chars (htail hf) (htail hg) hbody
  have hrec_id' {f : Form} (h : f.Valid) : ∀ t, f.rec_id = some t → t ≠ [] := by
    intro t ht
    obtain ⟨segments, -, rfl⟩ := h.rec_id t ht
    exact List.cons_ne_nil _ _
  have haction' {f : Form} (h : f.Valid) : ∀ t, f.action = some t → t ≠ [] := by
    intro t ht
    obtain ⟨a, -, rfl⟩ := h.action t ht
    exact List.cons_ne_nil _ _
  have hmodel' := getD_inj (fun t ht => (hf.model t ht).1) (fun t ht => (hg.model t ht).1) hmodel
  have hrec_id := getD_inj (hrec_id' hf) (hrec_id' hg) hrec_id
  have haction := getD_inj (haction' hf) (haction' hg) haction
  obtain ⟨names, m, r, a, t⟩ := f
  obtain ⟨names', m', r', a', t'⟩ := g
  simp only at hnames hmodel' hrec_id haction hrest
  rw [hnames, hmodel', hrec_id, haction, hrest]

/-! ## Stripping and splitting -/

/-- A text that neither starts nor ends with a character. -/
def Stripped (x : Char) (t : Text) : Prop := t.head? ≠ some x ∧ t.getLast? ≠ some x

theorem rdropWhile_stripped {x : Char} {t : Text} (h : t.getLast? ≠ some x) :
    t.rdropWhile (· = x) = t := by
  rw [List.rdropWhile_eq_self_iff]
  intro hne hlast
  rw [List.getLast?_eq_getLast_of_ne_nil hne] at h
  exact h (congrArg some (of_decide_eq_true hlast))

theorem dropWhile_head (x : Char) (t : Text) : (t.dropWhile (· = x)).head? ≠ some x := by
  intro h
  have hnot := List.head?_dropWhile_not (fun y => decide (y = x)) t
  rw [h] at hnot
  simp at hnot

/-- What is left by `strip` is stripped. -/
theorem strip_stripped (x : Char) (t : Text) :
    Stripped x ((t.dropWhile (· = x)).rdropWhile (· = x)) := by
  constructor
  · intro h
    obtain ⟨rest, hrest⟩ := List.rdropWhile_prefix (fun y => decide (y = x))
      (t.dropWhile (· = x))
    refine dropWhile_head x t ?_
    rw [← hrest, List.head?_append, h, Option.some_or]
  · intro h
    have hne : (t.dropWhile (· = x)).rdropWhile (· = x) ≠ [] := by
      intro hnil
      rw [hnil] at h
      cases h
    rw [List.getLast?_eq_getLast_of_ne_nil hne, Option.some.injEq] at h
    exact List.rdropWhile_last_not (fun y => decide (y = x)) _ hne (decide_eq_true h)

/-- `strip` takes what was put around a stripped text. -/
theorem strip_wrap {x : Char} {t : Text} (h : Stripped x t) :
    (((x :: (t ++ [x])).dropWhile (· = x)).rdropWhile (· = x)) = t := by
  rw [List.dropWhile_cons_of_pos (by simp)]
  cases t with
  | nil => simp
  | cons y t =>
    have hy : ¬ y = x := fun hy => h.1 (congrArg some hy)
    rw [List.cons_append, List.dropWhile_cons_of_neg (by simp [hy]), ← List.cons_append,
      List.rdropWhile_concat_pos _ _ _ (by simp), rdropWhile_stripped h.2]

theorem join_cons (x : Char) (t u : Text) (ts : List Text) :
    [x].intercalate (t :: u :: ts) = t ++ [x] ++ [x].intercalate (u :: ts) := by
  simp [List.intercalate]

theorem closed_eq_join {x : Char} {ts : List Text} (h : ts ≠ []) :
    closed x ts = [x].intercalate ts ++ [x] := by
  induction ts with
  | nil => exact absurd rfl h
  | cons t ts ih =>
    cases ts with
    | nil => simp [closed, List.intercalate]
    | cons u ts =>
      rw [closed_cons, ih (List.cons_ne_nil _ _), join_cons]
      simp only [List.append_assoc]

/-- Texts that are not empty and do not have the separator are stripped when they are joined. -/
theorem join_stripped {x : Char} {ts : List Text} (h : ∀ t ∈ ts, t ≠ [] ∧ x ∉ t) :
    Stripped x ([x].intercalate ts) := by
  induction ts with
  | nil => exact ⟨by simp [List.intercalate], by simp [List.intercalate]⟩
  | cons t ts ih =>
    obtain ⟨⟨hne, hx⟩, hts⟩ := List.forall_mem_cons.mp h
    have hhead : t.head? ≠ some x := fun hhead => hx (List.mem_of_head? hhead)
    cases ts with
    | nil =>
      have hlast : t.getLast? ≠ some x := fun hlast => hx (List.mem_of_getLast? hlast)
      simpa [List.intercalate, Stripped] using ⟨hhead, hlast⟩
    | cons u ts =>
      obtain ⟨-, hlast⟩ := ih hts
      rw [join_cons]
      constructor
      · intro h
        rw [List.append_assoc, List.head?_append_of_ne_nil _ hne] at h
        exact hhead h
      · intro h
        have hrest : [x].intercalate (u :: ts) ≠ [] := by
          intro hnil
          obtain ⟨y, u', rfl⟩ := List.exists_cons_of_ne_nil (hts u (List.mem_cons_self ..)).1
          cases ts <;> simp [List.intercalate] at hnil
        rw [List.getLast?_append_of_ne_nil _ hrest] at h
        exact hlast h

/-- The names of a path. -/
theorem split_names {names : List Text} (h : ∀ t ∈ names, Token t) :
    (if closed '/' names ≠ [] then
        ((closed '/' names).rdropWhile (· = '/')).splitOn '/' else []) = names := by
  have hslash : ∀ t ∈ names, '/' ∉ t := fun t ht hmem =>
    absurd ((h t ht).2 '/' hmem) (by decide)
  cases names with
  | nil => rfl
  | cons t names =>
    have hne : closed '/' (t :: names) ≠ [] := by simp [closed_cons]
    rw [if_pos hne, closed_eq_join (List.cons_ne_nil _ _),
      List.rdropWhile_concat_pos _ _ _ (by simp),
      rdropWhile_stripped (join_stripped fun t ht => ⟨(h t ht).1, hslash t ht⟩).2,
      List.splitOn_intercalate '/' hslash (List.cons_ne_nil _ _)]

/-- The ids between colons. -/
theorem splitIds_wrap {t : Text} (h : Stripped ':' t) :
    splitIds (':' :: (t ++ [':'])) = t.splitOn ':' := by
  rw [splitIds, strip_wrap h]

/-- What stands between the outer colons. -/
def core (rec_id : Text) : Text := (rec_id.dropWhile (· = ':')).rdropWhile (· = ':')

theorem core_chars {t : Text} (h : ∀ x ∈ t, isId x ∨ x = ':') : ∀ x ∈ core t, isId x ∨ x = ':' := by
  intro x hx
  have hcore : core t <+: t.dropWhile (· = ':') := List.rdropWhile_prefix _ _
  exact h x ((List.dropWhile_sublist _).subset (hcore.subset hx))

/-- A text of ids and colons, closed by a colon. -/
theorem closed_of_chars {t : Text} (h : ∀ x ∈ t, isId x ∨ x = ':') :
    ∃ segments, (∀ s ∈ segments, Segment s) ∧ t ++ [':'] = closed ':' segments := by
  induction t with
  | nil => exact ⟨[[]], by simp [Segment], rfl⟩
  | cons x t ih =>
    obtain ⟨hx, ht⟩ := List.forall_mem_cons.mp h
    obtain ⟨segments, hsegments, heq⟩ := ih ht
    obtain hx | rfl := hx
    · cases segments with
      | nil => simp [closed] at heq
      | cons s segments =>
        obtain ⟨hs, hrest⟩ := List.forall_mem_cons.mp hsegments
        refine ⟨(x :: s) :: segments, List.forall_mem_cons.mpr
          ⟨List.forall_mem_cons.mpr ⟨hx, hs⟩, hrest⟩, ?_⟩
        rw [List.cons_append, heq]
        rfl
    · refine ⟨[] :: segments, List.forall_mem_cons.mpr ⟨by simp [Segment], hsegments⟩, ?_⟩
      rw [List.cons_append, heq]
      rfl

/-! ## What `split` finds -/

/-- The parts that `split` returns of a form. -/
def Form.parts (f : Form) : Parts where
  namespace_list := f.names
  model := f.model
  action := f.action.map fun a => (a.drop 1).dropLast
  id_list := f.rec_id.map splitIds
  multi := (f.rec_id.map splitIds).any fun ids => 1 < ids.length

/-- The root captures nothing of what follows. -/
theorem Form.Captured.root {f : Form} {c d : Captures Char} {n : Nat} (h : f.Captured d)
    (hc : ∀ x ∈ c, x.1 = n) (hn : n < 2) : f.Captured (c ++ d) := by
  have hno (k : Nat) (hk : 2 ≤ k) : c.group k = none := by
    have hnil : c.filter (·.1 = k) = [] := by
      rw [List.filter_eq_nil_iff]
      intro x hx hxk
      have hxn := hc x hx
      have hxk := of_decide_eq_true hxk
      omega
    simp [Captures.group, hnil]
  constructor
  · rw [group_append, h.names, Option.some_or]
  · rw [group_append, h.model, hno 4 (by decide), Option.or_none]
  · rw [group_append, h.rec_id, hno 5 (by decide), Option.or_none]
  · rw [group_append, h.action, hno 7 (by decide), Option.or_none]

/-- What is matched behind a root is of a form. -/
theorem root_sound {root : Pattern Char} (hroot : root.groups = []) {s rest : Text}
    {c : Captures Char} (h : Matches (seq (group 1 root) path) s c rest) :
    ∃ (t : Text) (d : Captures Char) (f : Form), Matches root t d (s.drop t.length ++ rest) ∧
      f.Valid ∧ s ++ rest = t ++ f.text ∧ c.group 1 = some t ∧ f.Captured c := by
  obtain ⟨t, u, c₁, c₂, rfl, rfl, h₁, h₂⟩ := matches_seq.mp h
  obtain ⟨f, hf, htext, hcaptured⟩ := path_sound h₂
  obtain ⟨d, -, hd⟩ := matches_group.mp h₁
  refine ⟨t, d, f, ?_, hf, ?_, ?_, hcaptured.root (n := 1) (fun x hx => ?_) (by decide)⟩
  · rw [List.drop_left]
    exact hd
  · rw [List.append_assoc, htext]
  · rw [group_append, h₂.group_none (by decide), Option.none_or, h₁.group_self]
  · have hgroup := h₁.groups x hx
    simpa [groups, hroot] using hgroup

theorem text_groups (xs : Text) : (text xs).groups = [] := by
  induction xs with
  | nil => rfl
  | cons x xs ih => exact ih

/-- The regular expression captures the form behind the root path. -/
theorem first_root (u : URI) {f : Form} (hf : f.Valid) :
    ∃ c, u.uriRegex.first (u.root_path ++ f.text) = some c ∧ c.group 1 = some u.root_path ∧
      f.Captured c := by
  obtain ⟨s, d, hs, hd⟩ := path_complete hf
  have hroot : Matches (group 1 (text u.root_path)) u.root_path [(1, u.root_path)]
      (s ++ f.tail) := .group (matches_text.mpr ⟨rfl, rfl⟩)
  have hmem := (mem_successes_iff (seq (group 1 (text u.root_path)) path)
    (u.root_path ++ f.text) _ _).mpr ⟨_, by rw [List.append_assoc, hs], .seq hroot hd⟩
  have hhead := head_alt (b := text ['/']) (List.ne_nil_of_mem hmem)
  cases hc : ((seq (group 1 (text u.root_path)) path).successes (u.root_path ++ f.text)).head? with
  | none =>
    rw [List.head?_eq_none_iff] at hc
    rw [hc] at hmem
    cases hmem
  | some way =>
    obtain ⟨c, rest⟩ := way
    -- the preferred way is of the same form
    obtain ⟨t, ht, hmatch⟩ := (mem_successes_iff _ _ _ _).mp (List.mem_of_head? hc)
    obtain ⟨t₁, _, g, htext, hg, heq, hgroup, hcaptured⟩ := root_sound (text_groups _) hmatch
    obtain ⟨rfl, -⟩ := matches_text.mp htext
    rw [heq] at ht
    obtain rfl := form_unique hf hg (List.append_cancel_left ht)
    refine ⟨c, ?_, hgroup, hcaptured⟩
    rw [first, URI.uriRegex, hhead, hc]
    rfl

/-- What the regular expression matches has a form behind a root. -/
theorem first_sound (u : URI) {uri : Text} {c : Captures Char}
    (h : u.uriRegex.first uri = some c) : ∃ f : Form, f.Valid ∧ f.Captured c := by
  obtain ⟨⟨c', rest⟩, hhead, rfl⟩ := Option.map_eq_some_iff.mp h
  obtain ⟨t, -, hmatch⟩ := (mem_successes_iff _ _ _ _).mp (List.mem_of_head? hhead)
  have hgroups : (alt (text u.root_path) (text ['/'])).groups = [] := by
    rw [groups, text_groups, text_groups, List.append_nil]
  obtain ⟨_, _, f, -, hf, -, -, hcaptured⟩ := root_sound hgroups hmatch
  exact ⟨f, hf, hcaptured⟩

/-- The parts that `split` returns are those of the form. -/
theorem split_parts {u : URI} {uri : Text} {root_optional : Bool} {f : Form} {c : Captures Char}
    (hf : f.Valid) (hfirst : u.uriRegex.first uri = some c) (hc : f.Captured c)
    (hroot : c.group 1 = some u.root_path ∨ root_optional) :
    u.split uri root_optional = .ok f.parts := by
  have hcheck : ¬ (c.group 1 ≠ some u.root_path ∧ ¬ root_optional) := by
    intro h
    obtain hroot | hroot := hroot
    · exact h.1 hroot
    · exact h.2 hroot
  unfold URI.split Form.parts
  simp only [hfirst, hcheck, if_false, hc.names, hc.model, hc.rec_id, hc.action, Option.getD_some,
    split_names hf.names]

theorem split_root (u : URI) {f : Form} (hf : f.Valid) (root_optional : Bool) :
    u.split (u.root_path ++ f.text) root_optional = .ok f.parts := by
  obtain ⟨c, hfirst, hroot, hc⟩ := first_root u hf
  exact split_parts hf hfirst hc (.inl hroot)

theorem split_sound {u : URI} {uri : Text} {root_optional : Bool} {p : Parts}
    (h : u.split uri root_optional = .ok p) : ∃ f : Form, f.Valid ∧ p = f.parts := by
  cases hfirst : u.uriRegex.first uri with
  | none => simp [URI.split, hfirst] at h
  | some c =>
    obtain ⟨f, hf, hc⟩ := first_sound u hfirst
    by_cases hroot : c.group 1 = some u.root_path ∨ root_optional
    · rw [split_parts hf hfirst hc hroot] at h
      exact ⟨f, hf, (Except.ok.inj h).symm⟩
    · have hcheck : c.group 1 ≠ some u.root_path ∧ ¬ root_optional := not_or.mp hroot
      simp [URI.split, hfirst, hcheck] at h

/-! ## What `build` makes -/

/-- The form that `build` gives a URI with a model. -/
def formOf (names : List Text) (model : Text) (action : Option Text)
    (id_list : Option (List Text)) : Form where
  names := names
  model := some model
  rec_id := id_list.map fun ids => ':' :: closed ':' ids
  action := action.map fun a => '(' :: (a ++ [')'])
  tail := []

theorem build_eq (u : URI) (names : List Text) (model : Text) (action : Option Text)
    {id_list : Option (List Text)} (h : ∀ ids, id_list = some ids → ids ≠ []) :
    u.build (some names) (some model) action id_list true =
      u.root_path ++ (formOf names model action id_list).text := by
  have hnames : (if 0 < names.length then u.root_path ++ ['/'].intercalate names ++ ['/']
      else u.root_path) = u.root_path ++ closed '/' names := by
    cases names with
    | nil => simp [closed]
    | cons t names =>
      rw [if_pos (by simp), closed_eq_join (List.cons_ne_nil _ _), List.append_assoc]
  unfold URI.build Form.text formOf
  simp only [if_true, hnames]
  cases id_list with
  | none => cases action <;> simp
  | some ids =>
    simp only [if_pos (h ids rfl), Option.map_some, Option.getD_some,
      closed_eq_join (h ids rfl)]
    cases action <;> simp

/-- A URI that is built is of its form. -/
theorem formOf_valid {names : List Text} {model : Text} {action : Option Text}
    {id_list : Option (List Text)} (hnames : ∀ t ∈ names, Token t) (hmodel : Token model)
    (haction : ∀ a, action = some a → Token a) (hids : ∀ ids, id_list = some ids →
      ∃ segments, (∀ s ∈ segments, Segment s) ∧ closed ':' ids = closed ':' segments) :
    (formOf names model action id_list).Valid where
  names := hnames
  model := by
    intro t ht
    cases ht
    exact hmodel
  rec_id := by
    intro t ht
    obtain ⟨ids, hid_list, rfl⟩ := Option.map_eq_some_iff.mp ht
    obtain ⟨segments, hsegments, heq⟩ := hids ids hid_list
    exact ⟨segments, hsegments, by rw [heq]⟩
  action := by
    intro t ht
    obtain ⟨a, ha, rfl⟩ := Option.map_eq_some_iff.mp ht
    exact ⟨a, haction a ha, rfl⟩
  tail := .inl rfl

/-- `split` after `build`, where the ids are those that are split again. -/
theorem split_build (u : URI) {names : List Text} {model : Text} {action : Option Text}
    {id_list : Option (List Text)} (hvalid : (formOf names model action id_list).Valid)
    (hids : ∀ ids, id_list = some ids → ids ≠ [] ∧ splitIds (':' :: closed ':' ids) = ids)
    (root_optional : Bool) :
    u.split (u.build (some names) (some model) action id_list true) root_optional =
      .ok ⟨names, some model, action, id_list, id_list.any fun ids => 1 < ids.length⟩ := by
  rw [build_eq u names model action fun ids h => (hids ids h).1, split_root u hvalid]
  have hid_list : (id_list.map fun ids => ':' :: closed ':' ids).map splitIds = id_list := by
    cases id_list with
    | none => rfl
    | some ids => exact congrArg some (hids ids rfl).2
  have haction : (action.map fun a => '(' :: (a ++ [')'])).map (fun a => (a.drop 1).dropLast) =
      action := by
    cases action <;> simp
  unfold Form.parts formOf
  simp only [hid_list, haction]

/-! ## Round trips -/

/-- What a URI with a model is built of. -/
structure Components where
  namespaces : List Text
  model : Text
  action : Option Text
  id_list : Option (List Text)

/-- Names and ids are not empty and have the characters that URIs have for them; the list of ids is
not empty. -/
structure Components.Proper (x : Components) : Prop where
  namespaces : ∀ t ∈ x.namespaces, Token t
  model : Token x.model
  action : ∀ a, x.action = some a → Token a
  id_list : ∀ ids, x.id_list = some ids → ids ≠ [] ∧ ∀ t ∈ ids, t ≠ [] ∧ Segment t

def URI.of (u : URI) (x : Components) : Text :=
  u.build (some x.namespaces) (some x.model) x.action x.id_list true

theorem Components.Proper.valid {x : Components} (h : x.Proper) :
    (formOf x.namespaces x.model x.action x.id_list).Valid :=
  formOf_valid h.namespaces h.model h.action fun ids hids =>
    ⟨ids, fun t ht => ((h.id_list ids hids).2 t ht).2, rfl⟩

theorem Components.Proper.ids {x : Components} (h : x.Proper) (ids : List Text)
    (hids : x.id_list = some ids) : ids ≠ [] ∧ splitIds (':' :: closed ':' ids) = ids := by
  obtain ⟨hne, htokens⟩ := h.id_list ids hids
  have hcolon : ∀ t ∈ ids, ':' ∉ t := fun t ht hmem =>
    absurd ((htokens t ht).2 ':' hmem) (by decide)
  refine ⟨hne, ?_⟩
  rw [closed_eq_join hne, splitIds_wrap (join_stripped fun t ht => ⟨(htokens t ht).1, hcolon t ht⟩),
    List.splitOn_intercalate ':' hcolon hne]

/-- The ids of a list of URIs. -/
theorem extractIds_of (u : URI) {xs : List Components}
    (h : ∀ x ∈ xs, x.Proper ∧ x.id_list.isSome) :
    u.extractIds (xs.map u.of) = .ok (xs.flatMap fun x => x.id_list.getD []) := by
  induction xs with
  | nil => rfl
  | cons x xs ih =>
    obtain ⟨⟨hproper, hsome⟩, hxs⟩ := List.forall_mem_cons.mp h
    obtain ⟨ids, hid_list⟩ := Option.isSome_iff_exists.mp hsome
    obtain ⟨c, hfirst, -, hc⟩ := first_root u hproper.valid
    have hrec_id : c.group 5 = some (':' :: closed ':' ids) := by
      rw [hc.rec_id]
      simp [formOf, hid_list]
    rw [List.map_cons, URI.extractIds, URI.of,
      build_eq u _ _ _ fun ids hids => (hproper.ids ids hids).1, hfirst]
    simp only [hrec_id, ih hxs, (hproper.ids ids hid_list).2, List.flatMap_cons, hid_list,
      Option.getD_some]

/-- What `split` has accepted is found again in what `build` makes of it. -/
theorem split_again {u : URI} {uri : Text} {root_optional : Bool} {p : Parts} {model : Text}
    (h : u.split uri root_optional = .ok p) (hmodel : p.model = some model)
    (root_optional' : Bool) :
    u.split (u.build (some p.namespace_list) p.model p.action p.id_list true) root_optional' =
      .ok p := by
  obtain ⟨f, hf, rfl⟩ := split_sound h
  have haction : ∀ a, f.parts.action = some a → Token a := by
    intro a ha
    obtain ⟨t, ht, rfl⟩ := Option.map_eq_some_iff.mp ha
    obtain ⟨a, hatoken, rfl⟩ := hf.action t ht
    simpa using hatoken
  -- the ids of the parts, between colons
  have hclosed (t : Text) : closed ':' (splitIds t) = core t ++ [':'] := by
    have hjoin : [':'].intercalate (splitIds t) = core t := List.intercalate_splitOn ':'
    have hne : splitIds t ≠ [] := List.splitOn_ne_nil _ _
    rw [closed_eq_join hne, hjoin]
  have hids : ∀ ids, f.parts.id_list = some ids → ids ≠ [] ∧
      splitIds (':' :: closed ':' ids) = ids := by
    intro ids hids
    obtain ⟨t, -, rfl⟩ := Option.map_eq_some_iff.mp hids
    have hcore : Stripped ':' (core t) := strip_stripped ':' t
    exact ⟨List.splitOn_ne_nil _ _, by rw [hclosed, splitIds_wrap hcore]; rfl⟩
  have hsegments : ∀ ids, f.parts.id_list = some ids →
      ∃ segments, (∀ s ∈ segments, Segment s) ∧ closed ':' ids = closed ':' segments := by
    intro ids hids
    obtain ⟨t, ht, rfl⟩ := Option.map_eq_some_iff.mp hids
    have hchars : ∀ x ∈ t, isId x ∨ x = ':' := by
      have hall := hf.rec_id_chars
      rw [ht] at hall
      exact hall
    obtain ⟨segments, hvalid, heq⟩ := closed_of_chars (core_chars hchars)
    exact ⟨segments, hvalid, (hclosed t).trans heq⟩
  have hnames : ∀ t ∈ f.parts.namespace_list, Token t := hf.names
  rw [hmodel, split_build u (formOf_valid hnames (hf.model model hmodel) haction hsegments) hids,
    ← hmodel]
  rfl

/-- **`split` gives back what `build` was given, `extractIds` the ids of a list of URIs, and what
`split` accepts it finds again in what `build` makes of it.** -/
theorem round_trip (u : URI) :
    (∀ x : Components, x.Proper → ∀ root_optional,
      u.split (u.of x) root_optional = .ok ⟨x.namespaces, some x.model, x.action, x.id_list,
        x.id_list.any fun ids => 1 < ids.length⟩) ∧
    (∀ xs : List Components, (∀ x ∈ xs, x.Proper ∧ x.id_list.isSome) →
      u.extractIds (xs.map u.of) = .ok (xs.flatMap fun x => x.id_list.getD [])) ∧
    ∀ uri root_optional p, u.split uri root_optional = .ok p → p.model.isSome →
      ∀ root_optional',
        u.split (u.build (some p.namespace_list) p.model p.action p.id_list true)
          root_optional' = .ok p := by
  refine ⟨?_, ?_, ?_⟩
  · intro x hx root_optional
    exact split_build u hx.valid hx.ids root_optional
  · intro xs hxs
    exact extractIds_of u hxs
  · intro uri root_optional p hp hmodel root_optional'
    obtain ⟨model, hmodel⟩ := Option.isSome_iff_exists.mp hmodel
    exact split_again hp hmodel root_optional'

/-- The root path that the clients use. -/
def apiRoot : URI := ⟨['/', 'a', 'p', 'i', '/', 'v', '1', '/'], rfl, rfl, by simp [metacharacters]⟩

/-- A URI with two ids, and a text with two ids that has more colons than it needs. -/
theorem job_round_trip :
    apiRoot.split (apiRoot.of ⟨[['F']], ['J'], some ['g', 'o'], some [['4'], ['7']]⟩) false =
        .ok ⟨[['F']], some ['J'], some ['g', 'o'], some [['4'], ['7']], true⟩ ∧
      apiRoot.extractIds ([⟨[], ['J'], none, some [['4']]⟩, ⟨[], ['J'], none, some [['7']]⟩].map
        apiRoot.of) = .ok [['4'], ['7']] ∧
      apiRoot.split (apiRoot.build (some []) (some ['J']) none (some [['4'], [], ['7']]) true)
        false = .ok ⟨[], some ['J'], none, some [['4'], [], ['7']], true⟩ := by
  have htoken (c : Char) (hc : isToken c) : Token [c] := ⟨List.cons_ne_nil _ _, by simpa using hc⟩
  have hid (c : Char) (hc : isId c) : [c] ≠ [] ∧ Segment [c] :=
    ⟨List.cons_ne_nil _ _, by simpa [Segment] using hc⟩
  obtain ⟨hsplit, hextract, hagain⟩ := round_trip apiRoot
  refine ⟨hsplit ⟨[['F']], ['J'], some ['g', 'o'], some [['4'], ['7']]⟩ ⟨?_, ?_, ?_, ?_⟩ false,
    hextract _ ?_, ?_⟩
  · simpa using htoken 'F' rfl
  · exact htoken 'J' rfl
  · intro a ha
    cases ha
    exact ⟨List.cons_ne_nil _ _, List.all_eq_true.mp rfl⟩
  · intro ids hids
    cases hids
    exact ⟨List.cons_ne_nil _ _, List.forall_mem_cons.mpr
      ⟨hid '4' rfl, List.forall_mem_singleton.mpr (hid '7' rfl)⟩⟩
  · have hproper (c : Char) (hc : isId c) :
        (⟨[], ['J'], none, some [[c]]⟩ : Components).Proper :=
      ⟨by simp, htoken 'J' rfl, by simp, fun ids hids => by
        cases hids
        exact ⟨List.cons_ne_nil _ _, List.forall_mem_singleton.mpr (hid c hc)⟩⟩
    simpa using ⟨hproper '4' rfl, hproper '7' rfl⟩
  · refine hagain (apiRoot.root_path ++ ['J', ':', ':', '4', ':', ':', '7', ':']) false
      ⟨[], some ['J'], none, some [['4'], [], ['7']], true⟩ ?_ rfl false
    decide +kernel

end Cinp
