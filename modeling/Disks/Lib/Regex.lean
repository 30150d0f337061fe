import Mathlib.Data.List.Basic

/-!
# Regular expressions that capture

Patterns as a backtracking matcher tries them: all ways to match the front of a text, the preferred
one first (`Pattern.successes`), next to the relation of what a pattern matches at all
(`Pattern.Matches`). A choice prefers its first side, an option and a repetition take what they can.

* `mem_successes_iff`: the ways are those of the relation.
* `Matches.groups`: a match captures only groups of its pattern.
* `matches_closed`: a repetition of texts with a separator behind each.
* `head_alt`: the preferred way through a choice that is followed by more.
* `span_eq`: a text is cut in one way only behind the characters of a class.
-/

namespace Regex

variable {α : Type}

/-- The texts of the groups, in the order in which they were captured. -/
abbrev Captures (α : Type) := List (Nat × List α)

/-- The text of a group: the last one. -/
def Captures.group (c : Captures α) (n : Nat) : Option (List α) :=
  ((c.filter (·.1 = n)).getLast?).map (·.2)

inductive Pattern (α : Type)
  | one (p : α → Bool)
  | ahead (p : List α → Bool)
  | seq (a b : Pattern α)
  | alt (a b : Pattern α)
  | opt (a : Pattern α)
  | star (a : Pattern α)
  | group (n : Nat) (a : Pattern α)

/-- The turns of a repetition, as many as there can be; a turn takes something. -/
def turns (f : List α → List (Captures α × List α)) : Nat → List α → List (Captures α × List α)
  | 0, s => [([], s)]
  | fuel + 1, s =>
    ((f s).filter fun x => x.2.length < s.length).flatMap (fun x =>
      (turns f fuel x.2).map fun y => (x.1 ++ y.1, y.2)) ++ [([], s)]

namespace Pattern

/-- The ways to match the front of a text: what is captured, and the rest. -/
def successes : Pattern α → List α → List (Captures α × List α)
  | one _, [] => []
  | one p, x :: s => if p x then [([], s)] else []
  | ahead p, s => if p s then [([], s)] else []
  | seq a b, s =>
    (a.successes s).flatMap fun x => (b.successes x.2).map fun y => (x.1 ++ y.1, y.2)
  | alt a b, s => a.successes s ++ b.successes s
  | opt a, s => a.successes s ++ [([], s)]
  | star a, s => turns a.successes s.length s
  | group n a, s =>
    (a.successes s).map fun x => (x.1 ++ [(n, s.take (s.length - x.2.length))], x.2)

/-- `re.match`: what the preferred way captures. -/
def first (a : Pattern α) (s : List α) : Option (Captures α) := (a.successes s).head?.map (·.1)

/-- `re.match` gives something. -/
def begins (a : Pattern α) (s : List α) : Bool := a.successes s ≠ []

/-- `re.search` gives something. -/
def occurs (a : Pattern α) (s : List α) : Bool := s.tails.any a.begins

/-- One or more. -/
def plus (a : Pattern α) : Pattern α := seq a (star a)

/-- The text itself. -/
def text [DecidableEq α] : List α → Pattern α
  | [] => ahead fun _ => true
  | x :: xs => seq (one fun y => y = x) (text xs)

/-- What a pattern matches, before a rest. -/
inductive Matches : Pattern α → List α → Captures α → List α → Prop
  | one {p : α → Bool} {x : α} {rest : List α} (h : p x) : Matches (one p) [x] [] rest
  | ahead {p : List α → Bool} {rest : List α} (h : p rest) : Matches (ahead p) [] [] rest
  | seq {a b : Pattern α} {s t rest : List α} {c d : Captures α} (ha : Matches a s c (t ++ rest))
      (hb : Matches b t d rest) : Matches (seq a b) (s ++ t) (c ++ d) rest
  | left {a b : Pattern α} {s rest : List α} {c : Captures α} (h : Matches a s c rest) :
      Matches (alt a b) s c rest
  | right {a b : Pattern α} {s rest : List α} {c : Captures α} (h : Matches b s c rest) :
      Matches (alt a b) s c rest
  | skip {a : Pattern α} {rest : List α} : Matches (opt a) [] [] rest
  | take {a : Pattern α} {s rest : List α} {c : Captures α} (h : Matches a s c rest) :
      Matches (opt a) s c rest
  | stop {a : Pattern α} {rest : List α} : Matches (star a) [] [] rest
  | turn {a : Pattern α} {s t rest : List α} {c d : Captures α} (hs : s ≠ [])
      (ha : Matches a s c (t ++ rest)) (hb : Matches (star a) t d rest) :
      Matches (star a) (s ++ t) (c ++ d) rest
  | group {n : Nat} {a : Pattern α} {s rest : List α} {c : Captures α} (h : Matches a s c rest) :
      Matches (group n a) s (c ++ [(n, s)]) rest

/-! ## The ways to match -/

theorem matches_star_iff {a : Pattern α} {s rest : List α} {c : Captures α} :
    Matches (star a) s c rest ↔ (s = [] ∧ c = []) ∨ ∃ t u d e, s = t ++ u ∧ c = d ++ e ∧ t ≠ [] ∧
      Matches a t d (u ++ rest) ∧ Matches (star a) u e rest := by
  constructor
  · intro h
    cases h with
    | stop => exact .inl ⟨rfl, rfl⟩
    | turn hne ha hb => exact .inr ⟨_, _, _, _, rfl, rfl, hne, ha, hb⟩
  · intro h
    obtain ⟨rfl, rfl⟩ | ⟨t, u, d, e, rfl, rfl, hne, ha, hb⟩ := h
    · exact .stop
    · exact .turn hne ha hb

theorem mem_turns_iff {a : Pattern α} (ih : ∀ s c rest, (c, rest) ∈ a.successes s ↔
      ∃ t, s = t ++ rest ∧ Matches a t c rest) (fuel : Nat) (s : List α) (hfuel : s.length ≤ fuel)
    (c : Captures α) (rest : List α) :
    (c, rest) ∈ turns a.successes fuel s ↔ ∃ t, s = t ++ rest ∧ Matches (star a) t c rest := by
  induction fuel generalizing s c with
  | zero =>
    obtain rfl := List.eq_nil_of_length_eq_zero (Nat.le_zero.mp hfuel)
    rw [turns, List.mem_singleton, Prod.mk.injEq]
    constructor
    · intro h
      obtain ⟨rfl, rfl⟩ := h
      exact ⟨[], rfl, .stop⟩
    · intro h
      obtain ⟨t, hs, ht⟩ := h
      obtain ⟨rfl, rfl⟩ := List.append_eq_nil_iff.mp hs.symm
      obtain ⟨-, rfl⟩ | ⟨t, u, -, -, htu, -, hne, -, -⟩ := matches_star_iff.mp ht
      · exact ⟨rfl, rfl⟩
      · exact absurd (List.append_eq_nil_iff.mp htu.symm).1 hne
  | succ fuel ihfuel =>
    simp only [turns, List.mem_append, List.mem_flatMap, List.mem_filter, List.mem_map,
      List.mem_singleton, Prod.mk.injEq, Prod.exists, decide_eq_true_eq]
    constructor
    · intro h
      obtain ⟨d, mid, ⟨hd, hlt⟩, e, rest', he, rfl, rfl⟩ | ⟨rfl, rfl⟩ := h
      · obtain ⟨t, rfl, ht⟩ := (ih _ _ _).mp hd
        obtain ⟨u, rfl, hu⟩ := (ihfuel _ (by simp at hlt hfuel ⊢; omega) _).mp he
        refine ⟨t ++ u, (List.append_assoc ..).symm, .turn ?_ ht hu⟩
        intro hnil
        simp [hnil] at hlt
      · exact ⟨[], rfl, .stop⟩
    · intro h
      obtain ⟨s', rfl, hs'⟩ := h
      obtain ⟨rfl, rfl⟩ | ⟨t, u, d, e, rfl, rfl, hne, ht, hu⟩ := matches_star_iff.mp hs'
      · exact .inr ⟨rfl, rfl⟩
      · have hlt : 0 < t.length := List.length_pos_iff.mpr hne
        refine .inl ⟨d, u ++ rest, ⟨(ih _ _ _).mpr ⟨t, List.append_assoc .., ht⟩, ?_⟩, e, rest,
          (ihfuel _ ?_ _).mpr ⟨u, rfl, hu⟩, rfl, rfl⟩
        · simp
          omega
        · simp at hfuel ⊢
          omega

/-- **The ways to match the front of a text are those of the relation.** -/
theorem mem_successes_iff (a : Pattern α) (s : List α) (c : Captures α) (rest : List α) :
    (c, rest) ∈ a.successes s ↔ ∃ t, s = t ++ rest ∧ Matches a t c rest := by
  induction a generalizing s c rest with
  | one p =>
    constructor
    · intro h
      cases s with
      | nil => simp [successes] at h
      | cons x s =>
        by_cases hx : p x
        · simp only [successes, hx, if_true, List.mem_singleton, Prod.mk.injEq] at h
          obtain ⟨rfl, rfl⟩ := h
          exact ⟨[x], rfl, .one hx⟩
        · simp [successes, hx] at h
    · intro h
      obtain ⟨t, rfl, ht⟩ := h
      cases ht with
      | one hx => simp [successes, hx]
  | ahead p =>
    constructor
    · intro h
      by_cases hs : p s
      · simp only [successes, hs, if_true, List.mem_singleton, Prod.mk.injEq] at h
        obtain ⟨rfl, rfl⟩ := h
        exact ⟨[], rfl, .ahead hs⟩
      · simp [successes, hs] at h
    · intro h
      obtain ⟨t, rfl, ht⟩ := h
      cases ht with
      | ahead hs => simp [successes, hs]
  | seq a b iha ihb =>
    simp only [successes, List.mem_flatMap, List.mem_map, Prod.exists, Prod.mk.injEq]
    constructor
    · intro h
      obtain ⟨d, mid, hd, e, rest', he, rfl, rfl⟩ := h
      obtain ⟨t, rfl, ht⟩ := (iha _ _ _).mp hd
      obtain ⟨u, rfl, hu⟩ := (ihb _ _ _).mp he
      exact ⟨t ++ u, (List.append_assoc ..).symm, .seq ht hu⟩
    · intro h
      obtain ⟨s', rfl, hs'⟩ := h
      cases hs' with
      | seq ha hb =>
        exact ⟨_, _, (iha _ _ _).mpr ⟨_, List.append_assoc .., ha⟩, _, _,
          (ihb _ _ _).mpr ⟨_, rfl, hb⟩, rfl, rfl⟩
  | alt a b iha ihb =>
    rw [successes, List.mem_append, iha, ihb]
    constructor
    · intro h
      obtain ⟨t, rfl, ht⟩ | ⟨t, rfl, ht⟩ := h
      · exact ⟨t, rfl, .left ht⟩
      · exact ⟨t, rfl, .right ht⟩
    · intro h
      obtain ⟨t, rfl, ht⟩ := h
      cases ht with
      | left ht => exact .inl ⟨t, rfl, ht⟩
      | right ht => exact .inr ⟨t, rfl, ht⟩
  | opt a ih =>
    rw [successes, List.mem_append, ih, List.mem_singleton, Prod.mk.injEq]
    constructor
    · intro h
      obtain ⟨t, rfl, ht⟩ | ⟨rfl, rfl⟩ := h
      · exact ⟨t, rfl, .take ht⟩
      · exact ⟨[], rfl, .skip⟩
    · intro h
      obtain ⟨t, rfl, ht⟩ := h
      cases ht with
      | skip => exact .inr ⟨rfl, rfl⟩
      | take ht => exact .inl ⟨t, rfl, ht⟩
  | star a ih => exact mem_turns_iff ih s.length s (Nat.le_refl _) c rest
  | group n a ih =>
    simp only [successes, List.mem_map, Prod.exists, Prod.mk.injEq]
    constructor
    · intro h
      obtain ⟨d, rest', hd, rfl, rfl⟩ := h
      obtain ⟨t, rfl, ht⟩ := (ih _ _ _).mp hd
      refine ⟨t, rfl, ?_⟩
      have htext : (t ++ rest').take ((t ++ rest').length - rest'.length) = t := by simp
      rw [htext]
      exact .group ht
    · intro h
      obtain ⟨t, rfl, ht⟩ := h
      cases ht with
      | group ht => exact ⟨_, _, (ih _ _ _).mpr ⟨t, rfl, ht⟩, by simp, rfl⟩

/-- `re.match` gives something exactly where the pattern matches a front of the text. -/
theorem begins_iff {a : Pattern α} {s : List α} :
    a.begins s ↔ ∃ t c rest, s = t ++ rest ∧ Matches a t c rest := by
  rw [begins, decide_eq_true_eq, Ne, List.eq_nil_iff_forall_not_mem, not_forall]
  constructor
  · intro h
    obtain ⟨⟨c, rest⟩, hmem⟩ := h
    obtain ⟨t, ht, hmatch⟩ := (mem_successes_iff a s c rest).mp (not_not.mp hmem)
    exact ⟨t, c, rest, ht, hmatch⟩
  · intro h
    obtain ⟨t, c, rest, ht, hmatch⟩ := h
    exact ⟨(c, rest), not_not.mpr ((mem_successes_iff a s c rest).mpr ⟨t, ht, hmatch⟩)⟩

theorem matches_one {p : α → Bool} {s rest : List α} {c : Captures α} :
    Matches (one p) s c rest ↔ ∃ x, p x ∧ s = [x] ∧ c = [] := by
  constructor
  · intro h
    cases h with
    | one hx => exact ⟨_, hx, rfl, rfl⟩
  · intro h
    obtain ⟨x, hx, rfl, rfl⟩ := h
    exact .one hx

theorem matches_ahead {p : List α → Bool} {s rest : List α} {c : Captures α} :
    Matches (ahead p) s c rest ↔ p rest ∧ s = [] ∧ c = [] := by
  constructor
  · intro h
    cases h with
    | ahead hp => exact ⟨hp, rfl, rfl⟩
  · intro h
    obtain ⟨hp, rfl, rfl⟩ := h
    exact .ahead hp

theorem matches_seq {a b : Pattern α} {s rest : List α} {c : Captures α} :
    Matches (seq a b) s c rest ↔ ∃ t u d e, s = t ++ u ∧ c = d ++ e ∧ Matches a t d (u ++ rest) ∧
      Matches b u e rest := by
  constructor
  · intro h
    cases h with
    | seq ha hb => exact ⟨_, _, _, _, rfl, rfl, ha, hb⟩
  · intro h
    obtain ⟨t, u, d, e, rfl, rfl, ha, hb⟩ := h
    exact .seq ha hb

theorem matches_opt {a : Pattern α} {s rest : List α} {c : Captures α} :
    Matches (opt a) s c rest ↔ (s = [] ∧ c = []) ∨ Matches a s c rest := by
  constructor
  · intro h
    cases h with
    | skip => exact .inl ⟨rfl, rfl⟩
    | take h => exact .inr h
  · intro h
    obtain ⟨rfl, rfl⟩ | h := h
    · exact .skip
    · exact .take h

theorem matches_group {n : Nat} {a : Pattern α} {s rest : List α} {c : Captures α} :
    Matches (group n a) s c rest ↔ ∃ d, c = d ++ [(n, s)] ∧ Matches a s d rest := by
  constructor
  · intro h
    cases h with
    | group h => exact ⟨_, rfl, h⟩
  · intro h
    obtain ⟨d, rfl, h⟩ := h
    exact .group h

theorem matches_text [DecidableEq α] {xs s rest : List α} {c : Captures α} :
    Matches (text xs) s c rest ↔ s = xs ∧ c = [] := by
  induction xs generalizing s c with
  | nil => simp [text, matches_ahead]
  | cons x xs ih =>
    simp only [text, matches_seq, matches_one, ih]
    constructor
    · intro h
      obtain ⟨t, u, d, e, rfl, rfl, ⟨y, hy, rfl, rfl⟩, rfl, rfl⟩ := h
      rw [of_decide_eq_true hy]
      exact ⟨rfl, rfl⟩
    · intro h
      obtain ⟨rfl, rfl⟩ := h
      exact ⟨[x], xs, [], [], rfl, rfl, ⟨x, by simp, rfl, rfl⟩, rfl, rfl⟩

/-- A repetition of one class. -/
theorem matches_star_one {p : α → Bool} {s rest : List α} {c : Captures α} :
    Matches (star (one p)) s c rest ↔ (∀ x ∈ s, p x) ∧ c = [] := by
  induction s generalizing c with
  | nil =>
    rw [matches_star_iff]
    constructor
    · intro h
      obtain ⟨-, rfl⟩ | ⟨t, u, -, -, hs, -, hne, -, -⟩ := h
      · exact ⟨by simp, rfl⟩
      · exact absurd (List.append_eq_nil_iff.mp hs.symm).1 hne
    · intro h
      exact .inl ⟨rfl, h.2⟩
  | cons x s ih =>
    rw [matches_star_iff, List.forall_mem_cons]
    constructor
    · intro h
      obtain ⟨hs, -⟩ | ⟨t, u, d, e, hs, rfl, hne, ha, hb⟩ := h
      · cases hs
      · obtain ⟨y, hy, rfl, rfl⟩ := matches_one.mp ha
        obtain ⟨rfl, rfl⟩ := List.cons_eq_cons.mp hs
        obtain ⟨hall, rfl⟩ := ih.mp hb
        exact ⟨⟨hy, hall⟩, rfl⟩
    · intro h
      obtain ⟨⟨hx, hall⟩, rfl⟩ := h
      exact .inr ⟨[x], s, [], [], rfl, rfl, by simp, matches_one.mpr ⟨x, hx, rfl, rfl⟩,
        ih.mpr ⟨hall, rfl⟩⟩

theorem matches_plus_one {p : α → Bool} {s rest : List α} {c : Captures α} :
    Matches (plus (one p)) s c rest ↔ s ≠ [] ∧ (∀ x ∈ s, p x) ∧ c = [] := by
  rw [plus, matches_seq]
  constructor
  · intro h
    obtain ⟨t, u, d, e, rfl, rfl, ht, hu⟩ := h
    obtain ⟨x, hx, rfl, rfl⟩ := matches_one.mp ht
    obtain ⟨hall, rfl⟩ := matches_star_one.mp hu
    exact ⟨by simp, by simpa using ⟨hx, hall⟩, rfl⟩
  · intro h
    obtain ⟨hne, hall, rfl⟩ := h
    obtain ⟨x, s, rfl⟩ := List.exists_cons_of_ne_nil hne
    obtain ⟨hx, hall⟩ := List.forall_mem_cons.mp hall
    exact ⟨[x], s, [], [], rfl, rfl, matches_one.mpr ⟨x, hx, rfl, rfl⟩,
      matches_star_one.mpr ⟨hall, rfl⟩⟩

/-- Texts with a separator behind each. -/
def closed (x : α) (texts : List (List α)) : List α := (texts.map (· ++ [x])).flatten

theorem closed_cons (x : α) (t : List α) (texts : List (List α)) :
    closed x (t :: texts) = t ++ [x] ++ closed x texts := rfl

/-- A repetition of texts with a separator behind each. -/
theorem matches_closed [DecidableEq α] {n : Nat} {a : Pattern α} {x : α} {P : List α → Prop}
    (ha : ∀ s rest, (∃ c, Matches a s c rest) ↔ P s) (s rest : List α) :
    (∃ c, Matches (star (group n (seq a (one fun y => y = x)))) s c rest) ↔
      ∃ texts, (∀ t ∈ texts, P t) ∧ s = closed x texts := by
  constructor
  · intro h
    obtain ⟨c, h⟩ := h
    generalize hstar : star (group n (seq a (one fun y => y = x))) = b at h
    induction h with
    | stop => exact ⟨[], by simp, rfl⟩
    | turn _ hturn _ _ ih =>
      cases hstar
      obtain ⟨texts, htexts, rfl⟩ := ih rfl
      obtain ⟨d, rfl, hseq⟩ := matches_group.mp hturn
      obtain ⟨t, u, e, _, rfl, rfl, ht, hu⟩ := matches_seq.mp hseq
      obtain ⟨y, hy, rfl, rfl⟩ := matches_one.mp hu
      refine ⟨t :: texts, List.forall_mem_cons.mpr ⟨(ha t _).mp ⟨e, ht⟩, htexts⟩, ?_⟩
      rw [of_decide_eq_true hy, closed_cons]
    | one | ahead | seq | left | right | skip | take | group => cases hstar
  · intro h
    obtain ⟨texts, htexts, rfl⟩ := h
    induction texts with
    | nil => exact ⟨[], .stop⟩
    | cons t texts ih =>
      obtain ⟨ht, htexts⟩ := List.forall_mem_cons.mp htexts
      obtain ⟨d, hd⟩ := ih htexts
      obtain ⟨c, hc⟩ := (ha t ([x] ++ (closed x texts ++ rest))).mpr ht
      have hx : Matches (one fun y => y = x) [x] [] (closed x texts ++ rest) :=
        .one (decide_eq_true rfl)
      exact ⟨_, .turn (by simp) (.group (.seq hc hx)) hd⟩

/-! ## What is captured -/

/-- The groups of a pattern. -/
def groups : Pattern α → List Nat
  | one _ | ahead _ => []
  | seq a b | alt a b => a.groups ++ b.groups
  | opt a | star a => a.groups
  | group n a => a.groups ++ [n]

/-- A match captures only groups of its pattern. -/
theorem Matches.groups {a : Pattern α} {s rest : List α} {c : Captures α} (h : Matches a s c rest) :
    ∀ x ∈ c, x.1 ∈ a.groups := by
  induction h with
  | one | ahead | skip | stop => simp
  | seq _ _ iha ihb =>
    intro x hx
    obtain hx | hx := List.mem_append.mp hx
    · exact List.mem_append_left _ (iha x hx)
    · exact List.mem_append_right _ (ihb x hx)
  | left _ ih => exact fun x hx => List.mem_append_left _ (ih x hx)
  | right _ ih => exact fun x hx => List.mem_append_right _ (ih x hx)
  | take _ ih => exact ih
  | turn _ _ _ iha ihb =>
    intro x hx
    obtain hx | hx := List.mem_append.mp hx
    · exact iha x hx
    · exact ihb x hx
  | group _ ih =>
    intro x hx
    obtain hx | hx := List.mem_append.mp hx
    · exact List.mem_append_left _ (ih x hx)
    · rw [List.mem_singleton.mp hx]
      exact List.mem_append_right _ (List.mem_singleton_self _)

theorem group_append (c d : Captures α) (n : Nat) :
    (c ++ d).group n = (d.group n).or (c.group n) := by
  unfold Captures.group
  rw [List.filter_append, List.getLast?_append]
  cases (d.filter (·.1 = n)).getLast? <;> rfl

@[simp] theorem group_nil (n : Nat) : Captures.group ([] : Captures α) n = none := rfl

/-- A group that a pattern does not have is not captured. -/
theorem Matches.group_none {a : Pattern α} {s rest : List α} {c : Captures α}
    (h : Matches a s c rest) {n : Nat} (hn : n ∉ a.groups) : c.group n = none := by
  have hnil : c.filter (·.1 = n) = [] := by
    rw [List.filter_eq_nil_iff]
    intro x hx hxn
    exact hn (of_decide_eq_true hxn ▸ h.groups x hx)
  simp [Captures.group, hnil]

theorem Matches.group_self {n : Nat} {a : Pattern α} {s rest : List α} {c : Captures α}
    (h : Matches (.group n a) s c rest) : c.group n = some s := by
  obtain ⟨d, rfl, -⟩ := matches_group.mp h
  rw [group_append]
  simp [Captures.group]

/-- An optional group has matched what it has captured. -/
theorem Matches.opt_group {n : Nat} {a : Pattern α} {s rest : List α} {c : Captures α}
    (h : Matches (opt (.group n a)) s c rest) :
    s = (c.group n).getD [] ∧ ∀ t, c.group n = some t → ∃ d, Matches a t d rest := by
  obtain ⟨rfl, rfl⟩ | h := matches_opt.mp h
  · exact ⟨rfl, fun t ht => by cases ht⟩
  · rw [h.group_self]
    refine ⟨rfl, fun t ht => ?_⟩
    obtain ⟨d, -, hd⟩ := matches_group.mp h
    cases ht
    exact ⟨d, hd⟩

theorem opt_group_matches {n : Nat} {a : Pattern α} {o : Option (List α)} {rest : List α}
    (h : ∀ t, o = some t → ∃ d, Matches a t d rest) :
    ∃ c, Matches (opt (.group n a)) (o.getD []) c rest ∧ c.group n = o := by
  cases o with
  | none => exact ⟨[], .skip, rfl⟩
  | some t =>
    obtain ⟨d, hd⟩ := h t rfl
    exact ⟨_, .take (.group hd), (Matches.group hd).group_self⟩

/-! ## The preferred way -/

/-- The preferred way through a choice, where its first side leads through. -/
theorem head_alt {n : Nat} {a b next : Pattern α} {s : List α}
    (h : (seq (group n a) next).successes s ≠ []) :
    ((seq (group n (alt a b)) next).successes s).head? =
      ((seq (group n a) next).successes s).head? := by
  have happend : (seq (group n (alt a b)) next).successes s =
      (seq (group n a) next).successes s ++ (seq (group n b) next).successes s := by
    simp only [successes, List.map_append, List.flatMap_append]
  rw [happend, List.head?_append_of_ne_nil _ h]

end Pattern

/-- A text is cut in one way only behind the characters of a class. -/
theorem span_eq {p : α → Prop} {s t u v : List α} (hs : ∀ x ∈ s, p x) (ht : ∀ x ∈ t, p x)
    (hu : ∀ x ∈ u.head?, ¬ p x) (hv : ∀ x ∈ v.head?, ¬ p x) (h : s ++ u = t ++ v) :
    s = t ∧ u = v := by
  induction s generalizing t with
  | nil =>
    cases t with
    | nil => exact ⟨rfl, h⟩
    | cons y t =>
      rw [List.nil_append] at h
      exact absurd (ht y (List.mem_cons_self ..)) (hu y (by rw [h]; rfl))
  | cons x s ih =>
    cases t with
    | nil =>
      rw [List.nil_append] at h
      exact absurd (hs x (List.mem_cons_self ..)) (hv x (by rw [← h]; rfl))
    | cons y t =>
      obtain ⟨rfl, hrest⟩ := List.cons_eq_cons.mp h
      obtain ⟨rfl, huv⟩ := ih (fun z hz => hs z (List.mem_cons_of_mem _ hz))
        (fun z hz => ht z (List.mem_cons_of_mem _ hz)) hrest
      exact ⟨rfl, huv⟩

end Regex
