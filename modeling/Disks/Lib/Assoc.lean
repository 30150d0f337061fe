import Mathlib.Data.List.Induction
import Mathlib.Data.List.Nodup

/-!
# Dictionaries in the order of insertion

A dictionary is the list of its items, in the order in which their keys were first set; setting a
key again changes its value in place.

* `mem_ofPairs`: the items of a dictionary are among the pairs it was built from.
* `mem_keys_ofPairs`, `nodup_keys_ofPairs`: its keys are those of the pairs, each once.
* `lookup_set`, `lookup_foldl_set`: what it gives for a key.
* `mem_ofPairs_iff`: **its items are the pairs that are the last ones with their keys.**
* `getLast?_keys_iff`: of some keys, the last one is that which was the last to be new.
* `lookup_update`, `mem_keys_update`: a dictionary whose values are updated by one item after the
  other; each sees its own items only.
-/

namespace Assoc

variable {κ α : Type} [DecidableEq κ]

abbrev Dict (κ α : Type) := List (κ × α)

def keys (d : Dict κ α) : List κ := d.map (·.1)

/-- `d[ k ] = a` -/
def set (d : Dict κ α) (k : κ) (a : α) : Dict κ α :=
  if k ∈ keys d then d.map fun p => if p.1 = k then (k, a) else p else d ++ [(k, a)]

/-- The pairs set one after the other. -/
def ofPairs (pairs : List (κ × α)) : Dict κ α := pairs.foldl (fun d p => set d p.1 p.2) []

theorem keys_set (d : Dict κ α) (k : κ) (a : α) :
    keys (set d k a) = if k ∈ keys d then keys d else keys d ++ [k] := by
  unfold set
  split
  · unfold keys
    rw [List.map_map]
    apply List.map_congr_left
    intro p _
    by_cases hp : p.1 = k <;> simp [hp]
  · simp [keys]

theorem mem_set {d : Dict κ α} {k : κ} {a : α} {p : κ × α} (h : p ∈ set d k a) :
    p = (k, a) ∨ p ∈ d := by
  unfold set at h
  split at h
  · obtain ⟨q, hq, hp⟩ := List.mem_map.mp h
    split at hp
    · exact .inl hp.symm
    · exact .inr (hp ▸ hq)
  · rcases List.mem_append.mp h with h | h
    · exact .inr h
    · exact .inl (List.mem_singleton.mp h)

theorem mem_foldl_set {pairs : List (κ × α)} {d : Dict κ α} {p : κ × α}
    (h : p ∈ pairs.foldl (fun d p => set d p.1 p.2) d) : p ∈ pairs ∨ p ∈ d := by
  induction pairs generalizing d with
  | nil => exact .inr h
  | cons q pairs ih =>
    rcases ih h with h | h
    · exact .inl (.tail _ h)
    · rcases mem_set h with rfl | h
      · exact .inl (.head _)
      · exact .inr h

theorem mem_ofPairs {pairs : List (κ × α)} {p : κ × α} (h : p ∈ ofPairs pairs) : p ∈ pairs := by
  rcases mem_foldl_set h with h | h
  · exact h
  · exact absurd h List.not_mem_nil

theorem keys_foldl_set (pairs : List (κ × α)) (d : Dict κ α) (hd : (keys d).Nodup) :
    (keys (pairs.foldl (fun d p => set d p.1 p.2) d)).Nodup ∧
      ∀ k, k ∈ keys (pairs.foldl (fun d p => set d p.1 p.2) d) ↔
        k ∈ keys d ∨ k ∈ pairs.map (·.1) := by
  induction pairs generalizing d with
  | nil => simp [hd]
  | cons q pairs ih =>
    have hset : (keys (set d q.1 q.2)).Nodup := by
      rw [keys_set]
      split
      · exact hd
      · rename_i hq
        exact List.nodup_append.mpr ⟨hd, List.nodup_singleton _, fun k hk k' hk' => by
          rw [List.mem_singleton.mp hk']
          exact fun he => hq (he ▸ hk)⟩
    obtain ⟨hnodup, hmem⟩ := ih _ hset
    refine ⟨hnodup, fun k => ?_⟩
    rw [List.foldl_cons, hmem, keys_set, List.map_cons, List.mem_cons]
    split
    · rename_i hq
      refine ⟨fun h => h.imp_right .inr, fun h => ?_⟩
      rcases h with h | rfl | h
      · exact .inl h
      · exact .inl hq
      · exact .inr h
    · rw [List.mem_append, List.mem_singleton, or_assoc]

theorem nodup_keys_ofPairs (pairs : List (κ × α)) : (keys (ofPairs pairs)).Nodup :=
  (keys_foldl_set pairs [] List.nodup_nil).1

theorem mem_keys_ofPairs {pairs : List (κ × α)} {k : κ} :
    k ∈ keys (ofPairs pairs) ↔ k ∈ pairs.map (·.1) := by
  rw [ofPairs, (keys_foldl_set pairs [] List.nodup_nil).2]
  simp [keys]

section lookup

variable [BEq κ] [LawfulBEq κ]

omit [DecidableEq κ] in
/-- What a dictionary gives for a key is one of its items. -/
theorem mem_of_lookup {d : Dict κ α} {k : κ} {a : α}
    (h : d.lookup k = some a) : (k, a) ∈ d := by
  obtain ⟨l₁, l₂, rfl, -⟩ := List.lookup_eq_some_iff.mp h
  simp

omit [DecidableEq κ] in
theorem lookup_isSome_iff {d : Dict κ α} {k : κ} : (d.lookup k).isSome ↔ k ∈ keys d := by
  rw [← not_iff_not, Bool.not_eq_true, Option.isSome_eq_false_iff, Option.isNone_iff_eq_none,
    List.lookup_eq_none_iff, keys]
  simp only [List.mem_map, not_exists, not_and, bne_iff_ne]
  exact ⟨fun h p hp hk => h p hp hk.symm, fun h p hp hk => h p hp hk.symm⟩

/-- A key that is new is set for itself only. -/
theorem lookup_set_new {d : Dict κ α} {k : κ} (h : k ∉ keys d) (a : α) (k' : κ) :
    (set d k a).lookup k' = (d.lookup k').or (if k = k' then some a else none) := by
  rw [set, if_neg h, List.lookup_append, List.lookup_cons]
  by_cases hk : k = k'
  · simp [hk]
  · have hne : (k' == k) = false := beq_eq_false_iff_ne.mpr (Ne.symm hk)
    rw [hne, if_neg hk]
    rfl

/-- A key that is there changes its value in place. -/
theorem lookup_map (d : Dict κ α) (k : κ) (a : α) (k' : κ) :
    (d.map fun p => if p.1 = k then (k, a) else p).lookup k' =
      if k' = k ∧ k ∈ keys d then some a else d.lookup k' := by
  induction d with
  | nil => simp [keys]
  | cons p d ih =>
    rw [List.map_cons, List.lookup_cons, List.lookup_cons, ih]
    by_cases hk : k' = k
    · subst hk
      by_cases hp : p.1 = k'
      · simp [keys, hp]
      · have hbeq : (k' == p.1) = false := beq_eq_false_iff_ne.mpr (Ne.symm hp)
        have hmem : k' ∈ keys (p :: d) ↔ k' ∈ keys d := by simp [keys, Ne.symm hp]
        simp only [if_neg hp, hbeq, hmem]
    · by_cases hp : p.1 = k
      · have hbeq : (k' == k) = false := beq_eq_false_iff_ne.mpr hk
        simp [hp, hk, hbeq]
      · simp [hp, hk]

theorem lookup_set (d : Dict κ α) (k : κ) (a : α) (k' : κ) :
    (set d k a).lookup k' = if k' = k then some a else d.lookup k' := by
  by_cases hmem : k ∈ keys d
  · rw [set, if_pos hmem, lookup_map]
    simp [hmem]
  · rw [lookup_set_new hmem]
    by_cases hk : k' = k
    · have hnone : d.lookup k = none := by
        rw [← Option.not_isSome_iff_eq_none, lookup_isSome_iff]
        exact hmem
      simp [hk, hnone]
    · rw [if_neg hk, if_neg (Ne.symm hk), Option.or_none]

/-- What was set last, or was there before. -/
theorem lookup_foldl_set (pairs : List (κ × α)) (d : Dict κ α) (k : κ) :
    (pairs.foldl (fun d p => set d p.1 p.2) d).lookup k =
      ((ofPairs pairs).lookup k).or (d.lookup k) := by
  induction pairs using List.reverseRecOn with
  | nil => rfl
  | append_singleton pairs p ih =>
    rw [ofPairs, List.foldl_append, List.foldl_append, List.foldl_cons, List.foldl_cons,
      List.foldl_nil, List.foldl_nil, lookup_set, lookup_set, ih, ofPairs]
    split <;> rfl

end lookup

/-! ## Pairs with the same key -/

theorem mem_set_iff {d : Dict κ α} {k : κ} {a : α} {p : κ × α} :
    p ∈ set d k a ↔ p = (k, a) ∨ p ∈ d ∧ p.1 ≠ k := by
  unfold set
  split
  · rename_i hk
    rw [List.mem_map]
    constructor
    · rintro ⟨q, hq, rfl⟩
      by_cases hqk : q.1 = k
      · exact .inl (if_pos hqk)
      · rw [if_neg hqk]
        exact .inr ⟨hq, hqk⟩
    · rintro (rfl | ⟨hp, hpk⟩)
      · obtain ⟨q, hq, hqk⟩ := List.mem_map.mp hk
        exact ⟨q, hq, if_pos hqk⟩
      · exact ⟨p, hp, if_neg hpk⟩
  · rename_i hk
    rw [List.mem_append, List.mem_singleton, or_comm]
    refine or_congr_right ⟨fun hp => ⟨hp, ?_⟩, fun h => h.1⟩
    rintro rfl
    exact hk (List.mem_map_of_mem hp)

/-- Where a list with a last element is cut. -/
theorem concat_eq_append {ι : Type} {xs front back : List ι} {y : ι}
    (h : xs ++ [y] = front ++ back) :
    back = [] ∨ ∃ rest, back = rest ++ [y] ∧ xs = front ++ rest := by
  rcases List.eq_nil_or_concat back with rfl | ⟨rest, z, rfl⟩
  · exact .inl rfl
  · rw [List.concat_eq_append, ← List.append_assoc] at h
    obtain ⟨hxs, hlast⟩ := List.append_inj' h rfl
    rw [List.concat_eq_append, List.singleton_inj.mp hlast]
    exact .inr ⟨rest, rfl, hxs⟩

/-- `x` is in a list, and no later element has its key. -/
def LastOf {ι : Type} (key : ι → κ) (xs : List ι) (x : ι) : Prop :=
  ∃ front back, xs = front ++ x :: back ∧ ∀ y ∈ back, key y ≠ key x

omit [DecidableEq κ] in
theorem LastOf.mem {ι : Type} {key : ι → κ} {xs : List ι} {x : ι} (h : LastOf key xs x) :
    x ∈ xs := by
  obtain ⟨front, back, rfl, -⟩ := h
  exact List.mem_append_cons_self

omit [DecidableEq κ] in
theorem lastOf_concat {ι : Type} (key : ι → κ) (xs : List ι) (y x : ι) :
    LastOf key (xs ++ [y]) x ↔ x = y ∨ LastOf key xs x ∧ key x ≠ key y := by
  constructor
  · rintro ⟨front, back, heq, hback⟩
    rcases concat_eq_append heq with h | ⟨rest, hrest, hxs⟩
    · cases h
    · cases rest with
      | nil => exact .inl (List.head_eq_of_cons_eq hrest)
      | cons z rest =>
        obtain ⟨rfl, rfl⟩ := List.cons_eq_cons.mp hrest
        exact .inr ⟨⟨front, rest, hxs, fun w hw => hback w (List.mem_append_left _ hw)⟩,
          (hback y (List.mem_append_right _ (List.mem_singleton_self y))).symm⟩
  · rintro (rfl | ⟨⟨front, back, rfl, hback⟩, hne⟩)
    · exact ⟨xs, [], rfl, fun _ h => absurd h List.not_mem_nil⟩
    · refine ⟨front, back ++ [y], by simp, fun w hw => ?_⟩
      rcases List.mem_append.mp hw with hw | hw
      · exact hback w hw
      · rw [List.mem_singleton.mp hw]
        exact hne.symm

omit [DecidableEq κ] in
theorem lastOf_map {ι ι' : Type} {key : ι → κ} {key' : ι' → κ} {g : ι → ι'}
    (hkey : ∀ x, key' (g x) = key x) (xs : List ι) (y : ι') :
    LastOf key' (xs.map g) y ↔ ∃ x, LastOf key xs x ∧ g x = y := by
  induction xs using List.reverseRecOn with
  | nil =>
    refine iff_of_false (fun h => absurd h.mem List.not_mem_nil) ?_
    rintro ⟨x, h, -⟩
    exact absurd h.mem List.not_mem_nil
  | append_singleton xs z ih =>
    rw [List.map_append, List.map_singleton, lastOf_concat, ih]
    simp only [lastOf_concat]
    constructor
    · rintro (rfl | ⟨⟨x, hx, rfl⟩, hne⟩)
      · exact ⟨z, .inl rfl, rfl⟩
      · rw [hkey, hkey] at hne
        exact ⟨x, .inr ⟨hx, hne⟩, rfl⟩
    · rintro ⟨x, rfl | ⟨hx, hne⟩, rfl⟩
      · exact .inl rfl
      · rw [← hkey x, ← hkey z] at hne
        exact .inr ⟨⟨x, hx, rfl⟩, hne⟩

/-- **The items of a dictionary are the pairs that are the last ones with their keys.** -/
theorem mem_ofPairs_iff {pairs : List (κ × α)} {p : κ × α} :
    p ∈ ofPairs pairs ↔ LastOf Prod.fst pairs p := by
  induction pairs using List.reverseRecOn with
  | nil =>
    refine iff_of_false List.not_mem_nil fun h => ?_
    exact absurd h.mem List.not_mem_nil
  | append_singleton pairs q ih =>
    rw [lastOf_concat, ← ih, ofPairs, List.foldl_append, List.foldl_cons, List.foldl_nil,
      mem_set_iff]
    rfl

/-- After a pair with the key `k`, another one is the first with its key. -/
def Superseded {ι : Type} (key : ι → κ) (sel : κ → Bool) (xs : List ι) (k : κ) : Prop :=
  ∃ front back, xs = front ++ back ∧ k ∈ front.map key ∧
    ∃ y ∈ back, sel (key y) ∧ key y ∉ front.map key

omit [DecidableEq κ] in
/-- That depends on the keys only. -/
theorem superseded_map {ι : Type} (key : ι → κ) (sel : κ → Bool) (xs : List ι) (k : κ) :
    Superseded id sel (xs.map key) k ↔ Superseded key sel xs k := by
  constructor
  · rintro ⟨front, back, heq, hfront, z, hz, hsel, hnew⟩
    obtain ⟨front, back, rfl, rfl, rfl⟩ := List.map_eq_append_iff.mp heq
    obtain ⟨y, hy, rfl⟩ := List.mem_map.mp hz
    rw [List.map_id] at hfront hnew
    exact ⟨front, back, rfl, hfront, y, hy, hsel, hnew⟩
  · rintro ⟨front, back, rfl, hfront, y, hy, hsel, hnew⟩
    refine ⟨front.map key, back.map key, List.map_append, ?_, key y, List.mem_map_of_mem hy, hsel,
      ?_⟩
    · rwa [List.map_id]
    · rwa [List.map_id]

theorem keys_concat (pairs : List (κ × α)) (p : κ × α) :
    keys (ofPairs (pairs ++ [p])) =
      if p.1 ∈ pairs.map (·.1) then keys (ofPairs pairs) else keys (ofPairs pairs) ++ [p.1] := by
  have hmem : p.1 ∈ keys (ofPairs pairs) ↔ p.1 ∈ pairs.map (·.1) := mem_keys_ofPairs
  rw [ofPairs, List.foldl_append, List.foldl_cons, List.foldl_nil, keys_set]
  simp only [← hmem]
  rfl

theorem superseded_concat {ι : Type} (key : ι → κ) (sel : κ → Bool) (xs : List ι) (y : ι) {k : κ}
    (hk : k ∈ xs.map key) :
    Superseded key sel (xs ++ [y]) k ↔
      Superseded key sel xs k ∨ sel (key y) ∧ key y ∉ xs.map key := by
  constructor
  · rintro ⟨front, back, heq, hfront, z, hz, hsel, hnew⟩
    rcases concat_eq_append heq with rfl | ⟨back, rfl, hxs⟩
    · cases hz
    · rcases List.mem_append.mp hz with hz | hz
      · exact .inl ⟨front, back, hxs, hfront, z, hz, hsel, hnew⟩
      · rw [List.mem_singleton.mp hz] at hsel hnew
        by_cases hold : key y ∈ xs.map key
        · -- a pair of that key came before, so it is the new one
          rw [hxs, List.map_append, List.mem_append] at hold
          obtain ⟨v, hv, hkey⟩ := List.mem_map.mp (hold.resolve_left hnew)
          rw [← hkey] at hsel hnew
          exact .inl ⟨front, back, hxs, hfront, v, hv, hsel, hnew⟩
        · exact .inr ⟨hsel, hold⟩
  · rintro (⟨front, back, rfl, hfront, z, hz, hsel, hnew⟩ | ⟨hsel, hnew⟩)
    · exact ⟨front, back ++ [y], by simp, hfront, z, List.mem_append_left _ hz, hsel, hnew⟩
    · exact ⟨xs, [y], rfl, hk, y, List.mem_singleton_self y, hsel, hnew⟩

/-- Of some keys, the last one in a dictionary is that which was the last to be new. -/
theorem getLast?_keys_iff {pairs : List (κ × α)} {sel : κ → Bool} {k : κ} (hsel : sel k)
    (hk : k ∈ pairs.map (·.1)) :
    ((keys (ofPairs pairs)).filter sel).getLast? = some k ↔
      ¬ Superseded (·.1) sel pairs k := by
  induction pairs using List.reverseRecOn with
  | nil => cases hk
  | append_singleton pairs p ih =>
    rw [keys_concat]
    by_cases hold : k ∈ pairs.map (·.1)
    · rw [superseded_concat _ _ _ _ hold]
      by_cases hp : p.1 ∈ pairs.map (·.1)
      · rw [if_pos hp, ih hold]
        simp [hp]
      · have hne : p.1 ≠ k := by
          rintro rfl
          exact hp hold
        rw [if_neg hp, List.filter_append]
        by_cases hselp : sel p.1
        · simp [hselp, hne, hp]
        · rw [List.filter_cons_of_neg hselp, List.filter_nil, List.append_nil, ih hold]
          simp [hselp]
    · have hpk : p.1 = k := by
        rw [List.map_append, List.mem_append] at hk
        exact (List.mem_singleton.mp (hk.resolve_left hold)).symm
      have hnot : ¬ Superseded (·.1) sel (pairs ++ [p]) k := by
        rintro ⟨front, back, heq, hfront, z, hz, -, hnew⟩
        rcases concat_eq_append heq with rfl | ⟨back, rfl, rfl⟩
        · cases hz
        · rw [List.map_append] at hold
          exact hold (List.mem_append_left _ hfront)
      rw [if_neg (hpk ▸ hold), List.filter_append, hpk]
      simp [hsel, hnot]

/-! ## Values that are updated -/

section update

variable [BEq κ] [LawfulBEq κ] {ι β γ : Type} (key : ι → κ) (f : β → ι → β) (init : β)

/-- `d[ key( x ) ]`, which is `init` if it is new, is updated with `x`. -/
def update (d : Dict κ β) (x : ι) : Dict κ β :=
  set d (key x) (f ((d.lookup (key x)).getD init) x)

omit [LawfulBEq κ] in
theorem mem_keys_update (xs : List ι) (k : κ) :
    k ∈ keys (xs.foldl (update key f init) []) ↔ k ∈ xs.map key := by
  induction xs using List.reverseRecOn with
  | nil => rfl
  | append_singleton xs x ih =>
    rw [List.foldl_append, List.foldl_cons, List.foldl_nil, update, keys_set, List.map_append,
      List.mem_append, ← ih]
    split
    · rename_i hx
      refine ⟨.inl, fun h => h.elim id fun h => ?_⟩
      rw [List.mem_singleton.mp h]
      exact hx
    · exact List.mem_append

/-- Of a value, a part that some items set: the last one of its own items has set it. -/
theorem lookup_update (part : β → Option γ) (sel : ι → Bool) (g : ι → γ) (hinit : part init = none)
    (hpart : ∀ b x, part (f b x) = if sel x then some (g x) else part b) (xs : List ι) (k : κ) :
    ((xs.foldl (update key f init) []).lookup k).bind part =
      ((xs.filter fun x => key x = k ∧ sel x).getLast?).map g := by
  induction xs using List.reverseRecOn with
  | nil => rfl
  | append_singleton xs x ih =>
    rw [List.foldl_append, List.foldl_cons, List.foldl_nil, update, lookup_set, List.filter_append]
    by_cases hk : key x = k
    · have hold : part (((xs.foldl (update key f init) []).lookup k).getD init) =
          ((xs.foldl (update key f init) []).lookup k).bind part := by
        cases (xs.foldl (update key f init) []).lookup k with
        | none => exact hinit
        | some b => rfl
      rw [if_pos hk.symm, Option.bind_some, hpart, hk, hold, ih]
      by_cases hx : sel x <;> simp [hk, hx]
    · rw [if_neg (Ne.symm hk), ih]
      simp [hk]

end update

end Assoc
