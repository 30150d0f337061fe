import Mathlib.Data.List.Basic
import Mathlib.Order.Lattice

/-!
# Sorted lists

A list is sorted by a key, and elements of one key stay in the order of the list. The first of the
sorted list that satisfies a predicate is the one that is ahead of all others that do.

* `pairwise_sorted`: a sorted list goes by the key, and then by the order of the list.
  `pairwise_sorted_iff`: what holds of any two of it, in terms of the list.
* `find?_mergeSort_eq_some_iff`: the first that satisfies a predicate.
* `findSome?_eq_bind`: a search with a result for some elements, as a search for these elements.
-/

namespace Ranked

open List MergeSort.Internal

variable {α κ : Type}

theorem findSome?_eq_bind {β : Type} (f : α → Option β) (l : List α) :
    l.findSome? f = (l.find? fun x => (f x).isSome).bind f := by
  induction l with
  | nil => rfl
  | cons x l ih =>
    rw [List.findSome?_cons, List.find?_cons]
    cases hx : f x with
    | some y => exact hx.symm
    | none => exact ih

variable [LinearOrder κ]

/-- `sorted( l, key=key )` -/
def sorted (key : α → κ) (l : List α) : List α := l.mergeSort fun a b => key a ≤ key b

theorem sorted_perm (key : α → κ) (l : List α) : (sorted key l).Perm l := List.mergeSort_perm ..

theorem key_trans (key : α → κ) (a b c : α) (hab : decide (key a ≤ key b))
    (hbc : decide (key b ≤ key c)) : decide (key a ≤ key c) := by
  rw [decide_eq_true_eq] at *
  exact le_trans hab hbc

theorem key_total (key : α → κ) (a b : α) :
    decide (key a ≤ key b) || decide (key b ≤ key a) := by
  rw [Bool.or_eq_true, decide_eq_true_eq, decide_eq_true_eq]
  exact le_total _ _

/-- The elements of one key stay in their order. -/
theorem filter_sorted (key : α → κ) (l : List α) (k : κ) :
    (sorted key l).filter (fun a => key a = k) = l.filter fun a => key a = k := by
  have hpairs : (l.filter fun a => key a = k).Pairwise fun a b => decide (key a ≤ key b) := by
    refine List.pairwise_of_forall_mem_list fun a ha b hb => decide_eq_true ?_
    rw [of_decide_eq_true (List.mem_filter.mp ha).2, of_decide_eq_true (List.mem_filter.mp hb).2]
  have hsub := (List.sublist_mergeSort (key_trans key) (key_total key) hpairs
    List.filter_sublist).filter fun a => key a = k
  rw [List.filter_filter] at hsub
  simp only [Bool.and_self] at hsub
  exact (hsub.eq_of_length ((sorted_perm key l).filter _).length_eq.symm).symm

/-- **A sorted list goes by the key, and then by the order of the list.** -/
theorem pairwise_sorted {R : α → α → Prop} (key : α → κ) {l : List α} (h : l.Pairwise R) :
    (sorted key l).Pairwise fun x y => key x < key y ∨ key x = key y ∧ R x y := by
  have hkeys := List.pairwise_mergeSort (key_trans key) (key_total key) l
  rw [List.pairwise_iff_forall_sublist] at hkeys h ⊢
  intro x y hxy
  rcases lt_or_eq_of_le (of_decide_eq_true (hkeys hxy)) with hlt | heq
  · exact .inl hlt
  · refine .inr ⟨heq, h ?_⟩
    -- two elements of one key stand in the list as they stand in the sorted one
    have hsub := hxy.filter fun a => key a = key y
    rw [filter_sorted] at hsub
    simp only [heq, decide_true, List.filter_cons_of_pos, List.filter_nil] at hsub
    exact hsub.trans List.filter_sublist

/-- **How a sorted list stands**, in terms of the list: of two elements the one with the smaller key
comes first, of one key the one that is first in the list. -/
theorem pairwise_sorted_iff {R : α → α → Prop} (key : α → κ) (l : List α) :
    (sorted key l).Pairwise R ↔ l.Pairwise fun x y => if key x ≤ key y then R x y else R y x := by
  -- what is said of two keys that differ does not go by the order of the two elements
  have hperm (S : α → α → Prop) : (sorted key l).Pairwise
      (fun x y => (key x < key y → S x y) ∧ (key y < key x → S y x)) ↔
        l.Pairwise fun x y => (key x < key y → S x y) ∧ (key y < key x → S y x) :=
    (sorted_perm key l).pairwise_iff fun h => ⟨h.2, h.1⟩
  constructor
  · intro h
    have hkeys := List.pairwise_mergeSort (key_trans key) (key_total key) l
    have hdiffer := (hperm R).mp (List.Pairwise.imp₂ (fun x y hxy hkey =>
      ⟨fun _ => hxy, fun hlt => absurd (of_decide_eq_true hkey) (not_le.mpr hlt)⟩) h hkeys)
    rw [List.pairwise_iff_forall_sublist] at h hdiffer ⊢
    intro x y hxy
    by_cases hle : key x ≤ key y
    · rw [if_pos hle]
      rcases lt_or_eq_of_le hle with hlt | heq
      · exact (hdiffer hxy).1 hlt
      · have hsub := hxy.filter fun a => key a = key y
        simp only [heq, decide_true, List.filter_cons_of_pos, List.filter_nil] at hsub
        rw [← filter_sorted] at hsub
        exact h (hsub.trans List.filter_sublist)
    · rw [if_neg hle]
      exact (hdiffer hxy).2 (not_le.mp hle)
  · intro h
    have hdiffer := (hperm R).mpr (h.imp fun {x y} hxy =>
      ⟨fun hlt => by rwa [if_pos hlt.le] at hxy,
        fun hlt => by rwa [if_neg (not_le.mpr hlt)] at hxy⟩)
    refine List.Pairwise.imp₂ (fun x y hxy hkey => ?_) hdiffer (pairwise_sorted key h)
    rcases hkey with hlt | ⟨heq, hR⟩
    · exact hxy.1 hlt
    · rwa [if_pos heq.le] at hR

theorem mem_sorted {key : α → κ} {l : List α} {x : α} : x ∈ sorted key l ↔ x ∈ l :=
  List.mem_mergeSort

variable [DecidableEq α]

/-- `x` comes first: it has the smaller key, or the same and stands first in the list. -/
def Ahead (key : α → κ) (l : List α) (x y : α) : Prop :=
  key x < key y ∨ key x = key y ∧ l.idxOf x < l.idxOf y

theorem Ahead.asymm {key : α → κ} {l : List α} {x y : α} (h : Ahead key l x y) :
    ¬ Ahead key l y x := by
  rcases h with h | ⟨heq, h⟩
  · rintro (h' | ⟨heq', -⟩)
    · exact lt_asymm h h'
    · exact h.ne' heq'
  · rintro (h' | ⟨-, h'⟩)
    · exact h'.ne' heq
    · exact Nat.lt_asymm h h'

theorem mem_zipIdx_idxOf {l : List α} {x : α} (h : x ∈ l) : (x, l.idxOf x) ∈ l.zipIdx :=
  List.mk_mem_zipIdx_iff_getElem?.mpr (List.getElem?_idxOf h)

/-- Of two elements with their positions, the one that is sorted first is ahead. -/
theorem ahead_of_zipIdxLE {key : α → κ} {l : List α} {x y : α}
    (h : zipIdxLE (fun a b => key a ≤ key b) (x, l.idxOf x) (y, l.idxOf y)) (hx : x ∈ l)
    (hne : y ≠ x) : Ahead key l x y := by
  unfold zipIdxLE at h
  by_cases hxy : key x ≤ key y
  · by_cases hyx : key y ≤ key x
    · simp only [hxy, hyx, decide_true, if_true, decide_eq_true_eq] at h
      refine .inr ⟨le_antisymm hxy hyx, Nat.lt_of_le_of_ne h fun hidx => hne ?_⟩
      exact ((List.idxOf_inj hx).mp hidx).symm
    · exact .inl (not_le.mp hyx)
  · simp [hxy] at h

/-- What the first of the sorted list is ahead of. -/
theorem ahead_of_find? {key : α → κ} {l : List α} {p : α → Bool} {x y : α}
    (h : (sorted key l).find? p = some x) (hy : y ∈ l) (hp : p y) (hne : y ≠ x) :
    Ahead key l x y := by
  -- the sorted list with the positions, where nothing is left undecided
  have hpairs := pairwise_mergeSort (zipIdxLE_trans (key_trans key))
    (zipIdxLE_total (key_total key)) l.zipIdx
  rw [sorted, ← mergeSort_zipIdx, List.find?_map, Option.map_eq_some_iff] at h
  obtain ⟨⟨x', i⟩, hfind, rfl⟩ := h
  obtain ⟨hpx, before, after, hsplit, hbefore⟩ := List.find?_eq_some_iff_append.mp hfind
  rw [hsplit] at hpairs
  have hlater (z : α × Nat) (hz : z ∈ l.zipIdx) (hpz : p z.1) (hzx : z ≠ (x', i)) :
      zipIdxLE (fun a b => key a ≤ key b) (x', i) z := by
    have hmem : z ∈ before ++ (x', i) :: after := by
      rw [← hsplit]
      exact List.mem_mergeSort.mpr hz
    have hz : z ∈ after := by
      rcases List.mem_append.mp hmem with hz | hz
      · have hnot := hbefore z hz
        simp [hpz] at hnot
      · exact (List.mem_cons.mp hz).resolve_left hzx
    exact List.rel_of_pairwise_cons (List.pairwise_append.mp hpairs).2.1 hz
  have hx : (x', i) ∈ l.zipIdx := by
    apply List.mem_mergeSort.mp
    rw [hsplit]
    exact List.mem_append_right _ (List.mem_cons_self ..)
  have hget := List.mk_mem_zipIdx_iff_getElem?.mp hx
  have hmem : x' ∈ l := List.mem_of_getElem? hget
  have hle : l.idxOf x' ≤ i := by
    obtain ⟨hi, hget⟩ := List.getElem?_eq_some_iff.mp hget
    have htake : x' ∈ l.take (i + 1) := List.mem_take_iff_getElem.mpr ⟨i, by omega, hget⟩
    exact Nat.le_of_lt_succ ((List.mem_take_iff_idxOf_lt hmem).mp htake)
  -- the first one is found at its first position
  have hi : i = l.idxOf x' := by
    by_contra hne'
    have hrel := hlater (x', l.idxOf x') (mem_zipIdx_idxOf hmem) hpx fun heq =>
      hne' (Prod.mk.inj heq).2.symm
    simp [zipIdxLE] at hrel
    omega
  subst hi
  exact ahead_of_zipIdxLE (hlater (y, l.idxOf y) (mem_zipIdx_idxOf hy) hp fun heq =>
    hne (Prod.mk.inj heq).1) hmem hne

/-- **The first of the sorted list that satisfies a predicate.** -/
theorem find?_mergeSort_eq_some_iff {key : α → κ} {l : List α} {p : α → Bool} {x : α} :
    (sorted key l).find? p = some x ↔
      (x ∈ l ∧ p x) ∧ ∀ y ∈ l, p y → y ≠ x → Ahead key l x y := by
  have hfound {z : α} (h : (sorted key l).find? p = some z) : z ∈ l ∧ p z :=
    ⟨mem_sorted.mp (List.mem_of_find?_eq_some h), List.find?_some h⟩
  constructor
  · exact fun h => ⟨hfound h, fun y hy hp hne => ahead_of_find? h hy hp hne⟩
  · intro h
    obtain ⟨⟨hx, hpx⟩, hahead⟩ := h
    cases hfind : (sorted key l).find? p with
    | none => exact absurd hpx (List.find?_eq_none.mp hfind x (mem_sorted.mpr hx))
    | some z =>
      by_cases hne : z = x
      · rw [hne]
      obtain ⟨hz, hpz⟩ := hfound hfind
      have hzx := ahead_of_find? hfind hx hpx fun h => hne h.symm
      exact absurd hzx (hahead z hz hpz hne).asymm

end Ranked
