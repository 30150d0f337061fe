import Mathlib.Order.Interval.Set.Basic
import Mathlib.Data.Set.Pairwise.Basic
import Mathlib.Order.Interval.Set.Disjoint
import Mathlib.Order.CompletePartialOrder

/-!
# Half-open spans and their tilings

A span `[lo, hi)` of a linear order, the points a list of spans covers (`cover`), and the lists
that cut `[a, b)` into consecutive non-empty spans (`Tiles`).

* `Tiles.cover_eq`: a tiling of `[a, b)` covers exactly `[a, b)`.
* `Tiles.sorted`: each span ends at or before the start of every later one.
* `Tiles.disjoint`: the spans are pairwise disjoint.
* `Tiles.append`, `Tiles.snoc`: tilings of adjacent ranges join.
-/

variable {α : Type}

/-- `[lo, hi)`. -/
structure Span (α : Type) where
  lo : α
  hi : α
deriving DecidableEq, Repr

namespace Span

variable [LinearOrder α]

def points (s : Span α) : Set α := Set.Ico s.lo s.hi

/-- The points of the spans of a list. -/
def cover (l : List (Span α)) : Set α := {x | ∃ s ∈ l, x ∈ s.points}

theorem mem_cover {l : List (Span α)} {x : α} : x ∈ cover l ↔ ∃ s ∈ l, s.lo ≤ x ∧ x < s.hi :=
  Iff.rfl

@[simp] theorem cover_nil : cover ([] : List (Span α)) = ∅ := by
  ext x; simp [cover]

@[simp] theorem cover_cons (s : Span α) (l : List (Span α)) :
    cover (s :: l) = s.points ∪ cover l := by
  ext x; simp [cover]

@[simp] theorem cover_append (l m : List (Span α)) : cover (l ++ m) = cover l ∪ cover m := by
  induction l with
  | nil => simp
  | cons s l ih => rw [List.cons_append, cover_cons, cover_cons, ih, Set.union_assoc]

/-- `l` cuts `[a, b)` into consecutive non-empty spans. -/
def Tiles : List (Span α) → α → α → Prop
  | [], a, b => a = b
  | s :: l, a, b => s.lo = a ∧ a < s.hi ∧ Tiles l s.hi b

theorem Tiles.le {l : List (Span α)} {a b : α} (h : Tiles l a b) : a ≤ b := by
  induction l generalizing a with
  | nil => exact le_of_eq h
  | cons s l ih => exact h.2.1.le.trans (ih h.2.2)

/-- **A tiling covers exactly its range.** -/
theorem Tiles.cover_eq {l : List (Span α)} {a b : α} (h : Tiles l a b) :
    cover l = Set.Ico a b := by
  induction l generalizing a with
  | nil =>
    obtain rfl : a = b := h
    simp
  | cons s l ih =>
    obtain ⟨rfl, hlt, ht⟩ := h
    rw [cover_cons, ih ht, points, Set.Ico_union_Ico_eq_Ico hlt.le ht.le]

/-- Every span of a tiling is non-empty and within the range. -/
theorem Tiles.bounds {l : List (Span α)} {a b : α} (h : Tiles l a b) {s : Span α} (hs : s ∈ l) :
    a ≤ s.lo ∧ s.lo < s.hi ∧ s.hi ≤ b := by
  induction l generalizing a with
  | nil => simp at hs
  | cons t l ih =>
    obtain ⟨rfl, hlt, ht⟩ := h
    rcases List.mem_cons.1 hs with rfl | hs
    · exact ⟨le_refl _, hlt, ht.le⟩
    · obtain ⟨h1, h2, h3⟩ := ih ht hs
      exact ⟨hlt.le.trans h1, h2, h3⟩

/-- The spans of a tiling stand in increasing order. -/
theorem Tiles.sorted {l : List (Span α)} {a b : α} (h : Tiles l a b) :
    l.Pairwise (fun s t => s.hi ≤ t.lo) := by
  induction l generalizing a with
  | nil => exact .nil
  | cons s l ih => exact .cons (fun t ht => (h.2.2.bounds ht).1) (ih h.2.2)

theorem disjoint_of_le {s t : Span α} (h : s.hi ≤ t.lo) : Disjoint s.points t.points := by
  rw [Set.disjoint_left]
  intro x hx hx'
  exact absurd (hx.2.trans_le (h.trans hx'.1)) (lt_irrefl x)

/-- The spans of a tiling are pairwise disjoint. -/
theorem Tiles.disjoint {l : List (Span α)} {a b : α} (h : Tiles l a b) :
    l.Pairwise (fun s t => Disjoint s.points t.points) :=
  h.sorted.imp disjoint_of_le

theorem Tiles.append {l m : List (Span α)} {a b c : α} (h : Tiles l a b) (hm : Tiles m b c) :
    Tiles (l ++ m) a c := by
  induction l generalizing a with
  | nil =>
    obtain rfl : a = b := h
    exact hm
  | cons s l ih => exact ⟨h.1, h.2.1, ih h.2.2⟩

theorem Tiles.snoc {l : List (Span α)} {a b c : α} (h : Tiles l a b) (hbc : b < c) :
    Tiles (l ++ [⟨b, c⟩]) a c :=
  h.append ⟨rfl, hbc, rfl⟩

end Span
