import Mathlib.Data.List.Basic

/-!
# Pieces one behind the other

A list of items that are each written as some elements, one behind the other.

* `drop_pieces`: **what stands from a piece on**.
* `flatMap_range`: a list of results by the number of the item.
-/

namespace Layout

variable {α β : Type}

/-- Where the piece with this number begins. -/
def start (piece : α → List β) (items : List α) (k : Nat) : Nat :=
  ((items.take k).flatMap piece).length

@[simp] theorem start_zero (piece : α → List β) (items : List α) : start piece items 0 = 0 := rfl

theorem start_succ (piece : α → List β) {items : List α} {k : Nat} (h : k < items.length) :
    start piece items (k + 1) = start piece items k + (piece items[k]).length := by
  rw [start, start, List.take_succ_eq_append_getElem h, List.flatMap_append, List.length_append,
    List.flatMap_singleton]

theorem start_length (piece : α → List β) (items : List α) :
    start piece items items.length = (items.flatMap piece).length := by
  rw [start, List.take_length]

theorem start_le (piece : α → List β) (items : List α) (k : Nat) :
    start piece items k ≤ (items.flatMap piece).length := by
  rw [← List.take_append_drop k items, List.flatMap_append, List.length_append,
    List.take_append_drop]
  exact Nat.le_add_right ..

/-- Pieces of the same length. -/
theorem start_eq_mul {piece : α → List β} {n : Nat} (h : ∀ a, (piece a).length = n)
    (items : List α) {k : Nat} (hk : k ≤ items.length) : start piece items k = n * k := by
  induction k with
  | zero => rfl
  | succ k ih => rw [start_succ piece (by omega), ih (by omega), h, Nat.mul_succ]

/-- **What stands from a piece on**, behind a front. -/
theorem drop_pieces (piece : α → List β) (front back : List β) (items : List α) (k : Nat) :
    (front ++ items.flatMap piece ++ back).drop (front.length + start piece items k) =
      (items.drop k).flatMap piece ++ back := by
  have hsplit : items.flatMap piece =
      (items.take k).flatMap piece ++ (items.drop k).flatMap piece := by
    rw [← List.flatMap_append, List.take_append_drop]
  rw [hsplit, start, ← List.length_append, List.append_assoc, List.append_assoc,
    ← List.append_assoc front, List.drop_left]

theorem drop_pieces_cons (piece : α → List β) {items : List α} {k : Nat} (h : k < items.length)
    (back : List β) :
    (items.drop k).flatMap piece ++ back =
      piece items[k] ++ ((items.drop (k + 1)).flatMap piece ++ back) := by
  rw [List.drop_eq_getElem_cons h, List.flatMap_cons, List.append_assoc]

theorem flatMap_range {items : List α} {f : Nat → List β} {g : α × Nat → List β}
    (h : ∀ k (hk : k < items.length), f k = g (items[k], k)) :
    (List.range items.length).flatMap f = items.zipIdx.flatMap g := by
  have hnumbers : List.range items.length = items.zipIdx.map (·.2) := by
    rw [List.zipIdx_map_snd, List.range_eq_range']
  rw [hnumbers, List.flatMap_map]
  refine List.flatMap_congr fun x hx => ?_
  obtain ⟨hlt, hitem⟩ := List.getElem?_eq_some_iff.mp (List.mem_zipIdx_iff_getElem?.mp hx)
  rw [h x.2 hlt, hitem]

end Layout
