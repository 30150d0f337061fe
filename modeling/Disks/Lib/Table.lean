import Mathlib.Data.List.Basic

/-!
# Tables as lists of rows

`UPDATE .. WHERE` as a map over the rows.

* `filter_update_self`: the rows it is about. `filter_update_of_disjoint`: all others.
-/

namespace Table

variable {α : Type} {sel sel' : α → Prop} [DecidablePred sel] [DecidablePred sel'] {upd : α → α}

/-- The rows an update is about are updated. -/
theorem filter_update_self (h : ∀ r, sel r → sel (upd r)) (rows : List α) :
    (rows.map fun r => if sel r then upd r else r).filter (fun r => sel r) =
      (rows.filter fun r => sel r).map upd := by
  induction rows with
  | nil => rfl
  | cons r rows ih =>
    by_cases hr : sel r
    · simp [hr, h r hr, ih]
    · simp [hr, ih]

/-- The rows of another selection stay as they are. -/
theorem filter_update_of_disjoint (h : ∀ r, sel r → ¬ sel' r ∧ ¬ sel' (upd r)) (rows : List α) :
    (rows.map fun r => if sel r then upd r else r).filter (fun r => sel' r) =
      rows.filter fun r => sel' r := by
  induction rows with
  | nil => rfl
  | cons r rows ih =>
    by_cases hr : sel r
    · simp [hr, (h r hr).1, (h r hr).2, ih]
    · simp [hr, List.filter_cons, ih]

end Table
