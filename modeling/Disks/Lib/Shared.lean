import Mathlib.Data.List.Basic

/-!
# Lists behind a variable

A variable refers to one of many lists: an assignment makes a new list, an append changes the list
that the variable refers to. Whoever has noted the reference sees the appends of later steps, until
the variable is assigned again.

* `Store.run_lists`: what a run leaves of each list.
* **`refs_seen`**: what is seen at last through the references that the steps leave.
-/

namespace Shared

variable {α : Type}

/-- The lists, and the variable. -/
structure Store (α : Type) where
  lists : List (List α)
  var : Option Nat

/-- A step: maybe an assignment, then what is appended. -/
structure Op (α : Type) where
  assigned : Option (List α)
  appended : List α

namespace Store

def assign (s : Store α) : Option (List α) → Store α
  | some xs => ⟨s.lists ++ [xs], some s.lists.length⟩
  | none => s

def append (s : Store α) (xs : List α) : Store α :=
  match s.var with
  | some r => { s with lists := s.lists.modify r (· ++ xs) }
  | none => s

def step (s : Store α) (op : Op α) : Store α := (s.assign op.assigned).append op.appended

def run (s : Store α) (ops : List (Op α)) : Store α := ops.foldl step s

/-- The list of the variable. -/
def held (s : Store α) : Option (List α) := s.var.bind (s.lists[·]?)

/-- The variable after each step. -/
def refs (s : Store α) : List (Op α) → List (Option Nat)
  | [] => []
  | op :: ops => (s.step op).var :: refs (s.step op) ops

/-- The variable refers to a list. -/
def Valid (s : Store α) : Prop := ∀ r, s.var = some r → r < s.lists.length

end Store

/-- What is still appended to the list of the variable. -/
def late : List (Op α) → List α
  | [] => []
  | op :: ops =>
    match op.assigned with
    | some _ => []
    | none => op.appended ++ late ops

/-- The list of the variable, step by step. -/
def current : Option (List α) → List (Op α) → Option (List α)
  | held, [] => held
  | held, op :: ops => current ((op.assigned.or held).map (· ++ op.appended)) ops

/-- The lists that the references of the steps show at last; `base` is that of the variable before
them. -/
def seen : Option (List α) → List (Op α) → List (Option (List α))
  | _, [] => []
  | base, op :: ops =>
    match op.assigned with
    | some xs =>
      let shown := some (xs ++ op.appended ++ late ops)
      shown :: seen shown ops
    | none => base :: seen base ops

theorem length_seen (base : Option (List α)) (ops : List (Op α)) :
    (seen base ops).length = ops.length := by
  induction ops generalizing base with
  | nil => rfl
  | cons op ops ih =>
    rw [seen]
    cases op.assigned <;> simp [ih]

/-- Steps that append only to what they assign append nothing to the list of the variable. -/
theorem late_append {ops ops' : List (Op α)} (h : ∀ op ∈ ops, op.assigned = none → op.appended = [])
    (hlate : late ops' = []) : late (ops ++ ops') = [] := by
  induction ops with
  | nil => exact hlate
  | cons op ops ih =>
    rw [List.cons_append, late]
    cases hop : op.assigned with
    | none =>
      rw [h op (List.mem_cons_self ..) hop, List.nil_append]
      exact ih fun op hop => h op (List.mem_cons_of_mem _ hop)
    | some xs => rfl

/-- Among such steps one that assigns shows its own. -/
theorem seen_assigned {ops ops' : List (Op α)}
    (h : ∀ op ∈ ops, op.assigned = none → op.appended = []) (hlate : late ops' = [])
    {base : Option (List α)} {op : Op α} {o : Option (List α)}
    (hmem : (op, o) ∈ ops.zip (seen base (ops ++ ops'))) {xs : List α}
    (hop : op.assigned = some xs) : o = some (xs ++ op.appended) := by
  induction ops generalizing base with
  | nil => cases hmem
  | cons first ops ih =>
    have hrest : ∀ op ∈ ops, op.assigned = none → op.appended = [] :=
      fun op hop => h op (List.mem_cons_of_mem _ hop)
    rw [List.cons_append, seen] at hmem
    cases hfirst : first.assigned with
    | none =>
      simp only [hfirst, List.zip_cons_cons, List.mem_cons, Prod.mk.injEq] at hmem
      obtain ⟨rfl, -⟩ | hmem := hmem
      · rw [hfirst] at hop
        cases hop
      · exact ih hrest hmem
    | some ys =>
      simp only [hfirst, List.zip_cons_cons, List.mem_cons, Prod.mk.injEq] at hmem
      obtain ⟨rfl, rfl⟩ | hmem := hmem
      · rw [hfirst] at hop
        cases hop
        rw [late_append hrest hlate, List.append_nil]
      · exact ih hrest hmem

/-- The list of the variable after more steps. -/
theorem current_append (held : Option (List α)) (ops ops' : List (Op α)) :
    current held (ops ++ ops') = current (current held ops) ops' := by
  induction ops generalizing held with
  | nil => rfl
  | cons op ops ih => exact ih _

namespace Store

@[simp] theorem run_nil (s : Store α) : s.run [] = s := rfl

@[simp] theorem run_cons (s : Store α) (op : Op α) (ops : List (Op α)) :
    s.run (op :: ops) = (s.step op).run ops := rfl

theorem run_append (s : Store α) (ops ops' : List (Op α)) :
    s.run (ops ++ ops') = (s.run ops).run ops' := by
  simp [run]

theorem refs_append (s : Store α) (ops ops' : List (Op α)) :
    s.refs (ops ++ ops') = s.refs ops ++ (s.run ops).refs ops' := by
  induction ops generalizing s with
  | nil => rfl
  | cons op ops ih => simp [refs, ih]

theorem length_refs (s : Store α) (ops : List (Op α)) : (s.refs ops).length = ops.length := by
  induction ops generalizing s with
  | nil => rfl
  | cons op ops ih => simp [refs, ih]

@[simp] theorem append_var (s : Store α) (xs : List α) : (s.append xs).var = s.var := by
  unfold append
  split <;> simp_all

@[simp] theorem append_nil (s : Store α) : s.append [] = s := by
  obtain ⟨lists, var⟩ := s
  cases var with
  | none => rfl
  | some r =>
    have hsame : (fun xs : List α => xs ++ []) = id := funext List.append_nil
    simp only [append, hsame, List.modify_id]

@[simp] theorem append_length (s : Store α) (xs : List α) :
    (s.append xs).lists.length = s.lists.length := by
  unfold append
  split <;> simp

theorem append_getElem? (s : Store α) (xs : List α) (r : Nat) :
    (s.append xs).lists[r]? =
      if s.var = some r then s.lists[r]?.map (· ++ xs) else s.lists[r]? := by
  unfold append
  split
  · next i hi =>
    by_cases hr : i = r
    · simp [hi, hr]
    · simp [hi, hr]
  · next hi => simp [hi]

theorem Valid.append {s : Store α} (hs : s.Valid) (xs : List α) : (s.append xs).Valid := by
  intro r hr
  rw [append_var] at hr
  rw [append_length]
  exact hs r hr

theorem Valid.assign {s : Store α} (hs : s.Valid) (xs : Option (List α)) : (s.assign xs).Valid := by
  cases xs with
  | none => exact hs
  | some xs =>
    intro r hr
    cases hr
    simp [Store.assign]

theorem Valid.step {s : Store α} (hs : s.Valid) (op : Op α) : (s.step op).Valid :=
  (hs.assign op.assigned).append op.appended

theorem length_le_step (s : Store α) (op : Op α) : s.lists.length ≤ (s.step op).lists.length := by
  unfold Store.step
  rw [append_length]
  cases op.assigned <;> simp [assign]

/-- A step that assigns leaves the lists there were. -/
theorem step_assigned {s : Store α} {op : Op α} {xs : List α} (hop : op.assigned = some xs)
    {r : Nat} (hr : r < s.lists.length) : (s.step op).lists[r]? = s.lists[r]? := by
  have hne : s.lists.length ≠ r := by omega
  rw [Store.step, append_getElem?, hop]
  simp [assign, hne, List.getElem?_append_left hr]

/-- What a run leaves of a list: the variable's has what is still appended to it. -/
theorem run_lists {s : Store α} (hs : s.Valid) (ops : List (Op α)) {r : Nat}
    (hr : r < s.lists.length) :
    (s.run ops).lists[r]? =
      s.lists[r]?.map (· ++ if s.var = some r then late ops else []) := by
  induction ops generalizing s with
  | nil => simp [late]
  | cons op ops ih =>
    rw [run_cons, ih (hs.step op) (Nat.lt_of_lt_of_le hr (length_le_step s op))]
    cases hop : op.assigned with
    | none =>
      have hvar : (s.step op).var = s.var := by simp [Store.step, hop, assign]
      rw [hvar, Store.step, append_getElem?, hop]
      by_cases hv : s.var = some r
      · simp [assign, hv, late, hop, Function.comp_def]
      · simp [assign, hv]
    | some xs =>
      have hvar : (s.step op).var = some s.lists.length := by simp [Store.step, hop, assign]
      have hne : s.lists.length ≠ r := by omega
      rw [hvar, step_assigned hop hr]
      simp [hne, late, hop]

/-- The variable's list after a step. -/
theorem held_step (s : Store α) (op : Op α) :
    (s.step op).held = (op.assigned.or s.held).map (· ++ op.appended) := by
  unfold held
  rw [Store.step, append_var]
  cases hop : op.assigned with
  | none =>
    cases hv : s.var with
    | none => simp [assign, hv]
    | some r => simp [assign, hv, append_getElem?]
  | some xs => simp [assign, append_getElem?]

/-- The variable's list after a run. -/
theorem held_run {s : Store α} (hs : s.Valid) (ops : List (Op α)) :
    (s.run ops).held = current s.held ops := by
  induction ops generalizing s with
  | nil => rfl
  | cons op ops ih => rw [run_cons, ih (hs.step op), held_step s, current]

/-- The variable's list at last. -/
theorem run_held {s : Store α} (hs : s.Valid) (ops : List (Op α)) :
    s.var.bind ((s.run ops).lists[·]?) = s.held.map (· ++ late ops) := by
  unfold held
  cases hv : s.var with
  | none => rfl
  | some r =>
    rw [Option.bind_some, run_lists hs ops (hs r hv), if_pos hv]
    rfl

/-- **What is seen at last through the references that the steps leave.** -/
theorem refs_seen {s : Store α} (hs : s.Valid) (ops : List (Op α)) :
    (s.refs ops).map (·.bind ((s.run ops).lists[·]?)) = seen (s.held.map (· ++ late ops)) ops := by
  induction ops generalizing s with
  | nil => rfl
  | cons op ops ih =>
    have hstep := hs.step op
    rw [refs, List.map_cons, run_cons, run_held hstep, ih hstep, held_step s, seen]
    cases hop : op.assigned with
    | none => simp [late, hop, Function.comp_def]
    | some xs => simp

end Store

end Shared
