import Disks.Bios.BootOrder
import Mathlib.Data.List.Chain
import Mathlib.Data.List.Induction
import Mathlib.Data.List.Nodup
import Mathlib.Data.List.TakeWhile

/-!
# The collapse of a class in the boot order

The list is iterated over by position while entries are deleted from it, so that the entry behind
one that is deleted is passed over. An entry of the same class there stays.

* `collapse_eq_walk`: the loop over positions as a walk over what is left.
* `count_walk`: how many entries of the class are left.
* `collapse_eq_iff`: when one item collapses its class.
* `boot_order_iff`: **when all items of a configuration do**, and when a machine that satisfies it
  is left alone.
* `third_entry_stays`: three entries of one class.
-/

namespace BiosCfg

/-! ## What is asked for -/

/-- The entries of other classes. -/
def without (c : String) (boot : List Entry) : List Entry :=
  boot.filter fun x => x.device_class ≠ c

/-- Each of the classes as the class alone where its first entry is, and the other entries. -/
def collapsed (classes : List String) : List Entry → List Entry
  | [] => []
  | x :: rest =>
    if x.device_class ∈ classes then
      ⟨x.device_class, none⟩ :: without x.device_class (collapsed classes rest)
    else x :: collapsed classes rest

/-- The classes that are configured alone. -/
def classes (config : List (List String)) : List String :=
  config.filterMap fun item =>
    match item with
    | [device_class] => some device_class
    | _ => none

/-- The entries behind the first of a class. -/
def later (c : String) (boot : List Entry) : List Entry :=
  (boot.dropWhile fun x => x.device_class ≠ c).tail

/-- Behind the first entry of a class, no two of its entries stand side by side. -/
def Loose (c : String) (boot : List Entry) : Prop :=
  (later c boot).IsChain fun x y => ¬ (x.device_class = c ∧ y.device_class = c)

/-! ## The loop as a walk -/

/-- The loop with what it has passed and what is left. -/
def walk (c : String) : Bool → List Entry → List Entry → List Entry
  | _, passed, [] => passed
  | found, passed, x :: rest =>
    if x.device_class = c then
      if found then
        match rest with
        | [] => (passed ++ [x]).erase x
        | y :: rest => walk c found ((passed ++ [x]).erase x ++ [y]) rest
      else walk c true (passed ++ [⟨c, none⟩]) rest
    else walk c found (passed ++ [x]) rest

theorem walk_other {c : String} {x : Entry} (hx : x.device_class ≠ c) (found : Bool)
    (passed rest : List Entry) :
    walk c found passed (x :: rest) = walk c found (passed ++ [x]) rest := by
  cases rest with
  | nil => simp [walk, hx]
  | cons y rest => rw [walk, if_neg hx]

theorem walk_first {c : String} {x : Entry} (hx : x.device_class = c) (passed rest : List Entry) :
    walk c false passed (x :: rest) = walk c true (passed ++ [⟨c, none⟩]) rest := by
  cases rest with
  | nil => simp [walk, hx]
  | cons y rest => rw [walk, if_pos hx, if_neg Bool.false_ne_true]

/-- One of the entries with this value is deleted. -/
theorem erase_perm (passed : List Entry) (x : Entry) :
    ((passed ++ [x]).erase x).Perm passed := by
  have h := (List.perm_append_singleton x passed).erase x
  rwa [List.erase_cons_head] at h

/-- `del boot[ boot.index( x ) ]` -/
theorem eraseIdx_index (passed rest : List Entry) (x : Entry) :
    (passed ++ x :: rest).eraseIdx ((passed ++ x :: rest).idxOf x) =
      (passed ++ [x]).erase x ++ rest := by
  rw [List.eraseIdx_idxOf_eq_erase, List.append_cons, List.erase_append_left _ (by simp)]

/-- The first entry of a class is found where it is. -/
theorem set_index {c : String} {passed : List Entry} (hpassed : ∀ y ∈ passed, y.device_class ≠ c)
    (rest : List Entry) {x : Entry} (hx : x.device_class = c) (z : Entry) :
    (passed ++ x :: rest).set ((passed ++ x :: rest).idxOf x) z = passed ++ z :: rest := by
  have hnot : x ∉ passed := fun h => hpassed x h hx
  rw [List.idxOf_append_of_notMem hnot, List.idxOf_cons_self, Nat.add_zero,
    List.set_append_right _ _ (Nat.le_refl _), Nat.sub_self, List.set_cons_zero]

theorem collapseFrom_end {c : String} {found : Bool} {boot : List Entry} {turns i : Nat}
    (h : boot.length ≤ i) : collapseFrom c turns i found boot = boot := by
  cases turns with
  | zero => rfl
  | succ turns => rw [collapseFrom, List.getElem?_eq_none h]

/-- A turn of the loop, at the first of what is left. -/
theorem collapseFrom_turn (c : String) (turns : Nat) (found : Bool) (passed : List Entry)
    (x : Entry) (rest : List Entry) :
    collapseFrom c (turns + 1) passed.length found (passed ++ x :: rest) =
      if x.device_class = c then
        let index := (passed ++ x :: rest).idxOf x
        if found then
          collapseFrom c turns (passed.length + 1) found ((passed ++ x :: rest).eraseIdx index)
        else
          collapseFrom c turns (passed.length + 1) true
            ((passed ++ x :: rest).set index ⟨x.device_class, none⟩)
      else collapseFrom c turns (passed.length + 1) found (passed ++ x :: rest) := by
  rw [collapseFrom, List.getElem?_append_right (Nat.le_refl _), Nat.sub_self]
  rfl

/-- **The loop over the positions is the walk.** -/
theorem collapseFrom_eq_walk {c : String} {found : Bool} {passed rest : List Entry} {turns : Nat}
    (hturns : rest.length ≤ turns) (hfound : found = false → ∀ x ∈ passed, x.device_class ≠ c) :
    collapseFrom c turns passed.length found (passed ++ rest) = walk c found passed rest := by
  fun_induction walk c found passed rest generalizing turns with
  | case1 found passed =>
    rw [List.append_nil]
    exact collapseFrom_end (Nat.le_refl _)
  | case2 passed x hx =>
    obtain ⟨turns, rfl⟩ := Nat.exists_eq_succ_of_ne_zero (Nat.ne_of_gt hturns)
    rw [collapseFrom_turn, if_pos hx, if_pos rfl, eraseIdx_index, List.append_nil]
    exact collapseFrom_end (by rw [(erase_perm passed x).length_eq]; omega)
  | case3 passed x hx y rest ih =>
    obtain ⟨turns, rfl⟩ : ∃ n, turns = n + 1 := ⟨turns - 1, by simp at hturns; omega⟩
    have hpassed : passed.length + 1 = ((passed ++ [x]).erase x ++ [y]).length := by
      rw [List.length_append, (erase_perm passed x).length_eq, List.length_singleton]
    rw [collapseFrom_turn, if_pos hx, if_pos rfl, eraseIdx_index, List.append_cons, hpassed]
    exact ih (by simp at hturns; omega) fun h => by cases h
  | case4 found passed x rest hx hnot ih =>
    obtain ⟨turns, rfl⟩ : ∃ n, turns = n + 1 := ⟨turns - 1, by simp at hturns; omega⟩
    rw [Bool.not_eq_true] at hnot
    have hpassed : passed.length + 1 = (passed ++ [(⟨c, none⟩ : Entry)]).length := by simp
    rw [collapseFrom_turn, if_pos hx, if_neg (by simp [hnot]), set_index (hfound hnot) _ hx, hx,
      List.append_cons, hpassed]
    exact ih (by simp at hturns; omega) fun h => by cases h
  | case5 found passed x rest hx ih =>
    obtain ⟨turns, rfl⟩ : ∃ n, turns = n + 1 := ⟨turns - 1, by simp at hturns; omega⟩
    have hpassed : passed.length + 1 = (passed ++ [x]).length := by simp
    rw [collapseFrom_turn, if_neg hx, List.append_cons, hpassed]
    refine ih (by simp at hturns; omega) fun hnot y hy => ?_
    rcases List.mem_append.mp hy with hy | hy
    · exact hfound hnot y hy
    · rw [List.mem_singleton.mp hy]
      exact hx

theorem collapse_eq_walk (c : String) (boot : List Entry) :
    collapse boot [c] = walk c false [] boot :=
  have hnone : false = false → ∀ x ∈ ([] : List Entry), x.device_class ≠ c :=
    fun _ _ hx => absurd hx List.not_mem_nil
  collapseFrom_eq_walk (Nat.le_refl _) hnone

/-! ## How many entries are left -/

/-- The entries that the walk passes over, being behind one that is deleted. -/
def spared (c : String) : List Entry → Nat
  | [] => 0
  | x :: rest =>
    if x.device_class = c then
      match rest with
      | [] => 0
      | y :: rest => (if y.device_class = c then 1 else 0) + spared c rest
    else spared c rest

/-- The entries of a class. -/
def entries (c : String) (boot : List Entry) : Nat := boot.countP fun x => x.device_class = c

theorem spared_eq_zero_iff {c : String} {rest : List Entry} :
    spared c rest = 0 ↔ rest.IsChain fun x y => ¬ (x.device_class = c ∧ y.device_class = c) := by
  fun_induction spared c rest with
  | case1 => simp
  | case2 x hx => simp
  | case3 x hx y rest ih =>
    rw [List.isChain_cons_cons]
    by_cases hy : y.device_class = c
    · simp [hx, hy]
    · rw [if_neg hy, Nat.zero_add, ih, List.isChain_cons]
      simp [hy]
  | case4 x rest hx ih =>
    rw [ih, List.isChain_cons]
    simp [hx]

theorem entries_append (c : String) (l m : List Entry) :
    entries c (l ++ m) = entries c l + entries c m :=
  List.countP_append

theorem entries_cons (c : String) (x : Entry) (l : List Entry) :
    entries c (x :: l) = entries c l + if x.device_class = c then 1 else 0 := by
  simp [entries, List.countP_cons]

theorem entries_erase (c : String) (passed : List Entry) (x : Entry) :
    entries c ((passed ++ [x]).erase x) = entries c passed :=
  (erase_perm passed x).countP_eq _

/-- **How many entries of the class are left.** -/
theorem entries_walk {c : String} (passed rest : List Entry) :
    entries c (walk c true passed rest) = entries c passed + spared c rest := by
  fun_induction spared c rest generalizing passed with
  | case1 => rfl
  | case2 x hx =>
    rw [walk, if_pos hx, if_pos rfl]
    exact entries_erase c passed x
  | case3 x hx y rest ih =>
    rw [walk, if_pos hx, if_pos rfl, ih, entries, List.countP_append, ← entries, entries_erase,
      List.countP_singleton]
    by_cases hy : y.device_class = c
    · simp [hy, Nat.add_assoc]
    · simp [hy]
  | case4 x rest hx ih =>
    rw [walk_other hx, ih, entries, List.countP_append, List.countP_singleton]
    simp [hx, entries]

/-- The entries of another class stay. -/
theorem entries_walk_other {c d : String} (hne : d ≠ c) (found : Bool) (passed rest : List Entry) :
    entries d (walk c found passed rest) = entries d passed + entries d rest := by
  fun_induction walk c found passed rest with
  | case1 found passed => simp [entries]
  | case2 passed x hx =>
    rw [entries_erase]
    simp [entries, hx, hne.symm]
  | case3 passed x hx y rest ih =>
    rw [ih, entries, List.countP_append, ← entries, entries_erase]
    simp [entries, hx, hne.symm, List.countP_cons]
    omega
  | case4 found passed x rest hx hnot ih =>
    rw [ih]
    simp [entries, hx, hne.symm]
  | case5 found passed x rest hx ih =>
    rw [ih]
    simp [entries, List.countP_cons]
    omega

/-- An entry with a name is not among those that stay. -/
theorem erase_named {c : String} {passed : List Entry} {x : Entry}
    (hpassed : ∀ y ∈ passed, y.device_class = c → y.name = none) (hx : x.device_class = c)
    (hname : x.name.isSome) : (passed ++ [x]).erase x = passed := by
  have hnot : x ∉ passed := by
    intro hmem
    rw [hpassed x hmem hx] at hname
    cases hname
  rw [List.erase_append_right _ hnot, List.erase_cons_head, List.append_nil]

theorem forall_mem_snoc {p : Entry → Prop} {passed : List Entry} {x : Entry}
    (hpassed : ∀ y ∈ passed, p y) (hx : p x) : ∀ y ∈ passed ++ [x], p y := by
  intro y hy
  rcases List.mem_append.mp hy with hy | hy
  · exact hpassed y hy
  · rw [List.mem_singleton.mp hy]
    exact hx

/-- Where no two entries stand side by side, all are deleted. -/
theorem walk_loose {c : String} {passed rest : List Entry}
    (hchain : rest.IsChain fun x y => ¬ (x.device_class = c ∧ y.device_class = c))
    (hpassed : ∀ x ∈ passed, x.device_class = c → x.name = none)
    (hrest : ∀ x ∈ rest, x.device_class = c → x.name.isSome) :
    walk c true passed rest = passed ++ without c rest := by
  fun_induction spared c rest generalizing passed with
  | case1 => rw [walk, without, List.filter_nil, List.append_nil]
  | case2 x hx =>
    rw [walk, if_pos hx, if_pos rfl]
    simp [erase_named hpassed hx (hrest x (by simp) hx), without, hx]
  | case3 x hx y rest ih =>
    rw [List.isChain_cons_cons] at hchain
    have hy : y.device_class ≠ c := fun hy => hchain.1 ⟨hx, hy⟩
    have hpassed' := forall_mem_snoc hpassed fun h => absurd h hy
    rw [walk, if_pos hx, if_pos rfl, erase_named hpassed hx (hrest x (by simp) hx),
      ih (List.isChain_cons.mp hchain.2).2 hpassed' fun z hz => hrest z (by simp [hz])]
    simp [without, hx, hy]
  | case4 x rest hx ih =>
    have hpassed' := forall_mem_snoc hpassed fun h => absurd h hx
    rw [walk_other hx,
      ih (List.isChain_cons.mp hchain).2 hpassed' fun z hz => hrest z (by simp [hz])]
    simp [without, hx]

/-! ## One class -/

/-- Up to the first entry of a class, if there is one. -/
theorem first_cases (c : String) (boot : List Entry) :
    (∀ x ∈ boot, x.device_class ≠ c) ∨ ∃ before x after, boot = before ++ x :: after ∧
      (∀ y ∈ before, y.device_class ≠ c) ∧ x.device_class = c := by
  induction boot with
  | nil => exact .inl fun x hx => absurd hx List.not_mem_nil
  | cons x boot ih =>
    by_cases hx : x.device_class = c
    · exact .inr ⟨[], x, boot, rfl, fun y hy => absurd hy List.not_mem_nil, hx⟩
    · rcases ih with h | ⟨before, y, after, rfl, hbefore, hy⟩
      · exact .inl (List.forall_mem_cons.mpr ⟨hx, h⟩)
      · exact .inr ⟨x :: before, y, after, rfl, List.forall_mem_cons.mpr ⟨hx, hbefore⟩, hy⟩

theorem later_none {c : String} {boot : List Entry} (h : ∀ x ∈ boot, x.device_class ≠ c) :
    later c boot = [] := by
  have hall : boot.dropWhile (fun x => x.device_class ≠ c) = [] :=
    List.dropWhile_eq_nil_iff.mpr fun x hx => decide_eq_true (h x hx)
  rw [later, hall, List.tail_nil]

theorem later_split {c : String} {before after : List Entry} {x : Entry}
    (hbefore : ∀ y ∈ before, y.device_class ≠ c) (hx : x.device_class = c) :
    later c (before ++ x :: after) = after := by
  rw [later, List.dropWhile_append_of_pos fun y hy => decide_eq_true (hbefore y hy),
    List.dropWhile_cons_of_neg (by simp [hx]), List.tail_cons]

theorem walk_none {c : String} {boot : List Entry} (h : ∀ x ∈ boot, x.device_class ≠ c)
    (passed : List Entry) : walk c false passed boot = passed ++ boot := by
  induction boot generalizing passed with
  | nil => rw [walk, List.append_nil]
  | cons x boot ih =>
    obtain ⟨hx, h⟩ := List.forall_mem_cons.mp h
    rw [walk_other hx, ih h, List.append_assoc, List.singleton_append]

theorem walk_split {c : String} {before : List Entry} (hbefore : ∀ y ∈ before, y.device_class ≠ c)
    (passed rest : List Entry) :
    walk c false passed (before ++ rest) = walk c false (passed ++ before) rest := by
  induction before generalizing passed with
  | nil => rw [List.nil_append, List.append_nil]
  | cons x before ih =>
    obtain ⟨hx, hbefore⟩ := List.forall_mem_cons.mp hbefore
    rw [List.cons_append, walk_other hx, ih hbefore, List.append_assoc, List.singleton_append]

theorem collapse_none {c : String} {boot : List Entry} (h : ∀ x ∈ boot, x.device_class ≠ c) :
    collapse boot [c] = boot := by
  rw [collapse_eq_walk, walk_none h, List.nil_append]

theorem collapse_split {c : String} {before after : List Entry} {x : Entry}
    (hbefore : ∀ y ∈ before, y.device_class ≠ c) (hx : x.device_class = c) :
    collapse (before ++ x :: after) [c] = walk c true (before ++ [⟨c, none⟩]) after := by
  rw [collapse_eq_walk, walk_split hbefore, List.nil_append, walk_first hx]

/-! ## The list that is asked for -/

theorem collapsed_none {cs : List String} {boot : List Entry}
    (h : ∀ x ∈ boot, x.device_class ∉ cs) : collapsed cs boot = boot := by
  induction boot with
  | nil => rfl
  | cons x boot ih =>
    obtain ⟨hx, h⟩ := List.forall_mem_cons.mp h
    rw [collapsed, if_neg hx, ih h]

theorem without_cons (d : String) (x : Entry) (boot : List Entry) :
    without d (x :: boot) = if x.device_class = d then without d boot else x :: without d boot := by
  by_cases hx : x.device_class = d
  · simp [without, hx]
  · simp [without, hx]

theorem without_comm (c d : String) (boot : List Entry) :
    without c (without d boot) = without d (without c boot) := by
  simp only [without, List.filter_filter, Bool.and_comm]

theorem without_self (c : String) (boot : List Entry) :
    without c (without c boot) = without c boot := by
  simp [without]

theorem without_collapsed (cs : List String) (d : String) (boot : List Entry) :
    without d (collapsed cs boot) = collapsed cs (without d boot) := by
  induction boot with
  | nil => rfl
  | cons x boot ih =>
    rw [collapsed, without_cons]
    by_cases hd : x.device_class = d
    · rw [if_pos hd, ← ih]
      by_cases hx : x.device_class ∈ cs
      · rw [if_pos hx, without_cons, if_pos hd, hd, without_self]
      · rw [if_neg hx, without_cons, if_pos hd]
    · rw [if_neg hd, collapsed, ← ih]
      by_cases hx : x.device_class ∈ cs
      · rw [if_pos hx, if_pos hx, without_cons, if_neg hd, without_comm]
      · rw [if_neg hx, if_neg hx, without_cons, if_neg hd]

/-- One class after the others. -/
theorem collapsed_snoc (cs : List String) (c : String) (boot : List Entry) :
    collapsed (cs ++ [c]) boot = collapsed [c] (collapsed cs boot) := by
  induction boot with
  | nil => rfl
  | cons x boot ih =>
    rw [collapsed, collapsed]
    by_cases hx : x.device_class ∈ cs
    · rw [if_pos (List.mem_append_left _ hx), if_pos hx, collapsed, ih, ← without_collapsed]
      by_cases hc : x.device_class ∈ [c]
      · rw [if_pos hc, without_self]
      · rw [if_neg hc]
    · rw [if_neg hx, collapsed, ih]
      by_cases hc : x.device_class ∈ [c]
      · rw [if_pos (List.mem_append_right _ hc), if_pos hc]
      · have hnot : x.device_class ∉ cs ++ [c] := by
          rw [List.mem_append, not_or]
          exact ⟨hx, hc⟩
        rw [if_neg hnot, if_neg hc]

theorem collapsed_congr {cs ds : List String} (h : ∀ c, c ∈ cs ↔ c ∈ ds) (boot : List Entry) :
    collapsed cs boot = collapsed ds boot := by
  induction boot with
  | nil => rfl
  | cons x boot ih => simp only [collapsed, h, ih]

theorem collapsed_split {c : String} {before after : List Entry} {x : Entry}
    (hbefore : ∀ y ∈ before, y.device_class ≠ c) (hx : x.device_class = c) :
    collapsed [c] (before ++ x :: after) = before ++ ⟨c, none⟩ :: without c after := by
  induction before with
  | nil =>
    have hafter : collapsed [c] (without c after) = without c after := by
      refine collapsed_none fun y hy => ?_
      rw [List.mem_singleton]
      exact of_decide_eq_true (List.mem_filter.mp hy).2
    rw [List.nil_append, collapsed, if_pos (List.mem_singleton.mpr hx), hx, without_collapsed,
      hafter, List.nil_append]
  | cons y before ih =>
    obtain ⟨hy, hbefore⟩ := List.forall_mem_cons.mp hbefore
    have hnot : y.device_class ∉ [c] := by rwa [List.mem_singleton]
    rw [List.cons_append, collapsed, if_neg hnot, ih hbefore, List.cons_append]

/-- Where a class has been collapsed, it has no later entries. -/
theorem later_collapsed {cs : List String} {c : String} (hc : c ∈ cs) (boot : List Entry) :
    ∀ x ∈ later c (collapsed cs boot), x.device_class ≠ c := by
  have hfix : collapsed [c] (collapsed cs boot) = collapsed cs boot := by
    rw [← collapsed_snoc]
    refine collapsed_congr (fun d => ?_) boot
    rw [List.mem_append, List.mem_singleton]
    exact or_iff_left_of_imp fun hd => hd ▸ hc
  rcases first_cases c (collapsed cs boot) with hnone | ⟨before, x, after, hsplit, hbefore, hx⟩
  · rw [later_none hnone]
    exact fun x hx => absurd hx List.not_mem_nil
  · rw [hsplit, collapsed_split hbefore hx] at hfix
    have hafter : without c after = after :=
      (List.cons.inj (List.append_cancel_left_eq .. ▸ hfix)).2
    rw [hsplit, later_split hbefore hx, ← hafter]
    exact fun y hy => of_decide_eq_true (List.mem_filter.mp hy).2

theorem entries_eq_zero {c : String} {boot : List Entry} (h : ∀ x ∈ boot, x.device_class ≠ c) :
    entries c boot = 0 :=
  List.countP_eq_zero.mpr fun x hx hxc => h x hx (of_decide_eq_true hxc)

theorem entries_collapsed_le {cs : List String} {c : String} (hc : c ∈ cs) (boot : List Entry) :
    entries c (collapsed cs boot) ≤ 1 := by
  have hlater := later_collapsed hc boot
  rcases first_cases c (collapsed cs boot) with hnone | ⟨before, x, after, hsplit, hbefore, hx⟩
  · rw [entries_eq_zero hnone]
    exact Nat.zero_le 1
  · rw [hsplit, later_split hbefore hx] at hlater
    rw [hsplit, entries_append, entries_eq_zero hbefore, entries_cons, entries_eq_zero hlater,
      if_pos hx]

/-- What is passed over is left. -/
theorem entries_collapse_le_iff (c : String) (boot : List Entry) :
    entries c (collapse boot [c]) ≤ 1 ↔ Loose c boot := by
  rcases first_cases c boot with hnone | ⟨before, x, after, rfl, hbefore, hx⟩
  · rw [Loose, collapse_none hnone, later_none hnone, entries_eq_zero hnone]
    exact iff_of_true (Nat.zero_le 1) .nil
  · rw [Loose, collapse_split hbefore hx, later_split hbefore hx, entries_walk, entries_append,
      entries_eq_zero hbefore, entries_cons, if_pos rfl, ← spared_eq_zero_iff, entries,
      List.countP_nil]
    omega

/-- **When one item collapses its class.** -/
theorem collapse_eq_iff {c : String} {boot : List Entry}
    (hnamed : ∀ x ∈ later c boot, x.device_class = c → x.name.isSome) :
    collapse boot [c] = collapsed [c] boot ↔ Loose c boot := by
  constructor
  · intro h
    rw [← entries_collapse_le_iff, h]
    exact entries_collapsed_le (List.mem_singleton_self c) boot
  · intro hchain
    rcases first_cases c boot with hnone | ⟨before, x, after, rfl, hbefore, hx⟩
    · rw [collapse_none hnone, collapsed_none]
      exact fun x hx hxc => hnone x hx (List.mem_singleton.mp hxc)
    · rw [later_split hbefore hx] at hnamed
      rw [Loose, later_split hbefore hx] at hchain
      rw [collapse_split hbefore hx, collapsed_split hbefore hx, walk_loose hchain _ hnamed,
        List.append_assoc, List.singleton_append]
      exact forall_mem_snoc (fun y hy hyc => absurd hyc (hbefore y hy)) fun _ => rfl

/-! ## A configuration -/

theorem mem_collapsed {cs : List String} {boot : List Entry} {x : Entry}
    (h : x ∈ collapsed cs boot) : x ∈ boot ∨ x.device_class ∈ cs := by
  induction boot with
  | nil => exact .inl h
  | cons y boot ih =>
    rw [collapsed] at h
    by_cases hy : y.device_class ∈ cs
    · rw [if_pos hy] at h
      rcases List.mem_cons.mp h with rfl | h
      · exact .inr hy
      · exact (ih (List.mem_filter.mp h).1).imp_left (List.mem_cons_of_mem _)
    · rw [if_neg hy] at h
      rcases List.mem_cons.mp h with rfl | h
      · exact .inl (List.mem_cons_self ..)
      · exact (ih h).imp_left (List.mem_cons_of_mem _)

/-- Behind the first entry of a class, its entries are those that the machine gave. -/
theorem later_named (cs : List String) (c : String) (entries : List (String × String)) :
    ∀ x ∈ later c (collapsed cs (getBoot entries)), x.device_class = c → x.name.isSome := by
  intro x hx hxc
  have hmem : x ∈ collapsed cs (getBoot entries) :=
    (List.dropWhile_suffix _).subset (List.mem_of_mem_tail hx)
  rcases mem_collapsed hmem with h | h
  · obtain ⟨entry, -, rfl⟩ := List.mem_map.mp h
    rfl
  · rw [hxc] at h
    exact absurd hxc (later_collapsed h _ x hx)

/-- Whenever an item of the configuration is collapsed, its class is loose in what the items before
it have made of the boot order. -/
def Spread (config : List (List String)) (entries : List (String × String)) : Prop :=
  ∀ items c, items ++ [[c]] <+: config → Loose c (collapsed (classes items) (getBoot entries))

theorem collapseAll_snoc (items : List (List String)) (item : List String) (boot : List Entry) :
    collapseAll (items ++ [item]) boot = collapse (collapseAll items boot) item := by
  rw [collapseAll, List.foldl_append]
  rfl

theorem classes_append (items items' : List (List String)) :
    classes (items ++ items') = classes items ++ classes items' :=
  List.filterMap_append

/-- A step of the loop over the configuration. -/
theorem collapse_collapsed (items : List (List String)) (item : List String)
    (entries : List (String × String)) :
    collapse (collapsed (classes items) (getBoot entries)) item =
        collapsed (classes (items ++ [item])) (getBoot entries) ↔
      ∀ c, item = [c] → Loose c (collapsed (classes items) (getBoot entries)) := by
  rw [classes_append]
  rcases item with _ | ⟨c, _ | ⟨d, rest⟩⟩
  · have hnone : classes [[]] = [] := rfl
    rw [hnone, List.append_nil]
    exact iff_of_true rfl fun c hc => by cases hc
  · have hone : classes [[c]] = [c] := rfl
    rw [hone, collapsed_snoc, collapse_eq_iff (later_named _ _ _)]
    exact ⟨fun h d hd => (List.singleton_inj.mp hd) ▸ h, fun h => h c rfl⟩
  · have hnone : classes [c :: d :: rest] = [] := rfl
    rw [hnone, List.append_nil]
    exact iff_of_true rfl fun c hc => by cases hc

/-- **When all items of a configuration collapse their classes.** -/
theorem collapseAll_collapsed_iff (config : List (List String)) (entries : List (String × String)) :
    (∀ items, items <+: config →
        collapseAll items (getBoot entries) = collapsed (classes items) (getBoot entries)) ↔
      Spread config entries := by
  constructor
  · intro h items c hitems
    have hstep := h _ hitems
    rw [collapseAll_snoc, h items ((List.prefix_append ..).trans hitems)] at hstep
    exact (collapse_collapsed items [c] entries).mp hstep c rfl
  · intro h items
    induction items using List.reverseRecOn with
    | nil => exact fun _ => (collapsed_none fun x _ => List.not_mem_nil).symm
    | append_singleton items item ih =>
      intro hitems
      rw [collapseAll_snoc, ih ((List.prefix_append ..).trans hitems), collapse_collapsed]
      exact fun c hc => h items c (hc ▸ hitems)

/-! ## A machine that satisfies its configuration -/

/-- The boot order is the one configured, each class that is configured alone taken as one entry. -/
def Satisfied (config : List (List String)) (entries : List (String × String)) : Prop :=
  (collapsed (classes config) (getBoot entries)).map Entry.asList = config

instance (config : List (List String)) (entries : List (String × String)) :
    Decidable (Satisfied config entries) :=
  inferInstanceAs (Decidable (_ = _))

theorem asList_injective {x y : Entry} (h : x.asList = y.asList) : x = y := by
  obtain ⟨c, name⟩ := x
  obtain ⟨d, name'⟩ := y
  obtain ⟨hc, hname⟩ := List.cons.inj h
  cases hc
  cases name with
  | none =>
    cases name' with
    | none => rfl
    | some m => cases hname
  | some n =>
    cases name' with
    | none => cases hname
    | some m =>
      cases hname
      rfl

theorem entries_collapse_other {c : String} {item : List String} (h : c ∉ classes [item])
    (boot : List Entry) : entries c (collapse boot item) = entries c boot := by
  rcases item with _ | ⟨d, _ | ⟨e, rest⟩⟩
  · rfl
  · have hne : c ≠ d := fun hcd => h (hcd ▸ List.mem_singleton_self c)
    rw [collapse_eq_walk, entries_walk_other hne, entries, List.countP_nil, Nat.zero_add]
  · rfl

theorem entries_foldl_other {c : String} {items : List (List String)} (h : c ∉ classes items)
    (boot : List Entry) : entries c (items.foldl collapse boot) = entries c boot := by
  induction items generalizing boot with
  | nil => rfl
  | cons item items ih =>
    rw [← List.singleton_append, classes_append, List.mem_append, not_or] at h
    rw [List.foldl_cons, ih h.2, entries_collapse_other h.1]

/-- An entry that is configured alone is alone. -/
theorem count_classes_le (c : String) (boot : List Entry) :
    (classes (boot.map Entry.asList)).count c ≤ entries c boot := by
  induction boot with
  | nil => exact Nat.le_refl 0
  | cons x boot ih =>
    have hone : (classes [x.asList]).count c ≤ if x.device_class = c then 1 else 0 := by
      obtain ⟨d, name⟩ := x
      cases name with
      | none => simp [classes, Entry.asList, List.count_singleton]
      | some n => simp [classes, Entry.asList]
    rw [List.map_cons, ← List.singleton_append, classes_append, List.count_append, entries_cons]
    omega

theorem classes_nodup {config : List (List String)} {entries : List (String × String)}
    (h : Satisfied config entries) : (classes config).Nodup := by
  rw [List.nodup_iff_count_le_one]
  intro c
  by_cases hc : c ∈ classes config
  · calc (classes config).count c
        = (classes ((collapsed (classes config) (getBoot entries)).map Entry.asList)).count c :=
          congrArg (fun l => (classes l).count c) h.symm
      _ ≤ BiosCfg.entries c (collapsed (classes config) (getBoot entries)) := count_classes_le ..
      _ ≤ 1 := entries_collapsed_le hc _
  · rw [List.count_eq_zero_of_not_mem hc]
    exact Nat.zero_le 1

/-- No class that is named once is collapsed again, so what is left of it is left in the end. -/
theorem spread_of_collapsed {config : List (List String)} {entries : List (String × String)}
    (hnodup : (classes config).Nodup)
    (h : collapseAll config (getBoot entries) = collapsed (classes config) (getBoot entries)) :
    Spread config entries := by
  rw [← collapseAll_collapsed_iff]
  intro items
  induction items using List.reverseRecOn with
  | nil => exact fun _ => (collapsed_none fun x _ => List.not_mem_nil).symm
  | append_singleton items item ih =>
    intro hitems
    rw [collapseAll_snoc, ih ((List.prefix_append ..).trans hitems), collapse_collapsed]
    rintro c rfl
    obtain ⟨rest, rfl⟩ := hitems
    have hone : classes [[c]] = [c] := rfl
    rw [classes_append, classes_append, hone] at hnodup
    have hrest : c ∉ classes rest := fun hc =>
      (List.nodup_append.mp hnodup).2.2 c (by simp) c hc rfl
    have hmem : c ∈ classes (items ++ [[c]] ++ rest) := by
      rw [classes_append, classes_append, hone]
      simp
    rw [← entries_collapse_le_iff, ← ih ⟨[[c]] ++ rest, by simp⟩, ← collapseAll_snoc,
      ← entries_foldl_other hrest, collapseAll, ← List.foldl_append]
    exact (congrArg (BiosCfg.entries c) h).trans_le (entries_collapsed_le hmem _)

/-- **When the items of a configuration collapse their classes**: after each item, every class
configured so far is the class alone where its first entry was, and the other entries are as they
were. A machine that satisfies its configuration is left alone exactly then. -/
theorem boot_order_iff (config : List (List String)) (entries : List (String × String)) :
    ((∀ items, items <+: config →
        collapseAll items (getBoot entries) = collapsed (classes items) (getBoot entries)) ↔
      Spread config entries) ∧
    (Satisfied config entries → (reprogrammed config entries = false ↔ Spread config entries)) := by
  refine ⟨collapseAll_collapsed_iff config entries, fun hsatisfied => ?_⟩
  rw [reprogrammed, decide_eq_false_iff_not, not_and_not_right]
  constructor
  · intro h
    by_cases hempty : config = []
    · rintro items c ⟨rest, hrest⟩
      rw [hempty] at hrest
      simp at hrest
    · refine spread_of_collapsed (classes_nodup hsatisfied) ?_
      exact List.map_injective_iff.mpr (fun x y => asList_injective)
        ((h hempty).trans hsatisfied.symm)
  · intro h hempty
    rw [(collapseAll_collapsed_iff config entries).mpr h config (List.prefix_refl config)]
    exact hsatisfied

/-- Three entries of one class, in a machine that satisfies its configuration. -/
theorem third_entry_stays :
    Satisfied [["Harddrive"]] [("Harddrive", "a"), ("Harddrive", "b"), ("Harddrive", "c")] ∧
      collapseAll [["Harddrive"]]
          (getBoot [("Harddrive", "a"), ("Harddrive", "b"), ("Harddrive", "c")]) =
        [⟨"Harddrive", none⟩, ⟨"Harddrive", some "c"⟩] ∧
      reprogrammed [["Harddrive"]]
        [("Harddrive", "a"), ("Harddrive", "b"), ("Harddrive", "c")] = true := by
  decide

end BiosCfg
