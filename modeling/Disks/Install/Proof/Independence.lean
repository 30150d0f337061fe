import Disks.Install.Proof.Scope

/-!
# Whether the items of a recipe are independent

The variable `mount_options` of `partition` keeps its list where an item says `defaults`, and
`discard` is appended to the list, not to the entry: the entries from an item that assigns the
variable up to the next such item share one list. The variable `priority` is assigned by the items
with `target` only.

* `produced_eq`: the entries of a run, each with its item, by the recipe (`sharing`).
* `same_iff`: two runs show the same of a common item exactly when it shares the same options in
  both, and inherits the same priority (`Alike`).
* `independent_iff`: **two runs show the same of common items, and of each item what it gives
  itself, exactly when no item inherits** (`SelfContained`).
* `defaults_leak`: two recipes that differ in an earlier item only.
-/

namespace Filesystem

open Fold

/-! ## What is asked about -/

/-- What an entry shows: its type, its options at the end of the run, the priority of a swap, and
the options for `mkfs`. -/
structure Shown where
  type : String
  mount_options : Option (List String)
  priority : Option Int
  mkfs_options : Option String
deriving DecidableEq

def shown (lists : List (List String)) (l : Line) : Shown :=
  ⟨l.type, l.mount_options.bind (lists[·]?), l.priority, l.mkfs_options⟩

instance (c : Settings) : Decidable (NoVolumes c) :=
  inferInstanceAs (Decidable (∀ i ∈ c.recipe, _ → _))

/-- The volume that gets an entry. -/
def lastVolume (c : Settings) : List (Kind × Item) :=
  if NoVolumes c then []
  else
    match (lvs c.recipe).getLast? with
    | some i => if i.mkfs_options.isSome then [] else [(.lv, i)]
    | none => []

/-- The items that get an entry, in the order of the entries. -/
def producers (c : Settings) : List (Kind × Item) :=
  ((work c.recipe).filter fun w => role c w.1 w.2 ≠ .none) ++ lastVolume c

/-- The reservations for the boot loader have entries of their own. -/
def reserved (c : Settings) (boot_drives : List String) : Nat :=
  if c.partition_type = "gpt" then boot_drives.length else 0

/-- The items with what their entries show. -/
def produced (c : Settings) (boot_drives : List String) (s : Locals) :
    List ((Kind × Item) × Shown) :=
  (producers c).zip
    ((s.filesystem_list.drop (reserved c boot_drives)).map fun e => shown s.lists e.line)

/-- Whether the drives an item is on can trim. -/
def capable (m : Machine) (c : Settings) (w : Kind × Item) : Bool :=
  match w.1 with
  | .lv => w.2.lv.any fun id => (groupDrives m c "pv" id).all (·.supportsTrim)
  | kind => trims m c kind w.2

/-- **A common item, on drives with the same capabilities, shows the same in two runs.** -/
def Independent (m : Machine) (c : Settings) (boot_drives : List String) (s : Locals)
    (m' : Machine) (c' : Settings) (boot_drives' : List String) (s' : Locals) : Prop :=
  ∀ w x x', (w, x) ∈ produced c boot_drives s → (w, x') ∈ produced c' boot_drives' s' →
    capable m c w = capable m' c' w → x = x'

/-- What an item becomes, the last volume included. -/
def becomes (c : Settings) (w : Kind × Item) : Role :=
  if w.1 = .lv then if partType c .lv w.2 = "swap" then .swap else .mounted
  else role c w.1 w.2

/-- The options that an item assigns itself, with what is added for its entry. -/
def ownOptions (c : Settings) (supportsTrim : Bool) (w : Kind × Item) : Option (List String) :=
  (own c w.2).map (· ++
    if becomes c w = .mounted ∧ w.1 ≠ .bcache then trimmed supportsTrim (partType c w.1 w.2)
    else [])

/-- The priority of the line of an item. -/
def linePriority (inherited : Option Int) (w : Kind × Item) : Option Int :=
  if w.1 = .target then some (w.2.priority.getD 0) else inherited

/-- **Nothing leaks from one entry to another**: each entry is that of an item, with the options
that this item assigns and those that are added for this entry, and no more; a swap has the priority
that its item assigns. -/
structure OwnEntries (m : Machine) (c : Settings) (boot_drives : List String) (s : Locals) :
    Prop where
  entries : (s.filesystem_list.drop (reserved c boot_drives)).length = (producers c).length
  options : ∀ w x, (w, x) ∈ produced c boot_drives s → becomes c w = .mounted →
    ∃ options, ownOptions c (capable m c w) w = some options ∧ x.mount_options = some options
  priority : ∀ w x, (w, x) ∈ produced c boot_drives s → becomes c w = .swap →
    ∃ priority, linePriority none w = some priority ∧ x.priority = some priority

/-! ## What it depends on -/

/-- What an item does to the options. -/
def itemOp (m : Machine) (c : Settings) (w : Kind × Item) : Shared.Op String :=
  op c w.1 (trims m c w.1 w.2) w.2

/-- What is done to the options after the last volume. -/
def lastOp (m : Machine) (c : Settings) : Shared.Op String where
  assigned := none
  appended :=
    match lastItem c.recipe, lastType c with
    | some i, some t =>
      if i.mkfs_options.isSome ∨ t = "swap" then [] else trimmed (volumeTrims m c) t
    | _, _ => []

/-- What a recipe does to the options. -/
def ops (m : Machine) (c : Settings) : List (Shared.Op String) :=
  (work c.recipe).map (itemOp m c) ++
    if NoVolumes c then []
    else (lvs c.recipe).map (fun i => itemOp m c (.lv, i)) ++ [lastOp m c]

/-- The items that get an entry, with the options that the entry shares: those of the last item up
to it that assigns some, and all that is appended until the next such item. -/
def sharing (m : Machine) (c : Settings) : List ((Kind × Item) × Option (List String)) :=
  (((work c.recipe).zip (Shared.seen none (ops m c))).filter fun x =>
    role c x.1.1 x.1.2 ≠ .none) ++
    (lastVolume c).map fun w => (w, Shared.current none (ops m c))

/-- The priority that the last item with `target` leaves. -/
def lastPriority (recipe : List Item) : Option Int :=
  (recipe.filter (·.target.isSome)).getLast?.map fun i => i.priority.getD 0

/-- Common items, on drives with the same capabilities, share the same options where they are
mounted; and where they are swaps of the later loops, the last items with `target` have the same
priority. -/
def Alike (m : Machine) (c : Settings) (m' : Machine) (c' : Settings) : Prop :=
  ∀ w o o', (w, o) ∈ sharing m c → (w, o') ∈ sharing m' c' → capable m c w = capable m' c' w →
    (becomes c w = .mounted → o = o') ∧
      (becomes c w = .swap → w.1 ≠ .target → lastPriority c.recipe = lastPriority c'.recipe)

/-- **No item inherits anything**: one that is mounted does not say `defaults`, what is made for the
volumes is made for a volume (or, with `mkfs_options`, not at all), and no array, `bcache` device or
volume is a swap. -/
structure SelfContained (c : Settings) : Prop where
  assigned : ∀ w ∈ producers c, becomes c w = .mounted → w.2.mount_options ≠ some "defaults"
  volumes : NoVolumes c ∨ lvs c.recipe ≠ [] ∨ (lastItem c.recipe).all (·.mkfs_options.isSome)
  swaps : ∀ w ∈ producers c, becomes c w = .swap → w.1 = .target

theorem selfContained_iff (c : Settings) : SelfContained c ↔
    (∀ w ∈ producers c, becomes c w = .mounted → w.2.mount_options ≠ some "defaults") ∧
      (NoVolumes c ∨ lvs c.recipe ≠ [] ∨ (lastItem c.recipe).all (·.mkfs_options.isSome)) ∧
      ∀ w ∈ producers c, becomes c w = .swap → w.1 = .target :=
  ⟨fun h => ⟨h.assigned, h.volumes, h.swaps⟩, fun h => ⟨h.1, h.2.1, h.2.2⟩⟩

instance (c : Settings) : Decidable (SelfContained c) :=
  decidable_of_iff _ (selfContained_iff c).symm

/-! ## The lines of a run -/

theorem run_store (m : Machine) (c : Settings) (items : List (Kind × Item)) (v : Scope) :
    (v.run m c items).store = v.store.run (items.map (itemOp m c)) := by
  induction items generalizing v with
  | nil => rfl
  | cons w items ih => exact ih _

/-- The lines of a run, where the priority is inherited from before. -/
theorem run_lines (m : Machine) (c : Settings) (items : List (Kind × Item)) (v : Scope)
    (inherited : Option Int)
    (h : (∀ w ∈ items, w.1 = .target) ∨ ((∀ w ∈ items, w.1 ≠ .target) ∧ v.priority = inherited)) :
    (v.run m c items).lines = v.lines ++
      (items.zip (v.store.refs (items.map (itemOp m c)))).flatMap fun x =>
        line c x.1.1 x.1.2 x.2 (linePriority inherited x.1) := by
  induction items generalizing v with
  | nil => simp [Scope.run]
  | cons w items ih =>
    have hrest : (∀ w ∈ items, w.1 = .target) ∨ ((∀ w ∈ items, w.1 ≠ .target) ∧
        (v.turn c w.1 (trims m c w.1 w.2) w.2).priority = inherited) := by
      obtain h | ⟨h, hpriority⟩ := h
      · exact .inl fun w' hw' => h w' (List.mem_cons_of_mem _ hw')
      · refine .inr ⟨fun w' hw' => h w' (List.mem_cons_of_mem _ hw'), ?_⟩
        simp [Scope.turn, h w (List.mem_cons_self ..), hpriority]
    have hpriority : (if w.1 = .target then some (w.2.priority.getD 0) else v.priority) =
        linePriority inherited w := by
      unfold linePriority
      obtain h | ⟨h, hpriority⟩ := h
      · simp [h w (List.mem_cons_self ..)]
      · rw [hpriority]
    have hih := ih (v.turn c w.1 (trims m c w.1 w.2) w.2) hrest
    show ((v.turn c w.1 (trims m c w.1 w.2) w.2).run m c items).lines = _
    rw [hih, List.map_cons, Shared.Store.refs, List.zip_cons_cons, List.flatMap_cons,
      ← List.append_assoc, ← hpriority]
    rfl

/-- The work for the partitions, and what follows. -/
def targetWork (recipe : List Item) : List (Kind × Item) :=
  (recipe.filter (·.target.isSome)).map (Kind.target, ·)

def laterWork (recipe : List Item) : List (Kind × Item) :=
  (recipe.filter (·.md.isSome)).map (Kind.md, ·) ++
    (recipe.filter (·.bcache.isSome)).map (Kind.bcache, ·)

theorem work_eq (recipe : List Item) : work recipe = targetWork recipe ++ laterWork recipe :=
  List.append_assoc ..

theorem targetWork_kind {recipe : List Item} {w : Kind × Item} (hw : w ∈ targetWork recipe) :
    w.1 = .target := by
  obtain ⟨i, -, rfl⟩ := List.mem_map.mp hw
  rfl

theorem laterWork_kind {recipe : List Item} {w : Kind × Item} (hw : w ∈ laterWork recipe) :
    w.1 = .md ∨ w.1 = .bcache := by
  obtain hw | hw := List.mem_append.mp hw
  · obtain ⟨i, -, rfl⟩ := List.mem_map.mp hw
    exact .inl rfl
  · obtain ⟨i, -, rfl⟩ := List.mem_map.mp hw
    exact .inr rfl

/-- The items with `target` leave the priority of the last one. -/
theorem targetWork_priority (m : Machine) (c : Settings) {v : Scope} (hv : v.priority = none) :
    (v.run m c (targetWork c.recipe)).priority = lastPriority c.recipe := by
  rw [Scope.run, targetWork, List.foldl_map, foldl_last Scope.priority
    (g := fun i => some (i.priority.getD 0)) (fun _ _ => rfl), hv, lastPriority]
  cases (c.recipe.filter (·.target.isSome)).getLast? <;> rfl

/-- The lines of all the items. -/
theorem work_lines (m : Machine) (c : Settings) {v : Scope} (hv : v.priority = none) :
    (v.run m c (work c.recipe)).lines = v.lines ++
      ((work c.recipe).zip (v.store.refs ((work c.recipe).map (itemOp m c)))).flatMap fun x =>
        line c x.1.1 x.1.2 x.2 (linePriority (lastPriority c.recipe) x.1) := by
  have htargets := run_lines m c (targetWork c.recipe) v (lastPriority c.recipe)
    (.inl fun _ => targetWork_kind)
  have hlater := run_lines m c (laterWork c.recipe) (v.run m c (targetWork c.recipe))
    (lastPriority c.recipe) (.inr ⟨fun w hw => by
      obtain h | h := laterWork_kind hw <;> simp [h], targetWork_priority m c hv⟩)
  rw [work_eq, run_append, hlater, htargets, run_store, List.map_append,
    Shared.Store.refs_append, List.zip_append (by simp [Shared.Store.length_refs]),
    List.flatMap_append, List.append_assoc]

/-- What a common item shows, by the recipe: no more than its type and its own options, the list
that it shares, and the priority that it inherits. -/
def shows (c : Settings) (x : (Kind × Item) × Option (List String)) : Shown :=
  let part_type := partType c x.1.1 x.1.2
  match becomes c x.1 with
  | .none => ⟨"", none, none, none⟩
  | .swap => ⟨"swap", none, linePriority (lastPriority c.recipe) x.1,
      some (mkfsOptions c part_type x.1.2)⟩
  | .mounted => ⟨if x.1.1 = .lv then c.fs_type else part_type, x.2, none,
      if x.1.1 = .bcache then none else some (mkfsOptions c part_type x.1.2)⟩

theorem work_kind {recipe : List Item} {w : Kind × Item} (hw : w ∈ work recipe) : w.1 ≠ .lv := by
  rw [work_eq] at hw
  obtain hw | hw := List.mem_append.mp hw
  · rw [targetWork_kind hw]
    exact Kind.noConfusion
  · obtain h | h := laterWork_kind hw <;> rw [h] <;> exact Kind.noConfusion

/-- A line of an item, as it is shown. -/
theorem line_shown (c : Settings) {w : Kind × Item} (hw : w.1 ≠ .lv) (r : Option Nat)
    (lists : List (List String)) :
    (line c w.1 w.2 r (linePriority (lastPriority c.recipe) w)).map (shown lists) =
      if role c w.1 w.2 ≠ .none then [shows c (w, r.bind (lists[·]?))] else [] := by
  have hbecomes : becomes c w = role c w.1 w.2 := if_neg hw
  unfold line shows
  simp only [hbecomes, hw, if_false]
  cases role c w.1 w.2 <;> simp [shown]

theorem zip_append_right {α β : Type} {xs : List α} {ys : List β} (zs : List β)
    (h : xs.length = ys.length) : xs.zip (ys ++ zs) = xs.zip ys := by
  rw [← List.append_nil xs, List.zip_append h, List.zip_nil_left, List.append_nil, List.append_nil]

/-- Each item of a list with what it makes, where those that make something make one thing. -/
theorem zip_flatMap {α β γ : Type} {p : α → Bool} {f : α × β → List γ} {g : α × β → γ}
    (xs : List (α × β)) (h : ∀ x ∈ xs, f x = if p x.1 then [g x] else []) :
    ((xs.map (·.1)).filter p).length = (xs.flatMap f).length ∧
      ((xs.map (·.1)).filter p).zip (xs.flatMap f) =
        (xs.filter fun x => p x.1).map fun x => (x.1, g x) := by
  induction xs with
  | nil => exact ⟨rfl, rfl⟩
  | cons x xs ih =>
    have hx := h x (List.mem_cons_self ..)
    have hxs := ih fun y hy => h y (List.mem_cons_of_mem _ hy)
    by_cases hp : p x.1
    · rw [if_pos hp] at hx
      simp [hx, hp, hxs]
    · rw [if_neg hp] at hx
      simp [hx, hp, hxs]

/-- The line that is made for the volumes. -/
def volumeLines (c : Settings) (r : Option Nat) (priority : Option Int) : List Line :=
  match lastItem c.recipe, lastType c with
  | some i, some t =>
    if i.mkfs_options.isSome then []
    else if t = "swap" then [⟨"swap", none, none, priority, some (c.mkfs_options t)⟩]
    else [⟨c.fs_type, i.mount_point, r, none, some (c.mkfs_options t)⟩]
  | _, _ => []

theorem finish_eq (m : Machine) (c : Settings) {v : Scope} (hitem : v.item = lastItem c.recipe)
    (htype : v.part_type = lastType c) :
    (v.finish c (volumeTrims m c)).store = v.store.step (lastOp m c) ∧
      (v.finish c (volumeTrims m c)).lines = v.lines ++ volumeLines c v.store.var v.priority := by
  unfold Scope.finish lastOp volumeLines Shared.Store.step Shared.Store.assign
  rw [hitem, htype]
  cases lastItem c.recipe with
  | none => simp
  | some i =>
    cases lastType c with
    | none => simp
    | some t =>
      cases hmkfs : i.mkfs_options with
      | some options => simp [hmkfs]
      | none => by_cases hswap : t = "swap" <;> simp [hmkfs, hswap]

theorem lvs_keep (m : Machine) (c : Settings) (items : List Item) (v : Scope) :
    (v.run m c (items.map (Kind.lv, ·))).lines = v.lines ∧
      (v.run m c (items.map (Kind.lv, ·))).priority = v.priority := by
  have hkeeps := foldl_keeps
    (f := fun (v : Scope) (i : Item) => v.turn c .lv (trims m c .lv i) i)
    (fun v => (v.lines, v.priority)) (fun v i => by simp [Scope.turn, line, role]) items v
  rw [Scope.run, List.foldl_map]
  exact Prod.mk.inj hkeeps

theorem work_priority (m : Machine) (c : Settings) {v : Scope} (hv : v.priority = none) :
    (v.run m c (work c.recipe)).priority = lastPriority c.recipe := by
  rw [work_eq, run_append, ← targetWork_priority m c hv]
  generalize v.run m c (targetWork c.recipe) = v₁
  have hkeeps (w : Kind × Item) (hw : w ∈ laterWork c.recipe) (v : Scope) :
      (v.turn c w.1 (trims m c w.1 w.2) w.2).priority = v.priority := by
    obtain h | h := laterWork_kind hw <;> simp [Scope.turn, h]
  refine foldl_inv (I := fun v : Scope => v.priority = v₁.priority) (fun v w hw hv => ?_) rfl
  rw [hkeeps w hw, hv]

/-- **The variables at the end of a run.** -/
theorem final_scope {p : Profile} {v : ValueMap} {m : Machine} {c : Settings} {s : Locals}
    {boot_drives : List String} (hc : settings p v = .ok c)
    (h : partition p v m = .ok (s, boot_drives)) :
    let v₀ := startScope m c boot_drives
    s.scope.store = v₀.store.run (ops m c) ∧
      s.scope.lines = v₀.lines ++
        ((work c.recipe).zip (v₀.store.refs ((work c.recipe).map (itemOp m c)))).flatMap
          (fun x => line c x.1.1 x.1.2 x.2 (linePriority (lastPriority c.recipe) x.1)) ++
        if NoVolumes c then []
        else volumeLines c s.scope.store.var (lastPriority c.recipe) := by
  obtain ⟨-, hnone, hvolumes⟩ := partition_scope hc h
  have hlines := work_lines m c (v := startScope m c boot_drives) rfl
  have hpriority := work_priority m c (v := startScope m c boot_drives) rfl
  by_cases hno : NoVolumes c
  · rw [hnone hno, hlines, run_store]
    simp [ops, hno]
  · obtain ⟨hitem, htype⟩ := last_item m c boot_drives
    obtain ⟨hstore, hfinish⟩ := finish_eq m c hitem htype
    obtain ⟨hgl, hgs, hgp, -⟩ := groups_keeps (vgs c.recipe)
      ((startScope m c boot_drives).run m c (work c.recipe))
    obtain ⟨hll, hlp⟩ := lvs_keep m c (lvs c.recipe)
      (((startScope m c boot_drives).run m c (work c.recipe)).groups (vgs c.recipe))
    rw [hvolumes hno, Scope.volumes, hstore, hfinish, hll, hlp, hgl, hgp, hlines, hpriority,
      run_store, hgs, run_store, if_neg hno]
    have hvar (store : Shared.Store String) : (store.step (lastOp m c)).var = store.var :=
      Shared.Store.append_var store _
    rw [hvar]
    refine ⟨?_, rfl⟩
    rw [ops, if_neg hno, Shared.Store.run_append, Shared.Store.run_append, List.map_map]
    rfl

/-- The entries after the reservations, as they are shown, are those of the lines. -/
theorem drop_reserved {m : Machine} {c : Settings} {s : Locals} {boot_drives : List String}
    {ls : List Line} (h : s.scope.lines = (startScope m c boot_drives).lines ++ ls) :
    (s.filesystem_list.drop (reserved c boot_drives)).map (fun e => shown s.lists e.line) =
      ls.map (shown s.lists) := by
  have hlength : (startScope m c boot_drives).lines.length = reserved c boot_drives := by
    unfold startScope bootLines reserved
    split <;> simp
  have hcomp : (fun e : Entry => shown s.lists e.line) = shown s.lists ∘ Entry.line := rfl
  rw [hcomp, ← List.map_map, List.map_drop]
  refine congrArg (List.map _) ?_
  show s.scope.lines.drop _ = ls
  rw [h, ← hlength, List.drop_left]

/-- A volume that gets an entry is the last item. -/
theorem mem_lastVolume {c : Settings} {w : Kind × Item} (hw : w ∈ lastVolume c) :
    ¬ NoVolumes c ∧ ∃ i, w = (.lv, i) ∧ (lvs c.recipe).getLast? = some i ∧
      i.mkfs_options = none := by
  unfold lastVolume at hw
  by_cases hno : NoVolumes c
  · simp [hno] at hw
  · rw [if_neg hno] at hw
    cases hlast : (lvs c.recipe).getLast? with
    | none => simp [hlast] at hw
    | some i =>
      cases hmkfs : i.mkfs_options with
      | some options => simp [hlast, hmkfs] at hw
      | none =>
        simp only [hlast, hmkfs, Option.isSome_none, Bool.false_eq_true, if_false,
          List.mem_singleton] at hw
        exact ⟨hno, i, hw, rfl, hmkfs⟩

theorem last_of_lvs {c : Settings} {i : Item} (hlast : (lvs c.recipe).getLast? = some i) :
    lastItem c.recipe = some i ∧ lastType c = some (partType c .lv i) ∧
      lastGroup c.recipe = i.lv := by
  refine ⟨?_, ?_, ?_⟩
  · rw [lastItem, List.getLast?_append, hlast, Option.some_or]
  · rw [lastType, List.map_append, List.getLast?_append, List.getLast?_map, List.getLast?_map,
      hlast]
    rfl
  · rw [lastGroup, hlast]

/-- The last volume makes the line of the volumes. -/
theorem lastVolume_shown (c : Settings) (r : Option Nat) (lists : List (List String)) :
    (lastVolume c).zip ((if NoVolumes c then []
        else volumeLines c r (lastPriority c.recipe)).map (shown lists)) =
      (lastVolume c).map fun w => (w, shows c (w, r.bind (lists[·]?))) := by
  unfold lastVolume
  by_cases hno : NoVolumes c
  · simp [hno]
  · rw [if_neg hno, if_neg hno]
    cases hlast : (lvs c.recipe).getLast? with
    | none => rfl
    | some i =>
      obtain ⟨hitem, htype, -⟩ := last_of_lvs hlast
      cases hmkfs : i.mkfs_options with
      | some options => simp [hmkfs]
      | none =>
        simp only [volumeLines, hitem, htype, hmkfs]
        by_cases hswap : partType c .lv i = "swap"
        · simp [hswap, shown, shows, becomes, linePriority, mkfsOptions, hmkfs]
        · simp [hswap, shown, shows, becomes, mkfsOptions, hmkfs]

/-- The lines of the items, with the references of their turns: one for each that gets an entry. -/
theorem lines_shown (c : Settings) (lists : List (List String)) {refs : List (Option Nat)}
    (hle : (work c.recipe).length ≤ refs.length) :
    let shows' := ((work c.recipe).zip refs).flatMap fun x =>
      (line c x.1.1 x.1.2 x.2 (linePriority (lastPriority c.recipe) x.1)).map (shown lists)
    ((work c.recipe).filter fun w => role c w.1 w.2 ≠ .none).length = shows'.length ∧
      ((work c.recipe).filter fun w => role c w.1 w.2 ≠ .none).zip shows' =
        (((work c.recipe).zip refs).filter fun x => role c x.1.1 x.1.2 ≠ .none).map fun x =>
          (x.1, shows c (x.1, x.2.bind (lists[·]?))) := by
  have hzip := zip_flatMap
    (p := fun w : Kind × Item => role c w.1 w.2 ≠ .none)
    (f := fun x => (line c x.1.1 x.1.2 x.2 (linePriority (lastPriority c.recipe) x.1)).map
      (shown lists))
    (g := fun x => shows c (x.1, x.2.bind (lists[·]?)))
    ((work c.recipe).zip refs) (fun x hx => by
      have hkind := work_kind (List.of_mem_zip hx).1
      rw [line_shown c hkind]
      simp)
  rwa [List.map_fst_zip hle] at hzip

/-- **The entries of a run, each with its item, by the recipe.** -/
theorem produced_eq {p : Profile} {v : ValueMap} {m : Machine} {c : Settings} {s : Locals}
    {boot_drives : List String} (hc : settings p v = .ok c)
    (h : partition p v m = .ok (s, boot_drives)) :
    produced c boot_drives s = (sharing m c).map fun x => (x.1, shows c x) := by
  obtain ⟨hstore, hlines⟩ := final_scope hc h
  have hvalid := (startScope_sound m c boot_drives).valid
  have hlists : s.lists = ((startScope m c boot_drives).store.run (ops m c)).lists := by
    rw [← hstore]
    rfl
  have hcurrent : s.scope.store.var.bind (s.lists[·]?) = Shared.current none (ops m c) := by
    have hheld := Shared.Store.held_run hvalid (ops m c)
    rw [← hstore] at hheld
    exact hheld
  -- what the references of the items show at last
  have hseen : ((startScope m c boot_drives).store.refs (ops m c)).map (·.bind (s.lists[·]?)) =
      Shared.seen none (ops m c) := by
    rw [hlists]
    exact Shared.Store.refs_seen hvalid (ops m c)
  have hrefs : (work c.recipe).zip
      ((startScope m c boot_drives).store.refs ((work c.recipe).map (itemOp m c))) =
        (work c.recipe).zip ((startScope m c boot_drives).store.refs (ops m c)) := by
    rw [ops, Shared.Store.refs_append, zip_append_right _ (by simp [Shared.Store.length_refs])]
  have hle : (work c.recipe).length ≤
      ((startScope m c boot_drives).store.refs (ops m c)).length := by
    simp [Shared.Store.length_refs, ops]
  rw [hrefs] at hlines
  generalize (startScope m c boot_drives).store.refs (ops m c) = refs at hseen hlines hle
  obtain ⟨hlength, hzip⟩ := lines_shown c s.lists hle
  rw [List.append_assoc] at hlines
  rw [produced, drop_reserved hlines, List.map_append, producers, List.map_flatMap,
    List.zip_append hlength, hzip, lastVolume_shown, hcurrent, sharing, List.map_append, ← hseen,
    List.zip_map_right, List.filter_map, List.map_map, List.map_map]
  rfl

/-! ## When the items are independent -/

/-- The same profile, and the same default options, for two recipes. -/
structure SameSettings (c c' : Settings) : Prop where
  fs_type : c.fs_type = c'.fs_type
  boot_fs_type : c.boot_fs_type = c'.boot_fs_type
  mkfs_options : c.mkfs_options = c'.mkfs_options
  default_mounting_options : c.default_mounting_options = c'.default_mounting_options

theorem settings_same {p : Profile} {v v' : ValueMap} {c c' : Settings} (hc : settings p v = .ok c)
    (hc' : settings p v' = .ok c')
    (h : v.default_mounting_options = v'.default_mounting_options) : SameSettings c c' := by
  unfold settings at hc hc'
  obtain ⟨-, hc⟩ := guard_ok hc
  obtain ⟨-, hc⟩ := guard_ok hc
  obtain ⟨-, hc⟩ := guard_ok hc
  obtain ⟨-, hc'⟩ := guard_ok hc'
  obtain ⟨-, hc'⟩ := guard_ok hc'
  obtain ⟨-, hc'⟩ := guard_ok hc'
  simp only [bind_ok, pure_ok] at hc hc'
  obtain ⟨recipe, -, rfl⟩ := hc
  obtain ⟨recipe', -, rfl⟩ := hc'
  exact ⟨rfl, rfl, rfl, by simp only [h]⟩

section same

variable {c c' : Settings} (h : SameSettings c c')
include h

theorem SameSettings.partType (kind : Kind) (item : Item) :
    partType c kind item = partType c' kind item := by
  unfold Filesystem.partType
  rw [h.fs_type, h.boot_fs_type]

theorem SameSettings.becomes (w : Kind × Item) : becomes c w = becomes c' w := by
  unfold Filesystem.becomes role
  simp only [h.partType]

theorem SameSettings.mkfsOptions (part_type : String) (item : Item) :
    mkfsOptions c part_type item = mkfsOptions c' part_type item := by
  unfold Filesystem.mkfsOptions
  rw [h.mkfs_options]

/-- When a common item shows the same. -/
theorem SameSettings.shows_eq_iff (w : Kind × Item) (o o' : Option (List String)) :
    shows c (w, o) = shows c' (w, o') ↔ (Filesystem.becomes c w = .mounted → o = o') ∧
      (Filesystem.becomes c w = .swap → w.1 ≠ .target →
        lastPriority c.recipe = lastPriority c'.recipe) := by
  unfold shows
  simp only [← h.becomes, ← h.partType, ← h.mkfsOptions, ← h.fs_type]
  cases Filesystem.becomes c w with
  | none => simp
  | swap => by_cases hw : w.1 = .target <;> simp [linePriority, hw]
  | mounted => simp

end same

/-- Two runs show the same of a common item exactly when it shares the same options in both, and
inherits the same priority. -/
theorem same_iff {p : Profile} {v v' : ValueMap} {m m' : Machine} {c c' : Settings}
    {s s' : Locals} {boot_drives boot_drives' : List String}
    (hv : v.default_mounting_options = v'.default_mounting_options)
    (hc : settings p v = .ok c) (hc' : settings p v' = .ok c')
    (h : partition p v m = .ok (s, boot_drives)) (h' : partition p v' m' = .ok (s', boot_drives')) :
    Independent m c boot_drives s m' c' boot_drives' s' ↔ Alike m c m' c' := by
  have hsame := settings_same hc hc' hv
  unfold Independent Alike
  rw [produced_eq hc h, produced_eq hc' h']
  constructor
  · intro hindep w o o' ho ho' hcapable
    rw [← hsame.shows_eq_iff]
    exact hindep w _ _ (List.mem_map.mpr ⟨(w, o), ho, rfl⟩) (List.mem_map.mpr ⟨(w, o'), ho', rfl⟩)
      hcapable
  · intro halike w x x' hx hx' hcapable
    obtain ⟨⟨w₁, o⟩, ho, heq⟩ := List.mem_map.mp hx
    obtain ⟨⟨w₂, o'⟩, ho', heq'⟩ := List.mem_map.mp hx'
    obtain ⟨rfl, rfl⟩ := Prod.mk.inj heq
    obtain ⟨rfl, rfl⟩ := Prod.mk.inj heq'
    rw [hsame.shows_eq_iff]
    exact halike _ o o' ho ho' hcapable

/-! ## Recipes whose items are self-contained -/

theorem own_isSome_iff {c : Settings} {item : Item} :
    (own c item).isSome ↔ item.mount_options ≠ some "defaults" := by
  unfold own
  cases item.mount_options with
  | none => simp
  | some text => by_cases htext : text = "defaults" <;> simp [htext]

theorem mem_producers {m : Machine} {c : Settings} {w : Kind × Item} {o : Option (List String)}
    (h : (w, o) ∈ sharing m c) : w ∈ producers c := by
  obtain h | h := List.mem_append.mp h
  · obtain ⟨hmem, hrole⟩ := List.mem_filter.mp h
    exact List.mem_append_left _ (List.mem_filter.mpr ⟨(List.of_mem_zip hmem).1, hrole⟩)
  · obtain ⟨w', hw', heq⟩ := List.mem_map.mp h
    obtain ⟨rfl, -⟩ := Prod.mk.inj heq
    exact List.mem_append_right _ hw'

/-- In such a recipe only an item that assigns the options adds to them. -/
theorem SelfContained.quiet {c : Settings} (h : SelfContained c) (m : Machine) :
    ∀ op ∈ (work c.recipe).map (itemOp m c), op.assigned = none → op.appended = [] := by
  intro op hop hassigned
  obtain ⟨w, hw, rfl⟩ := List.mem_map.mp hop
  refine if_neg fun hmounted => ?_
  have hbecomes : becomes c w = role c w.1 w.2 := if_neg (work_kind hw)
  have hproducer : w ∈ producers c :=
    List.mem_append_left _ (List.mem_filter.mpr ⟨hw, by simp [hmounted.1]⟩)
  have hown := own_isSome_iff (c := c).mpr (h.assigned w hproducer (hbecomes.trans hmounted.1))
  rw [show own c w.2 = none from hassigned] at hown
  cases hown

/-- What is done for the volumes adds nothing to the options of the other items. -/
theorem SelfContained.late_volumes {c : Settings} (h : SelfContained c) (m : Machine) :
    Shared.late (if NoVolumes c then []
      else (lvs c.recipe).map (fun i => itemOp m c (.lv, i)) ++ [lastOp m c]) = [] := by
  by_cases hno : NoVolumes c
  · rw [if_pos hno]
    rfl
  rw [if_neg hno]
  have hquiet : ∀ op ∈ (lvs c.recipe).map (fun i => itemOp m c (.lv, i)),
      op.assigned = none → op.appended = [] := by
    intro op hop _
    obtain ⟨i, -, rfl⟩ := List.mem_map.mp hop
    simp [itemOp, op, role]
  cases hlast : (lvs c.recipe).getLast? with
  | none =>
    -- without a volume the handler is not come to
    have hlvs : lvs c.recipe = [] := List.getLast?_eq_none_iff.mp hlast
    have hmkfs := (h.volumes.resolve_left hno).resolve_left (not_not.mpr hlvs)
    refine Shared.late_append hquiet ?_
    cases hitem : lastItem c.recipe with
    | none => simp [Shared.late, lastOp, hitem]
    | some i =>
      rw [hitem] at hmkfs
      have hsome : i.mkfs_options.isSome = true := hmkfs
      cases htype : lastType c <;> simp [Shared.late, lastOp, hitem, htype, hsome]
  | some i =>
    obtain ⟨hitem, htype, -⟩ := last_of_lvs hlast
    by_cases hmade : i.mkfs_options.isSome ∨ partType c .lv i = "swap"
    · refine Shared.late_append hquiet ?_
      simp [Shared.late, lastOp, hitem, htype, hmade]
    · -- the volume is mounted, and assigns the options
      rw [not_or] at hmade
      have hproducer : (Kind.lv, i) ∈ producers c := by
        refine List.mem_append_right _ ?_
        simp [lastVolume, hno, hlast, hmade.1]
      have hassigned : i.mount_options ≠ some "defaults" :=
        h.assigned _ hproducer (by simp [becomes, hmade.2])
      obtain ⟨xs, hxs⟩ := Option.isSome_iff_exists.mp ((own_isSome_iff (c := c)).mpr hassigned)
      obtain ⟨before, hbefore⟩ := List.getLast?_eq_some_iff.mp hlast
      rw [hbefore, List.map_append, List.append_assoc]
      refine Shared.late_append (fun op hop => hquiet op ?_) ?_
      · rw [hbefore, List.map_append]
        exact List.mem_append_left _ hop
      · have hop : (itemOp m c (.lv, i)).assigned = some xs := hxs
        simp [Shared.late, hop]

/-- In such a recipe an item that is mounted shares its own options only. -/
theorem SelfContained.sharing {m : Machine} {c : Settings} (h : SelfContained c) {w : Kind × Item}
    {o : Option (List String)} (ho : (w, o) ∈ sharing m c) (hmounted : becomes c w = .mounted) :
    ∃ options, ownOptions c (capable m c w) w = some options ∧ o = some options := by
  obtain ⟨xs, hxs⟩ := Option.isSome_iff_exists.mp
    ((own_isSome_iff (c := c)).mpr (h.assigned w (mem_producers ho) hmounted))
  obtain ho | ho := List.mem_append.mp ho
  · obtain ⟨hmem, -⟩ := List.mem_filter.mp ho
    have hkind := work_kind (List.of_mem_zip hmem).1
    have hbecomes : becomes c w = role c w.1 w.2 := if_neg hkind
    have hcapable : capable m c w = trims m c w.1 w.2 := by
      unfold capable
      split
      · next hlv => exact absurd hlv hkind
      · rfl
    have hop : (itemOp m c w, o) ∈
        ((work c.recipe).map (itemOp m c)).zip (Shared.seen none (ops m c)) := by
      rw [List.zip_map_left]
      exact List.mem_map.mpr ⟨(w, o), hmem, rfl⟩
    have hassigned : (itemOp m c w).assigned = some xs := hxs
    have hseen := Shared.seen_assigned (h.quiet m) (h.late_volumes m) hop hassigned
    refine ⟨_, ?_, hseen⟩
    rw [ownOptions, hxs, hbecomes, hcapable]
    rfl
  · obtain ⟨w', hw', heq⟩ := List.mem_map.mp ho
    obtain ⟨rfl, rfl⟩ := Prod.mk.inj heq
    obtain ⟨hno, i, rfl, hlast, hmkfs⟩ := mem_lastVolume hw'
    obtain ⟨hitem, htype, hgroup⟩ := last_of_lvs hlast
    obtain ⟨before, hbefore⟩ := List.getLast?_eq_some_iff.mp hlast
    have hswap : partType c .lv i ≠ "swap" := by
      intro hswap
      simp [becomes, hswap] at hmounted
    have hcapable : capable m c (.lv, i) = volumeTrims m c := by
      rw [volumeTrims, hgroup]
      rfl
    have hop : itemOp m c (.lv, i) = ⟨some xs, []⟩ := by
      have hxs' : own c i = some xs := hxs
      simp [itemOp, op, hxs', role]
    have hlastOp : lastOp m c = ⟨none, trimmed (volumeTrims m c) (partType c .lv i)⟩ := by
      simp [lastOp, hitem, htype, hmkfs, hswap]
    refine ⟨xs ++ trimmed (volumeTrims m c) (partType c .lv i), ?_, ?_⟩
    · rw [ownOptions, hxs, hmounted, hcapable]
      simp
    · rw [ops, if_neg hno, hbefore, List.map_append, Shared.current_append, Shared.current_append,
        Shared.current_append, List.map_singleton, hop, hlastOp]
      simp [Shared.current]

/-- Such recipes treat common items alike. -/
theorem SelfContained.alike {m m' : Machine} {c c' : Settings} (hsame : SameSettings c c')
    (h : SelfContained c) (h' : SelfContained c') : Alike m c m' c' := by
  intro w o o' ho ho' hcapable
  constructor
  · intro hmounted
    obtain ⟨options, hown, rfl⟩ := h.sharing ho hmounted
    obtain ⟨options', hown', rfl⟩ := h'.sharing ho' (hsame.becomes w ▸ hmounted)
    rw [← hown, ← hown', ← hcapable]
    simp only [ownOptions, own, hsame.becomes, hsame.partType, hsame.default_mounting_options]
  · intro hswap htarget
    exact absurd (h.swaps w (mem_producers ho) hswap) htarget

/-! ## How many entries there are -/

theorem exists_lastType {c : Settings} (h : ¬ NoVolumes c) : (lastType c).isSome := by
  simp only [NoVolumes, not_forall] at h
  obtain ⟨i, hi, htarget, -⟩ := h
  have hmem : (Kind.target, i) ∈ work c.recipe := by
    refine List.mem_append_left _ (List.mem_append_left _ ?_)
    exact List.mem_map.mpr ⟨i, List.mem_filter.mpr ⟨hi, htarget⟩, rfl⟩
  rw [lastType, List.getLast?_isSome]
  exact List.ne_nil_of_mem (List.mem_map_of_mem (List.mem_append_left _ hmem))

/-- There is an entry for volumes exactly when there is a volume that it is for. -/
theorem volumeLines_length_iff (c : Settings) (r : Option Nat) (priority : Option Int) :
    (if NoVolumes c then [] else volumeLines c r priority).length = (lastVolume c).length ↔
      NoVolumes c ∨ lvs c.recipe ≠ [] ∨ (lastItem c.recipe).all (·.mkfs_options.isSome) := by
  by_cases hno : NoVolumes c
  · simp [hno, lastVolume]
  obtain ⟨t, htype⟩ := Option.isSome_iff_exists.mp (exists_lastType hno)
  cases hlast : (lvs c.recipe).getLast? with
  | none =>
    have hlvs : lvs c.recipe = [] := List.getLast?_eq_none_iff.mp hlast
    cases hitem : lastItem c.recipe with
    | none => simp [hno, lastVolume, hlast, volumeLines, hitem]
    | some i =>
      cases hmkfs : i.mkfs_options with
      | some options => simp [hno, lastVolume, hlast, volumeLines, hitem, htype, hmkfs]
      | none =>
        by_cases hswap : t = "swap" <;>
          simp [hno, lastVolume, volumeLines, hitem, htype, hmkfs, hlvs, hswap]
  | some i =>
    have hlvs : lvs c.recipe ≠ [] := by
      rintro hnil
      rw [hnil] at hlast
      cases hlast
    obtain ⟨hitem, htype, -⟩ := last_of_lvs hlast
    refine iff_of_true ?_ (.inr (.inl hlvs))
    cases hmkfs : i.mkfs_options with
    | some options => simp [hno, lastVolume, hlast, volumeLines, hitem, htype, hmkfs]
    | none =>
      by_cases hswap : partType c .lv i = "swap" <;>
        simp [hno, lastVolume, hlast, volumeLines, hitem, htype, hmkfs, hswap]

theorem entries_length_iff {p : Profile} {v : ValueMap} {m : Machine} {c : Settings} {s : Locals}
    {boot_drives : List String} (hc : settings p v = .ok c)
    (h : partition p v m = .ok (s, boot_drives)) :
    (s.filesystem_list.drop (reserved c boot_drives)).length = (producers c).length ↔
      NoVolumes c ∨ lvs c.recipe ≠ [] ∨ (lastItem c.recipe).all (·.mkfs_options.isSome) := by
  obtain ⟨-, hlines⟩ := final_scope hc h
  have hle : (work c.recipe).length ≤
      ((startScope m c boot_drives).store.refs ((work c.recipe).map (itemOp m c))).length := by
    simp [Shared.Store.length_refs]
  have hlength := (lines_shown c s.lists hle).1
  rw [List.append_assoc] at hlines
  have hdrop := congrArg List.length (drop_reserved hlines)
  rw [List.length_map, List.map_append, List.length_append, List.map_flatMap, ← hlength,
    List.length_map] at hdrop
  rw [hdrop, producers, List.length_append, Nat.add_left_cancel_iff]
  exact volumeLines_length_iff c _ _

/-- Each producer has an entry. -/
theorem exists_produced {p : Profile} {v : ValueMap} {m : Machine} {c : Settings} {s : Locals}
    {boot_drives : List String} (hc : settings p v = .ok c)
    (h : partition p v m = .ok (s, boot_drives)) {w : Kind × Item} (hw : w ∈ producers c) :
    ∃ o, (w, o) ∈ sharing m c ∧ (w, shows c (w, o)) ∈ produced c boot_drives s := by
  have hsharing : ∃ o, (w, o) ∈ sharing m c := by
    obtain hw | hw := List.mem_append.mp hw
    · obtain ⟨hmem, hrole⟩ := List.mem_filter.mp hw
      have hle : (work c.recipe).length ≤ (Shared.seen none (ops m c)).length := by
        simp [Shared.length_seen, ops]
      rw [← List.map_fst_zip hle] at hmem
      obtain ⟨⟨w', o⟩, hzip, rfl⟩ := List.mem_map.mp hmem
      exact ⟨o, List.mem_append_left _ (List.mem_filter.mpr ⟨hzip, hrole⟩)⟩
    · exact ⟨_, List.mem_append_right _ (List.mem_map.mpr ⟨w, hw, rfl⟩)⟩
  obtain ⟨o, ho⟩ := hsharing
  refine ⟨o, ho, ?_⟩
  rw [produced_eq hc h]
  exact List.mem_map.mpr ⟨(w, o), ho, rfl⟩

/-- **Nothing leaks in a run exactly when the items of its recipe are self-contained.** -/
theorem ownEntries_iff {p : Profile} {v : ValueMap} {m : Machine} {c : Settings} {s : Locals}
    {boot_drives : List String} (hc : settings p v = .ok c)
    (h : partition p v m = .ok (s, boot_drives)) :
    OwnEntries m c boot_drives s ↔ SelfContained c := by
  have hlength := entries_length_iff hc h
  constructor
  · intro hown
    refine ⟨fun w hw hmounted => ?_, hlength.mp hown.entries, fun w hw hswap => ?_⟩
    · obtain ⟨o, -, hmem⟩ := exists_produced hc h hw
      obtain ⟨options, hoptions, -⟩ := hown.options w _ hmem hmounted
      rw [← own_isSome_iff (c := c)]
      unfold ownOptions at hoptions
      cases hx : own c w.2 with
      | none => simp [hx] at hoptions
      | some xs => rfl
    · obtain ⟨o, -, hmem⟩ := exists_produced hc h hw
      obtain ⟨priority, hpriority, -⟩ := hown.priority w _ hmem hswap
      by_contra hne
      rw [linePriority, if_neg hne] at hpriority
      cases hpriority
  · intro hown
    refine ⟨hlength.mpr hown.volumes, fun w x hx hmounted => ?_, fun w x hx hswap => ?_⟩
    · rw [produced_eq hc h] at hx
      obtain ⟨⟨w', o⟩, ho, heq⟩ := List.mem_map.mp hx
      obtain ⟨rfl, rfl⟩ := Prod.mk.inj heq
      obtain ⟨options, hoptions, rfl⟩ := hown.sharing ho hmounted
      exact ⟨options, hoptions, by simp [shows, hmounted]⟩
    · rw [produced_eq hc h] at hx
      obtain ⟨⟨w', o⟩, ho, heq⟩ := List.mem_map.mp hx
      obtain ⟨rfl, rfl⟩ := Prod.mk.inj heq
      have htarget := hown.swaps _ (mem_producers ho) hswap
      refine ⟨w'.2.priority.getD 0, if_pos htarget, ?_⟩
      simp [shows, hswap, linePriority, htarget]

/-- **Common items show the same in two runs, and nothing leaks in either, exactly when the items of
both recipes are self-contained.** -/
theorem independent_iff {p : Profile} {v v' : ValueMap} {m m' : Machine} {c c' : Settings}
    {s s' : Locals} {boot_drives boot_drives' : List String}
    (hv : v.default_mounting_options = v'.default_mounting_options)
    (hc : settings p v = .ok c) (hc' : settings p v' = .ok c')
    (h : partition p v m = .ok (s, boot_drives)) (h' : partition p v' m' = .ok (s', boot_drives')) :
    (Independent m c boot_drives s m' c' boot_drives' s' ∧ OwnEntries m c boot_drives s ∧
      OwnEntries m' c' boot_drives' s') ↔ SelfContained c ∧ SelfContained c' := by
  rw [ownEntries_iff hc h, ownEntries_iff hc' h', same_iff hv hc hc' h h']
  exact and_iff_right_of_imp fun hboth => hboth.1.alike (settings_same hc hc' hv) hboth.2

/-- The items that the recipes for one drive have in common, without volumes and with one. -/
theorem single_independent : ∃ c s boot_drives c' s' boot_drives',
    settings plainProfile {} = .ok c ∧
      settings plainProfile { partition_scheme := some "single-lvm" } = .ok c' ∧
      partition plainProfile {} (plainMachine ["/dev/sda"]) = .ok (s, boot_drives) ∧
      partition plainProfile { partition_scheme := some "single-lvm" }
        (plainMachine ["/dev/sda"]) = .ok (s', boot_drives') ∧
      Independent (plainMachine ["/dev/sda"]) c boot_drives s (plainMachine ["/dev/sda"]) c'
        boot_drives' s' ∧
      OwnEntries (plainMachine ["/dev/sda"]) c boot_drives s ∧
      OwnEntries (plainMachine ["/dev/sda"]) c' boot_drives' s' := by
  have hplain : (settings plainProfile {}).toOption.map (fun c => decide (SelfContained c)) =
      some true := by
    decide +kernel
  have hplain' : (settings plainProfile { partition_scheme := some "single-lvm" }).toOption.map
      (fun c => decide (SelfContained c)) = some true := by
    decide +kernel
  have hrun : (partition plainProfile {} (plainMachine ["/dev/sda"])).toOption.map (·.2) =
      some ["/dev/sda"] := by
    decide +kernel
  have hrun' : (partition plainProfile { partition_scheme := some "single-lvm" }
      (plainMachine ["/dev/sda"])).toOption.map (·.2) = some ["/dev/sda"] := by
    decide +kernel
  obtain ⟨c, hc, hplain⟩ := toOption_map hplain
  obtain ⟨c', hc', hplain'⟩ := toOption_map hplain'
  obtain ⟨⟨s, boot_drives⟩, h, -⟩ := toOption_map hrun
  obtain ⟨⟨s', boot_drives'⟩, h', -⟩ := toOption_map hrun'
  refine ⟨c, s, boot_drives, c', s', boot_drives', hc, hc', h, h', ?_⟩
  refine (independent_iff ?_ hc hc' h h').mpr
    ⟨of_decide_eq_true hplain, of_decide_eq_true hplain'⟩
  rfl

/-- The root of a drive, with `defaults`. -/
def defaultsRoot : Item :=
  { target := some 0, mount_point := some (some "/"), size := some .rest
    mount_options := some "defaults" }

/-- A recipe of `/boot`, another item, and that root. -/
def defaultsRecipe (type : String) : ValueMap where
  partition_scheme := some "custom"
  partition_recipe := some [
    { target := some 0, mount_point := some (some "/boot"), size := some (.megabytes 512) },
    { target := some 0, mount_point := some (some "/home"), size := some (.megabytes 1024)
      type := some type },
    defaultsRoot]

/-- A run with what it shows of the last of three items. -/
theorem produced_third {v : ValueMap} {m : Machine} {x : Shown} {w : Kind × Item}
    (hw : (settings plainProfile v).toOption.map (fun c => (producers c)[2]?) = some (some w))
    (hx : (do
      let c ← settings plainProfile v
      let (s, boot_drives) ← partition plainProfile v m
      pure ((s.filesystem_list.drop (reserved c boot_drives)).map fun e : Entry =>
        shown s.lists e.line)).toOption.map (fun shows => shows[2]?) = some (some x)) :
    ∃ c s boot_drives, settings plainProfile v = .ok c ∧
      partition plainProfile v m = .ok (s, boot_drives) ∧ (w, x) ∈ produced c boot_drives s := by
  obtain ⟨shows, hshows, hx⟩ := toOption_map hx
  obtain ⟨c, hc, hw⟩ := toOption_map hw
  simp only [bind_ok, pure_ok] at hshows
  obtain ⟨c', hc', ⟨s, boot_drives⟩, h, rfl⟩ := hshows
  obtain rfl : c = c' := Except.ok.inj (hc.symm.trans hc')
  refine ⟨c, s, boot_drives, hc, h, List.mem_of_getElem? (i := 2) ?_⟩
  exact List.getElem?_zip_eq_some.mpr ⟨hw, hx⟩

/-- The root shares the options of what is before it: of a partition that is trimmed, or of one
that is not. -/
theorem defaults_leak : ∃ c s boot_drives c' s' boot_drives',
    settings plainProfile (defaultsRecipe "ext4") = .ok c ∧
      settings plainProfile (defaultsRecipe "ext2") = .ok c' ∧
      partition plainProfile (defaultsRecipe "ext4") (plainMachine ["/dev/sda"]) =
        .ok (s, boot_drives) ∧
      partition plainProfile (defaultsRecipe "ext2") (plainMachine ["/dev/sda"]) =
        .ok (s', boot_drives') ∧
      ¬ Independent (plainMachine ["/dev/sda"]) c boot_drives s (plainMachine ["/dev/sda"]) c'
        boot_drives' s' := by
  obtain ⟨c, s, boot_drives, hc, h, hmem⟩ := produced_third (v := defaultsRecipe "ext4")
    (m := plainMachine ["/dev/sda"]) (w := (.target, defaultsRoot))
    (x := ⟨"ext4", some ["discard", "discard"], none, some ""⟩) rfl (by decide +kernel)
  obtain ⟨c', s', boot_drives', hc', h', hmem'⟩ := produced_third (v := defaultsRecipe "ext2")
    (m := plainMachine ["/dev/sda"]) (w := (.target, defaultsRoot))
    (x := ⟨"ext4", some ["discard"], none, some ""⟩) rfl (by decide +kernel)
  refine ⟨c, s, boot_drives, c', s', boot_drives', hc, hc', h, h', fun hindep => ?_⟩
  have hsame := hindep _ _ _ hmem hmem' rfl
  simp at hsame

end Filesystem
