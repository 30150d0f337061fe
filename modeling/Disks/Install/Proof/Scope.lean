import Disks.Install.Proof.Turns

/-!
# What a run of `partition` leaves to the later functions

`mkfs`, `mount` and `writefstab` look at the types, the mount points and the options of the entries.
Of a run of `partition` these depend on the items and on a few variables only (`Scope`), one item
after the other (`Scope.turn`), and for the volumes once after the last (`Scope.finish`).

* `targetItem_scope`, `mdItem_scope`, `bcacheItem_scope`, `lvItem_scope`, `addVolume_scope`: the
  turns of the loops.
* `layout_scope`, `partition_scope`: **a run of `partition` is a run over its items.**
-/

namespace Filesystem

open Fold

/-! ## The lines of the list -/

/-- What the later functions look at in an entry. -/
structure Line where
  type : String
  mount_point : Option (Option String)
  mount_options : Option Nat
  priority : Option Int
  mkfs_options : Option String

def Entry.line (e : Entry) : Line :=
  ⟨e.type, e.mount_point, e.mount_options, e.priority, e.mkfs_options⟩

/-- The variables that these depend on. -/
structure Scope where
  lines : List Line
  store : Shared.Store String
  priority : Option Int
  part_type : Option String
  item : Option Item

def Locals.scope (s : Locals) : Scope :=
  ⟨s.filesystem_list.map Entry.line, s.store, s.priority, s.part_type, s.item⟩

theorem scope_addEntry (s : Locals) (e : Entry) :
    (s.addEntry e).scope = { s.scope with lines := s.scope.lines ++ [e.line] } := by
  simp [Locals.scope, Locals.addEntry, Locals.store]

/-- What an item becomes: nothing that is mounted, a swap, or a file system. -/
inductive Role
  | none
  | swap
  | mounted
deriving DecidableEq

def role (c : Settings) (kind : Kind) (item : Item) : Role :=
  let part_type := partType c kind item
  match kind with
  | .target =>
    if part_type = "swap" then .swap
    else if part_type = "blank" ∨ part_type = "empty" ∨ part_type ∈ memberTypes then .none
    else .mounted
  | .md =>
    if part_type = "swap" then .swap
    else if part_type = "bcache" ∨ item.mount_point = none then .none
    else .mounted
  | .bcache =>
    if part_type = "swap" then .swap else if item.mount_point = none then .none else .mounted
  | .lv => .none

/-- What a turn does to the options. -/
def op (c : Settings) (kind : Kind) (supportsTrim : Bool) (item : Item) : Shared.Op String where
  assigned := own c item
  appended :=
    if role c kind item = .mounted ∧ kind ≠ .bcache then trimmed supportsTrim (partType c kind item)
    else []

/-- The line of an item. -/
def line (c : Settings) (kind : Kind) (item : Item) (mount_options : Option Nat)
    (priority : Option Int) : List Line :=
  match role c kind item with
  | .none => []
  | .swap =>
    [⟨"swap", none, none, priority, some (mkfsOptions c (partType c kind item) item)⟩]
  | .mounted => [⟨partType c kind item, item.mount_point, mount_options, none,
      if kind = .bcache then none else some (mkfsOptions c (partType c kind item) item)⟩]

/-- A turn over an item. -/
def Scope.turn (c : Settings) (kind : Kind) (supportsTrim : Bool) (item : Item) (v : Scope) :
    Scope :=
  let store := v.store.step (op c kind supportsTrim item)
  let priority := if kind = .target then some (item.priority.getD 0) else v.priority
  { lines := v.lines ++ line c kind item store.var priority
    store := store, priority := priority, part_type := some (partType c kind item)
    item := some item }

/-- The line of the last volume, after all turns. -/
def Scope.finish (c : Settings) (supportsTrim : Bool) (v : Scope) : Scope :=
  match v.item, v.part_type with
  | some item, some part_type =>
    if item.mkfs_options.isSome then v
    else if part_type = "swap" then { v with
      lines := v.lines ++
        [⟨"swap", none, none, v.priority, some (c.mkfs_options part_type)⟩] }
    else { v with
      store := v.store.append (trimmed supportsTrim part_type)
      lines := v.lines ++
        [⟨c.fs_type, item.mount_point, v.store.var, none, some (c.mkfs_options part_type)⟩] }
  | _, _ => v

/-- The lines with a mount point have options, the swaps have a priority. -/
structure Sound (v : Scope) : Prop where
  valid : v.store.Valid
  options : ∀ l ∈ v.lines, l.mount_point.isSome →
    ∃ r, l.mount_options = some r ∧ r < v.store.lists.length
  priority : ∀ l ∈ v.lines, l.mount_point = none → l.type = "swap" → l.priority.isSome

/-- A turn keeps the lines sound where its line is. -/
theorem Sound.add {v v' : Scope} {ls : List Line} (h : Sound v) (hlines : v'.lines = v.lines ++ ls)
    (hlength : v.store.lists.length ≤ v'.store.lists.length) (hvalid : v'.store.Valid)
    (hoptions : ∀ l ∈ ls, l.mount_point.isSome → l.mount_options.isSome ∧
      l.mount_options = v'.store.var)
    (hpriority : ∀ l ∈ ls, l.mount_point = none → l.type = "swap" → l.priority.isSome) :
    Sound v' where
  valid := hvalid
  options := by
    intro l hl hmount
    rw [hlines] at hl
    obtain hl | hl := List.mem_append.mp hl
    · obtain ⟨r, hr, hlt⟩ := h.options l hl hmount
      exact ⟨r, hr, Nat.lt_of_lt_of_le hlt hlength⟩
    · obtain ⟨hsome, hvar⟩ := hoptions l hl hmount
      obtain ⟨r, hr⟩ := Option.isSome_iff_exists.mp hsome
      exact ⟨r, hr, hvalid r (hvar ▸ hr)⟩
  priority := by
    intro l hl hmount htype
    rw [hlines] at hl
    obtain hl | hl := List.mem_append.mp hl
    · exact h.priority l hl hmount htype
    · exact hpriority l hl hmount htype

/-! ## The turns -/

/-- What a turn that comes back has found. -/
structure Found (c : Settings) (kind : Kind) (item : Item) (v : Scope) : Prop where
  mounted : role c kind item = .mounted → v.store.var.isSome ∧ item.mount_point.isSome
  swap : role c kind item = .swap → v.priority.isSome

theorem length_le_turn (c : Settings) (kind : Kind) (supportsTrim : Bool) (item : Item)
    (v : Scope) : v.store.lists.length ≤ (v.turn c kind supportsTrim item).store.lists.length :=
  Shared.Store.length_le_step _ _

theorem Sound.turn {c : Settings} {kind : Kind} {supportsTrim : Bool} {item : Item} {v : Scope}
    (h : Sound v) (hfound : Found c kind item (v.turn c kind supportsTrim item)) :
    Sound (v.turn c kind supportsTrim item) := by
  refine h.add rfl (length_le_turn c kind supportsTrim item v) (h.valid.step _) ?_ ?_
  · intro l hl hmount
    unfold line at hl
    cases hrole : role c kind item with
    | none => simp [hrole] at hl
    | swap =>
      simp only [hrole, List.mem_singleton] at hl
      simp [hl] at hmount
    | mounted =>
      simp only [hrole, List.mem_singleton] at hl
      subst hl
      exact ⟨(hfound.mounted hrole).1, rfl⟩
  · intro l hl hmount htype
    unfold line at hl
    cases hrole : role c kind item with
    | none => simp [hrole] at hl
    | swap =>
      simp only [hrole, List.mem_singleton] at hl
      subst hl
      exact hfound.swap hrole
    | mounted =>
      simp only [hrole, List.mem_singleton] at hl
      subst hl
      have hsome := (hfound.mounted hrole).2
      simp only at hmount
      simp [hmount] at hsome

/-- The priority after a turn. -/
def turnPriority (kind : Kind) (item : Item) (v : Scope) : Option Int :=
  if kind = .target then some (item.priority.getD 0) else v.priority

section turns

variable {c : Settings} {kind : Kind} {supportsTrim : Bool} {item : Item} (v : Scope)

theorem turn_none (hrole : role c kind item = .none) :
    v.turn c kind supportsTrim item = {
      lines := v.lines, store := v.store.assign (own c item), priority := turnPriority kind item v
      part_type := some (partType c kind item), item := some item } := by
  simp [Scope.turn, turnPriority, line, Shared.Store.step, op, hrole]

theorem turn_swap (hrole : role c kind item = .swap) :
    v.turn c kind supportsTrim item = {
      lines := v.lines ++
        [⟨"swap", none, none, turnPriority kind item v,
          some (mkfsOptions c (partType c kind item) item)⟩]
      store := v.store.assign (own c item), priority := turnPriority kind item v
      part_type := some (partType c kind item), item := some item } := by
  simp [Scope.turn, turnPriority, line, Shared.Store.step, op, hrole]

theorem turn_mounted (hrole : role c kind item = .mounted) (hkind : kind ≠ .bcache) :
    v.turn c kind supportsTrim item = {
      lines := v.lines ++ [⟨partType c kind item, item.mount_point,
        (v.store.assign (own c item)).var, none,
        some (mkfsOptions c (partType c kind item) item)⟩]
      store := (v.store.assign (own c item)).append (trimmed supportsTrim (partType c kind item))
      priority := turnPriority kind item v, part_type := some (partType c kind item)
      item := some item } := by
  simp [Scope.turn, turnPriority, line, Shared.Store.step, op, hrole, hkind]

theorem turn_bcache (hrole : role c .bcache item = .mounted) :
    v.turn c .bcache supportsTrim item = {
      lines := v.lines ++ [⟨partType c .bcache item, item.mount_point,
        (v.store.assign (own c item)).var, none, none⟩]
      store := v.store.assign (own c item), priority := v.priority
      part_type := some (partType c .bcache item), item := some item } := by
  simp [Scope.turn, line, Shared.Store.step, op, hrole]

end turns

/-- The drive of an item with `target`. -/
def driveOf (m : Machine) (item : Item) : Option Drive :=
  match item.target.map (index m.target_drives) with
  | some (.ok drive) => m.drive_map drive
  | _ => none

/-- Whether it can trim. -/
def driveTrims (m : Machine) (item : Item) : Bool := (driveOf m item).any (·.supportsTrim)

theorem driveOf_eq {m : Machine} {item : Item} {target : Int} {drive : String}
    (htarget : item.target = some target) (hdrive : index m.target_drives target = .ok drive) :
    driveOf m item = m.drive_map drive := by
  simp [driveOf, htarget, hdrive]

theorem targetItem_scope {m : Machine} {c : Settings} {r : RefSizes} {s s' : Locals} {item : Item}
    (h : targetItem m c r s item = .ok s') :
    s'.scope = s.scope.turn c .target (driveTrims m item) item ∧
      Found c .target item s'.scope := by
  obtain ⟨target, drive, size, globals, block_device, htarget, hdrive, -, h⟩ := targetItem_ok h
  obtain ⟨hswap, rfl⟩ | ⟨hblank, rfl⟩ | ⟨⟨hnswap, hnblank, hnempty⟩, h⟩ := h
  · have hrole : role c .target item = .swap := by simp [role, hswap]
    refine ⟨?_, ⟨fun hmounted => by simp [hrole] at hmounted, fun _ => rfl⟩⟩
    rw [turn_swap _ hrole, scope_addEntry]
    rfl
  · have hrole : role c .target item = .none := by
      obtain hb | he := hblank
      · simp [role, hb]
      · simp [role, he]
    refine ⟨?_, ⟨fun hmounted => by simp [hrole] at hmounted, fun hs => by simp [hrole] at hs⟩⟩
    rw [turn_none _ hrole]
    rfl
  · have hmember (hmem : partType c .target item ∈ memberTypes) :
        role c .target item = .none := by
      simp [role, hnswap, hmem]
    have hkept {s' : Locals} (hmem : partType c .target item ∈ memberTypes)
        (hs' : s'.scope = (opened c item globals drive size s).scope) :
        s'.scope = s.scope.turn c .target (driveTrims m item) item ∧
          Found c .target item s'.scope := by
      refine ⟨?_, ⟨fun hmounted => by simp [hmember hmem] at hmounted,
        fun hs => by simp [hmember hmem] at hs⟩⟩
      rw [turn_none _ (hmember hmem), hs']
      rfl
    obtain ⟨hmd, _, _, -, -, rfl⟩ | ⟨hbcache, _, _, rfl⟩ | ⟨hpv, _, _, -, -, rfl⟩ |
      ⟨hother, d, mount_point, ref, hd, hmount, href, rfl⟩ := placePartition_ok h
    · exact hkept (by simp [hmd, memberTypes]) rfl
    · exact hkept (by simp [hbcache, memberTypes]) rfl
    · exact hkept (by simp [hpv, memberTypes]) rfl
    · have hrole : role c .target item = .mounted := by
        simp [role, hnswap, hnblank, hnempty, hother]
      have hvar : (s.store.assign (own c item)).var = some ref := href
      rw [turn_mounted _ hrole (by decide), scope_addEntry]
      have htrims : driveTrims m item = d.supportsTrim := by
        rw [driveTrims, driveOf_eq htarget hdrive, hd, Option.any_some]
      refine ⟨?_, ⟨fun _ => ⟨?_, by simp [hmount]⟩, fun hs => by simp [hrole] at hs⟩⟩
      · rw [htrims, hmount]
        simp only [Locals.scope, hvar]
        rfl
      · show ((s.store.assign (own c item)).append _).var.isSome
        rw [Shared.Store.append_var, hvar]
        rfl

/-- Whether the members of an array can trim. -/
def arrayTrims (s : Locals) (item : Item) : Bool :=
  item.md.any fun md => ((s.md_list.get md).getD []).all (·.2.supportsTrim)

theorem mdItem_scope {c : Settings} {s s' : Locals} {item : Item} (h : mdItem c s item = .ok s') :
    s'.scope = s.scope.turn c .md (arrayTrims s item) item ∧ Found c .md item s'.scope := by
  obtain ⟨md, members, level, meta_version, block_device, hmd, hmembers, h⟩ := mdItem_ok h
  obtain ⟨hswap, priority, hpriority, rfl⟩ | ⟨hbcache, _, _, rfl⟩ |
    ⟨hnswap, hnbcache, hmount, rfl⟩ |
    ⟨hnswap, hnbcache, mount_point, ref, hmount, href, rfl⟩ := h
  · have hrole : role c .md item = .swap := by simp [role, hswap]
    rw [turn_swap _ hrole, scope_addEntry, ← hpriority]
    refine ⟨rfl, ⟨fun hmounted => by simp [hrole] at hmounted, fun _ => ?_⟩⟩
    show s.priority.isSome
    rw [hpriority]
    rfl
  · have hrole : role c .md item = .none := by simp [role, hbcache]
    refine ⟨?_, ⟨fun hmounted => by simp [hrole] at hmounted, fun hs => by simp [hrole] at hs⟩⟩
    rw [turn_none _ hrole]
    rfl
  · have hrole : role c .md item = .none := by simp [role, hnswap, hmount]
    refine ⟨?_, ⟨fun hmounted => by simp [hrole] at hmounted, fun hs => by simp [hrole] at hs⟩⟩
    rw [turn_none _ hrole]
    rfl
  · have hrole : role c .md item = .mounted := by simp [role, hnswap, hnbcache, hmount]
    have hvar : (s.store.assign (own c item)).var = some ref := href
    have htrims : arrayTrims s item = members.all (·.2.supportsTrim) := by
      simp [arrayTrims, hmd, hmembers]
    rw [turn_mounted _ hrole (by decide), scope_addEntry]
    refine ⟨?_, ⟨fun _ => ⟨?_, by simp [hmount]⟩, fun hs => by simp [hrole] at hs⟩⟩
    · rw [htrims, hmount]
      simp only [Locals.scope, hvar]
      rfl
    · show ((s.store.assign (own c item)).append _).var.isSome
      rw [Shared.Store.append_var, hvar]
      rfl

theorem bcacheItem_scope {m : Machine} {c : Settings} {s s' : Locals} {item : Item}
    (h : bcacheItem m c s item = .ok s') (supportsTrim : Bool) :
    s'.scope = s.scope.turn c .bcache supportsTrim item ∧ Found c .bcache item s'.scope := by
  obtain ⟨commands, block_device, -, h⟩ := bcacheItem_ok h
  obtain ⟨hswap, priority, hpriority, rfl⟩ | ⟨hnswap, hmount, rfl⟩ |
    ⟨hnswap, mount_point, ref, hmount, href, rfl⟩ := h
  · have hrole : role c .bcache item = .swap := by simp [role, hswap]
    rw [turn_swap _ hrole, scope_addEntry, ← hpriority]
    refine ⟨rfl, ⟨fun hmounted => by simp [hrole] at hmounted, fun _ => ?_⟩⟩
    show s.priority.isSome
    rw [hpriority]
    rfl
  · have hrole : role c .bcache item = .none := by simp [role, hnswap, hmount]
    refine ⟨?_, ⟨fun hmounted => by simp [hrole] at hmounted, fun hs => by simp [hrole] at hs⟩⟩
    rw [turn_none _ hrole]
    rfl
  · have hrole : role c .bcache item = .mounted := by simp [role, hnswap, hmount]
    have hvar : (s.store.assign (own c item)).var = some ref := href
    rw [turn_bcache _ hrole, scope_addEntry]
    refine ⟨?_, ⟨fun _ => ⟨?_, by simp [hmount]⟩, fun hs => by simp [hrole] at hs⟩⟩
    · rw [hmount]
      simp only [Locals.scope, hvar]
      rfl
    · show (s.store.assign (own c item)).var.isSome
      rw [hvar]
      rfl

/-! ## Volumes -/

theorem vgItem_scope {m : Machine} {s s' : Locals} {item : Item} (h : vgItem m s item = .ok s') :
    s'.scope = { s.scope with item := some item } := by
  obtain ⟨_, _, _, _, _, -, -, -, rfl⟩ := vgItem_ok h
  rfl

theorem lvItem_scope {c : Settings} {r : RefSizes} {s s' : Locals} {item : Item}
    (h : lvItem c r s item = .ok s') (supportsTrim : Bool) :
    s'.scope = s.scope.turn c .lv supportsTrim item ∧ Found c .lv item s'.scope := by
  obtain ⟨_, _, _, -, -, -, rfl⟩ := lvItem_ok h
  have hrole : role c .lv item = .none := rfl
  refine ⟨?_, ⟨fun hmounted => by simp [hrole] at hmounted, fun hs => by simp [hrole] at hs⟩⟩
  rw [turn_none _ hrole]
  rfl

theorem finish_swap {c : Settings} {supportsTrim : Bool} {v : Scope} {item : Item}
    (hitem : v.item = some item) (htype : v.part_type = some "swap")
    (hmkfs : item.mkfs_options = none) :
    v.finish c supportsTrim = { v with
      lines := v.lines ++ [⟨"swap", none, none, v.priority, some (c.mkfs_options "swap")⟩] } := by
  simp [Scope.finish, hitem, htype, hmkfs]

theorem finish_mounted {c : Settings} {supportsTrim : Bool} {v : Scope} {item : Item}
    {part_type : String} (hitem : v.item = some item) (htype : v.part_type = some part_type)
    (hmkfs : item.mkfs_options = none) (hswap : part_type ≠ "swap") :
    v.finish c supportsTrim = { v with
      store := v.store.append (trimmed supportsTrim part_type)
      lines := v.lines ++ [⟨c.fs_type, item.mount_point, v.store.var, none,
        some (c.mkfs_options part_type)⟩] } := by
  simp [Scope.finish, hitem, htype, hmkfs, hswap]

theorem addVolume_scope {c : Settings} {s s' : Locals} (h : addVolume c s = .ok s')
    {supportsTrim : Bool} (htrims : ∀ vg disks, s.vg = some vg → s.vg_disks.get vg = some disks →
      supportsTrim = disks.all (·.supportsTrim)) :
    s'.scope = s.scope.finish c supportsTrim ∧ (Sound s.scope → Sound s'.scope) := by
  obtain ⟨item, part_type, hitem, htype, h⟩ := addVolume_ok h
  have hi : s.scope.item = some item := hitem
  have ht : s.scope.part_type = some part_type := htype
  obtain ⟨hmkfs, rfl⟩ | ⟨hmkfs, vg, vg_name, name, size, disks, hvg, -, -, -, hdisks, h⟩ := h
  · exact ⟨by simp [Scope.finish, hi, ht, hmkfs], id⟩
  obtain ⟨rfl, priority, hpriority, rfl⟩ | ⟨hnswap, mount_point, ref, hmount, href, rfl⟩ := h
  · rw [scope_addEntry, finish_swap hi ht hmkfs, ← hpriority]
    refine ⟨rfl, fun hsound => hsound.add rfl (Nat.le_refl _) hsound.valid ?_ ?_⟩
    · simp [Entry.line]
    · simp [Entry.line, hpriority]
  · have hvar : s.store.var = some ref := href
    rw [scope_addEntry, finish_mounted hi ht hmkfs hnswap, htrims vg disks hvg hdisks, hmount,
      ← href]
    refine ⟨rfl, fun hsound => hsound.add rfl ?_ (hsound.valid.append _) ?_ ?_⟩
    · exact (Shared.Store.append_length _ _).ge
    · intro l hl _
      rw [List.mem_singleton] at hl
      subst hl
      exact ⟨by simp [Entry.line, href], (Shared.Store.append_var s.store _).symm⟩
    · simp [Entry.line]

/-! ## The members -/

theorem lookup_map_set {α : Type} (d : Dict α) (k k' : Int) (a : α) :
    (d.map fun p => if p.1 = k then (k, a) else p).lookup k' =
      if k' = k then (d.lookup k').map fun _ => a else d.lookup k' := by
  induction d with
  | nil => simp
  | cons p d ih =>
    rw [List.map_cons, List.lookup_cons, List.lookup_cons, ih]
    by_cases hp : p.1 = k
    · by_cases hk : k' = k
      · simp [hp, hk]
      · have hne : (k' == k) = false := beq_false_of_ne hk
        simp [hp, hk, hne]
    · by_cases hk : k' = k
      · have hne : (k == p.1) = false := beq_false_of_ne fun h => hp h.symm
        simp [hp, hk, hne]
      · simp [hp, hk]

theorem get_set {α : Type} (d : Dict α) (k k' : Int) (a : α) :
    (d.set k a).get k' = if k' = k then some a else d.get k' := by
  unfold Dict.set Dict.get
  cases hget : d.lookup k with
  | some b =>
    rw [Option.isSome_some, if_pos rfl, lookup_map_set]
    by_cases hk : k' = k <;> simp [hk, hget]
  | none =>
    rw [Option.isSome_none, if_neg (by simp), List.lookup_append]
    by_cases hk : k' = k
    · simp [hk, hget]
    · have hne : (k' == k) = false := beq_false_of_ne hk
      simp [hk, List.lookup_cons, hne]

theorem set_ne_nil {α : Type} (d : Dict α) (k : Int) (a : α) : d.set k a ≠ [] := by
  intro h
  have hget := get_set d k k a
  rw [h] at hget
  simp [Dict.get] at hget

/-- The drives of the members with a number. -/
def drivesAt (d : Dict (List (String × Drive))) (id : Int) : List Drive :=
  ((d.get id).getD []).map (·.2)

theorem drivesAt_push (d : Dict (List (String × Drive))) (group id : Int)
    (member : String × Drive) :
    drivesAt (d.push group member) id =
      drivesAt d id ++ if group = id then [member.2] else [] := by
  unfold drivesAt Dict.push
  rw [get_set]
  by_cases hid : id = group
  · simp [hid]
  · have hne : ¬ group = id := fun h => hid h.symm
    simp [hid, hne]

/-- What an item adds to the drives of the members with a number. -/
def memberDrive (m : Machine) (c : Settings) (type : String) (id : Int) (item : Item) :
    List Drive :=
  if partType c .target item = type ∧ item.group = some id then (driveOf m item).toList else []

/-- The drives of the members with a number, by the recipe. -/
def groupDrives (m : Machine) (c : Settings) (type : String) (id : Int) : List Drive :=
  (c.recipe.filter (·.target.isSome)).flatMap (memberDrive m c type id)

/-- A turn over an item with `target` adds its drive to the members it belongs to. -/
theorem targetItem_members {m : Machine} {c : Settings} {r : RefSizes} {s s' : Locals}
    {item : Item} (h : targetItem m c r s item = .ok s') :
    (∀ id, drivesAt s'.md_list id = drivesAt s.md_list id ++ memberDrive m c "md" id item) ∧
      (∀ id, drivesAt s'.pv_list id = drivesAt s.pv_list id ++ memberDrive m c "pv" id item) ∧
      (s'.pv_list = [] ↔ s.pv_list = [] ∧ partType c .target item ≠ "pv") := by
  obtain ⟨target, drive, size, globals, block_device, htarget, hdrive, -, h⟩ := targetItem_ok h
  -- an item of another type leaves both lists
  have hother (hmd : partType c .target item ≠ "md") (hpv : partType c .target item ≠ "pv")
      {s' : Locals} (hmd' : s'.md_list = s.md_list) (hpv' : s'.pv_list = s.pv_list) :
      (∀ id, drivesAt s'.md_list id = drivesAt s.md_list id ++ memberDrive m c "md" id item) ∧
        (∀ id, drivesAt s'.pv_list id = drivesAt s.pv_list id ++ memberDrive m c "pv" id item) ∧
        (s'.pv_list = [] ↔ s.pv_list = [] ∧ partType c .target item ≠ "pv") := by
    simp [hmd', hpv', memberDrive, hmd, hpv]
  obtain ⟨hswap, rfl⟩ | ⟨hblank, rfl⟩ | ⟨-, h⟩ := h
  · exact hother (by simp [hswap]) (by simp [hswap]) rfl rfl
  · obtain hb | he := hblank
    · exact hother (by simp [hb]) (by simp [hb]) rfl rfl
    · exact hother (by simp [he]) (by simp [he]) rfl rfl
  · obtain ⟨hmd, group, d, hgroup, hd, rfl⟩ | ⟨hbcache, _, _, rfl⟩ |
      ⟨hpv, group, d, hgroup, hd, rfl⟩ | ⟨hnot, _, _, _, -, -, -, rfl⟩ := placePartition_ok h
    · have hof : driveOf m item = some d := (driveOf_eq htarget hdrive).trans hd
      refine ⟨fun id => ?_, fun id => ?_, by simp [hmd, opened, Locals.withStore]⟩
      · rw [drivesAt_push]
        by_cases hid : group = id
        · simp [memberDrive, hmd, hgroup, hid, hof, opened, Locals.withStore]
        · simp [memberDrive, hmd, hgroup, hid, opened, Locals.withStore]
      · simp [memberDrive, hmd, opened, Locals.withStore]
    · exact hother (by simp [hbcache]) (by simp [hbcache]) rfl rfl
    · have hof : driveOf m item = some d := (driveOf_eq htarget hdrive).trans hd
      refine ⟨fun id => ?_, fun id => ?_, ?_⟩
      · simp [memberDrive, hpv, opened, Locals.withStore]
      · rw [drivesAt_push]
        by_cases hid : group = id
        · simp [memberDrive, hpv, hgroup, hid, hof, opened, Locals.withStore]
        · simp [memberDrive, hpv, hgroup, hid, opened, Locals.withStore]
      · simp only [hpv, ne_eq, not_true_eq_false, and_false, iff_false]
        exact set_ne_nil _ _ _
    · exact hother (fun hmd => hnot (by simp [hmd, memberTypes]))
        (fun hpv => hnot (by simp [hpv, memberTypes])) rfl rfl

/-! ## Runs over the items -/

/-- Whether the drives of an item can trim. -/
def trims (m : Machine) (c : Settings) (kind : Kind) (item : Item) : Bool :=
  match kind with
  | .target => driveTrims m item
  | .md => item.md.any fun md => (groupDrives m c "md" md).all (·.supportsTrim)
  | .bcache | .lv => false

/-- The turns over a list of items. -/
def Scope.run (m : Machine) (c : Settings) (items : List (Kind × Item)) (v : Scope) : Scope :=
  items.foldl (fun v w => v.turn c w.1 (trims m c w.1 w.2) w.2) v

theorem run_append (m : Machine) (c : Settings) (items items' : List (Kind × Item)) (v : Scope) :
    v.run m c (items ++ items') = (v.run m c items).run m c items' := by
  simp [Scope.run]

/-- The items with `target`, `md` and `bcache`, in the order of the work. -/
def work (recipe : List Item) : List (Kind × Item) :=
  (recipe.filter (·.target.isSome)).map (Kind.target, ·) ++
    (recipe.filter (·.md.isSome)).map (Kind.md, ·) ++
    (recipe.filter (·.bcache.isSome)).map (Kind.bcache, ·)

/-- The volumes of a recipe. -/
def lvs (recipe : List Item) : List Item := recipe.filter (·.lv.isSome)

/-- A loop is a run over its items, under what its turns keep. -/
theorem loop_scope {m : Machine} {c : Settings} (kind : Kind) {f : Locals → Item → Run Locals}
    {I : Locals → Prop} {items : List Item}
    (hf : ∀ s item s', f s item = .ok s' → I s →
      (s'.scope = s.scope.turn c kind (trims m c kind item) item ∧ Found c kind item s'.scope) ∧
        I s')
    {s s' : Locals} (h : items.foldlM f s = .ok s') (hs : Sound s.scope) (hI : I s) :
    s'.scope = s.scope.run m c (items.map (kind, ·)) ∧ Sound s'.scope ∧ I s' := by
  unfold Scope.run
  rw [List.foldl_map]
  refine foldlM_view Locals.scope (I := fun s => Sound s.scope ∧ I s) ?_ h ⟨hs, hI⟩
  intro s item _ s' hstep hinv
  obtain ⟨hsound, hinv⟩ := hinv
  obtain ⟨⟨hscope, hfound⟩, hinv'⟩ := hf s item s' hstep hinv
  refine ⟨hscope, ?_, hinv'⟩
  rw [hscope] at hfound ⊢
  exact hsound.turn hfound

/-- The line of a reservation for the boot loader. -/
def bootLines (m : Machine) (c : Settings) : List Line :=
  if c.partition_type = "gpt" then [(reservedEntry m c "").line] else []

/-- The variables before the first item. -/
def startScope (m : Machine) (c : Settings) (boot_drives : List String) : Scope where
  lines := boot_drives.flatMap fun _ => bootLines m c
  store := ⟨[c.default_mounting_options], none⟩
  priority := none
  part_type := none
  item := none

theorem mem_bootLines {m : Machine} {c : Settings} {l : Line} (h : l ∈ bootLines m c) :
    l = (reservedEntry m c "").line := by
  unfold bootLines at h
  split at h
  · exact List.mem_singleton.mp h
  · simp at h

theorem startScope_sound (m : Machine) (c : Settings) (boot_drives : List String) :
    Sound (startScope m c boot_drives) where
  valid := by
    intro r hr
    cases hr
  options := by
    intro l hl hmount
    obtain ⟨-, -, hl⟩ := List.mem_flatMap.mp hl
    obtain rfl := mem_bootLines hl
    cases hefi : m.efi with
    | false => simp [reservedEntry, Entry.line, hefi] at hmount
    | true => exact ⟨0, by simp [reservedEntry, Entry.line, hefi], Nat.one_pos⟩
  priority := by
    intro l hl _ htype
    obtain ⟨-, -, hl⟩ := List.mem_flatMap.mp hl
    obtain rfl := mem_bootLines hl
    simp [reservedEntry, Entry.line] at htype

theorem foldl_lines (ls : List Line) (drives : List String) (v : Scope) :
    drives.foldl (fun v _ => { v with lines := v.lines ++ ls }) v =
      { v with lines := v.lines ++ drives.flatMap fun _ => ls } := by
  induction drives generalizing v with
  | nil => simp
  | cons d drives ih => simp [ih]

theorem reserveBoot_scope {m : Machine} {c : Settings} {globals : Globals} {drives : List String}
    {s : Locals} (h : drives.foldlM (reserveBoot m c) { start c with globals := globals } = .ok s) :
    s.scope = startScope m c drives ∧ s.md_list = [] ∧ s.pv_list = [] := by
  have hview : s.scope = drives.foldl (fun v _ => { v with lines := v.lines ++ bootLines m c })
      { start c with globals := globals }.scope ∧ s.md_list = [] ∧ s.pv_list = [] := by
    refine foldlM_view Locals.scope (I := fun s => s.md_list = [] ∧ s.pv_list = []) ?_ h ⟨rfl, rfl⟩
    intro s drive _ s' hstep hs
    obtain ⟨globals, grub_partition, rfl⟩ := reserveBoot_ok hstep
    refine ⟨?_, hs⟩
    unfold bootLines
    split
    · simp [Locals.scope, Locals.store, reservedEntry, Entry.line]
    · simp [Locals.scope, Locals.store]
  rw [foldl_lines] at hview
  exact hview

/-- Nothing is a member of a volume group. -/
def NoVolumes (c : Settings) : Prop :=
  ∀ i ∈ c.recipe, i.target.isSome → partType c .target i ≠ "pv"

/-- What the turns over the items with `target` keep. -/
theorem targetItem_run {m : Machine} {c : Settings} {r : RefSizes} {s s' : Locals}
    (h : (c.recipe.filter (·.target.isSome)).foldlM (targetItem m c r) s = .ok s')
    (hmd : s.md_list = []) (hpv : s.pv_list = []) :
    (∀ id, drivesAt s'.md_list id = groupDrives m c "md" id) ∧
      (∀ id, drivesAt s'.pv_list id = groupDrives m c "pv" id) ∧
      (s'.pv_list = [] ↔ NoVolumes c) := by
  refine ⟨fun id => ?_, fun id => ?_, ?_⟩
  · have hview : drivesAt s'.md_list id = (c.recipe.filter (·.target.isSome)).foldl
        (fun d i => d ++ memberDrive m c "md" id i) (drivesAt s.md_list id) ∧ True := by
      refine foldlM_view (fun t => drivesAt t.md_list id) (I := fun _ => True)
        (fun t item _ t' hstep _ => ?_) h trivial
      exact ⟨(targetItem_members hstep).1 id, trivial⟩
    rw [hview.1, hmd, groupDrives, List.flatMap_eq_foldl]
    rfl
  · have hview : drivesAt s'.pv_list id = (c.recipe.filter (·.target.isSome)).foldl
        (fun d i => d ++ memberDrive m c "pv" id i) (drivesAt s.pv_list id) ∧ True := by
      refine foldlM_view (fun t => drivesAt t.pv_list id) (I := fun _ => True)
        (fun t item _ t' hstep _ => ?_) h trivial
      exact ⟨(targetItem_members hstep).2.1 id, trivial⟩
    rw [hview.1, hpv, groupDrives, List.flatMap_eq_foldl]
    rfl
  · have hiff := foldlM_iff (P := fun s => s.pv_list = [])
      (fun t item _ t' hstep => (targetItem_members hstep).2.2) h
    simpa [hpv, NoVolumes, List.mem_filter] using hiff

theorem mdItem_lists {c : Settings} {s s' : Locals} {item : Item} (h : mdItem c s item = .ok s') :
    s'.md_list = s.md_list ∧ s'.pv_list = s.pv_list := by
  obtain ⟨_, _, _, _, _, -, -, ⟨-, _, -, rfl⟩ | ⟨-, _, _, rfl⟩ | ⟨-, -, -, rfl⟩ |
    ⟨-, -, _, _, -, -, rfl⟩⟩ := mdItem_ok h <;> exact ⟨rfl, rfl⟩

theorem bcacheItem_lists {m : Machine} {c : Settings} {s s' : Locals} {item : Item}
    (h : bcacheItem m c s item = .ok s') : s'.pv_list = s.pv_list := by
  obtain ⟨_, _, -, ⟨-, _, -, rfl⟩ | ⟨-, -, rfl⟩ | ⟨-, _, _, -, -, rfl⟩⟩ := bcacheItem_ok h <;> rfl

/-- What an array needs to know of the drives is what the recipe says. -/
theorem arrayTrims_eq {m : Machine} {c : Settings} {s : Locals}
    (h : ∀ id, drivesAt s.md_list id = groupDrives m c "md" id) (item : Item) :
    arrayTrims s item = trims m c .md item := by
  unfold arrayTrims trims
  refine congrArg (item.md.any ·) (funext fun md => ?_)
  rw [← h, drivesAt, List.all_map]
  rfl

/-- Nothing has been done for the volumes yet. -/
structure Untouched (s : Locals) : Prop where
  vg_names : s.vg_names = []
  vg_disks : s.vg_disks = []
  commands : s.commands.filterMap Command.volume = []

theorem Untouched.execute {s : Locals} (h : Untouched s) {commands : List Command}
    (hcommands : commands.filterMap Command.volume = []) : Untouched (s.execute commands) :=
  ⟨h.vg_names, h.vg_disks, by simp [Locals.execute, h.commands, hcommands]⟩

theorem targetItem_untouched {m : Machine} {c : Settings} {r : RefSizes} {s s' : Locals}
    {item : Item} (h : targetItem m c r s item = .ok s') (hs : Untouched s) : Untouched s' := by
  obtain ⟨_, _, _, _, _, -, -, -, h⟩ := targetItem_ok h
  obtain ⟨hnames, hdisks, hcommands⟩ := hs
  obtain ⟨-, rfl⟩ | ⟨-, rfl⟩ | ⟨-, h⟩ := h
  · exact ⟨hnames, hdisks, hcommands⟩
  · exact ⟨hnames, hdisks, hcommands⟩
  · obtain ⟨-, _, _, -, -, rfl⟩ | ⟨-, _, _, rfl⟩ | ⟨-, _, _, -, -, rfl⟩ |
      ⟨-, _, _, _, -, -, -, rfl⟩ := placePartition_ok h <;> exact ⟨hnames, hdisks, hcommands⟩

theorem mdItem_untouched {c : Settings} {s s' : Locals} {item : Item}
    (h : mdItem c s item = .ok s') (hs : Untouched s) : Untouched s' := by
  obtain ⟨md, members, level, meta_version, _, -, -, h⟩ := mdItem_ok h
  have hs₁ : Untouched (assigned c .md item s) := ⟨hs.vg_names, hs.vg_disks, hs.commands⟩
  have hquiet : [Command.mdadm ("/dev/md" ++ toString md) meta_version level
      (members.map (·.1))].filterMap Command.volume = [] := rfl
  obtain ⟨hnames, hdisks, hcommands⟩ := hs₁.execute hquiet
  obtain ⟨-, _, -, rfl⟩ | ⟨-, _, _, rfl⟩ | ⟨-, -, -, rfl⟩ | ⟨-, -, _, _, -, -, rfl⟩ := h <;>
    exact ⟨hnames, hdisks, hcommands⟩

theorem bcacheItem_untouched {m : Machine} {c : Settings} {s s' : Locals} {item : Item}
    (h : bcacheItem m c s item = .ok s') (hs : Untouched s) : Untouched s' := by
  obtain ⟨commands, _, hquiet, h⟩ := bcacheItem_ok h
  have hs₁ : Untouched (assigned c .bcache item s) := ⟨hs.vg_names, hs.vg_disks, hs.commands⟩
  obtain ⟨hnames, hdisks, hcommands⟩ := hs₁.execute hquiet
  obtain ⟨-, _, -, rfl⟩ | ⟨-, -, rfl⟩ | ⟨-, _, _, -, -, rfl⟩ := h <;>
    exact ⟨hnames, hdisks, hcommands⟩

/-- The layout does nothing for the volumes. -/
theorem layout_untouched {m : Machine} {c : Settings} {s : Locals} {r : RefSizes}
    {boot_drives : List String} (h : layout m c = .ok (s, r, boot_drives)) : Untouched s := by
  obtain ⟨globals, s₁, s₂, drives, s₃, -, -, hreserve, htarget, hmd, hbcache⟩ := layout_ok h
  have h₁ : Untouched s₁ := by
    refine foldlM_inv (I := Untouched) (fun t d _ t' hstep ht => ?_) hreserve ⟨rfl, rfl, rfl⟩
    obtain ⟨_, _, rfl⟩ := reserveBoot_ok hstep
    exact ⟨ht.vg_names, ht.vg_disks, ht.commands⟩
  have h₂ : Untouched s₂ :=
    foldlM_inv (fun _ _ _ _ hstep ht => targetItem_untouched hstep ht) htarget h₁
  have hparted : Untouched (runParted drives s₂) := by
    refine h₂.execute ?_
    simp [List.filterMap_eq_nil_iff, Command.volume]
  have h₃ : Untouched s₃ :=
    foldlM_inv (fun _ _ _ _ hstep ht => mdItem_untouched hstep ht) hmd hparted
  exact foldlM_inv (fun _ _ _ _ hstep ht => bcacheItem_untouched hstep ht) hbcache h₃

/-- **The layout is a run over the items.** -/
theorem layout_scope {m : Machine} {c : Settings} {s : Locals} {r : RefSizes}
    {boot_drives : List String} (h : layout m c = .ok (s, r, boot_drives)) :
    s.scope = (startScope m c boot_drives).run m c (work c.recipe) ∧ Sound s.scope ∧
      (∀ id, drivesAt s.pv_list id = groupDrives m c "pv" id) ∧ (s.pv_list = [] ↔ NoVolumes c) := by
  obtain ⟨globals, s₁, s₂, drives, s₃, -, -, hreserve, htarget, hmd, hbcache⟩ := layout_ok h
  obtain ⟨hstart, hnomd, hnopv⟩ := reserveBoot_scope hreserve
  obtain ⟨hmembers, hvolumes, hnone⟩ := targetItem_run htarget hnomd hnopv
  have hsound : Sound s₁.scope := hstart ▸ startScope_sound m c boot_drives
  obtain ⟨h₂, hsound₂, -⟩ := loop_scope .target (m := m) (I := fun _ => True)
    (fun s item s' hstep _ => ⟨targetItem_scope hstep, trivial⟩) htarget hsound trivial
  obtain ⟨h₃, hsound₃, -, hpv₃⟩ := loop_scope .md (m := m)
    (I := fun s => (∀ id, drivesAt s.md_list id = groupDrives m c "md" id) ∧
      s.pv_list = s₂.pv_list)
    (fun s item s' hstep hs => by
      obtain ⟨hmd', hpv'⟩ := mdItem_lists hstep
      rw [← arrayTrims_eq hs.1, hmd', hpv']
      exact ⟨mdItem_scope hstep, hs⟩) hmd hsound₂ ⟨hmembers, rfl⟩
  obtain ⟨h₄, hsound₄, hpv₄⟩ := loop_scope .bcache (m := m)
    (I := fun s => s.pv_list = s₂.pv_list)
    (fun s item s' hstep hs => ⟨bcacheItem_scope hstep _, (bcacheItem_lists hstep).trans hs⟩)
    hbcache hsound₃ hpv₃
  refine ⟨?_, hsound₄, hpv₄ ▸ hvolumes, hpv₄ ▸ hnone⟩
  have hparted : (runParted drives s₂).scope = s₂.scope := rfl
  rw [h₄, h₃, hparted, h₂, hstart, work, run_append, run_append]

/-! ## The volumes of a run -/

/-- The volume groups of a recipe. -/
def vgs (recipe : List Item) : List Item := recipe.filter (·.vg.isSome)

/-- The number of the last volume, or else of the last volume group. -/
def lastGroup (recipe : List Item) : Option Int :=
  match (lvs recipe).getLast?, (vgs recipe).getLast? with
  | some i, _ => i.lv
  | none, some i => i.vg
  | none, none => none

/-- Whether the drives of that group can trim. -/
def volumeTrims (m : Machine) (c : Settings) : Bool :=
  (lastGroup c.recipe).any fun vg => (groupDrives m c "pv" vg).all (·.supportsTrim)

/-- The items of the volume groups. -/
def Scope.groups (items : List Item) (v : Scope) : Scope :=
  items.foldl (fun v i => { v with item := some i }) v

/-- What is done for the volumes. -/
def Scope.volumes (m : Machine) (c : Settings) (v : Scope) : Scope :=
  ((v.groups (vgs c.recipe)).run m c ((lvs c.recipe).map (Kind.lv, ·))).finish c (volumeTrims m c)

theorem Sound.groups {v : Scope} (h : Sound v) (items : List Item) : Sound (v.groups items) := by
  refine foldl_inv (I := Sound) (fun v i _ hv => ?_) h
  exact ⟨hv.valid, hv.options, hv.priority⟩

/-- The loop over the items with `vg`. -/
theorem vgItem_run {m : Machine} {c : Settings} {items : List Item} {s s' : Locals}
    (h : items.foldlM (vgItem m) s = .ok s')
    (hpv : ∀ id, drivesAt s.pv_list id = groupDrives m c "pv" id) (hdisks : s.vg_disks = []) :
    s'.scope = s.scope.groups items ∧ s'.vg = (items.getLast?.map (·.vg)).getD s.vg ∧
      ∀ vg disks, s'.vg_disks.get vg = some disks →
        items ≠ [] ∧ disks = groupDrives m c "pv" vg := by
  refine ⟨?_, ?_, ?_⟩
  · exact (foldlM_view Locals.scope (I := fun _ => True)
      (fun t i _ t' hstep _ => ⟨vgItem_scope hstep, trivial⟩) h trivial).1
  · have hvg : s'.vg = items.foldl (fun _ i => i.vg) s.vg ∧ True := by
      refine foldlM_view Locals.vg (I := fun _ => True) (fun t i _ t' hstep _ => ?_) h trivial
      obtain ⟨vg, _, _, _, _, hvg, -, -, rfl⟩ := vgItem_ok hstep
      exact ⟨hvg.symm, trivial⟩
    exact hvg.1.trans (foldl_last id (g := Item.vg) (fun _ _ => rfl) items s.vg)
  · have hinv : s'.pv_list = s.pv_list ∧ ∀ vg disks, s'.vg_disks.get vg = some disks →
        items ≠ [] ∧ disks = groupDrives m c "pv" vg := by
      refine foldlM_inv (I := fun t => t.pv_list = s.pv_list ∧ ∀ vg disks,
        t.vg_disks.get vg = some disks → items ≠ [] ∧ disks = groupDrives m c "pv" vg)
        (fun t i hi t' hstep ht => ?_) h ⟨rfl, by simp [hdisks, Dict.get]⟩
      obtain ⟨vg, name, members, _, _, -, hmembers, -, rfl⟩ := vgItem_ok hstep
      refine ⟨ht.1, fun vg' disks hget => ?_⟩
      simp only [get_set] at hget
      by_cases hvg : vg' = vg
      · rw [if_pos hvg, Option.some.injEq] at hget
        refine ⟨List.ne_nil_of_mem hi, ?_⟩
        rw [← hget, hvg, ← hpv, drivesAt, ← ht.1, hmembers]
        rfl
      · rw [if_neg hvg] at hget
        exact ht.2 vg' disks hget
    exact hinv.2

/-- The items in the order of the work, with the volume groups and the volumes. -/
def lastItem (recipe : List Item) : Option Item :=
  ((work recipe).map (·.2) ++ vgs recipe ++ lvs recipe).getLast?

/-- The type of the last item that is not a volume group. -/
def lastType (c : Settings) : Option String :=
  ((work c.recipe ++ (lvs c.recipe).map (Kind.lv, ·)).map fun w => partType c w.1 w.2).getLast?

theorem run_item (m : Machine) (c : Settings) (items : List (Kind × Item)) (v : Scope) :
    (v.run m c items).item = ((items.map (·.2)).getLast?).or v.item := by
  rw [Scope.run, foldl_last Scope.item (g := fun w => some w.2) (fun _ _ => rfl),
    List.getLast?_map]
  cases items.getLast? <;> rfl

theorem run_part_type (m : Machine) (c : Settings) (items : List (Kind × Item)) (v : Scope) :
    (v.run m c items).part_type =
      ((items.map fun w => partType c w.1 w.2).getLast?).or v.part_type := by
  rw [Scope.run, foldl_last Scope.part_type (g := fun w => some (partType c w.1 w.2))
    (fun _ _ => rfl), List.getLast?_map]
  cases items.getLast? <;> rfl

theorem groups_item (items : List Item) (v : Scope) :
    (v.groups items).item = items.getLast?.or v.item := by
  rw [Scope.groups, foldl_last Scope.item (g := fun i => some i) (fun _ _ => rfl)]
  cases items.getLast? <;> rfl

theorem groups_keeps (items : List Item) (v : Scope) :
    (v.groups items).lines = v.lines ∧ (v.groups items).store = v.store ∧
      (v.groups items).priority = v.priority ∧ (v.groups items).part_type = v.part_type := by
  have hkeeps := foldl_keeps (f := fun (v : Scope) (i : Item) => { v with item := some i })
    (fun v => (v.lines, v.store, v.priority, v.part_type)) (fun _ _ => rfl) items v
  simpa [Scope.groups] using hkeeps

/-- The variables before the last volume. -/
theorem last_item (m : Machine) (c : Settings) (boot_drives : List String) :
    let v := (((startScope m c boot_drives).run m c (work c.recipe)).groups (vgs c.recipe)).run m c
      ((lvs c.recipe).map (Kind.lv, ·))
    v.item = lastItem c.recipe ∧ v.part_type = lastType c := by
  constructor
  · rw [run_item, groups_item, run_item, lastItem, List.getLast?_append, List.getLast?_append]
    simp [startScope, List.map_map, Function.comp_def]
  · rw [run_part_type, (groups_keeps _ _).2.2.2, run_part_type, lastType, List.map_append,
      List.getLast?_append]
    simp [startScope]

theorem vgItem_keeps {m : Machine} {s s' : Locals} {item : Item} (h : vgItem m s item = .ok s') :
    s'.filesystem_list = s.filesystem_list ∧
      s'.commands.filterMap Command.volume = s.commands.filterMap Command.volume := by
  obtain ⟨_, _, _, commands, _, -, -, hcommands, rfl⟩ := vgItem_ok h
  exact ⟨rfl, by simp [hcommands]⟩

/-- What there is before the last volume is made. -/
structure BeforeVolume (m : Machine) (c : Settings) (s s₂ : Locals) : Prop where
  scope : s₂.scope =
    (s.scope.groups (vgs c.recipe)).run m c ((lvs c.recipe).map (Kind.lv, ·))
  sound : Sound s₂.scope
  vg : ∀ i, (lvs c.recipe).getLast? = some i → s₂.vg = i.lv
  trims : ∀ vg disks, s₂.vg = some vg → s₂.vg_disks.get vg = some disks →
    volumeTrims m c = disks.all (·.supportsTrim)
  filesystem_list : s₂.filesystem_list = s.filesystem_list
  commands : s₂.commands.filterMap Command.volume = s.commands.filterMap Command.volume

/-- The loops over the volume groups and the volumes. -/
theorem volumes_turns {m : Machine} {c : Settings} {r : RefSizes} {s s' : Locals}
    (h : volumes m c r s = .ok s') (hs : Sound s.scope)
    (hpv : ∀ id, drivesAt s.pv_list id = groupDrives m c "pv" id) (hdisks : s.vg_disks = []) :
    (s.pv_list = [] ∧ s' = s) ∨
      (s.pv_list ≠ [] ∧ ∃ s₂, BeforeVolume m c s s₂ ∧ addVolume c s₂ = .ok s') := by
  obtain ⟨hnil, rfl⟩ | ⟨hnil, commands, s₁, s₂, hcommands, hvg, hlv, hadd⟩ := volumes_ok h
  · exact .inl ⟨hnil, rfl⟩
  refine .inr ⟨hnil, s₂, ?_, hadd⟩
  obtain ⟨h₁, hgroup, hdrives⟩ := vgItem_run (m := m) (c := c) hvg hpv hdisks
  have hsound₁ : Sound s₁.scope := by
    rw [h₁]
    exact Sound.groups hs _
  -- the volumes change their variables, and nothing else
  obtain ⟨h₂, hsound₂, hdisks₂, hlist₂, hcommands₂⟩ := loop_scope .lv (m := m)
    (I := fun s => s.vg_disks = s₁.vg_disks ∧ s.filesystem_list = s₁.filesystem_list ∧
      s.commands = s₁.commands)
    (fun s item s' hstep hs => by
      refine ⟨lvItem_scope hstep _, ?_⟩
      obtain ⟨_, _, _, -, -, -, rfl⟩ := lvItem_ok hstep
      exact hs) hlv hsound₁ ⟨rfl, rfl, rfl⟩
  have hvg₂ : s₂.vg = ((lvs c.recipe).getLast?.map (·.lv)).getD s₁.vg := by
    have hlast : s₂.vg = (lvs c.recipe).foldl (fun _ i => i.lv) s₁.vg ∧ True := by
      refine foldlM_view Locals.vg (I := fun _ => True) (fun t i _ t' hstep _ => ?_) hlv trivial
      obtain ⟨vg, _, _, hvg, -, -, rfl⟩ := lvItem_ok hstep
      exact ⟨hvg.symm, trivial⟩
    exact hlast.1.trans (foldl_last id (g := Item.lv) (fun _ _ => rfl) (lvs c.recipe) s₁.vg)
  obtain ⟨hlist₁, hcommands₁⟩ : s₁.filesystem_list = s.filesystem_list ∧
      s₁.commands.filterMap Command.volume = s.commands.filterMap Command.volume := by
    refine foldlM_inv (I := fun t => t.filesystem_list = s.filesystem_list ∧
      t.commands.filterMap Command.volume = s.commands.filterMap Command.volume)
      (fun t i _ t' hstep ht => ?_) hvg ⟨rfl, by simp [Locals.execute, hcommands]⟩
    obtain ⟨hlist, hmade⟩ := vgItem_keeps hstep
    exact ⟨hlist.trans ht.1, hmade.trans ht.2⟩
  refine ⟨?_, hsound₂, fun i hi => by simp [hvg₂, hi], fun vg disks hvg hget => ?_,
    hlist₂.trans hlist₁, by rw [hcommands₂, hcommands₁]⟩
  · rw [h₂, h₁]
    rfl
  · obtain ⟨hitems, rfl⟩ := hdrives vg disks (hdisks₂ ▸ hget)
    have hlast : lastGroup c.recipe = some vg := by
      rw [← hvg, hvg₂, hgroup]
      unfold lastGroup
      cases (lvs c.recipe).getLast? with
      | some i => rfl
      | none =>
        obtain ⟨i, hi⟩ := Option.isSome_iff_exists.mp (List.getLast?_isSome.mpr hitems)
        rw [vgs, hi]
        rfl
    rw [volumeTrims, hlast, Option.any_some]

/-- **What is done for the volumes**, where there are members of volume groups. -/
theorem volumes_scope {m : Machine} {c : Settings} {r : RefSizes} {s s' : Locals}
    (h : volumes m c r s = .ok s') (hs : Sound s.scope)
    (hpv : ∀ id, drivesAt s.pv_list id = groupDrives m c "pv" id)
    (hnone : s.pv_list = [] ↔ NoVolumes c) (hdisks : s.vg_disks = []) :
    Sound s'.scope ∧ (NoVolumes c → s'.scope = s.scope) ∧
      (¬ NoVolumes c → s'.scope = s.scope.volumes m c) := by
  obtain ⟨hnil, rfl⟩ | ⟨hnil, s₂, hbefore, hadd⟩ := volumes_turns h hs hpv hdisks
  · exact ⟨hs, fun _ => rfl, fun hvolumes => absurd (hnone.mp hnil) hvolumes⟩
  · obtain ⟨hscope, hsound⟩ := addVolume_scope hadd hbefore.trims
    refine ⟨hsound hbefore.sound, fun hvolumes => absurd (hnone.mpr hvolumes) hnil, fun _ => ?_⟩
    rw [hscope, hbefore.scope]
    rfl

/-- **A run of `partition` is a run over its items.** -/
theorem partition_scope {p : Profile} {v : ValueMap} {m : Machine} {c : Settings} {s : Locals}
    {boot_drives : List String} (hc : settings p v = .ok c)
    (h : partition p v m = .ok (s, boot_drives)) :
    let v₀ := (startScope m c boot_drives).run m c (work c.recipe)
    Sound s.scope ∧ (NoVolumes c → s.scope = v₀) ∧ (¬ NoVolumes c → s.scope = v₀.volumes m c) := by
  obtain ⟨c', s₁, r, hc', hlayout, hvolumes⟩ := partition_ok h
  obtain rfl : c = c' := Except.ok.inj (hc.symm.trans hc')
  obtain ⟨hscope, hsound, hpv, hnone⟩ := layout_scope hlayout
  have hfinal := volumes_scope hvolumes hsound hpv hnone (layout_untouched hlayout).vg_disks
  rw [hscope] at hfinal
  exact hfinal

end Filesystem
