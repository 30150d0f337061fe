import Disks.Install.Filesystem
import Disks.Lib.Span
import Mathlib.Data.List.Pairwise

/-!
# The partitions of a device do not overlap

What a sequence of `addPartition` calls gives each device. A position below zero counts from the
end of the device, so a device of `C` megabytes has its position `s` at `C + s` then (`place`).

* `addPartition_cases`: what one call does.
* `addPartitions_device`: the partitions, the names and the positions of one device, for a whole
  sequence of calls.
* `reserve_sorted`, `reserve_nonempty_iff`: where no call overruns the room left at the end
  (`Inside`), each partition starts at or after the end of every earlier one.
* `layout_iff`: **the partitions of every device are non-empty, in order and apart exactly when
  `Inside` holds.**
-/

namespace Filesystem

/-! ## The requests of a device -/

/-- What is asked of a device: the types and sizes of its calls. -/
def requests (d : String) (calls : List Call) : List (PartType × Int) :=
  (calls.filter (·.block_device = d)).map fun c => (c.part_type, int c.size)

/-- The offsets of all the requests, blank ones included, from position `s` on. -/
def reserve : Int → List (PartType × Int) → List (PartType × Offsets)
  | _, [] => []
  | s, (t, z) :: rest => (t, (offsets s z).1) :: reserve (offsets s z).2 rest

/-- No request follows one after which the device is full. -/
def Open : Int → List (PartType × Int) → Prop
  | _, [] => True
  | s, (_, z) :: rest => ((offsets s z).2 = 0 → rest = []) ∧ Open (offsets s z).2 rest

/-- The offsets of the `mkpart` commands among the reservations. -/
def parts (l : List (PartType × Offsets)) : List Offsets :=
  (l.filter (·.1 ≠ .blank)).map (·.2)

/-- The offsets of a command that makes a partition. -/
def Task.part : Task → Option Offsets
  | .mkpart _ offsets => some offsets
  | _ => none

/-- The offsets given to `parted mkpart` for a device. -/
def mkparts (d : String) (g : Globals) : List Offsets :=
  ((g.parted_task_map d).getD []).filterMap Task.part

/-- How many partitions the device has. -/
def counted (d : String) (g : Globals) : Nat :=
  match g.partition_pos d with
  | none => 0
  | some _ => (g.partition_counter d).getD 0

/-- The names returned for the partitions of a device. -/
def namesOn (d : String) (calls : List Call) (names : List (Option String)) :
    List (Option String) :=
  ((calls.zip names).filter fun p => p.1.block_device = d ∧ p.1.part_type ≠ .blank).map (·.2)

/-! ## One call -/

theorem nextStart_cases {b : String} {g g₀ : Globals} {start : Int}
    (h : nextStart b g = .ok (start, g₀)) :
    g.partition_pos b ≠ some 0 ∧ start = (g.partition_pos b).getD 0 ∧
      g₀.partition_pos = g.partition_pos ∧ g₀.parted_task_map = g.parted_task_map ∧
      (∀ d, d ≠ b → g₀.partition_counter d = g.partition_counter d) ∧
      (g₀.partition_counter b).getD 0 = counted b g := by
  unfold nextStart at h
  unfold counted
  cases hpos : g.partition_pos b with
  | some s =>
    simp only [hpos] at h
    split at h
    · cases h
    · rename_i hne
      cases h
      exact ⟨fun heq => hne (Option.some.inj heq), rfl, rfl, rfl, fun _ _ => rfl, rfl⟩
  | none =>
    simp only [hpos] at h
    cases h
    exact ⟨nofun, rfl, rfl, rfl, fun d hd => Function.update_of_ne hd _ _, by simp⟩

/-- What a call does that does not raise. -/
theorem addPartition_cases {b : String} {t : PartType} {size : Rat} {g g' : Globals}
    {name : Option String} (h : addPartition b t size g = .ok (name, g')) :
    g.partition_pos b ≠ some 0 ∧
      g'.partition_pos = Function.update g.partition_pos b
        (some (offsets ((g.partition_pos b).getD 0) (int size)).2) ∧
      (∀ d, d ≠ b → g'.partition_counter d = g.partition_counter d) ∧
      (t = .blank ∧ name = none ∧ g'.parted_task_map = g.parted_task_map ∧
          counted b g' = counted b g ∨
        t ≠ .blank ∧ name = some (devName b (counted b g + 1)) ∧
          counted b g' = counted b g + 1 ∧ ∃ tasks cmds, g.parted_task_map b = some tasks ∧
            commands t (offsets ((g.partition_pos b).getD 0) (int size)).1 = some cmds ∧
            g'.parted_task_map =
              Function.update g.parted_task_map b (some (tasks ++ cmds))) := by
  unfold addPartition at h
  split at h
  · cases h
  rename_i start g₀ hstart
  obtain ⟨hopen, rfl, hpos, htasks, hother, hcount⟩ := nextStart_cases hstart
  simp only at h
  split at h
  · rename_i ht
    cases h
    refine ⟨hopen, by rw [hpos], hother, .inl ⟨ht, rfl, htasks, ?_⟩⟩
    simpa [counted] using hcount
  rename_i ht
  split at h
  · cases h
  rename_i counter hcounter
  split at h
  · cases h
  rename_i cmds hcmds
  split at h
  · cases h
  rename_i tasks htasks'
  cases h
  rw [hcounter, Option.getD_some] at hcount
  refine ⟨hopen, by rw [hpos], fun d hd => ?_, .inr ⟨ht, by rw [hcount], ?_, tasks, cmds,
    by rw [← htasks, htasks'], hcmds, by rw [htasks]⟩⟩
  · simp only
    rw [Function.update_of_ne hd, hother d hd]
  · simp [counted, hcount]

theorem commands_part {t : PartType} {o : Offsets} {cmds : List Task}
    (h : commands t o = some cmds) : cmds.filterMap Task.part = [o] := by
  cases t <;> cases h <;> rfl

/-! ## All the calls of one device -/

theorem requests_cons_self (c : Call) (calls : List Call) :
    requests c.block_device (c :: calls) =
      (c.part_type, int c.size) :: requests c.block_device calls := by
  simp [requests]

theorem requests_cons_of_ne {c : Call} {d : String} (h : c.block_device ≠ d) (calls : List Call) :
    requests d (c :: calls) = requests d calls := by
  simp [requests, h]

theorem addPartitions_cons {c : Call} {calls : List Call} {g g' : Globals}
    {names : List (Option String)} (h : addPartitions (c :: calls) g = .ok (names, g')) :
    ∃ name names' g₁, addPartition c.block_device c.part_type c.size g = .ok (name, g₁) ∧
      addPartitions calls g₁ = .ok (names', g') ∧ names = name :: names' := by
  unfold addPartitions at h
  cases hfirst : addPartition c.block_device c.part_type c.size g with
  | error e => simp [hfirst, bind, Except.bind] at h
  | ok r =>
    obtain ⟨name, g₁⟩ := r
    cases hrest : addPartitions calls g₁ with
    | error e => simp [hfirst, hrest, bind, Except.bind] at h
    | ok r =>
      obtain ⟨names', g₂⟩ := r
      simp only [hfirst, hrest, bind, Except.bind, pure, Except.pure, Except.ok.injEq,
        Prod.mk.injEq] at h
      obtain ⟨rfl, rfl⟩ := h
      exact ⟨name, names', g₁, rfl, hrest, rfl⟩

/-- **One device of a sequence of calls that does not raise**: nothing is asked of it once it is
full, and its partitions and their names are those of its requests, in their order. -/
theorem addPartitions_device (d : String) {calls : List Call} {g g' : Globals}
    {names : List (Option String)} (h : addPartitions calls g = .ok (names, g')) :
    (g.partition_pos d = some 0 → requests d calls = []) ∧
      Open ((g.partition_pos d).getD 0) (requests d calls) ∧
      mkparts d g' =
        mkparts d g ++ parts (reserve ((g.partition_pos d).getD 0) (requests d calls)) ∧
      namesOn d calls names =
        (List.range (parts (reserve ((g.partition_pos d).getD 0) (requests d calls))).length).map
          fun k => some (devName d (counted d g + (k + 1))) := by
  induction calls generalizing g names with
  | nil =>
    cases h
    exact ⟨fun _ => rfl, trivial, (List.append_nil _).symm, rfl⟩
  | cons c calls ih =>
    obtain ⟨name, names', g₁, hcall, hcalls, rfl⟩ := addPartitions_cons h
    obtain ⟨hopen, hpos, hother, hcase⟩ := addPartition_cases hcall
    obtain ⟨ihfull, ihopen, ihparts, ihnames⟩ := ih hcalls
    by_cases hd : c.block_device = d
    · subst hd
      rw [hpos, Function.update_self, Option.getD_some] at ihopen ihparts ihnames
      rw [requests_cons_self]
      refine ⟨fun hfull => absurd hfull hopen, ⟨fun hfull => ?_, ihopen⟩, ?_, ?_⟩
      · exact ihfull (by rw [hpos, Function.update_self, hfull])
      · rw [ihparts]
        rcases hcase with ⟨ht, -, htasks, -⟩ | ⟨ht, -, -, tasks, cmds, htasks, hcmds, htasks'⟩
        · simp [mkparts, parts, reserve, htasks, ht]
        · simp [mkparts, parts, reserve, htasks, htasks', ht, commands_part hcmds]
      · rcases hcase with ⟨ht, -, -, hcount⟩ | ⟨ht, rfl, hcount, -⟩
        · rw [hcount] at ihnames
          simpa [namesOn, parts, reserve, ht] using ihnames
        · rw [hcount] at ihnames
          have hnames : namesOn c.block_device (c :: calls)
              (some (devName c.block_device (counted c.block_device g + 1)) :: names') =
              some (devName c.block_device (counted c.block_device g + 1)) ::
                namesOn c.block_device calls names' := by
            simp [namesOn, ht]
          have hparts (o : Offsets) (l : List (PartType × Offsets)) :
              parts ((c.part_type, o) :: l) = o :: parts l := by
            simp [parts, ht]
          rw [hnames, ihnames, reserve, hparts, List.length_cons, List.range_succ_eq_map,
            List.map_cons, List.map_map]
          refine congrArg _ (List.map_congr_left fun k _ => ?_)
          simp only [Function.comp, Nat.succ_eq_add_one]
          rw [Nat.add_assoc, Nat.add_comm 1]
    · have hne : d ≠ c.block_device := fun heq => hd heq.symm
      have hpos' : g₁.partition_pos d = g.partition_pos d := by
        rw [hpos, Function.update_of_ne hne]
      have htasks' : g₁.parted_task_map d = g.parted_task_map d := by
        rcases hcase with ⟨-, -, htasks, -⟩ | ⟨-, -, -, tasks, cmds, -, -, htasks⟩
        · rw [htasks]
        · rw [htasks, Function.update_of_ne hne]
      have hcount : counted d g₁ = counted d g := by
        unfold counted
        rw [hpos', hother d hne]
      rw [hpos'] at ihfull ihopen ihparts ihnames
      rw [hcount] at ihnames
      rw [requests_cons_of_ne hd]
      refine ⟨ihfull, ihopen, ?_, ?_⟩
      · rw [ihparts, mkparts, mkparts, htasks']
      · rw [← ihnames]
        simp [namesOn, hd]

/-! ## Where the partitions lie -/

/-- A position on a device of `C` megabytes. -/
def place (C s : Int) : Int := if s < 0 then C + s else s

/-- The megabytes of a partition on a device of `C` megabytes. -/
def Offsets.extent (C : Int) : Offsets → Span Int
  | .rest start => ⟨place C start, C⟩
  | .upto start stop => ⟨place C start, place C stop⟩

/-- A size that stays within the room left at the end (`s < 0`): the rest, all but a smaller room,
or less than the room. -/
def Room (s z : Int) : Prop := z = 0 ∨ s < z ∧ z < 0 ∨ 0 < z ∧ s + z < 0

/-- The capacity admits the requested sizes: each is at most the capacity; as long as no room was
left at the end, each fits in what remains of the device; and a blank reservation fits in the room
left. -/
def Admits (C : Int) : Int → List (PartType × Int) → Prop
  | _, [] => True
  | s, (t, z) :: rest => -C ≤ z ∧ z ≤ C ∧
      (0 ≤ s → (z = 0 → s < C) ∧ (z < 0 → s < C + z) ∧ (0 < z → s + z ≤ C)) ∧
      (s < 0 → t = .blank → Room s z ∨ s + z = 0) ∧ Admits C (offsets s z).2 rest

/-- Once room was left at the end, every partition stays within it. -/
def Inside : Int → List (PartType × Int) → Prop
  | _, [] => True
  | s, (t, z) :: rest => (s < 0 → t ≠ .blank → Room s z) ∧ Inside (offsets s z).2 rest

/-- One request: its extent starts at the position, is not empty unless it is blank, and the next
position is its end, unless the device is full then. -/
theorem offsets_extent {C s z : Int} {t : PartType} (hs : -C ≤ s) (hs' : s ≤ C) (hz : -C ≤ z)
    (hfront : 0 ≤ s → (z = 0 → s < C) ∧ (z < 0 → s < C + z) ∧ (0 < z → s + z ≤ C))
    (hblank : s < 0 → t = .blank → Room s z ∨ s + z = 0)
    (hinside : s < 0 → t ≠ .blank → Room s z) :
    ((offsets s z).1.extent C).lo = place C s ∧
      (t ≠ .blank → place C s < ((offsets s z).1.extent C).hi) ∧
      ((offsets s z).2 ≠ 0 → ((offsets s z).1.extent C).hi = place C (offsets s z).2 ∧
        place C s ≤ place C (offsets s z).2 ∧ -C ≤ (offsets s z).2 ∧ (offsets s z).2 ≤ C) := by
  have hroom : s < 0 → Room s z ∨ t = .blank ∧ s + z = 0 := by
    intro hneg
    by_cases ht : t = .blank
    · exact (hblank hneg ht).imp_right fun h => ⟨ht, h⟩
    · exact .inl (hinside hneg ht)
  unfold Room at hroom
  unfold offsets
  split
  · -- the rest of the device
    refine ⟨rfl, fun _ => ?_, fun h => absurd rfl h⟩
    simp only [Offsets.extent, place]
    split <;> omega
  split
  · -- all but some room at the end
    rename_i hneg
    refine ⟨rfl, fun _ => ?_, fun _ => ⟨rfl, ?_, hz, by simp only; omega⟩⟩
    · simp only [Offsets.extent, place, if_pos hneg]
      split <;> omega
    · simp only [place, if_pos hneg]
      split <;> omega
  · refine ⟨rfl, fun ht => ?_, fun h => ⟨rfl, ?_, ?_⟩⟩
    · simp only [Offsets.extent, place]
      split <;> split <;> simp only [ht, false_and, or_false] at hroom <;> omega
    · simp only [place]
      split <;> split <;> omega
    · simp only at h ⊢
      omega

/-- From position `s` on, every reservation starts at `s` or after it. -/
theorem reserve_from {C : Int} {l : List (PartType × Int)} {s : Int} (hs : -C ≤ s) (hs' : s ≤ C)
    (hadmits : Admits C s l) (hinside : Inside s l) (hopen : Open s l) :
    ∀ r ∈ reserve s l, place C s ≤ (r.2.extent C).lo := by
  induction l generalizing s with
  | nil => simp [reserve]
  | cons request rest ih =>
    obtain ⟨t, z⟩ := request
    obtain ⟨hz, -, hfront, hblank, hadmits⟩ := hadmits
    obtain ⟨hlo, -, hnext⟩ := offsets_extent hs hs' hz hfront hblank hinside.1
    intro r hr
    rcases List.mem_cons.1 hr with rfl | hr
    · exact hlo.ge
    · by_cases hfull : (offsets s z).2 = 0
      · rw [hopen.1 hfull] at hr
        simp [reserve] at hr
      · obtain ⟨-, hle, hlow, hhigh⟩ := hnext hfull
        exact hle.trans (ih hlow hhigh hadmits hinside.2 hopen.2 r hr)

/-- **The reservations stand in order.** -/
theorem reserve_sorted {C : Int} {l : List (PartType × Int)} {s : Int} (hs : -C ≤ s) (hs' : s ≤ C)
    (hadmits : Admits C s l) (hinside : Inside s l) (hopen : Open s l) :
    (reserve s l).Pairwise fun a b => (a.2.extent C).hi ≤ (b.2.extent C).lo := by
  induction l generalizing s with
  | nil => exact .nil
  | cons request rest ih =>
    obtain ⟨t, z⟩ := request
    obtain ⟨hz, -, hfront, hblank, hadmits⟩ := hadmits
    obtain ⟨-, -, hnext⟩ := offsets_extent hs hs' hz hfront hblank hinside.1
    by_cases hfull : (offsets s z).2 = 0
    · rw [hopen.1 hfull]
      exact List.pairwise_singleton ..
    · obtain ⟨hhi, -, hlow, hhigh⟩ := hnext hfull
      refine List.pairwise_cons.2 ⟨fun r hr => ?_, ih hlow hhigh hadmits hinside.2 hopen.2⟩
      exact hhi.le.trans (reserve_from hlow hhigh hadmits hinside.2 hopen.2 r hr)

/-- **No partition is empty**; and where one is not, it stays within the room left. -/
theorem reserve_nonempty_iff {C : Int} {l : List (PartType × Int)} {s : Int} (hs : -C ≤ s)
    (hs' : s ≤ C) (hadmits : Admits C s l) (hopen : Open s l) :
    (∀ o ∈ parts (reserve s l), (o.extent C).lo < (o.extent C).hi) ↔ Inside s l := by
  induction l generalizing s with
  | nil => simp [parts, reserve, Inside]
  | cons request rest ih =>
    obtain ⟨t, z⟩ := request
    obtain ⟨hz, hz', hfront, hblank, hadmits⟩ := hadmits
    have hhead : (t ≠ .blank → ((offsets s z).1.extent C).lo < ((offsets s z).1.extent C).hi) ↔
        (s < 0 → t ≠ .blank → Room s z) := by
      constructor
      · intro h hneg ht
        have hlt := h ht
        unfold offsets at hlt
        unfold Room
        split at hlt
        · omega
        split at hlt
        · rename_i hz₀
          simp only [Offsets.extent, place, if_pos hneg, if_pos hz₀] at hlt
          omega
        · simp only [Offsets.extent, place, if_pos hneg] at hlt
          split at hlt <;> omega
      · intro h ht
        obtain ⟨hlo, hlt, -⟩ := offsets_extent hs hs' hz hfront hblank h
        rw [hlo]
        exact hlt ht
    have hparts : (∀ o ∈ parts (reserve s ((t, z) :: rest)), (o.extent C).lo < (o.extent C).hi) ↔
        (t ≠ .blank → ((offsets s z).1.extent C).lo < ((offsets s z).1.extent C).hi) ∧
          ∀ o ∈ parts (reserve (offsets s z).2 rest), (o.extent C).lo < (o.extent C).hi := by
      by_cases ht : t = .blank <;> simp [parts, reserve, ht]
    rw [hparts, hhead, Inside]
    refine and_congr_right fun hinside => ?_
    by_cases hfull : (offsets s z).2 = 0
    · rw [hopen.1 hfull]
      simp [parts, reserve, Inside]
    · obtain ⟨-, -, hlow, hhigh⟩ := (offsets_extent hs hs' hz hfront hblank hinside).2.2 hfull
      exact ih hlow hhigh hadmits hopen.2

/-! ## The layout -/

/-- The offsets of the blank reservations. -/
def blanks (l : List (PartType × Offsets)) : List Offsets :=
  (l.filter (·.1 = .blank)).map (·.2)

/-- What a device of `C` megabytes should be given: partitions that are not empty, in order, apart
from each other and from the blank reservations, and numbered by their position. -/
structure Layout (C : Int) (d : String) (calls : List Call) (names : List (Option String))
    (g : Globals) : Prop where
  nonempty : ∀ o ∈ mkparts d g, (o.extent C).lo < (o.extent C).hi
  sorted : (mkparts d g).Pairwise fun a b => (a.extent C).hi ≤ (b.extent C).lo
  disjoint : (mkparts d g).Pairwise fun a b => Disjoint (a.extent C).points (b.extent C).points
  apart : ∀ o ∈ mkparts d g, ∀ b ∈ blanks (reserve 0 (requests d calls)),
    Disjoint (o.extent C).points (b.extent C).points
  numbered : namesOn d calls names =
    (List.range (mkparts d g).length).map fun k => some (devName d (k + 1))

section layout

variable {targets : List String} {label : String} {calls : List Call}
  {names : List (Option String)} {g : Globals}

/-- One device of a sequence of calls after the labels. -/
theorem labelled_device (h : addPartitions calls (labelled targets label) = .ok (names, g))
    (d : String) : Open 0 (requests d calls) ∧
      mkparts d g = parts (reserve 0 (requests d calls)) ∧
      namesOn d calls names =
        (List.range (mkparts d g).length).map fun k => some (devName d (k + 1)) := by
  obtain ⟨-, hopen, hparts, hnames⟩ := addPartitions_device d h
  have hnone : mkparts d (labelled targets label) = [] := by
    simp only [mkparts, labelled]
    split <;> rfl
  have hcount : counted d (labelled targets label) = 0 := rfl
  rw [hnone, List.nil_append] at hparts
  refine ⟨hopen, hparts, ?_⟩
  rw [hnames, hcount, hparts]
  simp only [Nat.zero_add]

/-- **The partitions of one device.** -/
theorem layout_device_iff {C : Int} {d : String}
    (h : addPartitions calls (labelled targets label) = .ok (names, g)) (hC : 0 ≤ C)
    (hadmits : Admits C 0 (requests d calls)) :
    Layout C d calls names g ↔ Inside 0 (requests d calls) := by
  obtain ⟨hopen, hparts, hnames⟩ := labelled_device h d
  have hnonempty := reserve_nonempty_iff (by omega) hC hadmits hopen
  rw [← hparts] at hnonempty
  refine ⟨fun hlayout => hnonempty.1 hlayout.nonempty, fun hinside => ?_⟩
  have hsorted := reserve_sorted (by omega) hC hadmits hinside hopen
  have hparts_sorted : (mkparts d g).Pairwise fun a b => (a.extent C).hi ≤ (b.extent C).lo := by
    rw [hparts, parts, List.pairwise_map]
    exact hsorted.filter _
  refine ⟨hnonempty.2 hinside, hparts_sorted, hparts_sorted.imp Span.disjoint_of_le, ?_, hnames⟩
  -- a partition and a blank one are two reservations of the list
  have happart : ∀ a ∈ reserve 0 (requests d calls), ∀ b ∈ reserve 0 (requests d calls), a ≠ b →
      Disjoint (a.2.extent C).points (b.2.extent C).points := by
    intro a ha b hb hab
    have : Std.Symm fun a b : PartType × Offsets =>
      Disjoint (a.2.extent C).points (b.2.extent C).points := ⟨fun _ _ h => h.symm⟩
    exact (hsorted.imp Span.disjoint_of_le).forall ha hb hab
  intro o ho b hb
  rw [hparts] at ho
  simp only [parts, blanks, List.mem_map, List.mem_filter, decide_eq_true_eq] at ho hb
  obtain ⟨r, ⟨hr, ht⟩, rfl⟩ := ho
  obtain ⟨r', ⟨hr', ht'⟩, rfl⟩ := hb
  exact happart r hr r' hr' fun heq => ht (heq ▸ ht')

/-- **The partitions of all devices**, for a sequence of calls that does not raise, on devices
whose capacities admit the requested sizes. -/
theorem layout_iff (h : addPartitions calls (labelled targets label) = .ok (names, g))
    (capacity : String → Nat) (hadmits : ∀ d, Admits (capacity d) 0 (requests d calls)) :
    (∀ d, Layout (capacity d) d calls names g) ↔ ∀ d, Inside 0 (requests d calls) :=
  forall_congr' fun d => layout_device_iff h (Int.natCast_nonneg _) (hadmits d)

end layout

/-! ## A device whose room at the end is filled exactly -/

/-- The root file system leaves 512 megabytes, which the swap partition is to take. -/
def filled : List Call :=
  [⟨"/dev/sda", .bios_grub, 100⟩, ⟨"/dev/sda", .fs, -512⟩, ⟨"/dev/sda", .swap, 512⟩]

theorem requests_filled (d : String) : requests d filled =
    if d = "/dev/sda" then [(.bios_grub, 100), (.fs, -512), (.swap, 512)] else [] := by
  by_cases hd : d = "/dev/sda"
  · subst hd
    rfl
  · simp [requests, filled, hd, Ne.symm hd]

theorem admits_filled (d : String) : Admits (10000 : Nat) 0 (requests d filled) := by
  rw [requests_filled]
  split
  · simp [Admits, Room, offsets]
  · trivial

theorem layout_sample : ∃ names g, addPartitions filled (labelled ["/dev/sda"] "gpt") =
      .ok (names, g) ∧ (∀ d, Admits (10000 : Nat) 0 (requests d filled)) ∧
    ((∀ d, Layout (10000 : Nat) d filled names g) ↔ ∀ d, Inside 0 (requests d filled)) :=
  ⟨_, _, rfl, admits_filled,
    @layout_iff ["/dev/sda"] "gpt" filled _ _ rfl (fun _ => 10000) admits_filled⟩

/-- Its swap partition is asked to end at the start of the device. -/
theorem layout_overlaps : ∃ names g, addPartitions filled (labelled ["/dev/sda"] "gpt") =
      .ok (names, g) ∧ (∀ d, Admits (10000 : Nat) 0 (requests d filled)) ∧
    ¬ Layout (10000 : Nat) "/dev/sda" filled names g := by
  refine ⟨_, _, rfl, admits_filled, fun h => ?_⟩
  have := h.nonempty (.upto (-512) 0) (by decide)
  simp [Offsets.extent, place] at this

end Filesystem
