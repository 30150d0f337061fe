import Disks.Firmware.Planner
import Mathlib.Data.List.Nodup

/-!
# The step that the planner chooses

The patterns that match are tried in the order of their scores, and the score counts every dot of a
pattern as a wildcard, those of a plain version too. The version itself so comes first only where
its score does.

* `findStep_eq_some_iff`: the file is one of the pattern that is ahead of all others that lead on.
* `findStep_chooses_iff`: **when the version itself is chosen over what matches it.**
* `wildcard_first`: `.*` is chosen over `1.0.0`.
-/

namespace Planner

/-- An entry that leads from the current version to the target version. -/
def Leads (rematch : String → String → Bool) (current_version target_version : String)
    (vermap : VerMap) : Prop :=
  vermap.to_version = target_version ∧
    (vermap.from_version = current_version ∨ rematch vermap.from_version current_version)

/-- The patterns of a firmware map. -/
def FirmwareMap.patterns (firmware_map : FirmwareMap) : List String :=
  firmware_map.items.map (·.2.from_version)

/-- The file of a pattern. -/
def FirmwareMap.file (firmware_map : FirmwareMap) (target_version pattern : String) :
    Option String :=
  (firmware_map.items.find? fun item =>
    item.2.from_version = pattern && item.2.to_version = target_version).map (·.1)

variable {rematch : String → String → Bool} {current_version target_version : String}
  {firmware_map : FirmwareMap}

theorem file_isSome_iff {pattern : String} :
    (firmware_map.file target_version pattern).isSome ↔
      ∃ item ∈ firmware_map.items,
        item.2.from_version = pattern ∧ item.2.to_version = target_version := by
  rw [FirmwareMap.file, Option.isSome_map, List.find?_isSome]
  simp only [Bool.and_eq_true, decide_eq_true_eq]

theorem file_mem {pattern name : String}
    (h : firmware_map.file target_version pattern = some name) :
    ∃ vermap, (name, vermap) ∈ firmware_map.items ∧ vermap.from_version = pattern ∧
      vermap.to_version = target_version := by
  obtain ⟨⟨name', vermap⟩, hfind, hname⟩ := Option.map_eq_some_iff.mp h
  subst hname
  have hitem := List.find?_some hfind
  rw [Bool.and_eq_true, decide_eq_true_eq, decide_eq_true_eq] at hitem
  exact ⟨vermap, List.mem_of_find?_eq_some hfind, hitem⟩

/-- A file has one entry. -/
theorem entry_unique {name : String} {v w : VerMap} (hv : (name, v) ∈ firmware_map.items)
    (hw : (name, w) ∈ firmware_map.items) : v = w :=
  (Prod.mk.inj (List.inj_on_of_nodup_map firmware_map.nodup hv hw rfl)).2

/-! ## The pattern that is chosen -/

/-- A pattern of the map that leads on. -/
def Candidate (rematch : String → String → Bool) (current_version target_version : String)
    (firmware_map : FirmwareMap) (pattern : String) : Bool :=
  (pattern = current_version || rematch pattern current_version) &&
    (firmware_map.file target_version pattern).isSome

theorem candidate_iff {pattern : String} :
    Candidate rematch current_version target_version firmware_map pattern ↔
      ∃ item ∈ firmware_map.items, Leads rematch current_version target_version item.2 ∧
        item.2.from_version = pattern := by
  unfold Candidate Leads
  rw [Bool.and_eq_true, file_isSome_iff, Bool.or_eq_true, decide_eq_true_eq]
  constructor
  · intro h
    obtain ⟨hmatch, item, hitem, rfl, hto⟩ := h
    exact ⟨item, hitem, ⟨hto, hmatch⟩, rfl⟩
  · intro h
    obtain ⟨item, hitem, ⟨hto, hmatch⟩, rfl⟩ := h
    exact ⟨hmatch, item, hitem, rfl, hto⟩

theorem candidate_mem {pattern : String}
    (h : Candidate rematch current_version target_version firmware_map pattern) :
    pattern ∈ firmware_map.patterns := by
  obtain ⟨item, hitem, -, rfl⟩ := candidate_iff.mp h
  exact List.mem_map.mpr ⟨item, hitem, rfl⟩

/-- The two loops of `findStep` as one search. -/
theorem findStep_eq : findStep rematch current_version target_version firmware_map =
    ((Ranked.sorted score firmware_map.patterns).find?
      (Candidate rematch current_version target_version firmware_map)).bind
        (firmware_map.file target_version) := by
  unfold findStep findMatchs sortPatterns
  rw [Ranked.findSome?_eq_bind, List.find?_filter]
  simp only [Bool.decide_and, Bool.decide_eq_true]
  rfl

/-- **The file is one of the pattern that is ahead of all others that lead on.** -/
theorem findStep_eq_some_iff {name : String} :
    findStep rematch current_version target_version firmware_map = some name ↔
      ∃ pattern, Candidate rematch current_version target_version firmware_map pattern ∧
        firmware_map.file target_version pattern = some name ∧
        ∀ other, Candidate rematch current_version target_version firmware_map other →
          other ≠ pattern → Ranked.Ahead score firmware_map.patterns pattern other := by
  rw [findStep_eq, Option.bind_eq_some_iff]
  constructor
  · intro h
    obtain ⟨pattern, hfind, hfile⟩ := h
    obtain ⟨⟨-, hcandidate⟩, hahead⟩ := Ranked.find?_mergeSort_eq_some_iff.mp hfind
    exact ⟨pattern, hcandidate, hfile,
      fun other hother => hahead other (candidate_mem hother) hother⟩
  · intro h
    obtain ⟨pattern, hcandidate, hfile, hahead⟩ := h
    refine ⟨pattern, Ranked.find?_mergeSort_eq_some_iff.mpr ?_, hfile⟩
    exact ⟨⟨candidate_mem hcandidate, hcandidate⟩, fun other _ => hahead other⟩

theorem findStep_isSome_iff :
    (findStep rematch current_version target_version firmware_map).isSome ↔
      ∃ item ∈ firmware_map.items, Leads rematch current_version target_version item.2 := by
  constructor
  · intro h
    obtain ⟨name, hname⟩ := Option.isSome_iff_exists.mp h
    obtain ⟨pattern, hcandidate, -, -⟩ := findStep_eq_some_iff.mp hname
    obtain ⟨item, hitem, hleads, -⟩ := candidate_iff.mp hcandidate
    exact ⟨item, hitem, hleads⟩
  · intro h
    obtain ⟨item, hitem, hleads⟩ := h
    have hcandidate : Candidate rematch current_version target_version firmware_map
        item.2.from_version := candidate_iff.mpr ⟨item, hitem, hleads, rfl⟩
    -- some candidate is found, and it has a file
    have hfound : ((Ranked.sorted score firmware_map.patterns).find?
        (Candidate rematch current_version target_version firmware_map)).isSome :=
      List.find?_isSome.mpr ⟨_, Ranked.mem_sorted.mpr (candidate_mem hcandidate), hcandidate⟩
    obtain ⟨pattern, hfind⟩ := Option.isSome_iff_exists.mp hfound
    have hpattern := List.find?_some hfind
    rw [Candidate, Bool.and_eq_true] at hpattern
    rw [findStep_eq, hfind]
    exact hpattern.2

theorem findStep_leads {name : String}
    (h : findStep rematch current_version target_version firmware_map = some name) :
    ∃ vermap, (name, vermap) ∈ firmware_map.items ∧
      Leads rematch current_version target_version vermap := by
  obtain ⟨pattern, hcandidate, hfile, -⟩ := findStep_eq_some_iff.mp h
  obtain ⟨vermap, hmem, rfl, hto⟩ := file_mem hfile
  rw [Candidate, Bool.and_eq_true, Bool.or_eq_true, decide_eq_true_eq] at hcandidate
  exact ⟨vermap, hmem, hto, hcandidate.1⟩

/-! ## The version itself -/

/-- An entry for the current version itself leads to the target version. -/
def HasExact (current_version target_version : String) (firmware_map : FirmwareMap) : Prop :=
  ∃ item ∈ firmware_map.items,
    item.2.from_version = current_version ∧ item.2.to_version = target_version

/-- The version itself comes before every other pattern that leads on. -/
def Foremost (rematch : String → String → Bool) (current_version target_version : String)
    (firmware_map : FirmwareMap) : Prop :=
  ∀ item ∈ firmware_map.items, Leads rematch current_version target_version item.2 →
    item.2.from_version ≠ current_version →
    Ranked.Ahead score firmware_map.patterns current_version item.2.from_version

theorem exact_candidate (h : HasExact current_version target_version firmware_map) :
    Candidate rematch current_version target_version firmware_map current_version := by
  obtain ⟨item, hitem, hfrom, hto⟩ := h
  exact candidate_iff.mpr ⟨item, hitem, ⟨hto, .inl hfrom⟩, hfrom⟩

/-- The entry that is chosen is for the version itself where that comes first. -/
theorem exact_chosen_iff (h : HasExact current_version target_version firmware_map) :
    (∀ name vermap, findStep rematch current_version target_version firmware_map = some name →
        (name, vermap) ∈ firmware_map.items → vermap.from_version = current_version) ↔
      Foremost rematch current_version target_version firmware_map := by
  have hcandidate : Candidate rematch current_version target_version firmware_map
      current_version := exact_candidate h
  constructor
  · intro hexact item hitem hleads hne
    obtain ⟨name, hname⟩ :=
      Option.isSome_iff_exists.mp (findStep_isSome_iff.mpr ⟨item, hitem, hleads⟩)
    obtain ⟨pattern, -, hfile, hahead⟩ := findStep_eq_some_iff.mp hname
    obtain ⟨vermap, hmem, rfl, -⟩ := file_mem hfile
    rw [hexact name vermap hname hmem] at hahead
    exact hahead _ (candidate_iff.mpr ⟨item, hitem, hleads, rfl⟩) hne
  · intro hforemost name vermap hname hmem
    obtain ⟨pattern, hpattern, hfile, hahead⟩ := findStep_eq_some_iff.mp hname
    obtain ⟨vermap', hmem', hfrom, -⟩ := file_mem hfile
    rw [entry_unique hmem hmem', hfrom]
    by_contra hne
    obtain ⟨item, hitem, hleads, rfl⟩ := candidate_iff.mp hpattern
    exact (hahead _ hcandidate (Ne.symm hne)).asymm (hforemost item hitem hleads hne)

/-- **When the step is the one asked for**: a file is returned when some entry leads on, it is that
of such an entry, and where there is an entry for the current version itself, it is that of one;
which holds exactly where the version comes before all other patterns that lead on. -/
theorem findStep_chooses_iff (rematch : String → String → Bool)
    (current_version target_version : String) (firmware_map : FirmwareMap) :
    (((findStep rematch current_version target_version firmware_map).isSome ↔
        ∃ item ∈ firmware_map.items, Leads rematch current_version target_version item.2) ∧
      (∀ name, findStep rematch current_version target_version firmware_map = some name →
        ∃ vermap, (name, vermap) ∈ firmware_map.items ∧
          Leads rematch current_version target_version vermap) ∧
      (HasExact current_version target_version firmware_map → ∀ name vermap,
        findStep rematch current_version target_version firmware_map = some name →
        (name, vermap) ∈ firmware_map.items → vermap.from_version = current_version)) ↔
    (HasExact current_version target_version firmware_map →
      Foremost rematch current_version target_version firmware_map) := by
  constructor
  · intro h hexact
    exact (exact_chosen_iff hexact).mp (h.2.2 hexact)
  · intro h
    exact ⟨findStep_isSome_iff, fun _ => findStep_leads, fun hexact =>
      (exact_chosen_iff hexact).mpr (h hexact)⟩

/-- Version `1.0.0` with a file for it, and one for everything. -/
def twoFiles : FirmwareMap where
  items := [("all.bin", ⟨".*", "2.0.0"⟩), ("one.bin", ⟨"1.0.0", "2.0.0"⟩)]
  nodup := by decide

/-- `.*` has one wildcard where `1.0.0` has two. -/
theorem wildcard_first :
    HasExact "1.0.0" "2.0.0" twoFiles ∧ ("all.bin", ⟨".*", "2.0.0"⟩) ∈ twoFiles.items ∧
      findStep (fun i target => i = ".*" || i = target) "1.0.0" "2.0.0" twoFiles =
        some "all.bin" := by
  refine ⟨⟨("one.bin", ⟨"1.0.0", "2.0.0"⟩), by decide, rfl, rfl⟩, by decide,
    findStep_eq_some_iff.mpr ?_⟩
  refine ⟨".*", by decide, by decide, fun other hother hne => .inl ?_⟩
  have hmem : other ∈ [".*", "1.0.0"] := candidate_mem hother
  obtain rfl : other = "1.0.0" := by
    rcases List.mem_cons.mp hmem with h | h
    · exact absurd h hne
    · exact List.mem_singleton.mp h
  decide

end Planner
