import Disks.Enclosure.PortMap
import Mathlib.Data.List.Dedup

/-!
# The order of the ports

Enclosures whose ports have a word, blanks and a number in their names. The names are sorted as
texts, so the ports are numbered in their order as long as the numbers do not outgrow their width.

* `getEnclosurePortMap_eq`: the sorted names are numbered, whatever the family.
* `portMap_in_order_iff`: when every number has the port of its slot.
-/

namespace Enclosure

open Manager (Text)
open Regex (Pattern)

/-- A family of names: a word, blanks, and a number that is filled up to a width with zeros or,
behind a word, with blanks. -/
structure Family where
  word : Text
  blanks : Nat
  width : Nat
  pad : Char
  start : Nat
  known : word ∈ [[], "Slot".toList, "SLOT".toList, "ArrayDevice".toList]
  bare : word = [] → blanks = 0 ∧ pad = '0'
  filled : pad = '0' ∨ pad = ' '
  starts : start ≤ 1

namespace Family

/-- The name of the port of a slot. -/
def name (f : Family) (slot : Nat) : Text :=
  f.word ++ List.replicate f.blanks ' ' ++ Numeral.padded f.width f.pad slot

/-- The names of so many ports, by the number of the slot. -/
def names (f : Family) (n : Nat) : List Text := (List.range n).map fun k => f.name (f.start + k)

/-- What is listed: the ports, in any order, and nothing else but attributes. -/
def Lists (f : Family) (n : Nat) (listed : List Text) : Prop :=
  ∀ x, (x ∈ listed ∧ x ∉ attributes) ↔ x ∈ f.names n

/-- The map of `0` to `n - 1` onto the ports, in the order of their slots. -/
def inOrder (f : Family) (n : Nat) : Assoc.Dict Slot Text :=
  (List.range n).map fun k => (.number k, f.name (f.start + k))

/-! ## Names -/

variable {f : Family}

/-- The slot is the number in the name. -/
theorem value_name (slot : Nat) : Numeral.value (f.name slot) = slot := by
  have hpad : f.pad = '0' ∨ ¬ f.pad.isDigit := by
    rcases f.filled with h | h
    · exact .inl h
    · rw [h]
      exact .inr (by decide)
  rw [name, Numeral.value_append, Numeral.value_padded hpad]
  intro c hc
  rcases List.mem_append.mp hc with hc | hc
  · have hletters : ∀ word ∈ [[], "Slot".toList, "SLOT".toList, "ArrayDevice".toList],
        ∀ c ∈ word, ¬ c.isDigit := by simp
    exact hletters f.word f.known c hc
  · rw [List.eq_of_mem_replicate hc]
    decide

theorem name_injective : Function.Injective f.name :=
  Function.LeftInverse.injective value_name

theorem nodup_names (n : Nat) : (f.names n).Nodup :=
  List.nodup_range.map fun _ _ h => Nat.add_left_cancel (name_injective h)

/-- Names go as their numbers. -/
theorem name_lt_iff {m n : Nat} :
    f.name m < f.name n ↔ Numeral.padded f.width f.pad m < Numeral.padded f.width f.pad n := by
  constructor
  · intro h
    by_contra hnot
    rcases lt_or_eq_of_le (not_lt.mp hnot) with hlt | heq
    · exact lt_asymm h (List.append_left_lt hlt)
    · rw [name, name, heq] at h
      exact lt_irrefl _ h
  · exact List.append_left_lt

/-- What stands in a name: a word, blanks, and at last a digit. -/
theorem name_eq (slot : Nat) : ∃ blanks rest, (∀ c ∈ blanks, c = ' ') ∧
    (∀ c ∈ rest, c.isDigit) ∧ rest ≠ [] ∧ (f.word = [] → blanks = []) ∧
      f.name slot = f.word ++ (blanks ++ rest) := by
  have hdigits : ∀ c ∈ Nat.toDigits 10 slot, c.isDigit := fun c hc =>
    Nat.isDigit_of_mem_toDigits (by decide) (by decide) hc
  unfold name Numeral.padded List.leftpad
  rcases f.filled with hpad | hpad
  · refine ⟨List.replicate f.blanks ' ', _, fun c hc => List.eq_of_mem_replicate hc, ?_, ?_, ?_,
      List.append_assoc ..⟩
    · intro c hc
      rcases List.mem_append.mp hc with hc | hc
      · rw [List.eq_of_mem_replicate hc, hpad]
        decide
      · exact hdigits c hc
    · exact fun h => Nat.toDigits_ne_nil (List.append_eq_nil_iff.mp h).2
    · intro h
      rw [(f.bare h).1, List.replicate_zero]
  · refine ⟨List.replicate f.blanks ' ' ++
      List.replicate (f.width - (Nat.toDigits 10 slot).length) f.pad, Nat.toDigits 10 slot, ?_,
      hdigits, Nat.toDigits_ne_nil, ?_, ?_⟩
    · intro c hc
      rcases List.mem_append.mp hc with hc | hc
      · exact List.eq_of_mem_replicate hc
      · rw [List.eq_of_mem_replicate hc, hpad]
    · intro h
      rw [(f.bare h).2] at hpad
      cases hpad
    · simp only [List.append_assoc]

end Family

/-! ## Patterns -/

theorem digits_begins_iff {s : Text} : digits.begins s ↔ ∃ x rest, s = x :: rest ∧ x.isDigit := by
  rw [Pattern.begins_iff]
  constructor
  · intro h
    obtain ⟨t, c, rest, rfl, hmatch⟩ := h
    obtain ⟨hne, hall, -⟩ := Pattern.matches_plus_one.mp hmatch
    obtain ⟨x, t, rfl⟩ := List.exists_cons_of_ne_nil hne
    exact ⟨x, t ++ rest, rfl, hall x (List.mem_cons_self ..)⟩
  · intro h
    obtain ⟨x, rest, rfl, hx⟩ := h
    exact ⟨[x], [], rest, rfl, Pattern.matches_plus_one.mpr ⟨by simp, by simpa using hx, rfl⟩⟩

theorem voyager_begins {s : Text} (h : voyager.begins s) :
    ∃ x y rest, s = x :: y :: rest ∧ ('A' ≤ x ∧ x ≤ 'E') ∧ y.isDigit := by
  obtain ⟨t, c, rest, rfl, hmatch⟩ := Pattern.begins_iff.mp h
  obtain ⟨t, u, d, e, rfl, -, ht, hu⟩ := Pattern.matches_seq.mp hmatch
  obtain ⟨x, hx, rfl, -⟩ := Pattern.matches_one.mp ht
  obtain ⟨hne, hall, -⟩ := Pattern.matches_plus_one.mp hu
  obtain ⟨y, u, rfl⟩ := List.exists_cons_of_ne_nil hne
  exact ⟨x, y, u ++ rest, rfl, of_decide_eq_true hx, hall y (List.mem_cons_self ..)⟩

theorem pikesPeak_begins {s : Text} (h : pikesPeak.begins s) : '[' ∈ s := by
  obtain ⟨t, c, rest, rfl, hmatch⟩ := Pattern.begins_iff.mp h
  obtain ⟨word, u, _, _, rfl, -, -, hmatch⟩ := Pattern.matches_seq.mp hmatch
  obtain ⟨number, u, _, _, rfl, -, -, hmatch⟩ := Pattern.matches_seq.mp hmatch
  obtain ⟨bracket, u, _, _, rfl, -, hbracket, -⟩ := Pattern.matches_seq.mp hmatch
  obtain ⟨rfl, -⟩ := Pattern.matches_text.mp hbracket
  simp

theorem numbered_begins {word blanks rest : Text} (hblanks : ∀ c ∈ blanks, c = ' ')
    (hrest : ∀ c ∈ rest, c.isDigit) (hne : rest ≠ []) :
    (numbered word).begins (word ++ (blanks ++ rest)) := by
  have hmatch : Pattern.Matches digits rest [] [] :=
    Pattern.matches_plus_one.mpr ⟨hne, hrest, rfl⟩
  have hstar : Pattern.Matches (.star (.one fun c => c = ' ')) blanks [] (rest ++ []) :=
    Pattern.matches_star_one.mpr ⟨by simpa using hblanks, rfl⟩
  rw [Pattern.begins_iff]
  refine ⟨_, _, [], (List.append_nil _).symm, .seq (Pattern.matches_text.mpr ⟨rfl, rfl⟩)
    (.seq hstar hmatch)⟩

namespace Family

variable {f : Family}

theorem not_voyager (slot : Nat) : ¬ voyager.begins (f.name slot) := by
  intro h
  obtain ⟨x, y, s, hs, hx, hy⟩ := voyager_begins h
  obtain ⟨blanks, rest, -, hrest, hne, hbare, hname⟩ := name_eq (f := f) slot
  rw [hname] at hs
  have hword := f.known
  simp only [List.mem_cons, List.not_mem_nil, or_false] at hword
  rcases hword with hword | hword | hword | hword
  · rw [hbare hword, hword] at hs
    have hdigit := hrest x (by rw [show rest = x :: y :: s from hs]; exact List.mem_cons_self ..)
    revert hdigit
    simp [Char.isDigit, Char.le_def, UInt32.le_iff_toNat_le] at hx ⊢
    omega
  · rw [hword] at hs
    obtain ⟨rfl, -⟩ := List.cons_eq_cons.mp hs
    exact absurd hx (by decide)
  · rw [hword] at hs
    obtain ⟨rfl, -⟩ := List.cons_eq_cons.mp hs
    exact absurd hx (by decide)
  · rw [hword] at hs
    obtain ⟨-, hs⟩ := List.cons_eq_cons.mp hs
    obtain ⟨rfl, -⟩ := List.cons_eq_cons.mp hs
    exact absurd hy (by decide)

theorem not_pikesPeak (slot : Nat) : ¬ pikesPeak.begins (f.name slot) := by
  intro h
  obtain ⟨blanks, rest, hblanks, hrest, -, -, hname⟩ := name_eq (f := f) slot
  have hmem := pikesPeak_begins h
  rw [hname] at hmem
  rcases List.mem_append.mp hmem with hmem | hmem
  · exact (by decide : ∀ word ∈ [[], "Slot".toList, "SLOT".toList, "ArrayDevice".toList],
      '[' ∉ word) f.word f.known hmem
  · rcases List.mem_append.mp hmem with hmem | hmem
    · exact absurd (hblanks _ hmem) (by decide)
    · exact absurd (hrest _ hmem) (by decide)

/-- Every name of a family is one of those that are numbered. -/
theorem known_begins (slot : Nat) :
    digits.begins (f.name slot) ∨ ((numbered "Slot".toList).begins (f.name slot) ||
      (numbered "SLOT".toList).begins (f.name slot) ||
        (numbered "ArrayDevice".toList).begins (f.name slot)) := by
  obtain ⟨blanks, rest, hblanks, hrest, hne, hbare, hname⟩ := name_eq (f := f) slot
  have hnumbered := @numbered_begins f.word _ _ hblanks hrest hne
  rw [← hname] at hnumbered
  have hword := f.known
  simp only [List.mem_cons, List.not_mem_nil, or_false] at hword
  rcases hword with hword | hword | hword | hword
  · obtain ⟨x, rest, rfl⟩ := List.exists_cons_of_ne_nil hne
    rw [hname, hword, hbare hword]
    exact .inl (digits_begins_iff.mpr ⟨x, rest, rfl, hrest x (List.mem_cons_self ..)⟩)
  · rw [hword] at hnumbered
    rw [hnumbered, Bool.true_or, Bool.true_or]
    exact .inr rfl
  · rw [hword] at hnumbered
    rw [hnumbered, Bool.or_true, Bool.true_or]
    exact .inr rfl
  · rw [hword] at hnumbered
    rw [hnumbered, Bool.or_true]
    exact .inr rfl

/-! ## The sorted ports -/

variable {n : Nat} {listed : List Text}

theorem sortedPorts_perm (h : f.Lists n listed) : (sortedPorts listed).Perm (f.names n) := by
  refine (Ranked.sorted_perm _ _).trans ?_
  rw [List.perm_ext_iff_of_nodup (List.nodup_dedup _) (nodup_names n)]
  intro x
  rw [List.mem_dedup, List.mem_filter, Bool.not_eq_true', ← Bool.not_eq_true, List.contains_iff_mem]
  exact h x

theorem sortedPorts_pairwise (listed : List Text) :
    (sortedPorts listed).Pairwise fun x y => x < y := by
  have hdistinct := List.nodup_dedup (listed.filter fun x => !attributes.contains x)
  refine (Ranked.pairwise_sorted id hdistinct).imp fun h => ?_
  rcases h with hlt | ⟨heq, hne⟩
  · exact hlt
  · exact absurd heq hne

/-- The sorted ports are those that are in the order of texts. -/
theorem sortedPorts_eq {ports : List Text} (h : f.Lists n listed)
    (hports : ports.Perm (f.names n)) (hlt : ports.Pairwise fun x y => x < y) :
    sortedPorts listed = ports :=
  ((sortedPorts_perm h).trans hports.symm).eq_of_pairwise
    (fun _ _ _ _ hab hba => absurd hab (lt_asymm hba)) (sortedPorts_pairwise listed) hlt

/-- **The sorted names are numbered**, whatever the family. -/
theorem getEnclosurePortMap_eq (h : f.Lists n listed) :
    getEnclosurePortMap listed = .ok (zipRange (sortedPorts listed)) := by
  unfold getEnclosurePortMap
  cases hports : sortedPorts listed with
  | nil => rfl
  | cons first rest =>
    have hfirst : first ∈ f.names n := (sortedPorts_perm h).mem_iff.mp (by simp [hports])
    obtain ⟨k, -, rfl⟩ := List.mem_map.mp hfirst
    simp only [if_neg (not_voyager _), if_neg (not_pikesPeak _)]
    rcases known_begins (f := f) (f.start + k) with hdigits | hnumbered
    · rw [if_pos hdigits]
    · rw [if_pos hnumbered, ite_self]

/-- The ports are sorted by their slots where the texts go as the numbers. -/
theorem sortedPorts_eq_iff (h : f.Lists n listed) :
    sortedPorts listed = f.names n ↔ f.start + n ≤ 10 ^ max f.width 1 := by
  have hpad : f.pad ≤ '0' := by
    rcases f.filled with hpad | hpad
    · rw [hpad]
    · rw [hpad]
      decide
  rw [← Numeral.padded_lt_iff hpad (Nat.le_trans f.starts (by decide))]
  constructor
  · intro heq j k hjk hk
    have hpairs := sortedPorts_pairwise listed
    rw [heq, names, List.pairwise_map, List.pairwise_iff_getElem] at hpairs
    have hlt := hpairs j k (by simpa using Nat.lt_trans hjk hk) (by simpa using hk) hjk
    rw [List.getElem_range, List.getElem_range] at hlt
    exact name_lt_iff.mp hlt
  · intro hlt
    refine sortedPorts_eq h (List.Perm.refl _) ?_
    rw [names, List.pairwise_map, List.pairwise_iff_getElem]
    intro j k hj hk hjk
    rw [List.getElem_range, List.getElem_range]
    exact name_lt_iff.mpr (hlt j k hjk (by simpa using hk))

theorem zipRange_names (n : Nat) : zipRange (f.names n) = f.inOrder n := by
  rw [zipRange, names, List.length_map, List.length_range, List.zip_map', inOrder]

theorem zipRange_injective : Function.Injective zipRange := by
  intro s t h
  have hsnd := congrArg (List.map Prod.snd) h
  rwa [zipRange, zipRange, List.map_snd_zip (by simp), List.map_snd_zip (by simp)] at hsnd

/-! ## The devices at the ports -/

/-- Where no number outgrows its width, each port has the device that is found at its slot. -/
theorem getSASEnclosurePorts_eq {block generic : Text → List Text} {enclosure : Text} {host : Int}
    (hhost : int ((enclosure.splitOn ':').headD []) = some host) (h : f.Lists n listed)
    (hfits : f.start + n ≤ 10 ^ max f.width 1) :
    getSASEnclosurePorts block generic enclosure listed = .ok ((List.range n).map fun k =>
      (⟨host, enclosure, .number k, f.name (f.start + k)⟩,
        deviceAt block generic (f.name (f.start + k)))) := by
  have hmap := getEnclosurePortMap_eq h
  rw [(sortedPorts_eq_iff h).mpr hfits, zipRange_names] at hmap
  have hturn (entry : Slot × Text) : (do
      let port ← SASPort.init enclosure entry.1 entry.2
      return (port, deviceAt block generic entry.2) : Except PortError _) =
        pure (⟨host, enclosure, entry.1, entry.2⟩, deviceAt block generic entry.2) := by
    simp only [SASPort.init, hhost]
    rfl
  unfold getSASEnclosurePorts
  rw [hmap]
  simp only [hturn, List.mapM_pure, inOrder]
  simp [bind, Except.bind, pure, Except.pure, Function.comp_def]

/-! ## When the ports are in order -/

/-- **When the ports are in the order of their slots**: no number outgrows the width of the
numbers. -/
theorem portMap_in_order_iff (h : f.Lists n listed) :
    getEnclosurePortMap listed = .ok (f.inOrder n) ↔ f.start + n ≤ 10 ^ max f.width 1 := by
  rw [getEnclosurePortMap_eq h, ← zipRange_names, Except.ok.injEq, zipRange_injective.eq_iff]
  exact sortedPorts_eq_iff h

theorem slot_known : "Slot".toList ∈ [[], "Slot".toList, "SLOT".toList, "ArrayDevice".toList] := by
  decide

theorem slot_bare (h : "Slot".toList = []) : 1 = 0 ∧ '0' = '0' := by cases h

/-- `Slot 1`, `Slot 2`, and so on. -/
def unpadded : Family where
  word := "Slot".toList
  blanks := 1
  width := 0
  pad := '0'
  start := 1
  known := slot_known
  bare := slot_bare
  filled := .inl rfl
  starts := Nat.le_refl 1

/-- The names behind one another, with an attribute. -/
def listing (f : Family) (n : Nat) : List Text := (f.names n).reverse ++ ["power".toList]

theorem lists_listing (n : Nat) (h : ∀ x ∈ f.names n, x ∉ attributes) :
    f.Lists n (f.listing n) := by
  intro x
  rw [listing, List.mem_append, List.mem_reverse, List.mem_singleton]
  constructor
  · intro hx
    exact hx.1.resolve_right fun hpower => hx.2 (hpower ▸ by decide)
  · exact fun hx => ⟨.inl hx, h x hx⟩

/-- Nine slots. -/
theorem nine_in_order :
    getEnclosurePortMap (unpadded.listing 9) = .ok (unpadded.inOrder 9) :=
  (portMap_in_order_iff (lists_listing 9 (by decide +kernel))).mpr (by decide)

/-- Of ten slots the tenth is the second port. -/
theorem tenth_is_second :
    unpadded.Lists 10 (unpadded.listing 10) ∧
      getEnclosurePortMap (unpadded.listing 10) ≠ .ok (unpadded.inOrder 10) ∧
      ∃ port_map, getEnclosurePortMap (unpadded.listing 10) = .ok port_map ∧
        port_map.lookup (.number 1) = some "Slot 10".toList := by
  have hlists : unpadded.Lists 10 (unpadded.listing 10) := lists_listing 10 (by decide +kernel)
  have hsorted : sortedPorts (unpadded.listing 10) =
      ([1, 10, 2, 3, 4, 5, 6, 7, 8, 9] : List Nat).map unpadded.name :=
    sortedPorts_eq hlists (by decide +kernel) (by decide +kernel)
  have hmap := getEnclosurePortMap_eq hlists
  rw [hsorted] at hmap
  refine ⟨hlists, ?_, _, hmap, by decide +kernel⟩
  rw [hmap]
  decide +kernel

end Family
end Enclosure
