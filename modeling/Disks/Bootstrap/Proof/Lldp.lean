import Disks.Bootstrap.Lldp

/-!
# What comes back about the neighbours (`bootstrap/root/lib.py`)

* `Line`, `output`: a line `<protocol>.<interface>.<name>=<value>`, and what is printed.
* `Faithful`: the results have the values of the lines, interface by interface.
* `readLines_output`: the values that are read, where no value has the delimiter.
* `readItems_ok_iff`, `part_readItems`: when the loop over the values comes back, and with what.
* `getLLDP_faithful_iff`: **the results come back and are faithful if and only if the lines are
  `Handled`.** `description_raises`: a description with the delimiter in it.
-/

namespace Bootstrap

open Lines

/-! ## Lines and results -/

/-- A line; a value is any text on one line. -/
structure Line where
  protocol : Text
  interface : Text
  name : Text
  value : Text
  protocol_ok : ∀ c ∈ protocol, c ≠ '.' ∧ c ≠ '=' ∧ isspace c = false
  interface_ok : ∀ c ∈ interface, c ≠ '.' ∧ c ≠ '=' ∧ isBreak c = false
  name_ok : ∀ c ∈ name, c ≠ '=' ∧ isBreak c = false
  value_ok : ∀ c ∈ value, isBreak c = false

namespace Line

variable (l : Line)

def key : Text := l.protocol ++ '.' :: l.interface ++ '.' :: l.name

def text : Text := l.key ++ '=' :: l.value

def isPort : Prop := portNames.contains l.name

end Line

/-- What `lldpcli` prints. -/
def output (lines : List Line) : Text := lines.flatMap fun l => l.text ++ ['\n']

/-- The number in a text that has one. -/
def numberIn (text : Text) : Option Nat :=
  let digits := (text.dropWhile fun c => ¬ c.isDigit).takeWhile Char.isDigit
  let rest := (text.dropWhile fun c => ¬ c.isDigit).dropWhile Char.isDigit
  if digits ≠ [] ∧ rest.all fun c => ¬ c.isDigit then some (toNat digits) else none

/-- The slot, the port and the subport that some numbers stand for. -/
def location : List Nat → Option (Nat × Nat × Nat)
  | [port] => some (1, port, 0)
  | [slot, port] => some (slot, port, 0)
  | [slot, port, subport] => some (slot, port, subport)
  | _ => none

/-- The slot, the port and the subport of a value with one to three numbers. -/
def locationIn (value : Text) : Option (Nat × Nat × Nat) :=
  ((value.splitOn '/').mapM numberIn).bind location

/-- A value is that of a line of this interface with this name, if there is one. -/
def Verbatim (lines : List Line) (interface name : Text) (value : Option Text) : Prop :=
  match value with
  | none => ∀ l ∈ lines, ¬ (l.interface = interface ∧ l.name = name)
  | some value => ∃ l ∈ lines, l.interface = interface ∧ l.name = name ∧ l.value = value

/-- The numbers are those of a port line of this interface, where it has numbers. -/
def Located (lines : List Line) (interface : Text) (neighbor : Neighbor) : Prop :=
  ((∀ l ∈ lines, ¬ (l.interface = interface ∧ l.isPort)) ∧ neighbor.slot = none ∧
      neighbor.port = none ∧ neighbor.subport = none) ∨
    ∃ l ∈ lines, l.interface = interface ∧ l.isPort ∧ ∀ slot port subport,
      locationIn l.value = some (slot, port, subport) →
        neighbor.slot = some slot ∧ neighbor.port = some port ∧ neighbor.subport = some subport

/-- The results have the values of the lines, interface by interface. -/
structure Faithful (lines : List Line) (results : Results) : Prop where
  interfaces : ∀ interface, interface ∈ Assoc.keys results ↔ ∃ l ∈ lines, l.interface = interface
  mac : ∀ interface neighbor, results.lookup interface = some neighbor →
    Verbatim lines interface chassisMac neighbor.mac
  name : ∀ interface neighbor, results.lookup interface = some neighbor →
    Verbatim lines interface chassisName neighbor.name
  location : ∀ interface neighbor, results.lookup interface = some neighbor →
    Located lines interface neighbor

/-! ## What is handled -/

/-- One to three numbers are left of a value. -/
def PortOk (value : Text) : Prop := (portParts value).length ≤ 3 ∧ [] ∉ portParts value

instance (value : Text) : Decidable (PortOk value) := inferInstanceAs (Decidable (_ ∧ _))

/-- After a line, one of another key has the same interface and the same name. -/
def Overtaken (lines : List Line) (l : Line) : Prop :=
  ∃ front back, lines = front ++ back ∧ (∃ x ∈ front, x.key = l.key) ∧
    ∃ m ∈ back, m.interface = l.interface ∧ m.name = l.name ∧ ∀ x ∈ front, x.key ≠ m.key

/-- The lines with which `getLLDP` does what it should. -/
structure Handled (lines : List Line) : Prop where
  /-- More than 10 characters are left without the white space at the ends. -/
  long : 10 < (strip (output lines)).length
  /-- No value has the delimiter. -/
  delimiter : ∀ l ∈ lines, '=' ∉ l.value
  /-- Of each key, the last line has one to three numbers if it is about a port. -/
  ports : ∀ l, Assoc.LastOf Line.key lines l → l.isPort → PortOk l.value
  /-- The last line has no white space at its end, if it counts and is about a `mac` or a name. -/
  last : ∀ l ∈ lines.getLast?, l.name = chassisMac ∨ l.name = chassisName →
    rstrip l.value = l.value ∨ Overtaken lines l ∨
      ∃ m ∈ lines, m.interface = l.interface ∧ m.name = l.name ∧ m.value = rstrip l.value

/-! ## Keys and values of a line -/

theorem splitKey_append {protocol interface : Text} (hprotocol : ∀ c ∈ protocol, c ≠ '.')
    (hinterface : ∀ c ∈ interface, c ≠ '.') (name : Text) :
    splitKey (protocol ++ '.' :: interface ++ '.' :: name) = some (protocol, interface, name) := by
  have hcut (s rest : Text) (h : ∀ c ∈ s, c ≠ '.') :
      (s ++ '.' :: rest).takeWhile (· ≠ '.') = s ∧
        (s ++ '.' :: rest).dropWhile (· ≠ '.') = '.' :: rest := by
    have hs : ∀ c ∈ s, decide (c ≠ '.') = true := fun c hc => decide_eq_true (h c hc)
    rw [List.takeWhile_append_of_pos hs, List.dropWhile_append_of_pos hs]
    simp
  rw [List.append_assoc, splitKey, List.cons_append, (hcut _ _ hprotocol).1,
    (hcut _ _ hprotocol).2]
  simp only [hcut _ _ hinterface]

namespace Line

variable (l : Line)

theorem splitKey_key : splitKey l.key = some (l.protocol, l.interface, l.name) :=
  splitKey_append (fun c hc => (l.protocol_ok c hc).1) (fun c hc => (l.interface_ok c hc).1) _

theorem key_clean : ∀ c ∈ l.key, c ≠ '=' ∧ isBreak c = false := by
  intro c hc
  rcases List.mem_append.mp hc with hc | hc
  · rcases List.mem_append.mp hc with hc | hc
    · exact ⟨(l.protocol_ok c hc).2.1, isBreak_eq_false (l.protocol_ok c hc).2.2⟩
    · rcases List.mem_cons.mp hc with rfl | hc
      · decide
      · exact (l.interface_ok c hc).2
  · rcases List.mem_cons.mp hc with rfl | hc
    · decide
    · exact l.name_ok c hc

/-- The first character of a line is no white space. -/
theorem exists_head : ∃ c rest, l.key = c :: rest ∧ isspace c = false := by
  unfold key
  cases hprotocol : l.protocol with
  | nil => exact ⟨'.', _, rfl, by decide⟩
  | cons c rest =>
    refine ⟨c, _, rfl, (l.protocol_ok c ?_).2.2⟩
    rw [hprotocol]
    exact List.mem_cons_self

end Line

/-- A line is read, if its value does not have the delimiter. -/
theorem parseLine_text {key : Text} (hkey : '=' ∉ key) (values : Values) (value : Text) :
    parseLine values (key ++ '=' :: value) =
      if '=' ∈ value then .error .valueError else .ok (Assoc.set values key value) := by
  have hcontains : (key ++ '=' :: value).contains '=' = true := by simp
  rw [parseLine, if_pos hcontains, List.splitOn_append_cons_self_of_not_mem hkey]
  by_cases hvalue : '=' ∈ value
  · obtain ⟨front, back, rfl, hfront⟩ := List.eq_append_cons_of_mem hvalue
    rw [if_pos hvalue, List.splitOn_append_cons_self_of_not_mem hfront]
    cases hback : back.splitOn '=' with
    | nil => exact absurd hback (List.splitOn_ne_nil _ _)
    | cons s rest => rfl
  · rw [if_neg hvalue, List.splitOn_eq_singleton hvalue]

/-! ## What is read -/

/-- The key and the value of each line, the last value without the white space at its end. -/
def pairs (front : List Line) (last : Line) : List (Text × Text) :=
  (front.map fun l => (l.key, l.value)) ++ [(last.key, rstrip last.value)]

def pairText (p : Text × Text) : Text := p.1 ++ '=' :: p.2

theorem strip_output (front : List Line) (last : Line) :
    strip (output (front ++ [last])) =
      (front.map Line.text).flatMap (fun l => l ++ ['\n']) ++
        pairText (last.key, rstrip last.value) := by
  have hhead : ∃ c rest, (front.map Line.text).flatMap (fun l => l ++ ['\n']) ++
      (last.key ++ '=' :: last.value) = c :: rest ∧ isspace c = false := by
    cases front with
    | nil =>
      obtain ⟨c, rest, hkey, hc⟩ := last.exists_head
      exact ⟨c, _, by rw [hkey]; rfl, hc⟩
    | cons l front =>
      obtain ⟨c, rest, hkey, hc⟩ := l.exists_head
      exact ⟨c, _, by rw [List.map_cons, Line.text, hkey]; rfl, hc⟩
  obtain ⟨c, rest, heq, hc⟩ := hhead
  have houtput : output (front ++ [last]) = (front.map Line.text).flatMap (fun l => l ++ ['\n']) ++
      (last.key ++ '=' :: last.value) ++ ['\n'] := by
    simp [output, Line.text, List.flatMap_map]
  rw [houtput, strip_lines hc (by decide) heq]
  rfl

theorem splitlines_output (front : List Line) (last : Line) :
    splitlines (strip (output (front ++ [last]))) = (pairs front last).map pairText := by
  have hclean (l : Line) (value : Text) (hvalue : ∀ c ∈ value, isBreak c = false) (c : Char)
      (hc : c ∈ pairText (l.key, value)) : isBreak c = false := by
    rcases List.mem_append.mp hc with hc | hc
    · exact (l.key_clean c hc).2
    · rcases List.mem_cons.mp hc with rfl | hc
      · decide
      · exact hvalue c hc
  rw [strip_output, splitlines_lines]
  · simp [pairs, pairText, Line.text]
  · intro text htext
    obtain ⟨l, -, rfl⟩ := List.mem_map.mp htext
    exact hclean l l.value l.value_ok
  · exact hclean last _ fun c hc => last.value_ok c (mem_of_mem_rstrip hc)
  · simp [pairText]

theorem foldlM_pairText {ps : List (Text × Text)} (h : ∀ p ∈ ps, '=' ∉ p.1) (values : Values) :
    (ps.map pairText).foldlM parseLine values =
      if ∃ p ∈ ps, '=' ∈ p.2 then .error .valueError
      else .ok (ps.foldl (fun d p => Assoc.set d p.1 p.2) values) := by
  induction ps generalizing values with
  | nil => rfl
  | cons p ps ih =>
    rw [List.forall_mem_cons] at h
    rw [List.map_cons, Fold.foldlM_cons, pairText, parseLine_text h.1]
    by_cases hp : '=' ∈ p.2
    · simp [hp]
    · rw [if_neg hp]
      simp only [List.exists_mem_cons_iff, hp, false_or]
      exact ih h.2 _

theorem fst_notMem_pairs (front : List Line) (last : Line) :
    ∀ p ∈ pairs front last, '=' ∉ p.1 := by
  have hkey (l : Line) : '=' ∉ l.key := fun hmem => (l.key_clean _ hmem).1 rfl
  intro p hp
  rcases List.mem_append.mp hp with hp | hp
  · obtain ⟨l, -, rfl⟩ := List.mem_map.mp hp
    exact hkey l
  · rw [List.mem_singleton.mp hp]
    exact hkey last

/-- The values that are read, where no value has the delimiter. -/
theorem readLines_output (front : List Line) (last : Line) :
    readLines (strip (output (front ++ [last]))) =
      if ∃ l ∈ front ++ [last], '=' ∈ l.value then .error .valueError
      else .ok (Assoc.ofPairs (pairs front last)) := by
  have hdelimiter : (∃ p ∈ pairs front last, '=' ∈ p.2) ↔ ∃ l ∈ front ++ [last], '=' ∈ l.value := by
    have hlast : '=' ∈ rstrip last.value ↔ '=' ∈ last.value := mem_rstrip (by decide)
    simp [pairs, or_and_right, exists_or, hlast]
  rw [readLines, splitlines_output, foldlM_pairText (fst_notMem_pairs front last)]
  simp only [hdelimiter]
  rfl

/-! ## Numbers -/

theorem portParts_rstrip (value : Text) : portParts (rstrip value) = portParts value := by
  have hspace (c : Char) (hc : (c.isDigit || c == '/') = true) : isspace c = false := by
    rcases Bool.or_eq_true_iff.mp hc with hc | hc
    · simp only [Char.isDigit, Bool.and_eq_true, decide_eq_true_eq, ge_iff_le,
        UInt32.le_iff_toNat_le] at hc
      have hrange : 48 ≤ c.toNat ∧ c.toNat ≤ 57 := hc
      simp only [isspace, List.contains_eq_mem, List.mem_cons, List.not_mem_nil, or_false,
        Bool.or_eq_false_iff, decide_eq_false_iff_not, Bool.and_eq_false_iff]
      omega
    · rw [beq_iff_eq.mp hc]
      decide
  rw [portParts, filter_rstrip hspace]
  rfl

theorem portParts_eq (value : Text) :
    portParts value = (value.splitOn '/').map (List.filter Char.isDigit) := by
  induction value with
  | nil => rfl
  | cons c value ih =>
    rw [portParts] at ih ⊢
    rw [List.splitOn_cons_eq_if_modifyHead]
    obtain ⟨part, rest, hsplit⟩ : ∃ part rest, value.splitOn '/' = part :: rest :=
      List.exists_cons_of_ne_nil (List.splitOn_ne_nil _ _)
    rw [hsplit, List.map_cons] at ih
    by_cases hc : c = '/'
    · rw [List.filter_cons_of_pos (by simp [hc]), List.splitOn_cons_eq_if_modifyHead, ih, hsplit]
      simp [hc]
    · by_cases hdigit : c.isDigit
      · rw [List.filter_cons_of_pos (by simp [hdigit]), List.splitOn_cons_eq_if_modifyHead, ih,
          hsplit]
        simp [hc, hdigit]
      · rw [List.filter_cons_of_neg (by simp [hc, hdigit]), ih, hsplit]
        simp [hc, hdigit]

theorem toNat_of_numberIn {text : Text} {n : Nat} (h : numberIn text = some n) :
    toNat (text.filter Char.isDigit) = n := by
  simp only [numberIn, Option.ite_none_right_eq_some] at h
  obtain ⟨⟨-, hall⟩, heq⟩ := h
  have hpre : (text.takeWhile fun c => ¬ c.isDigit).filter Char.isDigit = [] := by
    rw [List.filter_eq_nil_iff]
    intro c hc
    simpa using List.mem_takeWhile_imp hc
  have hrest : ((text.dropWhile fun c => ¬ c.isDigit).dropWhile Char.isDigit).filter
      Char.isDigit = [] := by
    rw [List.filter_eq_nil_iff]
    intro c hc
    simpa using List.all_eq_true.mp hall c hc
  have hdigits : (text.dropWhile fun c => ¬ c.isDigit).filter Char.isDigit =
      (text.dropWhile fun c => ¬ c.isDigit).takeWhile Char.isDigit := by
    conv_lhs => rw [← List.takeWhile_append_dropWhile (p := Char.isDigit)
      (l := text.dropWhile fun c => ¬ c.isDigit), List.filter_append, hrest, List.append_nil]
    exact List.filter_eq_self.mpr fun c hc => List.mem_takeWhile_imp hc
  have htext : text.filter Char.isDigit =
      (text.dropWhile fun c => ¬ c.isDigit).takeWhile Char.isDigit := by
    conv_lhs => rw [← List.takeWhile_append_dropWhile (p := fun c => decide (¬ c.isDigit))
      (l := text), List.filter_append, hpre, List.nil_append]
    exact hdigits
  rw [htext]
  exact Option.some.inj heq

theorem map_toNat_of_numbers {parts : List Text} {numbers : List Nat}
    (h : parts.mapM numberIn = some numbers) :
    (parts.map (List.filter Char.isDigit)).map toNat = numbers := by
  induction parts generalizing numbers with
  | nil =>
    cases h
    rfl
  | cons part parts ih =>
    rw [List.mapM_cons] at h
    obtain ⟨n, hn, hrest⟩ := Option.bind_eq_some_iff.mp h
    obtain ⟨ns, hns, heq⟩ := Option.bind_eq_some_iff.mp hrest
    cases heq
    rw [List.map_cons, List.map_cons, toNat_of_numberIn hn, ih hns]

/-- The numbers that are read of a value that has some. -/
theorem location_portParts {value : Text} {t : Nat × Nat × Nat} (h : locationIn value = some t) :
    location ((portParts value).map toNat) = some t := by
  obtain ⟨numbers, hnumbers, hlocation⟩ := Option.bind_eq_some_iff.mp h
  rw [portParts_eq, map_toNat_of_numbers hnumbers]
  exact hlocation

/-- The slot, the port and the subport that are read, where there are one to three numbers. -/
def readLocation (value : Text) : Nat × Nat × Nat :=
  (location ((portParts value).map toNat)).getD (0, 0, 0)

theorem portNumbers_ok_iff (value : Text) (t : Nat × Nat × Nat) :
    portNumbers value = .ok t ↔ PortOk value ∧ readLocation value = t := by
  have hint (part : Text) :
      int part = if part = [] then .error .valueError else .ok (toNat part) := by
    cases part <;> rfl
  have hne : portParts value ≠ [] := List.splitOn_ne_nil _ _
  unfold portNumbers PortOk readLocation
  generalize portParts value = parts at hne
  rcases parts with _ | ⟨part₁, _ | ⟨part₂, _ | ⟨part₃, _ | ⟨part₄, rest⟩⟩⟩⟩
  · exact absurd rfl hne
  · by_cases h₁ : part₁ = [] <;> simp [hint, h₁, location]
  · by_cases h₁ : part₁ = [] <;> by_cases h₂ : part₂ = [] <;>
      simp [hint, h₁, h₂, Fold.bind_ok, location]
  · by_cases h₁ : part₁ = [] <;> by_cases h₂ : part₂ = [] <;> by_cases h₃ : part₃ = [] <;>
      simp [hint, h₁, h₂, h₃, Fold.bind_ok, location]
  · simp

/-! ## The loop over the values -/

/-- The interface and the name in a key. -/
def interfaceOf (item : Text × Text) : Text := ((splitKey item.1).map (·.2.1)).getD []

def nameOf (item : Text × Text) : Text := ((splitKey item.1).map (·.2.2)).getD []

/-- A value that does not raise. -/
def GoodItem (item : Text × Text) : Prop := portNames.contains (nameOf item) → PortOk item.2

/-- What a value that does not raise says about a neighbour. -/
def note (neighbor : Neighbor) (item : Text × Text) : Neighbor :=
  if nameOf item = chassisMac then { neighbor with mac := some item.2 }
  else if nameOf item = chassisName then { neighbor with name := some item.2 }
  else if portNames.contains (nameOf item) then
    { neighbor with
      slot := some (readLocation item.2).1
      port := some (readLocation item.2).2.1
      subport := some (readLocation item.2).2.2 }
  else neighbor

/-- The results of values that do not raise. -/
def readItems (items : Values) : Results := items.foldl (Assoc.update interfaceOf note {}) []

theorem setNeighbor_ok_iff (neighbor s : Neighbor) (item : Text × Text) :
    setNeighbor neighbor (nameOf item) item.2 = .ok s ↔ GoodItem item ∧ s = note neighbor item := by
  have hmac : portNames.contains chassisMac = false := by decide
  have hname : portNames.contains chassisName = false := by decide
  have hok (x : Neighbor) (hgood : GoodItem item) :
      (Except.ok x : Except LldpError Neighbor) = .ok s ↔ GoodItem item ∧ s = x :=
    ⟨fun h => ⟨hgood, (Except.ok.inj h).symm⟩, fun h => by rw [h.2]⟩
  unfold setNeighbor note
  by_cases h₁ : nameOf item = chassisMac
  · rw [if_pos h₁, if_pos h₁]
    refine hok _ fun h => ?_
    rw [h₁, hmac] at h
    cases h
  rw [if_neg h₁, if_neg h₁]
  by_cases h₂ : nameOf item = chassisName
  · rw [if_pos h₂, if_pos h₂]
    refine hok _ fun h => ?_
    rw [h₂, hname] at h
    cases h
  rw [if_neg h₂, if_neg h₂]
  by_cases h₃ : portNames.contains (nameOf item) = true
  · rw [if_pos h₃, if_pos h₃, Fold.bind_ok]
    constructor
    · rintro ⟨⟨slot, port, subport⟩, hnumbers, heq⟩
      obtain ⟨hgood, hlocation⟩ := (portNumbers_ok_iff _ _).mp hnumbers
      cases heq
      rw [hlocation]
      exact ⟨fun _ => hgood, rfl⟩
    · rintro ⟨hgood, rfl⟩
      exact ⟨_, (portNumbers_ok_iff _ _).mpr ⟨hgood h₃, rfl⟩, rfl⟩
  · rw [if_neg h₃, if_neg h₃]
    exact hok _ fun h => absurd h h₃

/-- A turn of the loop, for a key with an interface and a name. -/
theorem readItem_ok_iff (results s : Results) {item : Text × Text}
    (hkey : (splitKey item.1).isSome) :
    readItem results item = .ok s ↔
      GoodItem item ∧ s = Assoc.update interfaceOf note {} results item := by
  obtain ⟨⟨protocol, interface, name⟩, hsplit⟩ := Option.isSome_iff_exists.mp hkey
  have hinterface : interfaceOf item = interface := by rw [interfaceOf, hsplit]; rfl
  have hname : nameOf item = name := by rw [nameOf, hsplit]; rfl
  rw [readItem, hsplit]
  simp only [Fold.bind_ok, ← hname, setNeighbor_ok_iff, Assoc.update, hinterface]
  constructor
  · rintro ⟨neighbor, ⟨hgood, rfl⟩, hok⟩
    cases hok
    exact ⟨hgood, rfl⟩
  · rintro ⟨hgood, rfl⟩
    exact ⟨_, ⟨hgood, rfl⟩, rfl⟩

/-- When the loop over the values comes back, and with what. -/
theorem readItems_ok_iff {items : Values} (hkeys : ∀ item ∈ items, (splitKey item.1).isSome)
    (results : Results) :
    items.foldlM readItem [] = .ok results ↔
      (∀ item ∈ items, GoodItem item) ∧ results = readItems items := by
  have hstep : ∀ s : Results, ∀ item ∈ items, ∀ s', readItem s item = .ok s' ↔
      GoodItem item ∧ s' = Assoc.update interfaceOf note {} s item :=
    fun s item hitem s' => readItem_ok_iff s s' (hkeys item hitem)
  exact Fold.foldlM_ok_iff hstep [] results

/-- The last value of an interface and a name. -/
def lastItem (items : Values) (interface : Text) (sel : Text → Bool) : Option (Text × Text) :=
  (items.filter fun item => interfaceOf item = interface ∧ sel (nameOf item)).getLast?

/-- An entry of a neighbour is that of the last value that sets it. -/
theorem part_readItems {γ : Type} (part : Neighbor → Option γ) (sel : Text → Bool)
    (g : Text × Text → γ) (hinit : part {} = none)
    (hpart : ∀ neighbor item,
      part (note neighbor item) = if sel (nameOf item) then some (g item) else part neighbor)
    {items : Values} {interface : Text} {neighbor : Neighbor}
    (h : (readItems items).lookup interface = some neighbor) :
    part neighbor = (lastItem items interface sel).map g := by
  have hlookup := Assoc.lookup_update interfaceOf note {} part (fun item => sel (nameOf item)) g
    hinit hpart items interface
  rw [← readItems, h, Option.bind_some] at hlookup
  exact hlookup

theorem mac_note (neighbor : Neighbor) (item : Text × Text) :
    (note neighbor item).mac = if nameOf item == chassisMac then some item.2 else neighbor.mac := by
  unfold note
  split_ifs <;> simp_all

theorem name_note (neighbor : Neighbor) (item : Text × Text) :
    (note neighbor item).name =
      if nameOf item == chassisName then some item.2 else neighbor.name := by
  have hne : chassisName ≠ chassisMac := by decide
  unfold note
  split_ifs <;> simp_all

/-- The slot, the port and the subport are set together. -/
theorem location_note (neighbor : Neighbor) (item : Text × Text) :
    ((note neighbor item).slot, (note neighbor item).port, (note neighbor item).subport) =
      if portNames.contains (nameOf item) then
        (some (readLocation item.2).1, some (readLocation item.2).2.1,
          some (readLocation item.2).2.2)
      else (neighbor.slot, neighbor.port, neighbor.subport) := by
  have hmac : portNames.contains chassisMac = false := by decide
  have hname : portNames.contains chassisName = false := by decide
  unfold note
  split_ifs <;> simp_all

theorem mac_readItems {items : Values} {interface : Text} {neighbor : Neighbor}
    (h : (readItems items).lookup interface = some neighbor) :
    neighbor.mac = (lastItem items interface (· == chassisMac)).map (·.2) :=
  part_readItems Neighbor.mac (· == chassisMac) (·.2) rfl mac_note h

theorem name_readItems {items : Values} {interface : Text} {neighbor : Neighbor}
    (h : (readItems items).lookup interface = some neighbor) :
    neighbor.name = (lastItem items interface (· == chassisName)).map (·.2) :=
  part_readItems Neighbor.name (· == chassisName) (·.2) rfl name_note h

/-- The numbers of a neighbour are those of the last value about a port. -/
theorem location_readItems {items : Values} {interface : Text} {neighbor : Neighbor}
    (h : (readItems items).lookup interface = some neighbor) :
    let item := lastItem items interface portNames.contains
    neighbor.slot = item.map (fun item => (readLocation item.2).1) ∧
      neighbor.port = item.map (fun item => (readLocation item.2).2.1) ∧
      neighbor.subport = item.map (fun item => (readLocation item.2).2.2) := by
  refine ⟨part_readItems _ _ _ rfl (fun neighbor item => ?_) h,
    part_readItems _ _ _ rfl (fun neighbor item => ?_) h,
    part_readItems _ _ _ rfl (fun neighbor item => ?_) h⟩
  all_goals
    have hnote := location_note neighbor item
    by_cases hport : portNames.contains (nameOf item) = true
    · rw [if_pos hport] at hnote ⊢
      simp_all
    · rw [if_neg hport] at hnote ⊢
      simp_all

/-! ## Values and lines -/

section items

variable (front : List Line) (last : Line)

/-- The values are those of the lines that are the last ones with their keys. -/
theorem mem_items_iff (item : Text × Text) :
    item ∈ Assoc.ofPairs (pairs front last) ↔ item = (last.key, rstrip last.value) ∨
      ∃ l, Assoc.LastOf Line.key front l ∧ l.key ≠ last.key ∧ (l.key, l.value) = item := by
  have hkey (l : Line) : ((l.key, l.value) : Text × Text).1 = l.key := rfl
  rw [Assoc.mem_ofPairs_iff, pairs, Assoc.lastOf_concat, Assoc.lastOf_map hkey]
  refine or_congr_right ?_
  constructor
  · rintro ⟨⟨l, hl, rfl⟩, hne⟩
    exact ⟨l, hl, hne, rfl⟩
  · rintro ⟨l, hl, hne, rfl⟩
    exact ⟨⟨l, hl, rfl⟩, hne⟩

/-- Each value is that of a line, up to the white space at the end of the last one. -/
theorem exists_line {item : Text × Text} (h : item ∈ Assoc.ofPairs (pairs front last)) :
    ∃ l ∈ front ++ [last], item.1 = l.key ∧
      (item.2 = l.value ∨ l = last ∧ item.2 = rstrip last.value) := by
  rcases (mem_items_iff front last item).mp h with rfl | ⟨l, hl, -, rfl⟩
  · exact ⟨last, by simp, rfl, .inr ⟨rfl, rfl⟩⟩
  · exact ⟨l, List.mem_append_left _ hl.mem, rfl, .inl rfl⟩

theorem exists_item {l : Line} (h : l ∈ front ++ [last]) :
    ∃ item ∈ Assoc.ofPairs (pairs front last), item.1 = l.key := by
  have hkeys : l.key ∈ Assoc.keys (Assoc.ofPairs (pairs front last)) := by
    rw [Assoc.mem_keys_ofPairs, pairs]
    rcases List.mem_append.mp h with h | h
    · simp only [List.map_append, List.map_map, List.mem_append]
      exact .inl (List.mem_map.mpr ⟨l, h, rfl⟩)
    · rw [List.mem_singleton.mp h]
      simp
  exact List.mem_map.mp hkeys

theorem interfaceOf_eq {item : Text × Text} {l : Line} (h : item.1 = l.key) :
    interfaceOf item = l.interface := by
  rw [interfaceOf, h, l.splitKey_key]
  rfl

theorem nameOf_eq {item : Text × Text} {l : Line} (h : item.1 = l.key) : nameOf item = l.name := by
  rw [nameOf, h, l.splitKey_key]
  rfl

theorem splitKey_isSome {item : Text × Text} (h : item ∈ Assoc.ofPairs (pairs front last)) :
    (splitKey item.1).isSome := by
  obtain ⟨l, -, hkey, -⟩ := exists_line front last h
  rw [hkey, l.splitKey_key]
  rfl

/-- No value raises if and only if the last line of each key does not. -/
theorem goodItems_iff :
    (∀ item ∈ Assoc.ofPairs (pairs front last), GoodItem item) ↔
      ∀ l, Assoc.LastOf Line.key (front ++ [last]) l → l.isPort → PortOk l.value := by
  have hrstrip (value : Text) : PortOk (rstrip value) ↔ PortOk value := by
    rw [PortOk, portParts_rstrip, PortOk]
  simp only [mem_items_iff, Assoc.lastOf_concat]
  constructor
  · rintro h l (rfl | ⟨hl, hne⟩) hport
    · refine (hrstrip _).mp (h _ (.inl rfl) ?_)
      rwa [nameOf_eq (l := l) rfl]
    · refine h (l.key, l.value) (.inr ⟨l, hl, hne, rfl⟩) ?_
      rwa [nameOf_eq (l := l) rfl]
  · rintro h item (rfl | ⟨l, hl, hne, rfl⟩) hport
    · rw [nameOf_eq (l := last) rfl] at hport
      exact (hrstrip _).mpr (h last (.inl rfl) hport)
    · rw [nameOf_eq (l := l) rfl] at hport
      exact h l (.inr ⟨hl, hne⟩) hport

/-! ## The last value of an interface and a name -/

/-- A key of an interface and a name. -/
def ofInterface (interface name key : Text) : Bool :=
  interfaceOf (key, []) = interface ∧ nameOf (key, []) = name

theorem ofInterface_key (interface name : Text) (l : Line) :
    ofInterface interface name l.key = true ↔ l.interface = interface ∧ l.name = name := by
  rw [ofInterface, interfaceOf_eq (l := l) rfl, nameOf_eq (l := l) rfl, decide_eq_true_iff]

theorem fst_lastItem (items : Values) (interface name : Text) :
    (lastItem items interface (· == name)).map (·.1) =
      ((Assoc.keys items).filter (ofInterface interface name)).getLast? := by
  rw [Assoc.keys, List.filter_map, List.getLast?_map, lastItem]
  congr 2
  apply List.filter_congr
  intro item _
  simp only [ofInterface, Function.comp, beq_iff_eq]
  rfl

theorem superseded_iff :
    Assoc.Superseded (·.1) (ofInterface last.interface last.name) (pairs front last) last.key ↔
      Overtaken (front ++ [last]) last := by
  have hkeys : (pairs front last).map (·.1) = (front ++ [last]).map Line.key := by
    simp [pairs, Function.comp_def]
  rw [← Assoc.superseded_map, hkeys, Assoc.superseded_map]
  unfold Assoc.Superseded Overtaken
  simp only [ofInterface_key, List.mem_map, not_exists, not_and, and_assoc]

/-- The last value, where the last line is about that interface and that name. -/
theorem lastItem_eq_iff {item : Text × Text} (hitem : item.1 = last.key) :
    lastItem (Assoc.ofPairs (pairs front last)) last.interface (· == last.name) = some item →
      item = (last.key, rstrip last.value) := by
  intro h
  have hmem : item ∈ Assoc.ofPairs (pairs front last) :=
    List.mem_of_mem_filter (List.mem_of_getLast? h)
  rcases (mem_items_iff front last item).mp hmem with heq | ⟨l, -, hne, rfl⟩
  · exact heq
  · exact absurd hitem hne

/-- It is that of the last line if and only if no line has overtaken it. -/
theorem overtaken_iff :
    Overtaken (front ++ [last]) last ↔
      lastItem (Assoc.ofPairs (pairs front last)) last.interface (· == last.name) ≠
        some (last.key, rstrip last.value) := by
  have hsel : ofInterface last.interface last.name last.key :=
    (ofInterface_key _ _ _).mpr ⟨rfl, rfl⟩
  have hkey : last.key ∈ (pairs front last).map (·.1) := by simp [pairs]
  have hlast := Assoc.getLast?_keys_iff hsel hkey
  rw [superseded_iff, ← fst_lastItem] at hlast
  rw [← not_iff_not, ← hlast, not_ne_iff, Option.map_eq_some_iff]
  constructor
  · rintro ⟨item, hitem, hfst⟩
    rw [hitem, lastItem_eq_iff front last hfst hitem]
  · intro h
    exact ⟨_, h, rfl⟩

theorem mem_lastItem {items : Values} {interface : Text} {sel : Text → Bool} {item : Text × Text}
    (h : lastItem items interface sel = some item) :
    item ∈ items ∧ interfaceOf item = interface ∧ sel (nameOf item) = true := by
  have hmem := List.mem_filter.mp (List.mem_of_getLast? h)
  rw [decide_eq_true_iff] at hmem
  exact hmem

theorem lastItem_eq_none {items : Values} {interface : Text} {sel : Text → Bool}
    (h : lastItem items interface sel = none) {item : Text × Text} (hitem : item ∈ items)
    (hinterface : interfaceOf item = interface) : sel (nameOf item) = false := by
  rw [lastItem, List.getLast?_eq_none_iff, List.filter_eq_nil_iff] at h
  simpa [hinterface] using h item hitem

/-! ## The results are those of the lines -/

/-- The last line keeps what counts of it. -/
def LastKept (name : Text) : Prop :=
  last.name = name → rstrip last.value = last.value ∨ Overtaken (front ++ [last]) last ∨
    ∃ m ∈ front ++ [last], m.interface = last.interface ∧ m.name = last.name ∧
      m.value = rstrip last.value

theorem verbatim_of_lastKept {name : Text} (h : LastKept front last name) (interface : Text) :
    Verbatim (front ++ [last]) interface name
      ((lastItem (Assoc.ofPairs (pairs front last)) interface (· == name)).map (·.2)) := by
  cases hitem : lastItem (Assoc.ofPairs (pairs front last)) interface (· == name) with
  | none =>
    rintro l hl ⟨hinterface, hname⟩
    obtain ⟨item, hmem, hkey⟩ := exists_item front last hl
    have hsel := lastItem_eq_none hitem hmem ((interfaceOf_eq hkey).trans hinterface)
    rw [nameOf_eq hkey, hname] at hsel
    simp at hsel
  | some item =>
    obtain ⟨hmem, hinterface, hname⟩ := mem_lastItem hitem
    obtain ⟨l, hl, hkey, hvalue⟩ := exists_line front last hmem
    rw [interfaceOf_eq hkey] at hinterface
    rw [nameOf_eq hkey, beq_iff_eq] at hname
    rcases hvalue with hvalue | ⟨rfl, hvalue⟩
    · exact ⟨l, hl, hinterface, hname, hvalue.symm⟩
    · subst hinterface hname
      rcases h rfl with hclean | hovertaken | ⟨m, hm, hinterface, hname, heq⟩
      · exact ⟨l, hl, rfl, rfl, (hvalue.trans hclean).symm⟩
      · rw [overtaken_iff, hitem] at hovertaken
        exact absurd (congrArg some (Prod.ext hkey hvalue)) hovertaken
      · exact ⟨m, hm, hinterface, hname, heq.trans hvalue.symm⟩

theorem lastKept_of_verbatim
    (h : Verbatim (front ++ [last]) last.interface last.name
      ((lastItem (Assoc.ofPairs (pairs front last)) last.interface (· == last.name)).map (·.2))) :
    LastKept front last last.name := by
  intro _
  by_cases hovertaken : Overtaken (front ++ [last]) last
  · exact .inr (.inl hovertaken)
  · rw [overtaken_iff, not_ne_iff] at hovertaken
    rw [hovertaken] at h
    exact .inr (.inr h)

theorem located (interface : Text) {neighbor : Neighbor}
    (h : (readItems (Assoc.ofPairs (pairs front last))).lookup interface = some neighbor) :
    Located (front ++ [last]) interface neighbor := by
  obtain ⟨hslot, hport, hsubport⟩ := location_readItems h
  cases hitem : lastItem (Assoc.ofPairs (pairs front last)) interface portNames.contains with
  | none =>
    rw [hitem] at hslot hport hsubport
    refine .inl ⟨?_, hslot, hport, hsubport⟩
    rintro l hl ⟨hinterface, hisPort⟩
    obtain ⟨item, hmem, hkey⟩ := exists_item front last hl
    have hsel := lastItem_eq_none hitem hmem ((interfaceOf_eq hkey).trans hinterface)
    rw [nameOf_eq hkey, hisPort] at hsel
    cases hsel
  | some item =>
    obtain ⟨hmem, hinterface, hname⟩ := mem_lastItem hitem
    obtain ⟨l, hl, hkey, hvalue⟩ := exists_line front last hmem
    rw [interfaceOf_eq hkey] at hinterface
    rw [nameOf_eq hkey] at hname
    have hparts : readLocation item.2 = readLocation l.value := by
      rcases hvalue with hvalue | ⟨rfl, hvalue⟩
      · rw [hvalue]
      · rw [hvalue, readLocation, portParts_rstrip, readLocation]
    rw [hitem] at hslot hport hsubport
    refine .inr ⟨l, hl, hinterface, hname, fun slot port subport hlocation => ?_⟩
    have hread : readLocation item.2 = (slot, port, subport) := by
      rw [hparts, readLocation, location_portParts hlocation]
      rfl
    rw [Option.map_some, hread] at hslot hport hsubport
    exact ⟨hslot, hport, hsubport⟩

theorem mem_keys_readItems (interface : Text) :
    interface ∈ Assoc.keys (readItems (Assoc.ofPairs (pairs front last))) ↔
      ∃ l ∈ front ++ [last], l.interface = interface := by
  rw [readItems, Assoc.mem_keys_update, List.mem_map]
  constructor
  · rintro ⟨item, hitem, rfl⟩
    obtain ⟨l, hl, hkey, -⟩ := exists_line front last hitem
    exact ⟨l, hl, (interfaceOf_eq hkey).symm⟩
  · rintro ⟨l, hl, rfl⟩
    obtain ⟨item, hitem, hkey⟩ := exists_item front last hl
    exact ⟨item, hitem, interfaceOf_eq hkey⟩

/-- The results are those of the lines if and only if the last line keeps what counts of it. -/
theorem faithful_iff :
    Faithful (front ++ [last]) (readItems (Assoc.ofPairs (pairs front last))) ↔
      LastKept front last chassisMac ∧ LastKept front last chassisName := by
  constructor
  · intro h
    obtain ⟨neighbor, hneighbor⟩ := Option.isSome_iff_exists.mp
      (Assoc.lookup_isSome_iff.mpr ((h.interfaces last.interface).mpr ⟨last, by simp, rfl⟩))
    refine ⟨fun hname => ?_, fun hname => ?_⟩
    · have hverbatim := h.mac _ _ hneighbor
      rw [mac_readItems hneighbor, ← hname] at hverbatim
      exact lastKept_of_verbatim front last hverbatim rfl
    · have hverbatim := h.name _ _ hneighbor
      rw [name_readItems hneighbor, ← hname] at hverbatim
      exact lastKept_of_verbatim front last hverbatim rfl
  · rintro ⟨hmac, hname⟩
    refine ⟨mem_keys_readItems front last, fun interface neighbor h => ?_,
      fun interface neighbor h => ?_, fun interface neighbor h => located front last interface h⟩
    · rw [mac_readItems h]
      exact verbatim_of_lastKept front last hmac interface
    · rw [name_readItems h]
      exact verbatim_of_lastKept front last hname interface

end items

/-! ## `getLLDP` -/

/-- The first data of more than 10 characters. -/
theorem poll_eq {lldpcli : Nat → Text} {n : Nat} {text : Text}
    (hshort : ∀ j < n, (lldpcli j).length ≤ 10) (htext : ∀ j, n ≤ j → lldpcli j = text)
    (counter left : Nat) (hn : n ≤ counter + left) :
    poll lldpcli counter left =
      if 10 < (strip text).length then some (strip text) else none := by
  induction left generalizing counter with
  | zero =>
    rw [poll, htext counter hn]
  | succ left ih =>
    have hrest := ih (counter + 1) (by omega)
    rw [poll]
    by_cases hcounter : n ≤ counter
    · rw [htext counter hcounter]
      by_cases hlong : 10 < (strip text).length
      · simp [hlong]
      · simp only [if_neg hlong] at hrest ⊢
        exact hrest
    · have hstrip : ¬ 10 < (strip (lldpcli counter)).length := by
        have hle := length_strip_le (lldpcli counter)
        have hlength := hshort counter (by omega)
        omega
      simp only [if_neg hstrip]
      exact hrest

/-- What comes back of lines that are long enough. -/
theorem getLLDP_ok_iff {lldpcli : Nat → Text} {front : List Line} {last : Line}
    (hpoll : poll lldpcli 0 3 = some (strip (output (front ++ [last])))) (results : Results) :
    (getLLDP lldpcli).2 = .ok results ↔ (∀ l ∈ front ++ [last], '=' ∉ l.value) ∧
      (∀ item ∈ Assoc.ofPairs (pairs front last), GoodItem item) ∧
      results = readItems (Assoc.ofPairs (pairs front last)) := by
  have hdelimiter : (¬ ∃ l ∈ front ++ [last], '=' ∈ l.value) ↔
      ∀ l ∈ front ++ [last], '=' ∉ l.value := by
    push Not
    rfl
  have hitems := readItems_ok_iff (fun item h => splitKey_isSome front last h) results
  rw [getLLDP, hpoll, ← hdelimiter, ← hitems]
  change readLines _ >>= _ = _ ↔ _
  rw [readLines_output, Fold.bind_ok]
  by_cases hequals : ∃ l ∈ front ++ [last], '=' ∈ l.value
  · rw [if_pos hequals]
    refine iff_of_false ?_ fun h => h.1 hequals
    rintro ⟨_, h, -⟩
    cases h
  · rw [if_neg hequals]
    constructor
    · rintro ⟨_, h, hok⟩
      cases h
      exact ⟨hequals, hok⟩
    · exact fun h => ⟨_, rfl, h.2⟩

/-- **The results come back, and are those of the lines, if and only if the lines are handled.** -/
theorem getLLDP_faithful_iff {lldpcli : Nat → Text} {n : Nat} {lines : List Line} (hn : n ≤ 3)
    (hshort : ∀ j < n, (lldpcli j).length ≤ 10) (houtput : ∀ j, n ≤ j → lldpcli j = output lines)
    (hlong : 10 < (output lines).length) :
    (∃ results, (getLLDP lldpcli).2 = .ok results ∧ Faithful lines results) ↔ Handled lines := by
  obtain ⟨front, last, rfl⟩ : ∃ front last, lines = front ++ [last] := by
    rcases List.eq_nil_or_concat lines with rfl | ⟨front, last, rfl⟩
    · simp [output] at hlong
    · exact ⟨front, last, List.concat_eq_append⟩
  have hpoll := poll_eq hshort houtput 0 3 (by omega)
  by_cases hstrip : 10 < (strip (output (front ++ [last]))).length
  · rw [if_pos hstrip] at hpoll
    constructor
    · rintro ⟨results, hok, hfaithful⟩
      obtain ⟨hdelimiter, hgood, rfl⟩ := (getLLDP_ok_iff hpoll results).mp hok
      obtain ⟨hmac, hname⟩ := (faithful_iff front last).mp hfaithful
      refine ⟨hstrip, hdelimiter, (goodItems_iff front last).mp hgood, fun l hl h => ?_⟩
      obtain rfl : last = l := by simpa using hl
      exact h.elim hmac hname
    · intro h
      have hlast (name : Text) (hname : name = chassisMac ∨ name = chassisName) :
          LastKept front last name := by
        rintro rfl
        exact h.last last (by simp) hname
      exact ⟨_, (getLLDP_ok_iff hpoll _).mpr
        ⟨h.delimiter, (goodItems_iff front last).mpr h.ports, rfl⟩,
        (faithful_iff front last).mpr ⟨hlast _ (.inl rfl), hlast _ (.inr rfl)⟩⟩
  · rw [if_neg hstrip] at hpoll
    refine iff_of_false ?_ fun h => hstrip h.long
    rintro ⟨results, hok, hfaithful⟩
    rw [getLLDP, hpoll] at hok
    cases hok
    have hmem := (hfaithful.interfaces last.interface).mpr ⟨last, by simp, rfl⟩
    cases hmem

/-- A neighbour that says where it is. -/
def exampleLines (value : Text) (hvalue : ∀ c ∈ value, isBreak c = false) : List Line :=
  [{ protocol := "lldp".toList
     interface := "eth0".toList
     name := chassisMac
     value := "00:1b:21:3a:4c:5d".toList
     protocol_ok := by simp [isspace]
     interface_ok := by simp [isBreak]
     name_ok := by
       unfold chassisMac
       simp [isBreak]
     value_ok := by simp [isBreak] },
   { protocol := "lldp".toList
     interface := "eth0".toList
     name := chassisName
     value := "rack 12".toList
     protocol_ok := by simp [isspace]
     interface_ok := by simp [isBreak]
     name_ok := by
       unfold chassisName
       simp [isBreak]
     value_ok := by simp [isBreak] },
   { protocol := "lldp".toList
     interface := "eth0".toList
     name := "port.ifname".toList
     value := "Ethernet 3/24".toList
     protocol_ok := by simp [isspace]
     interface_ok := by simp [isBreak]
     name_ok := by simp [isBreak]
     value_ok := by simp [isBreak] },
   { protocol := "lldp".toList
     interface := "eth0".toList
     name := "chassis.descr".toList
     value := value
     protocol_ok := by simp [isspace]
     interface_ok := by simp [isBreak]
     name_ok := by simp [isBreak]
     value_ok := hvalue }]

/-- What is known of it. -/
def exampleNeighbor : Neighbor :=
  ⟨some "00:1b:21:3a:4c:5d".toList, some "rack 12".toList, some 3, some 24, some 0⟩

theorem example_handled : Handled (exampleLines "switch 7".toList (by simp [isBreak])) where
  long := by decide +kernel
  delimiter := by decide +kernel
  ports l hl hport := by
    have hmem := hl.mem
    simp only [exampleLines, List.mem_cons, List.not_mem_nil, or_false] at hmem
    rcases hmem with rfl | rfl | rfl | rfl
    · exact absurd hport (by rw [Line.isPort]; decide)
    · exact absurd hport (by rw [Line.isPort]; decide)
    · decide
    · exact absurd hport (by rw [Line.isPort]; decide)
  last l hl := by
    cases hl
    rintro (h | h)
    · exact absurd h (by decide)
    · exact absurd h (by decide)

theorem example_faithful :
    (getLLDP fun _ => output (exampleLines "switch 7".toList (by simp [isBreak]))).2 =
        .ok [("eth0".toList, exampleNeighbor)] ∧
      Faithful (exampleLines "switch 7".toList (by simp [isBreak]))
        [("eth0".toList, exampleNeighbor)] := by
  have hvalues : (getLLDP fun _ =>
      output (exampleLines "switch 7".toList (by simp [isBreak]))).2 =
        .ok [("eth0".toList, exampleNeighbor)] := by decide +kernel
  obtain ⟨results, hok, hfaithful⟩ := (getLLDP_faithful_iff (Nat.zero_le 3)
    (fun _ h => absurd h (Nat.not_lt_zero _)) (fun _ _ => rfl) (by decide +kernel)).mpr
    example_handled
  cases hvalues.symm.trans hok
  exact ⟨hvalues, hfaithful⟩

/-- A description in which the delimiter is. -/
theorem description_raises :
    ¬ ∀ (lldpcli : Nat → Text) (lines : List Line), (∀ j, lldpcli j = output lines) →
      10 < (output lines).length →
      ∃ results, (getLLDP lldpcli).2 = .ok results ∧ Faithful lines results := by
  intro h
  obtain ⟨results, hok, -⟩ :=
    h (fun _ => output (exampleLines "mode=access".toList (by simp [isBreak])))
      (exampleLines "mode=access".toList (by simp [isBreak])) (fun _ => rfl) (by decide +kernel)
  have hraise :
      (getLLDP fun _ => output (exampleLines "mode=access".toList (by simp [isBreak]))).2 =
      .error .valueError := by decide +kernel
  rw [hraise] at hok
  cases hok

end Bootstrap
