import Disks.Hardware.DmiDecode
import Mathlib.Data.List.Chain

/-!
# What the walk through the SMBIOS table reads

* `stringsEnd_eq_some_iff`: the inner loop finds the first two zeros, and reads outside the table
  where there are none.
* `walk_isSome_iff`: when the walk stays inside the table.
* `dmiTable_ok_iff`: a table of `count` structures is decoded as such exactly where nothing is
  behind them.
* `dmi_table_faithful_iff`: both together.
-/

namespace Dmi

open Bytes Drive

/-! ## Structures -/

/-- No two zeros, also with a zero behind the bytes. -/
def Closed (strings : List Byte) : Prop := (strings ++ [0]).IsChain fun a b => a ≠ 0 ∨ b ≠ 0

/-- A well-formed structure: its formatted area behind the header, and its strings without the two
zeros at their end. -/
structure Structure where
  type : Byte
  handle : U16
  area : List Byte
  strings : List Byte
  short : area.length + 4 < 256
  closed : Closed strings

namespace Structure

def length (s : Structure) : Byte := BitVec.ofNat 8 (s.area.length + 4)

/-- The header and the formatted area. -/
def formatted (s : Structure) : List Byte :=
  [s.type, s.length, s.handle.extractLsb' 0 8, s.handle.extractLsb' 8 8] ++ s.area

def encode (s : Structure) : List Byte := s.formatted ++ (s.strings ++ [0, 0])

/-- The header that `dmi_decode` gets, where `rest` is behind the structure. -/
def header (s : Structure) (rest : List Byte) : Header :=
  ⟨s.type, s.length, s.handle, s.encode ++ rest⟩

theorem length_toNat (s : Structure) : s.length.toNat = s.area.length + 4 := by
  rw [length, BitVec.toNat_ofNat]
  exact Nat.mod_eq_of_lt s.short

theorem length_formatted (s : Structure) : s.formatted.length = s.length.toNat := by
  rw [length_toNat, formatted, List.length_append, Nat.add_comm]
  rfl

theorem length_encode (s : Structure) :
    s.encode.length = s.length.toNat + s.strings.length + 2 := by
  rw [encode, List.length_append, length_formatted, List.length_append]
  rfl

theorem not_short (s : Structure) : ¬ s.length < 4 := by
  rw [BitVec.lt_def, length_toNat]
  exact Nat.not_lt.mpr (Nat.le_add_left ..)

end Structure

/-- Structures one behind the other. -/
def table (structures : List Structure) : List Byte := structures.flatMap Structure.encode

theorem table_cons (s : Structure) (structures : List Structure) :
    table (s :: structures) = s.encode ++ table structures := List.flatMap_cons ..

section

variable {σ : Type} (dmi_decode : Header → Nat → σ → σ)

/-- The structures are decoded in order, each with its group; `rest` is behind them. -/
def decodeAll (rest : List Byte) : List Structure → Nat → σ → σ
  | [], _, list => list
  | s :: structures, group, list =>
    decodeAll rest structures (group + 1)
      (dmi_decode (s.header (table structures ++ rest)) group list)

end

/-! ## The strings of a structure -/

theorem getElem?_front {front rest : List Byte} {k : Nat} :
    (front ++ rest)[front.length + k]? = rest[k]? := by
  rw [List.getElem?_append_right (Nat.le_add_right ..), Nat.add_sub_cancel_left]

theorem moreStrings_front {front rest : List Byte} :
    moreStrings (front ++ rest) front.length = moreStrings rest 0 := by
  have hfirst : (front ++ rest)[front.length]? = rest[0]? := @getElem?_front front rest 0
  have hsecond : (front ++ rest)[front.length + 1]? = rest[1]? := getElem?_front
  simp only [moreStrings, hfirst, hsecond, Nat.zero_add]

theorem moreStrings_of_ne {x : Byte} (h : x ≠ 0) (bytes : List Byte) :
    moreStrings (x :: bytes) 0 = some true := if_pos h

theorem moreStrings_zero (bytes : List Byte) :
    moreStrings (0 :: bytes) 0 = bytes.head?.map fun second => decide (second ≠ 0) := by
  cases bytes <;> rfl

theorem moreStrings_eq_false {bytes : List Byte} (h : moreStrings bytes 0 = some false) :
    ∃ rest, bytes = 0 :: 0 :: rest := by
  cases bytes with
  | nil => cases h
  | cons x bytes =>
    by_cases hx : x = 0
    · rw [hx, moreStrings_zero] at h
      obtain ⟨y, hy, hzero⟩ := Option.map_eq_some_iff.mp h
      obtain ⟨rest, rfl⟩ := List.head?_eq_some_iff.mp hy
      exact ⟨rest, by rw [hx, not_not.mp (of_decide_eq_false hzero)]⟩
    · rw [moreStrings_of_ne hx] at h
      cases h

/-- The two zeros are found behind closed strings. -/
theorem stringsEnd_front {strings : List Byte} (h : Closed strings) (front rest : List Byte) :
    stringsEnd (front ++ (strings ++ 0 :: 0 :: rest)) front.length =
      some (front.length + strings.length) := by
  induction strings generalizing front with
  | nil =>
    have hmore : moreStrings (0 :: 0 :: rest) 0 = some false := rfl
    rw [List.nil_append, stringsEnd, moreStrings_front, hmore]
    rfl
  | cons x strings ih =>
    have hchain := List.isChain_cons.mp (show (x :: (strings ++ [0])).IsChain _ from h)
    have hmore : moreStrings (x :: strings ++ 0 :: 0 :: rest) 0 = some true := by
      by_cases hx : x = 0
      · cases strings with
        | nil => exact absurd (hchain.1 0 rfl) (by simp [hx])
        | cons y strings =>
          have hy : y ≠ 0 := (hchain.1 y rfl).resolve_left fun hne => hne hx
          rw [hx, List.cons_append, List.cons_append, moreStrings_zero]
          exact congrArg some (decide_eq_true hy)
      · exact moreStrings_of_ne hx _
    have hinside : front.length < (front ++ (x :: strings ++ 0 :: 0 :: rest)).length := by simp
    have hnext := ih hchain.2 (front ++ [x])
    rw [stringsEnd, moreStrings_front, hmore]
    simp only [hinside, and_true, if_true]
    rw [List.length_append, List.length_singleton, List.append_assoc,
      List.singleton_append] at hnext
    rw [List.cons_append, hnext, List.length_cons]
    congr 1
    omega

/-- **The inner loop finds the first two zeros.** -/
theorem stringsEnd_eq_some_iff {buff : List Byte} {pos next : Nat} :
    stringsEnd buff pos = some next ↔ ∃ front strings rest,
      buff = front ++ (strings ++ 0 :: 0 :: rest) ∧ front.length = pos ∧ Closed strings ∧
        next = pos + strings.length := by
  constructor
  · intro h
    fun_induction stringsEnd buff pos with
    | case1 => cases h
    | case2 pos more hmore hgo ih =>
      obtain ⟨front, strings, rest, hbuff, hfront, hclosed, rfl⟩ := ih h
      obtain ⟨front, x, rfl⟩ : ∃ front' x, front = front' ++ [x] := by
        have hne : front ≠ [] := List.ne_nil_of_length_eq_add_one hfront
        exact ⟨front.dropLast, front.getLast hne, (List.dropLast_append_getLast hne).symm⟩
      have hpos : front.length = pos := by simpa using hfront
      have hmore : moreStrings (x :: (strings ++ 0 :: 0 :: rest)) 0 = some true := by
        rw [hgo.1] at hmore
        rw [← @moreStrings_front front, hpos, ← hmore, hbuff, List.append_assoc,
          List.singleton_append]
      refine ⟨front, x :: strings, rest, ?_, hpos, ?_, ?_⟩
      · rw [hbuff, List.append_assoc, List.singleton_append]
        rfl
      · refine List.isChain_cons.mpr ⟨fun y hy => ?_, hclosed⟩
        by_cases hx : x = 0
        · right
          rw [hx, moreStrings_zero] at hmore
          cases strings with
          | nil => cases hmore
          | cons z strings =>
            cases hy
            exact of_decide_eq_true (Option.some.inj hmore)
        · exact .inl hx
      · rw [List.length_cons]
        omega
    | case3 pos more hmore hstop =>
      have hinside : pos < buff.length := by
        by_contra hout
        rw [moreStrings, List.getElem?_eq_none (Nat.le_of_not_lt hout)] at hmore
        cases hmore
      have hfront := @moreStrings_front (buff.take pos) (buff.drop pos)
      rw [List.take_append_drop, List.length_take_of_le (Nat.le_of_lt hinside), hmore] at hfront
      have hfalse : more = false := by
        rw [← Bool.not_eq_true]
        exact fun htrue => hstop ⟨htrue, hinside⟩
      rw [hfalse] at hfront
      obtain ⟨rest, hrest⟩ := moreStrings_eq_false hfront.symm
      refine ⟨buff.take pos, [], rest, ?_, List.length_take_of_le (Nat.le_of_lt hinside),
        List.isChain_singleton 0, (Option.some.inj h).symm⟩
      rw [List.nil_append, ← hrest, List.take_append_drop]
  · intro h
    obtain ⟨front, strings, rest, rfl, rfl, hclosed, rfl⟩ := h
    exact stringsEnd_front hclosed front rest

/-! ## One structure -/

theorem handle_eq (handle : U16) :
    handle.extractLsb' 8 8 ++ handle.extractLsb' 0 8 = handle := by
  apply BitVec.eq_of_getLsbD_eq
  intro i hi
  rw [BitVec.getLsbD_append, BitVec.getLsbD_extractLsb', BitVec.getLsbD_extractLsb']
  by_cases hlow : i < 8
  · simp [hlow]
  · simp [hlow, show i - 8 < 8 by omega, show 8 + (i - 8) = i by omega]

theorem low_eq (high low : Byte) : (high ++ low).extractLsb' 0 8 = low := by
  apply BitVec.eq_of_getLsbD_eq
  intro i hi
  rw [BitVec.getLsbD_extractLsb', BitVec.getLsbD_append, Nat.zero_add, if_pos hi,
    decide_eq_true hi, Bool.true_and]

theorem high_eq (high low : Byte) : (high ++ low).extractLsb' 8 8 = high := by
  apply BitVec.eq_of_getLsbD_eq
  intro i hi
  rw [BitVec.getLsbD_extractLsb', BitVec.getLsbD_append, if_neg (by omega), decide_eq_true hi,
    Bool.true_and, Nat.add_sub_cancel_left]

/-- A header of four bytes that are there. -/
theorem toDmiHeader_eq_some_iff {front bytes : List Byte} {hdr : Header} :
    toDmiHeader (front ++ bytes) front.length = some hdr ↔ ∃ type length low high behind,
      bytes = type :: length :: low :: high :: behind ∧
        hdr = ⟨type, length, high ++ low, bytes⟩ := by
  have hget (k : Nat) : (front ++ bytes)[front.length + k]? = bytes[k]? := getElem?_front
  have hdrop : (front ++ bytes).drop front.length = bytes := List.drop_left ..
  rw [toDmiHeader, hdrop, hget 1, hget 2, hget 3, ← Nat.add_zero front.length, hget 0]
  constructor
  · intro h
    match bytes, h with
    | type :: length :: low :: high :: behind, h =>
      exact ⟨type, length, low, high, behind, rfl, (Option.some.inj h).symm⟩
  · intro h
    obtain ⟨type, length, low, high, behind, rfl, rfl⟩ := h
    rfl

variable {σ : Type} {dmi_decode : Header → Nat → σ → σ} {count : Nat}

/-- The loop goes on to a structure of this number. -/
def More (count i : Nat) : Prop := count = 0 ∨ i ≤ count

theorem toDmiHeader_encode (s : Structure) (front rest : List Byte) :
    toDmiHeader (front ++ (s.encode ++ rest)) front.length = some (s.header rest) := by
  refine toDmiHeader_eq_some_iff.mpr ⟨s.type, s.length, _, _, _, rfl, ?_⟩
  rw [handle_eq]
  rfl

/-- **A turn of the loop** decodes a structure and goes on behind it. -/
theorem walk_structure {s : Structure} {i : Nat} (hmore : More count i)
    (htype : count = 0 → s.type ≠ 127) (front rest : List Byte) (list : σ) (group : Nat) :
    walk dmi_decode count (front ++ (s.encode ++ rest)) i front.length list group =
      walk dmi_decode count (front ++ (s.encode ++ rest)) (i + 1) (front ++ s.encode).length
        (dmi_decode (s.header rest) group list) (group + 1) := by
  have hinside : front.length < (front ++ (s.encode ++ rest)).length := by
    rw [List.length_append, List.length_append, s.length_encode]
    omega
  have hbuff : front ++ (s.encode ++ rest) =
      (front ++ s.formatted) ++ (s.strings ++ 0 :: 0 :: rest) := by
    simp [Structure.encode]
  have hend : stringsEnd (front ++ (s.encode ++ rest)) (front.length + s.length.toNat) =
      some (front.length + s.length.toNat + s.strings.length) := by
    have hfront := stringsEnd_front s.closed (front ++ s.formatted) rest
    rwa [List.length_append, s.length_formatted, ← hbuff] at hfront
  have hlength : (front ++ s.encode).length =
      front.length + s.length.toNat + s.strings.length + 2 := by
    rw [List.length_append, s.length_encode]
    omega
  have hnext : count = 0 ∧ (s.header rest).type = 127 ↔ False :=
    iff_false_intro fun h => htype h.1 h.2
  conv_lhs => rw [walk]
  rw [if_pos ⟨hmore, hinside⟩, toDmiHeader_encode]
  simp only [hnext, if_false]
  rw [if_neg (show ¬ (s.header rest).length < 4 from s.not_short)]
  simp only [Structure.header]
  rw [hlength]
  split
  · rename_i hnone
    rw [hend] at hnone
    cases hnone
  · rename_i next hnext
    rw [hend] at hnext
    cases hnext
    rfl

/-- **The structures of a table** are decoded in order. -/
theorem walk_table {structures : List Structure} {i : Nat}
    (hmore : ∀ k < structures.length, More count (i + k))
    (htype : count = 0 → ∀ s ∈ structures, s.type ≠ 127) (front rest : List Byte) (list : σ)
    (group : Nat) :
    walk dmi_decode count (front ++ (table structures ++ rest)) i front.length list group =
      walk dmi_decode count (front ++ (table structures ++ rest)) (i + structures.length)
        (front ++ table structures).length (decodeAll dmi_decode rest structures group list)
        (group + structures.length) := by
  induction structures generalizing i front list group with
  | nil => rw [table, List.flatMap_nil, List.append_nil]; rfl
  | cons s structures ih =>
    have hfirst : More count i := hmore 0 (Nat.succ_pos _)
    have hrest (k : Nat) (hk : k < structures.length) : More count (i + 1 + k) := by
      rw [Nat.add_right_comm]
      exact hmore (k + 1) (Nat.succ_lt_succ hk)
    rw [table_cons, List.append_assoc,
      walk_structure hfirst fun h => htype h s (List.mem_cons_self ..)]
    have hih := ih hrest (fun h t ht => htype h t (List.mem_cons_of_mem _ ht)) (front ++ s.encode)
      (dmi_decode (s.header (table structures ++ rest)) group list) (group + 1)
    rw [List.append_assoc front] at hih
    rw [hih, List.length_cons, Nat.add_right_comm, Nat.add_right_comm group, ← Nat.add_assoc,
      ← Nat.add_assoc, List.append_assoc]
    rfl

/-! ## When the walk stays inside the table -/

/-- The walk ends before structure `n`, where `rest` is left: it has enough structures, the table
ends, or a whole header is broken or that of the end of the table. -/
def Stops (count n : Nat) (rest : List Byte) : Prop :=
  ¬ More count n ∨ rest = [] ∨ ∃ type length low high behind,
    rest = type :: length :: low :: high :: behind ∧
      (length < 4 ∨ count = 0 ∧ type = (127 : Byte))

/-- From structure `i` on there are whole structures up to where the walk ends. -/
def Whole (count i : Nat) (bytes : List Byte) : Prop :=
  ∃ structures rest, bytes = table structures ++ rest ∧
    (∀ k < structures.length, More count (i + k)) ∧
    (count = 0 → ∀ s ∈ structures, s.type ≠ 127) ∧ Stops count (i + structures.length) rest

theorem Whole.of_stops {i : Nat} {bytes : List Byte} (h : Stops count i bytes) :
    Whole count i bytes :=
  ⟨[], bytes, rfl, by simp, by simp, h⟩

theorem Whole.cons {s : Structure} {i : Nat} {bytes : List Byte} (hmore : More count i)
    (htype : count = 0 → s.type ≠ 127) (h : Whole count (i + 1) bytes) :
    Whole count i (s.encode ++ bytes) := by
  obtain ⟨structures, rest, rfl, hrest, htypes, hstops⟩ := h
  refine ⟨s :: structures, rest, ?_, ?_, ?_, ?_⟩
  · rw [table_cons, List.append_assoc]
  · intro k hk
    cases k with
    | zero => exact hmore
    | succ k =>
      rw [← Nat.add_assoc, Nat.add_right_comm]
      exact hrest k (Nat.lt_of_succ_lt_succ hk)
  · exact fun hzero => List.forall_mem_cons.mpr ⟨htype hzero, htypes hzero⟩
  · rwa [List.length_cons, Nat.add_comm structures.length, ← Nat.add_assoc]

/-- A whole header with its strings is that of a structure. -/
theorem exists_structure {type length low high : Byte} {behind front strings rest : List Byte}
    (hlong : ¬ length < 4) (hclosed : Closed strings) (hlength : front.length = length.toNat)
    (h : type :: length :: low :: high :: behind = front ++ (strings ++ 0 :: 0 :: rest)) :
    ∃ s : Structure, s.type = type ∧
      type :: length :: low :: high :: behind = s.encode ++ rest := by
  have hfour : 4 ≤ length.toNat := Nat.le_of_not_lt fun hlt => hlong (BitVec.lt_def.mpr hlt)
  match front, hlength, h with
  | a :: b :: c :: d :: area, hlength, h =>
    simp only [List.cons_append, List.cons.injEq] at h
    obtain ⟨rfl, rfl, rfl, rfl, rfl⟩ := h
    have harea : area.length + 4 = length.toNat := hlength
    have hshort : area.length + 4 < 256 := by
      rw [harea]
      exact length.isLt
    refine ⟨⟨type, high ++ low, area, strings, hshort, hclosed⟩, rfl, ?_⟩
    have hbyte : BitVec.ofNat 8 (area.length + 4) = length := by
      rw [harea, BitVec.ofNat_toNat, BitVec.setWidth_eq]
    simp [Structure.encode, Structure.formatted, Structure.length, hbyte, low_eq, high_eq]
  | [], hlength, _ => simp at hlength; omega
  | [_], hlength, _ => simp at hlength; omega
  | [_, _], hlength, _ => simp at hlength; omega
  | [_, _, _], hlength, _ => simp at hlength; omega

/-- Where the walk stops it is inside the table. -/
theorem walk_isSome_of_stops {i : Nat} {front rest : List Byte} (h : Stops count i rest) (list : σ)
    (group : Nat) :
    (walk dmi_decode count (front ++ rest) i front.length list group).isSome := by
  rw [walk]
  by_cases hgo : (count = 0 ∨ i ≤ count) ∧ front.length < (front ++ rest).length
  · rw [if_pos hgo]
    rcases h with h | rfl | ⟨type, length, low, high, behind, rfl, h⟩
    · exact absurd hgo.1 h
    · simp at hgo
    · rw [toDmiHeader_eq_some_iff.mpr ⟨type, length, low, high, behind, rfl, rfl⟩]
      by_cases hshort : length < 4
      · simp only [hshort, if_true, Option.isSome_some]
      · have hlast := h.resolve_left hshort
        simp only [hshort, hlast, and_self, if_true, if_false, Option.isSome_some]
  · rw [if_neg hgo, Option.isSome_some]

/-- A walk that stays inside the table goes over whole structures. -/
theorem whole_of_walk {i : Nat} {front bytes : List Byte} {list : σ} {group : Nat}
    (h : (walk dmi_decode count (front ++ bytes) i front.length list group).isSome) :
    Whole count i bytes := by
  -- by the bytes that are left
  induction hn : bytes.length using Nat.strong_induction_on
    generalizing i front bytes list group with
  | _ n ih =>
    rw [walk] at h
    by_cases hmore : More count i
    · by_cases hinside : front.length < (front ++ bytes).length
      · rw [if_pos ⟨hmore, hinside⟩] at h
        cases hhdr : toDmiHeader (front ++ bytes) front.length with
        | none =>
          rw [hhdr] at h
          cases h
        | some hdr =>
          rw [hhdr] at h
          obtain ⟨type, length, low, high, behind, hbytes, rfl⟩ :=
            toDmiHeader_eq_some_iff.mp hhdr
          by_cases hshort : length < 4
          · exact .of_stops (.inr (.inr ⟨type, length, low, high, behind, hbytes, .inl hshort⟩))
          by_cases hlast : count = 0 ∧ type = 127
          · exact .of_stops (.inr (.inr ⟨type, length, low, high, behind, hbytes, .inr hlast⟩))
          simp only [hshort, hlast, if_false] at h
          split at h
          · cases h
          · rename_i next hnext
            obtain ⟨all, strings, rest, hbuff, hall, hclosed, rfl⟩ :=
              stringsEnd_eq_some_iff.mp hnext
            -- what the loop has passed before is `front`
            obtain ⟨formatted, rfl⟩ : ∃ formatted, all = front ++ formatted := by
              have hprefix : all <+: front ++ bytes := ⟨_, hbuff.symm⟩
              have hfront : front <+: front ++ bytes := List.prefix_append ..
              obtain ⟨formatted, hformatted⟩ :=
                List.prefix_of_prefix_length_le hfront hprefix (by omega)
              exact ⟨formatted, hformatted.symm⟩
            rw [List.append_assoc, List.append_cancel_left_eq, hbytes] at hbuff
            have hlength : formatted.length = length.toNat := by
              rw [List.length_append] at hall
              omega
            obtain ⟨s, rfl, hs⟩ := exists_structure hshort hclosed hlength hbuff
            rw [hs] at hbytes
            have hpos : front.length + length.toNat + strings.length + 2 =
                (front ++ s.encode).length := by
              have hleft := congrArg List.length hs
              have hright := congrArg List.length hbuff
              simp only [List.length_append, List.length_cons] at hleft hright ⊢
              omega
            rw [hbytes, hpos, ← List.append_assoc] at h
            have hless : rest.length < n := by
              rw [← hn, hbytes, List.length_append, s.length_encode]
              omega
            rw [hbytes]
            exact .cons hmore (fun hzero htype => hlast ⟨hzero, htype⟩) (ih _ hless h rfl)
      · have hnil : bytes = [] := by
          rw [List.length_append] at hinside
          exact List.eq_nil_of_length_eq_zero (by omega)
        exact .of_stops (.inr (.inl hnil))
    · exact .of_stops (.inl hmore)

/-- **When the walk stays inside the table**: the structures that it comes to are whole. -/
theorem walk_isSome_iff (buff : List Byte) (list : σ) (group : Nat) :
    (walk dmi_decode count buff 0 0 list group).isSome ↔ Whole count 0 buff := by
  constructor
  · intro h
    exact @whole_of_walk _ _ _ _ [] _ _ _ h
  · intro h
    obtain ⟨structures, rest, rfl, hmore, htype, hstops⟩ := h
    have hrun := @walk_table _ dmi_decode _ _ _ hmore htype [] rest list group
    rw [List.nil_append, List.nil_append, List.length_nil] at hrun
    rw [hrun]
    exact walk_isSome_of_stops hstops _ _

/-! ## Tables of `count` structures -/

/-- Behind `count` structures nothing more is decoded well. -/
theorem walk_behind {front trailing : List Byte} (hcount : 0 < count) (hne : trailing ≠ [])
    {list : σ} {group : Nat} {w : Walked σ}
    (h : walk dmi_decode count (front ++ trailing) count front.length list group = some w) :
    w.errno = true ∨ w.i ≠ count := by
  have hinside : front.length < (front ++ trailing).length := by
    rw [List.length_append]
    exact Nat.lt_add_of_pos_right (List.length_pos_iff.mpr hne)
  rw [walk, if_pos ⟨.inr (Nat.le_refl _), hinside⟩] at h
  cases hhdr : toDmiHeader (front ++ trailing) front.length with
  | none =>
    rw [hhdr] at h
    cases h
  | some hdr =>
    rw [hhdr] at h
    by_cases hshort : hdr.length < 4
    · simp only [hshort, if_true] at h
      cases h
      exact .inl rfl
    · have hlast : ¬ (count = 0 ∧ hdr.type = 127) := fun hlast => absurd hlast.1 (by omega)
      simp only [hshort, hlast, if_false] at h
      split at h
      · cases h
      · rw [walk, if_neg (by omega)] at h
        cases h
        exact .inr (by simp)

/-- **A table of `count` structures** is decoded as such exactly where nothing is behind them. -/
theorem dmiTable_ok_iff {structures : List Structure} (hcount : 0 < count)
    (hlength : structures.length = count) (trailing : List Byte) (list : σ) (group : Nat) :
    dmiTable dmi_decode count (some (table structures ++ trailing)) list group =
        some ⟨0, decodeAll dmi_decode trailing structures group list, group + count⟩ ↔
      trailing = [] := by
  have hmore (k : Nat) (hk : k < structures.length) : More count (0 + k) := .inr (by omega)
  have hrun := @walk_table _ dmi_decode _ _ _ hmore (fun h => absurd h (by omega)) [] trailing list
    group
  rw [List.nil_append, List.nil_append, List.length_nil, Nat.zero_add, hlength] at hrun
  rw [dmiTable, hrun]
  constructor
  · intro h
    by_contra hne
    obtain ⟨w, hwalk, hw⟩ := Option.map_eq_some_iff.mp h
    have hbad : (w.errno || (count ≠ 0 && w.i ≠ count)) = true := by
      rcases walk_behind hcount hne hwalk with herrno | hi
      · rw [herrno, Bool.true_or]
      · simp [hi, Nat.ne_of_gt hcount]
    simp only [hbad, if_true] at hw
    cases congrArg Outcome.rc hw
  · intro h
    rw [h, List.append_nil, walk, if_neg fun hgo => Nat.lt_irrefl _ hgo.2]
    simp

/-- **When the table is walked as it should be**: the walk stays inside the table, and a table of
`count` structures is decoded as such, where the structures that the walk comes to are whole, and
nothing is behind `count` structures. -/
theorem dmi_table_faithful_iff (dmi_decode : Header → Nat → σ → σ) (count : Nat) (buff : List Byte)
    (list : σ) (group : Nat) :
    ((dmiTable dmi_decode count (some buff) list group).isSome ∧
        ∀ structures trailing, 0 < count → structures.length = count →
          buff = table structures ++ trailing →
            dmiTable dmi_decode count (some buff) list group =
              some ⟨0, decodeAll dmi_decode trailing structures group list, group + count⟩) ↔
      Whole count 0 buff ∧ ∀ structures trailing, 0 < count → structures.length = count →
        buff = table structures ++ trailing → trailing = [] := by
  have hsome : (dmiTable dmi_decode count (some buff) list group).isSome ↔ Whole count 0 buff := by
    rw [dmiTable, Option.isSome_map, walk_isSome_iff]
  rw [hsome]
  refine and_congr_right fun _ => forall_congr' fun structures => forall_congr' fun trailing =>
    forall_congr' fun hcount => forall_congr' fun hlength => forall_congr' fun hbuff => ?_
  rw [hbuff]
  exact dmiTable_ok_iff hcount hlength trailing list group

theorem bare_short : ([] : List Byte).length + 4 < 256 := by decide

theorem bare_closed : Closed [] := List.isChain_singleton 0

/-- A structure without strings. -/
def bare : Structure := ⟨1, 0, [], [], bare_short, bare_closed⟩

/-- Four bytes behind a structure make an error of it, and a structure that is cut off leads the
walk out of the table. -/
theorem trailing_and_cut :
    dmiTable (fun hdr _ types => types ++ [hdr.type]) 1
        (some (table [bare] ++ [0, 0, 0, 0])) [] 0 =
        some ⟨-1, [(1 : Byte)], 1⟩ ∧
      dmiTable (fun hdr _ types => types ++ [hdr.type]) 1 (some [1, 4, 0, 0, 0]) [] 0 =
        (none : Option (Outcome (List Byte))) := by
  decide +kernel

end Dmi
