import Mathlib.Data.List.DropRight

/-!
# The lines of a text

`str.splitlines()`: a line ends at any of the line boundaries of Unicode, a carriage return and a
line feed are one boundary, and the text after the last boundary is a line if there is any.
`str.strip()`: without the white space at both ends.

* `splitAux_append`: what has no boundary is read as it is.
* `splitlines_lines`: **lines without a boundary, each ended by a line feed, are split into these
  lines.**
* `strip_lines`: of such lines, what white space at the ends is taken away.
-/

namespace Lines

def isBreak (c : Char) : Bool :=
  ['\n', '\r', '\x0b', '\x0c', '\x1c', '\x1d', '\x1e', '\u0085', '\u2028', '\u2029'].contains c

/-- The lines of a text, the first of which begins with `line`. -/
def splitAux (line : List Char) : List Char → List (List Char)
  | [] => if line.isEmpty then [] else [line]
  | '\r' :: '\n' :: text => line :: splitAux [] text
  | c :: text => if isBreak c then line :: splitAux [] text else splitAux (line ++ [c]) text

def splitlines (text : List Char) : List (List Char) := splitAux [] text

theorem splitAux_cons {c : Char} (h : isBreak c = false) (line text : List Char) :
    splitAux line (c :: text) = splitAux (line ++ [c]) text := by
  have hreturn : c ≠ '\r' := by
    rintro rfl
    exact absurd h (by decide)
  rw [splitAux, h]
  · rfl
  · intro _ hc
    exact absurd hc hreturn

theorem splitAux_append {piece : List Char} (h : ∀ c ∈ piece, isBreak c = false)
    (line text : List Char) : splitAux line (piece ++ text) = splitAux (line ++ piece) text := by
  induction piece generalizing line with
  | nil => rw [List.append_nil, List.nil_append]
  | cons c piece ih =>
    rw [List.forall_mem_cons] at h
    rw [List.cons_append, splitAux_cons h.1, ih h.2, List.append_assoc, List.singleton_append]

theorem splitAux_lineFeed (line text : List Char) :
    splitAux line ('\n' :: text) = line :: splitlines text := rfl

/-- **Lines without a boundary, each ended by a line feed, and a last one that is not empty.** -/
theorem splitlines_lines {lines : List (List Char)} {last : List Char}
    (hlines : ∀ l ∈ lines, ∀ c ∈ l, isBreak c = false) (hlast : ∀ c ∈ last, isBreak c = false)
    (hne : last ≠ []) :
    splitlines (lines.flatMap (fun l => l ++ ['\n']) ++ last) = lines ++ [last] := by
  induction lines with
  | nil =>
    have hread : splitAux [] (last ++ []) = splitAux ([] ++ last) [] := splitAux_append hlast [] []
    rw [List.append_nil] at hread
    rw [List.flatMap_nil, List.nil_append, List.nil_append, splitlines, hread, splitAux]
    simp [hne]
  | cons l lines ih =>
    rw [List.forall_mem_cons] at hlines
    rw [List.flatMap_cons, List.append_assoc, List.append_assoc, splitlines,
      splitAux_append hlines.1, List.singleton_append, splitAux_lineFeed, ih hlines.2]
    rfl

/-! ## White space -/

/-- `str.isspace`, of a character. -/
def isspace (c : Char) : Bool :=
  [0x09, 0x0a, 0x0b, 0x0c, 0x0d, 0x1c, 0x1d, 0x1e, 0x1f, 0x20, 0x85, 0xa0, 0x1680, 0x2028, 0x2029,
    0x202f, 0x205f, 0x3000].contains c.toNat || 0x2000 ≤ c.toNat && c.toNat ≤ 0x200a

def rstrip (text : List Char) : List Char := text.rdropWhile isspace

def strip (text : List Char) : List Char := rstrip (text.dropWhile isspace)

theorem isspace_of_isBreak {c : Char} (h : isBreak c) : isspace c := by
  simp only [isBreak, List.contains_eq_mem, decide_eq_true_eq, List.mem_cons, List.not_mem_nil,
    or_false] at h
  rcases h with rfl | rfl | rfl | rfl | rfl | rfl | rfl | rfl | rfl | rfl <;> decide

theorem isBreak_eq_false {c : Char} (h : isspace c = false) : isBreak c = false := by
  cases hbreak : isBreak c with
  | false => rfl
  | true =>
    rw [isspace_of_isBreak hbreak] at h
    cases h

theorem rstrip_append_cons {c : Char} (h : isspace c = false) (front back : List Char) :
    rstrip (front ++ c :: back) = front ++ c :: rstrip back := by
  induction back using List.reverseRecOn with
  | nil =>
    rw [rstrip, List.rdropWhile_concat_neg _ _ _ (by simp [h])]
    rfl
  | append_singleton back d ih =>
    rw [← List.cons_append, ← List.append_assoc, rstrip, List.rdropWhile_concat]
    by_cases hd : isspace d
    · have hback : rstrip (back ++ [d]) = rstrip back := List.rdropWhile_concat_pos _ _ _ hd
      rw [if_pos hd, hback]
      exact ih
    · have hback : rstrip (back ++ [d]) = back ++ [d] := List.rdropWhile_concat_neg _ _ _ hd
      rw [if_neg hd, hback]
      simp

theorem rstrip_lineFeed (text : List Char) : rstrip (text ++ ['\n']) = rstrip text :=
  List.rdropWhile_concat_pos _ _ _ (by decide)

theorem mem_of_mem_rstrip {c : Char} {text : List Char} (h : c ∈ rstrip text) : c ∈ text :=
  (List.rdropWhile_prefix isspace text).subset h

theorem length_strip_le (text : List Char) : (strip text).length ≤ text.length :=
  Nat.le_trans (List.rdropWhile_prefix isspace _).length_le (List.length_dropWhile_le ..)

theorem mem_rstrip {c : Char} (h : isspace c = false) {text : List Char} :
    c ∈ rstrip text ↔ c ∈ text := by
  refine ⟨mem_of_mem_rstrip, fun hc => ?_⟩
  obtain ⟨front, back, rfl⟩ := List.append_of_mem hc
  rw [rstrip_append_cons h]
  exact List.mem_append_cons_self

/-- What is kept of a text does not depend on the white space at its end, if none is kept. -/
theorem filter_rstrip {p : Char → Bool} (h : ∀ c, p c → isspace c = false) (text : List Char) :
    (rstrip text).filter p = text.filter p := by
  induction text using List.reverseRecOn with
  | nil => rfl
  | append_singleton text c ih =>
    rw [rstrip, List.rdropWhile_concat]
    by_cases hc : isspace c
    · have hp : ¬ p c := by
        intro hp
        rw [h c hp] at hc
        cases hc
      rw [if_pos hc, List.filter_append, List.filter_cons_of_neg hp, List.filter_nil,
        List.append_nil]
      exact ih
    · rw [if_neg hc]

/-- **Of lines the white space after the last one is taken away, if the first one begins with a
character, and the last one has one.** -/
theorem strip_lines {text front back : List Char} {c d : Char} {lines : List (List Char)}
    (hc : isspace c = false) (hd : isspace d = false)
    (htext : lines.flatMap (fun l => l ++ ['\n']) ++ (front ++ d :: back) = c :: text) :
    strip (lines.flatMap (fun l => l ++ ['\n']) ++ (front ++ d :: back) ++ ['\n']) =
      lines.flatMap (fun l => l ++ ['\n']) ++ (front ++ d :: rstrip back) := by
  have hleft : (lines.flatMap (fun l => l ++ ['\n']) ++ (front ++ d :: back) ++
      ['\n']).dropWhile isspace =
        lines.flatMap (fun l => l ++ ['\n']) ++ (front ++ d :: back) ++ ['\n'] := by
    rw [htext, List.cons_append, List.dropWhile_cons_of_neg (by simp [hc])]
  rw [strip, hleft, rstrip_lineFeed, ← List.append_assoc, rstrip_append_cons hd, List.append_assoc]

/-! ## The end of a text -/

theorem rtake_rtake_append {α : Type} (l m : List α) (n : Nat) :
    (l.rtake n ++ m).rtake n = (l ++ m).rtake n := by
  rw [List.rtake_eq_reverse_take_reverse, List.rtake_eq_reverse_take_reverse,
    List.rtake_eq_reverse_take_reverse, List.reverse_append, List.reverse_append,
    List.reverse_reverse, List.take_append, List.take_append, List.take_take]
  congr 3
  omega

/-! ## What stands behind a text -/

theorem rstrip_append {back : List Char} (h : ∀ c ∈ back, isspace c) (front : List Char) :
    rstrip (front ++ back) = rstrip front := by
  induction back using List.reverseRecOn with
  | nil => rw [List.append_nil]
  | append_singleton back c ih =>
    rw [List.forall_mem_append, List.forall_mem_singleton] at h
    rw [← List.append_assoc, rstrip, List.rdropWhile_concat_pos _ _ _ h.2]
    exact ih h.1

theorem strip_append {front back : List Char} (h : ∀ c ∈ back, isspace c) :
    strip (front ++ back) = strip front := by
  rw [strip, strip, List.dropWhile_append]
  split
  · rename_i hfront
    rw [List.isEmpty_iff.mp hfront, List.dropWhile_eq_nil_iff.mpr h]
  · exact rstrip_append h _

theorem length_strip_append_lt {front back : List Char} {c : Char} (hc : c ∈ back)
    (h : isspace c = false) : (strip front).length < (strip (front ++ back)).length := by
  have hle : (strip front).length ≤ (front.dropWhile isspace).length :=
    (List.rdropWhile_prefix isspace _).length_le
  refine Nat.lt_of_le_of_lt hle ?_
  rw [strip, List.dropWhile_append]
  split
  · rename_i hfront
    rw [List.isEmpty_iff.mp hfront, List.length_nil, List.length_pos_iff_exists_mem]
    refine ⟨c, (mem_rstrip h).mpr ?_⟩
    obtain ⟨left, right, rfl⟩ := List.append_of_mem hc
    rw [List.dropWhile_append, List.dropWhile_cons_of_neg (by simp [h])]
    split
    · exact List.mem_cons_self ..
    · exact List.mem_append_cons_self
  · obtain ⟨left, right, rfl⟩ := List.append_of_mem hc
    rw [← List.append_assoc, rstrip_append_cons h]
    simp only [List.length_append, List.length_cons]
    omega

end Lines
