import Mathlib.Data.List.Basic

/-!
# What a shell makes of a file of assignments

Token recognition and quoting of the POSIX shell, for files of simple commands: an automaton over
the characters (`step`), of which a line gives words, and words give assignments. Everything that is
not a plain assignment (a command word, an operator, an expansion) is an `exec` event; what is
inside of it is not looked at.

* `foldl_name`, `foldl_single`: names, and text in single quotes, are read as they are.
* `foldl_assignment`: **a line with an assignment to a name, and quoted text.**
* `command_assignment`: what such a line does.
* `mem_after`, `after_of_notMem`: variables after some assignments.
-/

namespace Shell

/-- A character in a word, quoted or not, or the beginning of an expansion. -/
inductive Piece
  | char (c : Char) (quoted : Bool)
  | expansion
deriving DecidableEq

inductive Token
  | word (pieces : List Piece)
  | operator
deriving DecidableEq

inductive Mode
  | plain
  | single
  | double
  | escape
  | doubleEscape
  | comment
deriving DecidableEq

/-- The word that is read, the tokens of its line, and the lines before. -/
structure Lexer where
  mode : Mode
  word : Option (List Piece)
  line : List Token
  lines : List (List Token)
deriving DecidableEq

def isBlank (c : Char) : Bool := c = ' ' || c = '\t'

def isOperator (c : Char) : Bool := ['|', '&', ';', '<', '>', '(', ')'].contains c

namespace Lexer

def start : Lexer := ⟨.plain, none, [], []⟩

/-- A word begins, if there is none. -/
def begin (s : Lexer) (mode : Mode) : Lexer := { s with mode, word := some (s.word.getD []) }

def add (s : Lexer) (p : Piece) : Lexer := { s with word := some (s.word.getD [] ++ [p]) }

def endWord (s : Lexer) : Lexer :=
  match s.word with
  | none => s
  | some pieces => { s with word := none, line := s.line ++ [.word pieces] }

def endLine (s : Lexer) : Lexer :=
  { s.endWord with mode := .plain, line := [], lines := s.lines ++ [s.endWord.line] }

/-- A character is read. -/
def step (s : Lexer) (c : Char) : Lexer :=
  match s.mode with
  | .plain =>
    if c = '\'' then s.begin .single
    else if c = '"' then s.begin .double
    else if c = '\\' then { s with mode := .escape }
    else if c = '\n' then s.endLine
    else if isBlank c then s.endWord
    else if isOperator c then { s.endWord with line := s.endWord.line ++ [.operator] }
    else if c = '#' && s.word.isNone then { s with mode := .comment }
    else if c = '$' || c = '`' then s.add .expansion
    else s.add (.char c false)
  | .single => if c = '\'' then { s with mode := .plain } else s.add (.char c true)
  | .double =>
    if c = '"' then { s with mode := .plain }
    else if c = '\\' then { s with mode := .doubleEscape }
    else if c = '$' || c = '`' then s.add .expansion
    else s.add (.char c true)
  | .escape =>
    -- a line is continued
    if c = '\n' then { s with mode := .plain }
    else { s.add (.char c true) with mode := .plain }
  | .doubleEscape =>
    if c = '\n' then { s with mode := .double }
    else if ['$', '`', '"', '\\'].contains c then { s.add (.char c true) with mode := .double }
    else { (s.add (.char '\\' true)).add (.char c true) with mode := .double }
  | .comment => if c = '\n' then s.endLine else s

end Lexer

/-! ## Commands -/

inductive Event
  | assign (name value : List Char)
  | exec
deriving DecidableEq

def isNameChar (c : Char) : Bool := c.isAlphanum || c = '_'

/-- A name: letters, digits and underscores, not led by a digit. -/
def isName (name : List Char) : Bool :=
  name.all isNameChar && name.head?.any fun c => !c.isDigit

/-- The character of a piece that can stand in a name. -/
def Piece.nameChar? : Piece → Option Char
  | .char c false => if isNameChar c then some c else none
  | _ => none

/-- The name at the head of a word, and the rest. -/
def splitName : List Piece → List Char × List Piece
  | [] => ([], [])
  | p :: pieces =>
    match p.nameChar? with
    | none => ([], p :: pieces)
    | some c => (c :: (splitName pieces).1, (splitName pieces).2)

/-- The text of a value, if nothing in it is expanded; `tilde` where a tilde would be. -/
def textOf (tilde : Bool) : List Piece → Option (List Char)
  | [] => some []
  | .expansion :: _ => none
  | .char c quoted :: pieces =>
    if c = '~' && !quoted && tilde then none
    else (textOf (c = ':' && !quoted) pieces).map (c :: ·)

/-- The assignment that a word is. -/
def assignment? : Token → Option Event
  | .operator => none
  | .word pieces =>
    match splitName pieces with
    | (name, .char '=' false :: value) =>
      if isName name then (textOf true value).map (.assign name) else none
    | _ => none

/-- What a line does; assignments before a command word are for that command. -/
def command (line : List Token) : List Event := (line.mapM assignment?).getD [.exec]

/-- What a file does; nothing can be said of one that ends in a quote, or has a NUL. -/
def source (text : List Char) : Option (List Event) :=
  if text.contains '\x00' then none
  else
    let s := text.foldl Lexer.step .start
    if s.mode = .plain || s.mode = .comment then some (s.endLine.lines.flatMap command) else none

/-- The variables after some events. -/
def after (env : List Char → Option (List Char)) : List Event → List Char → Option (List Char)
  | [] => env
  | .assign name value :: events =>
    after (fun n => if n = name then some value else env n) events
  | .exec :: events => after env events

/-! ## Reading -/

section reading

variable (word : Option (List Piece)) (line : List Token) (lines : List (List Token))

theorem step_nameChar {c : Char} (h : isNameChar c) :
    Lexer.step ⟨.plain, word, line, lines⟩ c =
      ⟨.plain, some (word.getD [] ++ [.char c false]), line, lines⟩ := by
  have hne (d : Char) (hd : isNameChar d = false) : c ≠ d := by
    rintro rfl
    rw [hd] at h
    cases h
  have hoperator : isOperator c = false := by
    simp [isOperator, hne '|' (by decide), hne '&' (by decide), hne ';' (by decide),
      hne '<' (by decide), hne '>' (by decide), hne '(' (by decide), hne ')' (by decide)]
  simp [Lexer.step, Lexer.add, hoperator, isBlank, hne '\'' (by decide), hne '"' (by decide),
    hne '\\' (by decide), hne '\n' (by decide), hne ' ' (by decide), hne '\t' (by decide),
    hne '#' (by decide), hne '$' (by decide), hne '`' (by decide)]

/-- A name is read as it is. -/
theorem foldl_name {name : List Char} (h : ∀ c ∈ name, isNameChar c) (hne : name ≠ []) :
    name.foldl Lexer.step ⟨.plain, word, line, lines⟩ =
      ⟨.plain, some (word.getD [] ++ name.map (.char · false)), line, lines⟩ := by
  induction name generalizing word with
  | nil => exact absurd rfl hne
  | cons c name ih =>
    rw [List.forall_mem_cons] at h
    rw [List.foldl_cons, step_nameChar _ _ _ h.1]
    cases name with
    | nil => rfl
    | cons d name =>
      rw [ih _ h.2 (List.cons_ne_nil _ _), Option.getD_some, List.append_assoc]
      rfl

/-- Text in single quotes, with each quote in it put in double quotes. -/
def quoteChar (c : Char) : List Char := if c = '\'' then "'\"'\"'".toList else [c]

theorem foldl_quoteChar (pieces : List Piece) (c : Char) :
    (quoteChar c).foldl Lexer.step ⟨.single, some pieces, line, lines⟩ =
      ⟨.single, some (pieces ++ [.char c true]), line, lines⟩ := by
  unfold quoteChar
  by_cases h : c = '\''
  · rw [if_pos h, h]
    rfl
  · rw [if_neg h]
    simp [Lexer.step, Lexer.add, h]

/-- Text in single quotes is read as it is. -/
theorem foldl_single (pieces : List Piece) (text : List Char) :
    (text.flatMap quoteChar).foldl Lexer.step ⟨.single, some pieces, line, lines⟩ =
      ⟨.single, some (pieces ++ text.map (.char · true)), line, lines⟩ := by
  induction text generalizing pieces with
  | nil => rw [List.flatMap_nil, List.foldl_nil, List.map_nil, List.append_nil]
  | cons c text ih =>
    rw [List.flatMap_cons, List.foldl_append, foldl_quoteChar, ih, List.append_assoc]
    rfl

end reading

/-- The word of an assignment. -/
def assignmentWord (name value : List Char) : List Piece :=
  name.map (.char · false) ++ .char '=' false :: value.map (.char · true)

/-- **A line with an assignment to a name, and quoted text.** -/
theorem foldl_assignment {name : List Char} (hname : isName name) (value : List Char)
    (lines : List (List Token)) :
    (name ++ "='".toList ++ value.flatMap quoteChar ++ "'\n".toList).foldl Lexer.step
        ⟨.plain, none, [], lines⟩ =
      ⟨.plain, none, [], lines ++ [[.word (assignmentWord name value)]]⟩ := by
  obtain ⟨hall, hhead⟩ := Bool.and_eq_true_iff.mp hname
  have hne : name ≠ [] := by
    rintro rfl
    cases hhead
  rw [List.foldl_append, List.foldl_append, List.foldl_append,
    foldl_name _ _ _ (List.all_eq_true.mp hall) hne]
  change List.foldl Lexer.step (List.foldl Lexer.step
    ⟨.single, some (name.map (.char · false) ++ [.char '=' false]), [], lines⟩ _) _ = _
  rw [foldl_single, List.append_assoc]
  rfl

/-! ## Assignments -/

theorem splitName_append {name : List Char} (h : ∀ c ∈ name, isNameChar c) {pieces : List Piece}
    (hpieces : splitName pieces = ([], pieces)) :
    splitName (name.map (.char · false) ++ pieces) = (name, pieces) := by
  induction name with
  | nil => exact hpieces
  | cons c name ih =>
    rw [List.forall_mem_cons] at h
    have hc : (Piece.char c false).nameChar? = some c := if_pos h.1
    rw [List.map_cons, List.cons_append, splitName, hc, ih h.2]

theorem textOf_quoted (tilde : Bool) (value : List Char) :
    textOf tilde (value.map (.char · true)) = some value := by
  induction value generalizing tilde with
  | nil => rfl
  | cons c value ih => simp [textOf, ih]

/-- What a line with such an assignment does. -/
theorem command_assignment {name : List Char} (hname : isName name) (value : List Char) :
    command [.word (assignmentWord name value)] = [.assign name value] := by
  have hall := List.all_eq_true.mp (Bool.and_eq_true_iff.mp hname).1
  have hsplit : splitName (assignmentWord name value) =
      (name, .char '=' false :: value.map (.char · true)) := splitName_append hall rfl
  simp [command, assignment?, hsplit, hname, textOf_quoted]

/-! ## Variables -/

theorem after_of_notMem {events : List Event} {name : List Char}
    (h : ∀ value, .assign name value ∉ events) (env : List Char → Option (List Char)) :
    after env events name = env name := by
  induction events generalizing env with
  | nil => rfl
  | cons e events ih =>
    have hrest (value : List Char) : .assign name value ∉ events :=
      fun hmem => h value (List.mem_cons_of_mem _ hmem)
    cases e with
    | exec => exact ih hrest env
    | assign n v =>
      have hne : name ≠ n := by
        rintro rfl
        exact h v (List.mem_cons_self ..)
      rw [after, ih hrest, if_neg hne]

/-- A variable that is assigned once has that value. -/
theorem after_of_mem {assignments : List (List Char × List Char)}
    (hnodup : (assignments.map (·.1)).Nodup) {p : List Char × List Char} (hp : p ∈ assignments)
    (env : List Char → Option (List Char)) :
    after env (assignments.map fun q => .assign q.1 q.2) p.1 = some p.2 := by
  induction assignments generalizing env with
  | nil => cases hp
  | cons q assignments ih =>
    rw [List.map_cons, List.nodup_cons] at hnodup
    rw [List.map_cons, after]
    rcases List.mem_cons.mp hp with rfl | hmem
    · rw [after_of_notMem, if_pos rfl]
      intro value hvalue
      obtain ⟨r, hr, heq⟩ := List.mem_map.mp hvalue
      have hname : r.1 = p.1 := (Event.assign.inj heq).1
      exact hnodup.1 (hname ▸ List.mem_map_of_mem hr)
    · exact ih hnodup.2 hmem _

end Shell
