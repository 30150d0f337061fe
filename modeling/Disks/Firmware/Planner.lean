import Disks.Lib.Ranked
import Disks.Lib.Regex
import Mathlib.Data.Prod.Lex

/-!
# The planner of the firmware updates (`firmware/planner.py`)

A firmware map has, for each file, the version it is for, which may be a pattern, and the version it
leads to. `findStep` tries the patterns that match the current version, the more specific first.
-/

namespace Planner

open Regex

/-- One of the alternatives. -/
def alternatives : List (Pattern Char) → Pattern Char
  | [] => .ahead fun _ => false
  | [a] => a
  | a :: as => .alt a (alternatives as)

/-- `re.findall`, as many as there are: from the left, each behind the one before. -/
def findall (a : Pattern Char) : Nat → List Char → Nat
  | 0, _ => 0
  | fuel + 1, s =>
    match (a.successes s).head? with
    | some way => 1 + findall a fuel way.2
    | none =>
      match s with
      | [] => 0
      | _ :: rest => findall a fuel rest

/-- `\.\*|\.\+|\.\?|\[.*?\]|\(.*?\)|\.`; what is in brackets ends at the first that closes them. -/
def wildcard : Pattern Char :=
  let inside (opens closes : Char) : Pattern Char :=
    .seq (.one (· = opens)) (.seq (.star (.one fun c => c ≠ closes ∧ c ≠ '\n')) (.one (· = closes)))
  alternatives
    [.text ['.', '*'], .text ['.', '+'], .text ['.', '?'], inside '[' ']', inside '(' ')',
      .text ['.']]

/-- `[A-Za-z0-9]` -/
def literal : Pattern Char := .one Char.isAlphanum

/-- The tuple that a pattern is sorted by: fewer wildcards, more literals, longer length. -/
abbrev Score := Nat ×ₗ Int ×ₗ Int

def score (pattern : String) : Score :=
  let wildcards_count := findall wildcard pattern.length pattern.toList
  let literals_count := findall literal pattern.length pattern.toList
  toLex (wildcards_count, toLex (-(literals_count : Int), -(pattern.length : Int)))

def sortPatterns (pattern_list : List String) : List String := Ranked.sorted score pattern_list

/-- `findMatchs`, where `rematch i target` is whether `re.match( i, target )` gives something. -/
def findMatchs (rematch : String → String → Bool) (target : String) (pattern_list : List String) :
    List String :=
  pattern_list.filter fun i => i = target || rematch i target

/-- A value of a firmware map: the keys `from` and `to`. -/
structure VerMap where
  from_version : String
  to_version : String
deriving DecidableEq, Repr

/-- A firmware map: the items of a dictionary by file name. -/
structure FirmwareMap where
  items : List (String × VerMap)
  nodup : (items.map (·.1)).Nodup

def findStep (rematch : String → String → Bool) (current_version target_version : String)
    (firmware_map : FirmwareMap) : Option String :=
  let from_version_patterns := firmware_map.items.map (·.2.from_version)
  let matching_patterns := findMatchs rematch current_version (sortPatterns from_version_patterns)
  matching_patterns.findSome? fun pattern =>
    (firmware_map.items.find? fun item =>
      item.2.from_version = pattern && item.2.to_version = target_version).map (·.1)

end Planner
