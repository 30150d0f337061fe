import Disks.Lib.Regex
import Mathlib.Data.List.DropRight

/-!
# URIs of CInP (`contractor/cinp/common.py`)

A URI is a root path, namespaces, a model, ids and an action. `split` takes it apart by a regular
expression, `build` puts it together.
-/

namespace Cinp

open Regex

abbrev Text := List Char

/-- The characters that are not themselves in a pattern. -/
def metacharacters : Text :=
  ['.', '^', '$', '*', '+', '?', '\x7b', '\x7d', '[', ']', '\\', '|', '(', ')']

/-- `URI`: the path starts and ends with a slash (`__init__` checks it), and stands for itself in
the regular expression. -/
structure URI where
  root_path : Text
  start : root_path.head? = some '/'
  finish : root_path.getLast? = some '/'
  plain : ∀ c ∈ root_path, c ∉ metacharacters

inductive Error
  | valueError (text : String)
deriving DecidableEq, Repr

/-- `[a-zA-Z0-9\-_.!~*]` -/
def isToken (c : Char) : Bool := c.isAlphanum || c ∈ ['-', '_', '.', '!', '~', '*']

/-- `[a-zA-Z0-9\-_.!~*\']` -/
def isId (c : Char) : Bool := isToken c || c = '\''

/-- `$`: also before a newline at the end. -/
def atEnd (rest : Text) : Bool := rest = [] ∨ rest = ['\n']

/-- `((..+/)*)`, `(..+)?`, `(:(..*:)*)?` and `(\(..+\))?`, the groups from 2 to 7. -/
def namespaces : Pattern Char :=
  .group 2 (.star (.group 3 (.seq (.plus (.one isToken)) (.one (· = '/')))))

def model : Pattern Char := .opt (.group 4 (.plus (.one isToken)))

def ids : Pattern Char :=
  .opt (.group 5 (.seq (.one (· = ':'))
    (.star (.group 6 (.seq (.star (.one isId)) (.one (· = ':')))))))

def action : Pattern Char :=
  .opt (.group 7 (.seq (.one (· = '(')) (.seq (.plus (.one isToken)) (.one (· = ')')))))

/-- What follows the root. -/
def path : Pattern Char :=
  .seq namespaces (.seq model (.seq ids (.seq action (.ahead atEnd))))

/-- The regular expression of a URI. -/
def URI.uriRegex (u : URI) : Pattern Char :=
  .seq (.group 1 (.alt (.text u.root_path) (.text ['/']))) path

/-- `text.strip( c ).split( c )` -/
def splitIds (rec_id : Text) : List Text :=
  ((rec_id.dropWhile (· = ':')).rdropWhile (· = ':')).splitOn ':'

/-- What `split` returns. -/
structure Parts where
  namespace_list : List Text
  model : Option Text
  action : Option Text
  id_list : Option (List Text)
  multi : Bool
deriving DecidableEq, Repr

def unparsed (uri : Text) : Error :=
  .valueError ("Unable to parse URI \"" ++ String.ofList uri ++ "\"")

def URI.split (u : URI) (uri : Text) (root_optional : Bool) : Except Error Parts :=
  match u.uriRegex.first uri with
  | none => .error (unparsed uri)
  | some uri_match =>
    if uri_match.group 1 ≠ some u.root_path ∧ ¬ root_optional then
      .error (.valueError "URI does not start in the root_path")
    else
      let namespaces := (uri_match.group 2).getD []
      let id_list := (uri_match.group 5).map splitIds
      .ok {
        namespace_list :=
          if namespaces ≠ [] then (namespaces.rdropWhile (· = '/')).splitOn '/' else []
        model := uri_match.group 4
        action := (uri_match.group 7).map fun a => (a.drop 1).dropLast
        id_list := id_list
        multi := id_list.any fun ids => 1 < ids.length }

/-- `build`; a single namespace or id stands for a list of one. -/
def URI.build (u : URI) (namespaces : Option (List Text)) (model action : Option Text)
    (id_list : Option (List Text)) (in_root : Bool) : Text :=
  let result := if in_root then u.root_path else ['/']
  let result :=
    match namespaces with
    | some namespaces =>
      if 0 < namespaces.length then result ++ ['/'].intercalate namespaces ++ ['/'] else result
    | none => result
  match model with
  | none => result
  | some model =>
    let result := result ++ model
    let result :=
      match id_list with
      | some id_list =>
        if id_list ≠ [] then result ++ [':'] ++ [':'].intercalate id_list ++ [':'] else result
      | none => result
    match action with
    | some action => result ++ ['('] ++ action ++ [')']
    | none => result

/-- `extractIds` -/
def URI.extractIds (u : URI) : List Text → Except Error (List Text)
  | [] => .ok []
  | uri :: uri_list =>
    match u.uriRegex.first uri with
    | none => .error (unparsed uri)
    | some uri_match =>
      match uri_match.group 5 with
      | none => .error (.valueError ("No Id in URI \"" ++ String.ofList uri ++ "\""))
      | some rec_id =>
        match u.extractIds uri_list with
        | .error e => .error e
        | .ok result => .ok (splitIds rec_id ++ result)

end Cinp
