import Disks.Cinp.Uri

/-!
# The client of CInP (`contractor/cinp/client.py`)

Requests are answered by a server, which is given; what the transport itself may raise is an answer
too. A generator is what it yields, and how it ends.
-/

namespace Cinp

/-- What is raised: by the client, by the transport, or by Python itself. -/
inductive ClientError
  | invalidRequest (text : String)
  | responseError (text : String)
  | valueError (e : Error)
  | transport (text : String)
  | typeError (text : String)
  | indexError (text : String)
deriving DecidableEq, Repr

inductive Verb
  | GET
  | LIST
  | UPDATE
  | CREATE
  | DELETE
  | CALL
  | DESCRIBE
deriving DecidableEq, Repr

def Verb.text : Verb → String
  | .GET => "GET"
  | .LIST => "LIST"
  | .UPDATE => "UPDATE"
  | .CREATE => "CREATE"
  | .DELETE => "DELETE"
  | .CALL => "CALL"
  | .DESCRIBE => "DESCRIBE"

/-- A request: the headers `Position`, `Count`, `Filter` and `Multi-Object`, and the data, of a type
`φ`. -/
structure Request (φ : Type) where
  verb : Verb
  uri : Text
  position : Option Int := none
  count : Option Int := none
  filter : Option String := none
  multi_object : Bool := false
  data : Option φ

/-- The data of a response: a list of URIs, values by the ids of records, of a type `ω`, or
something else. -/
inductive Data (ω : Type)
  | ids (id_list : List Text)
  | values (rec_values : List (Text × ω))
  | other

/-- A header of a response: it is missing, a text that `int` takes, or another one. -/
inductive Field
  | missing
  | number (n : Int)
  | other
deriving DecidableEq, Repr

/-- A response with the headers `Position`, `Count` and `Total`. -/
structure Response (ω : Type) where
  http_code : Nat
  data : Data ω
  position : Field := .missing
  count : Field := .missing
  total : Field := .missing

/-- `CInP`, with the server behind it. -/
structure CInP (φ ω : Type) where
  uri : URI
  server : Request φ → Except ClientError (Response ω)

variable {φ ω : Type}

/-- `_checkRequest`; `data` is a `dict`. -/
def CInP.checkRequest (c : CInP φ ω) (verb : Verb) (uri : Text) (data : Option φ) :
    Except ClientError Unit :=
  match c.uri.split uri false with
  | .error (.valueError text) => .error (.invalidRequest text)
  | .ok p =>
    let id_list := if p.id_list = some [] then none else p.id_list
    if p.action.isSome ∧ verb ≠ .CALL ∧ verb ≠ .DESCRIBE then
      .error (.invalidRequest ("Invalid verb \"" ++ verb.text ++ "\" for request with action"))
    else if verb = .CALL ∧ p.action.isNone then
      .error (.invalidRequest ("Verb \"" ++ verb.text ++ "\" requires action"))
    else if id_list.isSome ∧ verb ≠ .GET ∧ verb ≠ .UPDATE ∧ verb ≠ .DELETE ∧ verb ≠ .CALL then
      .error (.invalidRequest ("Invalid verb \"" ++ verb.text ++ "\" for request with id"))
    else if (verb = .GET ∨ verb = .UPDATE ∨ verb = .DELETE) ∧ id_list.isNone then
      .error (.invalidRequest ("verb \"" ++ verb.text ++ "\" requires id"))
    else if data.isSome ∧ verb ≠ .LIST ∧ verb ≠ .UPDATE ∧ verb ≠ .CREATE ∧ verb ≠ .CALL then
      .error (.invalidRequest ("Invalid verb \"" ++ verb.text ++ "\" for request with data"))
    else if (verb = .UPDATE ∨ verb = .CREATE) ∧ data.isNone then
      .error (.invalidRequest ("Verb \"" ++ verb.text ++ "\" requires data"))
    else if verb ≠ .DESCRIBE ∧ p.model.isNone then
      .error (.invalidRequest ("Verb \"" ++ verb.text ++ "\" requires model"))
    else .ok ()

/-- `_request`, where the server's answer is what it makes of the response. -/
def CInP.request (c : CInP φ ω) (r : Request φ) : Except ClientError (Response ω) := do
  c.checkRequest r.verb r.uri r.data
  c.server r

def unexpected (http_code : Nat) (verb : Verb) : ClientError :=
  .responseError ("Unexpected HTTP Code \"" ++ toString http_code ++ "\" for " ++ verb.text)

/-- `int( header_map[ item ] )`: a `ValueError` is passed over. -/
def Field.int : Field → Except ClientError Int
  | .missing => .error (.typeError
    "int() argument must be a string, a bytes-like object or a real number, not 'NoneType'")
  | .number n => .ok n
  | .other => .ok 0

/-- `list`: the URIs, and `position`, `count` and `total` as the server reports them. -/
def CInP.list (c : CInP φ ω) (uri : Text) (filter_name : Option String) (filter_value_map : φ)
    (position count : Int) : Except ClientError (List Text × Int × Int × Int) :=
  if position < 0 ∨ count < 0 then
    .error (.invalidRequest "position and count must bot be int and greater than 0")
  else do
    let r ← c.request {
      verb := .LIST, uri := uri, position := some position, count := some count
      filter := filter_name, data := some filter_value_map }
    if r.http_code ≠ 200 then .error (unexpected r.http_code .LIST)
    else
      match r.data with
      | .ids id_list => do
        let position ← r.position.int
        let count ← r.count.int
        let total ← r.total.int
        pure (id_list, position, count, total)
      | _ => .error (.responseError "Response id_list must be a list for LIST")

/-- `get` -/
def CInP.get (c : CInP φ ω) (uri : Text) (force_multi_mode : Bool) :
    Except ClientError (List (Text × ω)) := do
  let r ← c.request { verb := .GET, uri := uri, multi_object := force_multi_mode, data := none }
  if r.http_code ≠ 200 then .error (unexpected r.http_code .GET)
  else
    match r.data with
    | .values rec_values => pure rec_values
    | _ => .error (.responseError "Response rec_values must be a dict for GET")

/-! ## Generators -/

/-- What a generator yields, and what it raises at its end. -/
abbrev Yields (β : Type) := List β × Option ClientError

/-- The argument `uri` of `getMulti`. -/
inductive Target
  | uri (uri : Text)
  | list (uri : List Text)

/-- What `getMulti` asks for and yields, and what it raises at its end. -/
structure Trace (ω : Type) where
  requests : List Text
  yielded : List (Text × ω)
  raised : Option ClientError
deriving DecidableEq

def Trace.yields (t : Trace ω) : Yields (Text × ω) := (t.yielded, t.raised)

/-- `id_list += tmp_id_list`, for all URIs of a list. -/
def CInP.idsOfAll (c : CInP φ ω) : List Text → Except ClientError (List Text)
  | [] => .ok []
  | item :: uri =>
    match c.uri.split item false with
    | .error e => .error (.valueError e)
    | .ok p =>
      match p.id_list with
      | none => .error (.typeError "'NoneType' object is not iterable")
      | some tmp_id_list => (c.idsOfAll uri).map (tmp_id_list ++ ·)

/-- What `getMulti` asks for: the namespace, the model and the ids. -/
def CInP.multiIds (c : CInP φ ω) (uri : Target) (id_list : Option (List Text)) :
    Except ClientError (List Text × Option Text × Option (List Text)) :=
  match uri with
  | .list uri => do
    let id_list ← c.idsOfAll uri
    match uri with
    | [] => .error (.indexError "list index out of range")
    | first :: _ =>
      match c.uri.split first false with
      | .error e => .error (.valueError e)
      | .ok p => .ok (p.namespace_list, p.model, some id_list)
  | .uri uri =>
    match c.uri.split uri false with
    | .error e => .error (.valueError e)
    | .ok p => .ok (p.namespace_list, p.model, id_list.or p.id_list)

/-- The loop of `getMulti` from a position on, for so many turns; what is in the `result_list` is
yielded before the next request. -/
def CInP.getMultiFrom (c : CInP φ ω) (namespace_list : List Text) (model : Option Text)
    (id_list : List Text) (chunk_size : Nat) : Nat → Nat → Option (Trace ω)
  | 0, _ => none
  | fuel + 1, pos =>
    if pos < id_list.length then
      let uri := c.uri.build (some namespace_list) model none
        (some ((id_list.drop pos).take chunk_size)) true
      match c.get uri true with
      | .error e => some ⟨[uri], [], some e⟩
      | .ok tmp_data =>
        (c.getMultiFrom namespace_list model id_list chunk_size fuel (pos + chunk_size)).map
          fun rest => ⟨uri :: rest.requests, tmp_data ++ rest.yielded, rest.raised⟩
    else some ⟨[], [], none⟩

def CInP.getMulti (c : CInP φ ω) (uri : Target) (id_list : Option (List Text))
    (chunk_size fuel : Nat) : Option (Trace ω) :=
  match c.multiIds uri id_list with
  | .error e => some ⟨[], [], some e⟩
  | .ok (_, _, none) =>
    some ⟨[], [], some (.typeError "object of type 'NoneType' has no len()")⟩
  | .ok (namespace_list, model, some id_list) =>
    c.getMultiFrom namespace_list model id_list chunk_size fuel 0

/-- A turn of the loops over the chunks of a list: the ids, the next position, and the total. -/
def CInP.listIds (c : CInP φ ω) (uri : Text) (filter_name : Option String) (filter_value_map : φ)
    (pos : Int) (list_chunk_size : Nat) : Except ClientError (List Text × Int × Int) := do
  let (tmp_id_list, position, count, total) ←
    c.list uri filter_name filter_value_map pos list_chunk_size
  match c.uri.extractIds tmp_id_list with
  | .error e => .error (.valueError e)
  | .ok id_list => pure (id_list, position + count, total)

/-- `getFilteredObjects`: the loop returns in its first turn. -/
def CInP.getFilteredObjects (c : CInP φ ω) (uri : Text) (filter_name : Option String)
    (filter_value_map : φ) (list_chunk_size get_chunk_size fuel : Nat) :
    Option (Yields (Text × ω)) :=
  match c.listIds uri filter_name filter_value_map 0 list_chunk_size with
  | .error e => some ([], some e)
  | .ok (id_list, _, _) =>
    (c.getMulti (.uri uri) (some id_list) get_chunk_size fuel).map Trace.yields

/-- The loop of `getFilteredURIs`, for so many turns. -/
def CInP.getFilteredURIsFrom (c : CInP φ ω) (uri : Text) (filter_name : Option String)
    (filter_value_map : φ) (list_chunk_size : Nat) : Nat → Int → Int → Option (Yields Text)
  | 0, _, _ => none
  | fuel + 1, pos, total =>
    if pos < total then
      match c.listIds uri filter_name filter_value_map pos list_chunk_size with
      | .error e => some ([], some e)
      | .ok (id_list, pos, total) =>
        (c.getFilteredURIsFrom uri filter_name filter_value_map list_chunk_size fuel pos total).map
          fun rest => (id_list ++ rest.1, rest.2)
    else some ([], none)

def CInP.getFilteredURIs (c : CInP φ ω) (uri : Text) (filter_name : Option String)
    (filter_value_map : φ) (list_chunk_size fuel : Nat) : Option (Yields Text) :=
  c.getFilteredURIsFrom uri filter_name filter_value_map list_chunk_size fuel 0 1

/-! ## Headers -/

/-- A header; a value may be missing (`None`). -/
abbrev Header := String × Option String

/-- `opener.addheaders` after `__init__`. -/
def addheaders : List Header :=
  [("User-Agent", some "python CInP client 0.17.0"), ("Accepts", some "application/json"),
    ("Accept-Charset", some "utf-8"), ("CInP-Version", some "1.0")]

/-- `setAuth`, on `opener.addheaders`. -/
def setAuth (addheaders : List Header) (auth_id auth_token : Option String) : List Header :=
  if auth_id = none ∨ auth_id = some "" then
    addheaders.filter fun h => ¬ (h.1 = "Auth-Id" ∨ h.1 = "Auth-Token")
  else addheaders ++ [("Auth-Id", auth_id), ("Auth-Token", auth_token)]

/-- `str.capitalize` -/
def capitalize (name : String) : String :=
  match name.toList with
  | [] => ""
  | c :: cs => String.ofList (c.toUpper :: cs.map Char.toLower)

/-- The headers that `urllib` sends: those of the request, and of the opener's those that are not
there yet. -/
def sent (header_map addheaders : List Header) : List Header :=
  addheaders.foldl (fun headers h =>
    if capitalize h.1 ∈ headers.map (·.1) then headers else headers ++ [(capitalize h.1, h.2)])
    (header_map.map fun h => (capitalize h.1, h.2))

/-- The headers that a request has of its own. -/
def headerNames : List String :=
  ["Content-Type", "Content-Disposition", "Content-Length", "Position", "Count", "Filter",
    "Multi-Object"]

/-- `HTTPClient.login`, with the token that the server gives. -/
def login (token : Option String) (addheaders : List Header) : List Header :=
  setAuth addheaders (some "jobsig") token

end Cinp
