import Disks.Cinp.Client
import Disks.Lib.Channel

/-!
# The client of the contractor (`contractor/client.py`)

The requests that the disks make of the contractor. What a request comes to is told by the network
(`Channel`) and by `CInP._request`; `request` repeats it after an error of the transport. The texts
of the exceptions, and the delays between the tries, are left out; `format` is `'{0}'.format`.
-/

namespace Contractor

/-- A value of `json`. -/
inductive Json
  | null
  | bool (b : Bool)
  | number (n : Rat)
  | str (s : String)
  | list (l : List Json)
  | dict (items : List (String × Json))

/-- `bool( value )` -/
def Json.truthy : Json → Bool
  | .null => false
  | .bool b => b
  | .number n => n != 0
  | .str s => s != ""
  | .list l => !l.isEmpty
  | .dict items => !items.isEmpty

/-- What may be raised; `exception` is one of Python itself (`KeyError`, `TypeError`, ..). -/
inductive Raised
  | ResponseError
  | Timeout
  | InvalidRequest
  | InvalidSession
  | NotAuthorized
  | NotFound
  | ServerError
  | exception
deriving DecidableEq, Repr

/-- `value[ key ]`, of a `dict` with texts as keys. -/
def Json.item (value : Json) (key : String) : Except Raised Json :=
  match value with
  | .dict items =>
    match items.lookup key with
    | some v => .ok v
    | none => .error .exception
  | _ => .error .exception

/-- `value.get( key, default )` -/
def Json.get (value : Json) (key : String) (default : Json) : Except Raised Json :=
  match value with
  | .dict items => .ok ((items.lookup key).getD default)
  | _ => .error .exception

/-! ## Requests -/

inductive Call
  | login (username password : String)
  | logout (token : Json)
  | register (identifier : String)
  | lookup (identifier : String) (info_map : Json)
  | setMessage (identifier message : String)
  | setIdMap (foundation_locator id_map : Json)
  | done (identifier : String)
  | getConfig (config_uuid : Option String) (foundation_locator : Json)
  | postMessage (job_id msg : String)
  | signalAlert (job_id msg : String)
  | signalComplete (job_id cookie : String)

/-- The URI. -/
def Call.uri (format : Json → String) : Call → String
  | .login _ _ => "/api/v1/Auth/User(login)"
  | .logout _ => "/api/v1/Auth/User(logout)"
  | .register _ => "/api/v1/Survey/Cartographer(register)"
  | .lookup identifier _ => "/api/v1/Survey/Cartographer:" ++ identifier ++ ":(lookup)"
  | .setMessage identifier _ => "/api/v1/Survey/Cartographer:" ++ identifier ++ ":(setMessage)"
  | .setIdMap locator _ => "/api/v1/Building/Foundation:" ++ format locator ++ ":(setIdMap)"
  | .done identifier => "/api/v1/Survey/Cartographer:" ++ identifier ++ ":(done)"
  | .getConfig (some config_uuid) _ => "/config/config/c/" ++ config_uuid
  | .getConfig none .null => "/config/config/"
  | .getConfig none locator => "/config/config/f/" ++ format locator
  | .postMessage job_id _ => "/api/v1/Foreman/BaseJob:" ++ job_id ++ ":(postMessage)"
  | .signalAlert job_id _ => "/api/v1/Foreman/BaseJob:" ++ job_id ++ ":(signalAlert)"
  | .signalComplete job_id _ => "/api/v1/Foreman/BaseJob:" ++ job_id ++ ":(signalComplete)"

/-- The data of a call; none of a `'raw get'`. -/
def Call.data : Call → Option Json
  | .login username password =>
    some (.dict [("username", .str username), ("password", .str password)])
  | .logout token => some (.dict [("token", token)])
  | .register identifier => some (.dict [("identifier", .str identifier)])
  | .lookup _ info_map => some (.dict [("info_map", info_map)])
  | .setMessage _ message => some (.dict [("message", .str message)])
  | .setIdMap _ id_map => some (.dict [("id_map", id_map)])
  | .done _ => some (.dict [])
  | .getConfig _ _ => none
  | .postMessage _ msg | .signalAlert _ msg => some (.dict [("msg", .str msg)])
  | .signalComplete _ cookie => some (.dict [("cookie", .str cookie)])

def root_path : Cinp.Text := "/api/v1/".toList

theorem root_path_start : root_path.head? = some '/' := by decide

theorem root_path_finish : root_path.getLast? = some '/' := by decide

theorem root_path_plain : ∀ c ∈ root_path, c ∉ Cinp.metacharacters := by
  change ∀ c ∈ "/api/v1/".toList, c ∉ Cinp.metacharacters
  simp [Cinp.metacharacters]

/-- `CInP( host, '/api/v1/' )`; its server is the one over the network. -/
def cinp : Cinp.CInP Json Empty where
  uri := ⟨root_path, root_path_start, root_path_finish, root_path_plain⟩
  server _ := .error (.transport "")

/-- Whether a request is sent: `_checkRequest`, of a call. -/
def checked (format : Json → String) (call : Call) : Bool :=
  match call.data with
  | none => true
  | some data => (cinp.checkRequest .CALL (call.uri format).toList (some data)).isOk

/-- A response: its text, and what `json.loads` makes of it. -/
structure Reply where
  http_code : Nat
  buff : String
  loads : Option Json

/-- The end of `CInP._request`: the code and the data, or what it raises for the code. -/
def result (reply : Reply) : Except Raised (Nat × Json) :=
  if reply.http_code ∉ [200, 201, 202, 400, 401, 403, 404, 500] then .error .ResponseError
  else if reply.http_code = 401 then .error .InvalidSession
  else if reply.http_code = 403 then .error .NotAuthorized
  else if reply.http_code = 404 then .error .NotFound
  else if reply.http_code = 400 then .error .InvalidRequest
  else if reply.http_code = 500 then .error .ServerError
  else if reply.buff = "" then .ok (reply.http_code, .null)
  else
    match reply.loads with
    | some data => .ok (reply.http_code, data)
    | none => .error .ResponseError

/-- One try, where no response is a `Timeout` or a `ResponseError`. -/
def outcome : Option Reply → Except Raised Json
  | none => .error .Timeout
  | some reply => do
    let (http_code, values) ← result reply
    if http_code ≠ 200 then .error .ResponseError else pure values

/-- Whether `request` tries again. -/
def again (retry_count : Int) (retry : Nat) (reply : Option Reply) : Bool :=
  match outcome reply with
  | .error .ResponseError | .error .Timeout => !(retry_count ≠ -1 && retry_count ≤ retry)
  | _ => false

/-- How a program of the disks ends early. -/
inductive Stop
  | exit (code : Int)
  | raised (e : Raised)
deriving DecidableEq, Repr

/-- What a program does itself. -/
inductive Event
  | wiped (block_path : String)
deriving DecidableEq, Repr

abbrev Prog (α : Type) := Channel.Prog Stop Call Reply Event α

def raise {α : Type} (e : Stop) : Prog α := throw (.raised e)

/-- The values, or what is raised. -/
def unwrap : Except Raised Json → Prog Json
  | .ok values => pure values
  | .error e => raise (.raised e)

/-- `HTTPClient.request` -/
def request (format : Json → String) (retry_count : Int) (call : Call) : Prog Json :=
  if checked format call then do
    let reply ← Channel.request (again retry_count) call
    unwrap (outcome reply)
  else raise (.raised .InvalidRequest)

/-! ## Jobs -/

/-- `HTTPClient.login` -/
def login (format : Json → String) : Prog Json := request format 0 (.login "jobsig" "jobsig")

/-- The programs that log in and make one call; a response that is not the awaited one is only
written to the console. -/
def signal (format : Json → String) (call : Call) : Prog Json := do
  let _ ← login format
  request format 0 call

def postMessage (format : Json → String) (job_id msg : String) : Prog Json :=
  signal format (.postMessage job_id msg)

def signalAlert (format : Json → String) (job_id msg : String) : Prog Json :=
  signal format (.signalAlert job_id msg)

def signalComplete (format : Json → String) (job_id cookie : String) : Prog Json :=
  signal format (.signalComplete job_id cookie)

end Contractor
