import Disks.Lib.Assoc
import Disks.Lib.Fold
import Disks.Lib.Lines

/-!
# The neighbours of a machine (`getLLDP` of `bootstrap/root/lib.py`)

`lldpcli` says, for each try, what the command prints, decoded.
-/

namespace Bootstrap

abbrev Text := List Char

/-- The entries of a dictionary `results[ interface ]`. -/
structure Neighbor where
  mac : Option Text := none
  name : Option Text := none
  slot : Option Nat := none
  port : Option Nat := none
  subport : Option Nat := none
deriving DecidableEq, Repr

/-- `ValueError`, and `sys.exit( 1 )` after a message. -/
inductive LldpError
  | valueError
  | exit (message : Text)
deriving DecidableEq, Repr

abbrev Values := Assoc.Dict Text Text

abbrev Results := Assoc.Dict Text Neighbor

/-! ## The lines -/

/-- A turn of the loop over the lines. -/
def parseLine (lldp_values : Values) (line : Text) : Except LldpError Values :=
  if line.contains '=' then
    match line.splitOn '=' with
    | [key, value] => .ok (Assoc.set lldp_values key value)
    | _ => .error .valueError
  else .ok lldp_values

def readLines (lldp_data : Text) : Except LldpError Values :=
  (Lines.splitlines lldp_data).foldlM parseLine []

/-! ## The values -/

/-- `( protocol, interface, name ) = item.split( '.', 2 )` -/
def splitKey (item : Text) : Option (Text × Text × Text) :=
  match item.dropWhile (· ≠ '.') with
  | [] => none
  | _ :: rest =>
    match rest.dropWhile (· ≠ '.') with
    | [] => none
    | _ :: name => some (item.takeWhile (· ≠ '.'), rest.takeWhile (· ≠ '.'), name)

/-- The number that some digits are. -/
def toNat (digits : Text) : Nat := digits.foldl (fun n c => 10 * n + (c.toNat - '0'.toNat)) 0

/-- `int( digits )` -/
def int (digits : Text) : Except LldpError Nat :=
  if digits.isEmpty then .error .valueError else .ok (toNat digits)

/-- `re.sub( '[^0-9/]', '', value ).split( '/' )` -/
def portParts (value : Text) : List Text :=
  (value.filter fun c => c.isDigit || c == '/').splitOn '/'

def portMessage (value : Text) : Text :=
  "I don't know how to handle this lldp local port \"".toList ++ value ++ "\"".toList

/-- The slot, the port and the subport of a line about a port. -/
def portNumbers (value : Text) : Except LldpError (Nat × Nat × Nat) :=
  match portParts value with
  | [port] => do
    let port ← int port
    pure (1, port, 0)
  | [slot, port] => do
    let slot ← int slot
    let port ← int port
    pure (slot, port, 0)
  | [slot, port, subport] => do
    let slot ← int slot
    let port ← int port
    let subport ← int subport
    pure (slot, port, subport)
  | _ => .error (.exit (portMessage value))

def chassisMac : Text := "chassis.mac".toList

def chassisName : Text := "chassis.name".toList

/-- `( 'port.local', 'port.ifname' )` -/
def portNames : List Text := ["port.local".toList, "port.ifname".toList]

/-- What a value says about the neighbour of its interface. -/
def setNeighbor (neighbor : Neighbor) (name value : Text) : Except LldpError Neighbor :=
  if name = chassisMac then .ok { neighbor with mac := some value }
  else if name = chassisName then .ok { neighbor with name := some value }
  else if portNames.contains name then do
    let (slot, port, subport) ← portNumbers value
    pure { neighbor with slot := some slot, port := some port, subport := some subport }
  else .ok neighbor

/-- A turn of the loop over the values. -/
def readItem (results : Results) (item : Text × Text) : Except LldpError Results :=
  match splitKey item.1 with
  | none => .error .valueError
  | some (_, interface, name) => do
    let neighbor ← setNeighbor ((results.lookup interface).getD {}) name item.2
    pure (Assoc.set results interface neighbor)

/-! ## `getLLDP` -/

/-- The first data of more than 10 characters, in the try `counter` or one of the `left` next
ones. -/
def poll (lldpcli : Nat → Text) (counter left : Nat) : Option Text :=
  let lldp_data := Lines.strip (lldpcli counter)
  if 10 < lldp_data.length then some lldp_data
  else
    match left with
    | 0 => none
    | left + 1 => poll lldpcli (counter + 1) left

def timeoutMessage : Text := "lldp timeout waiting for data, skipping...".toList

/-- What is given to `_setMessage` before `sys.exit`. -/
def exitMessage : Except LldpError Results → Option Text
  | .error (.exit message) => some message
  | _ => none

/-- What is given to `_setMessage`, and what comes back. -/
def getLLDP (lldpcli : Nat → Text) : Option Text × Except LldpError Results :=
  match poll lldpcli 0 3 with
  | none => (some timeoutMessage, .ok [])
  | some lldp_data =>
    let results := readLines lldp_data >>= fun lldp_values => lldp_values.foldlM readItem []
    (exitMessage results, results)

end Bootstrap
