import Disks.Lib.Assoc
import Disks.Lib.Numeral
import Disks.Lib.Ranked
import Disks.Lib.Regex
import Disks.Manager.DriveInfo

/-!
# The ports of an enclosure (`libdrive.py`)

`_getEnclosurePortMap` finds the ports of an enclosure by what is listed under
`/sys/class/enclosure`, and numbers them or takes their names.

* `getEnclosurePortMap`: from the names that are listed.
* `getSASEnclosurePorts`: with the device at each port.
-/

namespace Enclosure

open Lines (strip)
open Manager (Text decimal)
open Regex (Pattern)

/-- `IndexError` and `ValueError` are Python's, and an exception has a text of its own. -/
inductive PortError
  | indexError
  | valueError
  | exception (text : String)
deriving DecidableEq

/-- A key of the port map. -/
inductive Slot
  | number (n : Nat)
  | name (text : Text)
deriving DecidableEq

/-- What else is listed with the ports. -/
def attributes : List Text :=
  ["uevent".toList, "subsystem".toList, "device".toList, "components".toList, "power".toList]

/-- The ports, sorted. -/
def sortedPorts (listed : List Text) : List Text :=
  Ranked.sorted id (listed.filter fun x => !attributes.contains x).dedup

/-! ## The names of ports -/

/-- `[0-9]+` -/
def digits : Pattern Char := .plus (.one Char.isDigit)

/-- `[A-E][0-9]+` -/
def voyager : Pattern Char := .seq (.one fun c => 'A' ≤ c ∧ c ≤ 'E') digits

/-- `SLOT[ 0-9]*\[[A-G],[ ]*[1-9]+\]` -/
def pikesPeak : Pattern Char :=
  .seq (.text "SLOT".toList) (.seq (.star (.one fun c => c = ' ' ∨ c.isDigit))
    (.seq (.text ['[']) (.seq (.one fun c => 'A' ≤ c ∧ c ≤ 'G') (.seq (.text [','])
      (.seq (.star (.one fun c => c = ' ')) (.seq (.plus (.one fun c => '1' ≤ c ∧ c ≤ '9'))
        (.text [']'])))))))

/-- `Slot[ ]*[0-9]+`, of some word. -/
def numbered (word : Text) : Pattern Char :=
  .seq (.text word) (.seq (.star (.one fun c => c = ' ')) digits)

/-- `int( text )`, of ASCII characters. -/
def int (text : Text) : Option Int :=
  let natural (text : Text) : Option Int :=
    if (text.splitOn '_').all fun group => group ≠ [] ∧ group.all Char.isDigit then
      some (Numeral.value text)
    else none
  match strip text with
  | '-' :: text => (natural text).map Neg.neg
  | '+' :: text => natural text
  | text => natural text

/-- `{1:02d}` -/
def twoDigits (n : Int) : Text :=
  if n < 0 then '-' :: decimal n.natAbs else Numeral.padded 2 '0' n.toNat

/-- `( bay, slot ) = item.split( '[' )[1].split( ']' )[0].split( ',' )`, as one key. -/
def baySlot (item : Text) : Except PortError Text :=
  match (item.splitOn '[')[1]? with
  | none => .error .indexError
  | some inner =>
    match ((inner.splitOn ']').headD []).splitOn ',' with
    | [bay, slot] =>
      match int slot with
      | none => .error .valueError
      | some slot => .ok (bay ++ twoDigits slot)
    | _ => .error .valueError

/-- The loop over the items of a pikes peak. -/
def baySlots (result : Assoc.Dict Slot Text) :
    List Text → Except PortError (Assoc.Dict Slot Text)
  | [] => .ok result
  | item :: ports => do
    let key ← baySlot item
    baySlots (Assoc.set result (.name key) item) ports

/-- `dict( zip( range( 0, len( ports ) ), ports ) )` -/
def zipRange (ports : List Text) : Assoc.Dict Slot Text :=
  ((List.range ports.length).map Slot.number).zip ports

/-- `_getEnclosurePortMap` -/
def getEnclosurePortMap (listed : List Text) : Except PortError (Assoc.Dict Slot Text) :=
  match sortedPorts listed with
  | [] => .ok []
  | first :: rest =>
    if voyager.begins first then .ok (((first :: rest).map Slot.name).zip (first :: rest))
    else if pikesPeak.begins first then baySlots [] (first :: rest)
    else if digits.begins first then .ok (zipRange (first :: rest))
    else if (numbered "Slot".toList).begins first || (numbered "SLOT".toList).begins first ||
        (numbered "ArrayDevice".toList).begins first then
      .ok (zipRange (first :: rest))
    else .error (.exception "Unknown Port Naming System")

/-! ## The devices at the ports -/

structure SASPort where
  host : Int
  scsi_id : Text
  slot : Slot
  slot_name : Text

/-- `SASPort( scsi_id, slot, slot_name )` -/
def SASPort.init (scsi_id : Text) (slot : Slot) (slot_name : Text) : Except PortError SASPort :=
  match int ((scsi_id.splitOn ':').headD []) with
  | none => .error .valueError
  | some host => .ok ⟨host, scsi_id, slot, slot_name⟩

/-- The name of the device at a port: what is found under `device/block`, else under
`device/scsi_generic`. -/
def deviceAt (block generic : Text → List Text) (slot_name : Text) : Option Text :=
  match block slot_name with
  | name :: _ => some name
  | [] => (generic slot_name).head?

/-- `getSASEnclosurePorts` -/
def getSASEnclosurePorts (block generic : Text → List Text) (enclosure : Text)
    (listed : List Text) : Except PortError (List (SASPort × Option Text)) := do
  let port_map ← getEnclosurePortMap listed
  port_map.mapM fun entry => do
    let port ← SASPort.init enclosure entry.1 entry.2
    return (port, deviceAt block generic entry.2)

end Enclosure
