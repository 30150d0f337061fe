import Disks.Bootstrap.Lldp
import Disks.Contractor.Client

/-!
# The bootstrap of a machine (`bootstrap.py`)

The machine registers with the contractor, waits until it is matched with a foundation, reports its
hardware, and is done. What it knows of its hardware is given; the console, the sleeps, and the
`identify` light are left out.
-/

namespace Bootstrap

open Contractor

/-- `platforms.py` -/
inductive Platform
  | IPMI
  | AMT
  | RedFish
  | Unknown
deriving DecidableEq, Repr

def Platform.type : Platform → String
  | .IPMI => "IPMI"
  | .AMT => "AMT"
  | .RedFish => "RedFish"
  | .Unknown => "Unknown"

def Platform.setAuth (_ : Platform) : Bool := false

def Platform.setIp (_ : Platform) : Bool := false

/-- Only the one for IPMI looks at the values. -/
def Platform.setup (platform : Platform) (config : Json) : Except Raised Json :=
  match platform with
  | .IPMI => config.get "ipmi_lan_channel" (.number 1)
  | _ => .ok .null

/-- The one for IPMI calls `_setMessage` of `platforms.py`, which is `None`. -/
def Platform.prep : Platform → Except Raised Json
  | .IPMI => .error .exception
  | _ => .ok .null

structure Machine where
  identifier : String
  lldpcli : Nat → Text
  /-- With what `getLLDP` found; what cannot be read raises. -/
  info_map : Results → Except Raised Json
  /-- With that, and with the values of the foundation. -/
  id_map : Results → Json → Except Raised Json
  config_uuid : Option String
  platform : Platform
  /-- The `block_path` of each drive. -/
  drive_list : List (Option String)
  /-- `open( block_path, 'r+b' )` comes back. -/
  opens : String → Bool
  /-- `'{0}'.format` -/
  format : Json → String

variable (m : Machine)

/-- `Bootstrap.__init__`: the token. -/
def init : Prog Json := do
  let token ← request m.format (-1) (.login "bootstrap" "bootstrap")
  let _ ← request m.format (-1) (.register m.identifier)
  pure token

def setMessage (message : String) : Prog Json :=
  request m.format (-1) (.setMessage m.identifier message)

/-- Whatever is raised is caught. -/
def logout (token : Json) : Prog Unit := fun s =>
  match request m.format 0 (.logout token) s with
  | .ok _ s' => .ok () s'
  | .error .waiting s' => .error .waiting s'
  | .error (.raised _) s' => .ok () s'

/-- The message of `getLLDP`, if it has one. -/
def lldpMessage : Option Text → Prog Unit
  | none => pure ()
  | some message => do
    let _ ← setMessage m (String.ofList message)

/-- How `getLLDP` ends. -/
def lldpEnd : Except LldpError Results → Prog Results
  | .ok results => pure results
  | .error (.exit _) => raise (.exit 1)
  | .error .valueError => raise (.raised .exception)

/-- The locator of an answer of `lookup`, with what it was matched by; none without a match. -/
def matched (answer : Json) : Except Raised (Option (Json × Json)) := do
  match ← answer.item "matched_by" with
  | .null => pure none
  | matched_by => do
    let locator ← answer.item "locator"
    pure (some (locator, matched_by))

/-- `while not foundation_locator`, for so many turns. -/
def findLocator (info_map : Json) : Nat → Prog (Json × Json)
  | 0 => throw .waiting
  | fuel + 1 => do
    let answer ← request m.format (-1) (.lookup m.identifier info_map)
    match matched answer with
    | .error e => raise (.raised e)
    | .ok none => do
      let _ ← setMessage m "no match"
      findLocator info_map fuel
    | .ok (some found) => if found.1.truthy then pure found else findLocator info_map fuel

/-- From the look up to the report of the hardware: the values of the foundation, and the error. -/
def report (lldp : Results) (locator matched_by : Json) : Prog (Json × Json) := do
  let _ ← setMessage m
    ("Matched as \"" ++ m.format locator ++ "\" by \"" ++ m.format matched_by ++ "\"")
  let config ← request m.format 2 (.getConfig m.config_uuid locator)
  let _ ← unwrap (m.platform.setup config)
  let _ ← setMessage m "Geting Hardware Information..."
  let id_map ← unwrap (m.id_map lldp config)
  let _ ← setMessage m "Reporting Hardware info..."
  let error ← request m.format (-1) (.setIdMap locator id_map)
  pure (config, error)

/-- Where the hardware is not what it should be. -/
def refuse (token error : Json) : Prog Unit := do
  let _ ← setMessage m ("Hardware Error: \"" ++ m.format error ++ "\"")
  logout m token
  raise (.exit 20)

/-- `changed != platform.setIp()` is no assignment. -/
def prepare : Prog Unit :=
  if m.platform.setAuth then do
    let _ ← setMessage m "Preping Platform..."
    let _ ← unwrap m.platform.prep
  else pure ()

/-- A turn of the loop that clears the MBRs. -/
def clearMBR : Option String → Prog PUnit
  | none => pure ()
  | some block_path =>
    if m.opens block_path then Channel.own (.wiped block_path) else raise (.raised .exception)

def clearMBRs (config : Json) : Prog Unit := do
  let wipe ← unwrap (config.get "bootstrap_wipe_mbr" (.bool false))
  if wipe.truthy then do
    let _ ← setMessage m "Clearing MBRs..."
    m.drive_list.forM (clearMBR m)
  else pure ()

/-- Where the hardware is what it should be. -/
def finish (token config : Json) : Prog Unit := do
  let _ ← setMessage m "Hardware Profile Verified"
  let _ ← setMessage m ("Configuring " ++ m.platform.type ++ "...")
  prepare m
  clearMBRs m config
  let _ ← setMessage m "Cleaning up..."
  let _ ← request m.format (-1) (.done m.identifier)
  logout m token

def conclude (token config : Json) : Json → Prog Unit
  | .null => finish m token config
  | error => refuse m token error

/-- The program, with so many turns of its loop; it comes back for `sys.exit( 0 )`. -/
def main (fuel : Nat) : Prog Unit := do
  let token ← init m
  let _ ← setMessage m "Getting LLDP Information..."
  lldpMessage m (getLLDP m.lldpcli).1
  let lldp ← lldpEnd (getLLDP m.lldpcli).2
  let info_map ← unwrap (m.info_map lldp)
  let found ← findLocator m info_map fuel
  let reported ← report m lldp found.1 found.2
  conclude m token reported.1 reported.2

/-- The program over a network. -/
def run (fuel : Nat) (episodes : List (Channel.Episode Reply)) :
    EStateM.Result (Channel.Halt Stop) (Channel.State Call Reply Event) Unit :=
  main m fuel (.init episodes)

/-- The exit status; none while the program waits. What nothing catches ends the program with 1. -/
def status {σ : Type} : EStateM.Result (Channel.Halt Stop) σ Unit → Option Int
  | .ok _ _ => some 0
  | .error (.raised (.exit code)) _ => some code
  | .error (.raised (.raised _)) _ => some 1
  | .error .waiting _ => none

end Bootstrap
