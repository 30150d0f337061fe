import Disks.Firmware.Planner
import Disks.Lib.Assoc
import Disks.Lib.Effect
import Disks.Task.DoTask

/-!
# The firmware updates of a machine (`firmware/root/firmware.py`)

One boot asks the handlers, by their priorities, for the targets and their versions, and updates
those of the first handler that has any with another version than the one it is to have. It then
ends with 20, which makes `/etc/init.d/do_task` reboot the machine, and the next boot starts again.

The handlers, the network and the contractor are parameters: what they do to the `world`, and
whether they raise.
-/

namespace FirmwareUpdate

open Planner

/-- What `getTargets` tells of a target. -/
structure Row (τ : Type) where
  target : τ
  model : String
  version : String
deriving DecidableEq, Repr

/-- A plugin (`Handler`), whose calls come back or raise. -/
structure Handler (σ τ : Type) where
  setup : EStateM Unit σ Unit
  getTargets : EStateM Unit σ (List (Row τ))
  beforeUpdates : EStateM Unit σ Unit
  updateTarget : τ → List UInt8 → EStateM Unit σ Bool
  afterUpdates : EStateM Unit σ Unit

/-- `Manager.getHandlers`: the plugins that were found, each with its `PRIORITY`. -/
def getHandlers {η : Type} (handler_priority_map : List (String × Int))
    (handler_module_map : String → η) : List (String × η) :=
  (Ranked.sorted (·.2) handler_priority_map).map fun i => (i.1, handler_module_map i.1)

/-- The values of the configuration that are read. -/
structure Config where
  firmware_resource_location : Option String
  firmware : Option (Assoc.Dict String (Assoc.Dict String FirmwareMap))
  firmware_targets : Option (Assoc.Dict String (Assoc.Dict String String))

/-- What a boot does that can be seen: `getTargets` with its result, the call of `beforeUpdates`, a
file that is there, the call of `updateTarget`, and the call of `afterUpdates`. -/
inductive Event (τ : Type)
  | listed (name : String) (target_list : List (Row τ))
  | before (name : String)
  | downloaded (filename : String) (file : List UInt8)
  | update (name : String) (target : τ) (filename : String) (file : List UInt8)
  | after (name : String)

structure State (σ τ : Type) where
  world : σ
  filename_cache : Assoc.Dict String (List UInt8) := []
  dirty : Bool := false
  trace : List (Event τ) := []

abbrev Boot (σ τ α : Type) := EStateM Int (State σ τ) α

variable {σ τ α : Type}

/-- Something outside; what it raises ends the program with 1. -/
def call (m : EStateM Unit σ α) : Boot σ τ α :=
  Effect.within State.world (fun s world => { s with world }) 1 m

def note (event : Event τ) : Boot σ τ Unit :=
  modify fun s => { s with trace := s.trace ++ [event] }

/-- The values that a job has. -/
structure Job (σ τ : Type) where
  /-- `re.match( i, target )` -/
  rematch : String → String → Bool
  /-- `opener.open( url )`, and all that is read of it. -/
  open_url : String → EStateM Unit σ (List UInt8)
  /-- `contractor.postMessage` -/
  postMessage : String → EStateM Unit σ Unit
  /-- `'{0}'.format` of a target. -/
  format : τ → String
  handler_list : List (String × Handler σ τ)
  resource_location : String
  firmware : Assoc.Dict String (Assoc.Dict String FirmwareMap)
  firmware_targets : Assoc.Dict String (Assoc.Dict String String)

namespace Job

variable (job : Job σ τ)

/-- `firmware_map[ model ]`, then `findStep`; an empty name is none. -/
def nextFile (firmware_map : Assoc.Dict String FirmwareMap) (row : Row τ)
    (target_version : String) : Option String :=
  ((firmware_map.lookup row.model).bind fun model_map =>
    findStep job.rematch row.version target_version model_map).filter fun filename => filename ≠ ""

/-- `filename_cache[ filename ]`, after it is downloaded if it is not there yet. -/
def localFile (filename : String) : Boot σ τ (List UInt8) := do
  match (← get).filename_cache.lookup filename with
  | some file => pure file
  | none =>
    let file ← call (job.open_url (job.resource_location ++ filename))
    modify fun s =>
      { s with
        filename_cache := Assoc.set s.filename_cache filename file
        trace := s.trace ++ [.downloaded filename file] }
    pure file

/-- `if not dirty: handler.beforeUpdates()` -/
def prepare (name : String) (handler : Handler σ τ) : Boot σ τ Unit := do
  if (← get).dirty then pure ()
  else
    note (.before name)
    call handler.beforeUpdates

/-- An update that has to succeed. -/
def updateTarget (name : String) (handler : Handler σ τ) (target : τ) (filename : String)
    (file : List UInt8) : Boot σ τ Unit := do
  call (job.postMessage
    ("Updating \"" ++ job.format target ++ "\" with \"" ++ filename ++ "\""))
  note (.update name target filename file)
  if ← call (handler.updateTarget target file) then
    modify fun s => { s with dirty := true }
  else throw 1

/-- A turn of `for ( target, model, version ) in target_list`. -/
def checkTarget (name : String) (handler : Handler σ τ) (version_map : Assoc.Dict String String)
    (firmware_map : Assoc.Dict String FirmwareMap) (row : Row τ) : Boot σ τ Unit :=
  match version_map.lookup row.model with
  | none => pure ()
  | some target_version =>
    if row.version = target_version then pure ()
    else do
      prepare name handler
      match job.nextFile firmware_map row target_version with
      | none => throw 1
      | some filename =>
        let file ← job.localFile filename
        job.updateTarget name handler row.target filename file

/-- `for ( name, handler ) in handler_list`, up to the first handler that leaves it `dirty`. -/
def checkHandlers : List (String × Handler σ τ) → Boot σ τ Unit
  | [] => pure ()
  | (name, handler) :: rest =>
    match job.firmware_targets.lookup name with
    | none => checkHandlers rest
    | some version_map =>
      match job.firmware.lookup name with
      | none => throw 1
      | some firmware_map => do
        let target_list ← call handler.getTargets
        note (.listed name target_list)
        target_list.forM (job.checkTarget name handler version_map firmware_map)
        if (← get).dirty then
          note (.after name)
          call handler.afterUpdates
        else checkHandlers rest

/-- The program, from the handlers' setup on; what it gives to `sys.exit`. -/
def main : Boot σ τ Int := do
  call (job.postMessage "Setting up handlers...")
  job.handler_list.forM fun handler => call handler.2.setup
  call (job.postMessage "Checking for Updates....")
  job.checkHandlers job.handler_list
  if (← get).dirty then
    call (job.postMessage "Firmware Changed, rebooting.")
    pure 20
  else pure 0

/-- The exit status of one boot, and what it leaves. -/
def boot (world : σ) : Int × State σ τ :=
  match job.main { world } with
  | .ok code s => (code, s)
  | .error code s => (code, s)

end Job

/-- The program, from the values of the configuration on; each of them is needed. -/
def boot (rematch : String → String → Bool) (open_url : String → EStateM Unit σ (List UInt8))
    (postMessage : String → EStateM Unit σ Unit) (format : τ → String)
    (handler_list : List (String × Handler σ τ)) (config : Config) (world : σ) :
    Int × State σ τ :=
  match config.firmware_resource_location.filter (· ≠ ""),
    config.firmware.filter (!·.isEmpty), config.firmware_targets.filter (!·.isEmpty) with
  | some resource_location, some firmware, some firmware_targets =>
    Job.boot ⟨rematch, open_url, postMessage, format, handler_list, resource_location, firmware,
      firmware_targets⟩ world
  | _, _, _ => (1, { world })

/-! ## One boot after the other -/

/-- One boot of the machine: it is left to the next boot, or ends. -/
def Job.turn (job : Job σ τ) (reboot : σ → σ) :
    σ → Option (Loop.Turn σ (DoTask.Ending × State σ τ)) :=
  DoTask.turn job.boot fun s => reboot s.world

end FirmwareUpdate
