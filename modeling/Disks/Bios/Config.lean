import Disks.Bios.BootOrder
import Disks.Lib.Assoc
import Disks.Lib.Effect
import Disks.Task.DoTask

/-!
# The configuration of a BIOS (`bios-cfg/root/bioscfg`)

A boot counts itself in the environment of the job, sets the password, then the items that have
another value, and, if no item was set, the boot order. After each of these the machine is
rebooted, and the program starts again, until nothing is to be set.

The tool of the board (`SYSCfg` or `SUM`) and the client of the job's server are parameters: what
they do to the `world`, which has the objects' own state too, and whether they raise.
-/

namespace BiosCfg

/-- What `getValue` gives: the current value, and the names of the values by their keys. -/
abbrev Value := Option String × Option (Assoc.Dict String String)

/-- A class of `pylib` (`BIOSCfg`), with the object. -/
structure Tool (σ : Type) where
  setPassword : String → EStateM Unit σ Unit
  checkPassword : EStateM Unit σ Bool
  changePassword : String → EStateM Unit σ Bool
  getValue : String → String → EStateM Unit σ Value
  setValue : String → String → String → EStateM Unit σ Bool
  getBoot : EStateM Unit σ (List (String × String))
  setBoot : List (List String) → EStateM Unit σ Bool

/-- `PlatoPXE`; what `readEnv` and `writeEnv` are about is in the state of the program. -/
structure PlatoPXE (σ : Type) where
  postMessage : String → EStateM Unit σ Unit
  readEnv : EStateM Unit σ Unit
  writeEnv : EStateM Unit σ Unit

/-- `( group, item, desiredvalue )` -/
structure Item where
  group : String
  item : String
  desiredvalue : String
deriving DecidableEq, Repr

/-- `/config.json` -/
structure Config where
  items : List Item
  boot : Option (List (List String))
  password : Option String

/-- `env` is none where there is no job, else the value of `bios-cfg_boot_count` as `int` reads it,
if it does. -/
structure State (σ : Type) where
  world : σ
  env : Option (Option Int)
  dirty : Bool := false

abbrev Boot (σ α : Type) := EStateM Int (State σ) α

variable {σ α : Type}

/-- Something outside; what it raises ends the program with 1. -/
def call (m : EStateM Unit σ α) : Boot σ α :=
  Effect.within State.world (fun s world => { s with world }) 1 m

/-- `values.keys()[ values.values().index( desiredvalue ) ]` -/
def keyOf (values : Assoc.Dict String String) (desiredvalue : String) : Option String :=
  (values.find? fun entry => entry.2 = desiredvalue).map (·.1)

/-- What may be tried again after the reboot that is due. -/
def tryAgain : Boot σ Unit := do
  if (← get).dirty then pure () else throw 1

/-- The boot is counted, and the count is checked. -/
def countBoot (platopxe : PlatoPXE σ) : Boot σ Unit := do
  match (← get).env with
  | none => pure ()
  | some value =>
    call platopxe.readEnv
    let count := value.getD 0
    if count > 5 then throw 1
    else
      call platopxe.writeEnv
      modify fun s => { s with env := some (some (count + 1)) }

namespace Tool

variable (cfg : Tool σ) (platopxe : PlatoPXE σ)

/-- The password of the configuration, or it is set where there is none yet. -/
def password : Option String → Boot σ Unit
  | none => pure ()
  | some password => do
    call (cfg.setPassword password)
    call (platopxe.postMessage "Checking Password...")
    if ← call cfg.checkPassword then pure ()
    else
      call (cfg.setPassword "")
      let _ ← call (cfg.changePassword password)
      if ← call cfg.checkPassword then pure () else throw 1

/-- `cfg.setValue`, with the value or its key. -/
def set (item : Item) (value : String) : Boot σ Unit := do
  if ← call (cfg.setValue item.group item.item value) then
    modify fun s => { s with dirty := true }
  else tryAgain

/-- A turn of `for item in config['items']`. -/
def checkItem (item : Item) : Boot σ Unit := do
  match ← call (cfg.getValue item.group item.item) with
  | (none, _) => tryAgain
  | (some curvalue, none) =>
    if curvalue ≠ item.desiredvalue then cfg.set item item.desiredvalue else pure ()
  | (some curvalue_key, some values) =>
    match keyOf values item.desiredvalue with
    | none => tryAgain
    | some desiredvalue_key =>
      if curvalue_key ≠ desiredvalue_key then
        -- the message has `values[ curvalue_key ]`
        if (values.lookup curvalue_key).isSome then cfg.set item desiredvalue_key else throw 1
      else pure ()

/-- The boot order. -/
def checkBoot (boot : List (List String)) : Boot σ Int := do
  call (platopxe.postMessage "Checking Boot Order...")
  let entries ← call cfg.getBoot
  if reprogrammed boot entries then
    if ← call (cfg.setBoot boot) then
      call (platopxe.postMessage "Boot Order Was Changed, Rebooting...")
      pure 20
    else throw 1
  else pure 0

/-- The program, with the tool of the board. -/
def run (config : Config) : Boot σ Int := do
  countBoot platopxe
  cfg.password platopxe config.password
  call (platopxe.postMessage "Checking BIOS Items...")
  config.items.forM cfg.checkItem
  if (← get).dirty then
    call (platopxe.postMessage "BIOS Item(s) Were Changed, Rebooting...")
    pure 20
  else
    match config.boot with
    | none => pure 0
    | some boot => if boot = [] then pure 0 else cfg.checkBoot platopxe boot

end Tool

section

variable (cfg : Option (Tool σ)) (platopxe : PlatoPXE σ) (config : Config)

/-- The program; a board without a tool needs a configuration that is empty. -/
def main : Boot σ Int := do
  call (platopxe.postMessage "Detecting Motherboard Type...")
  match cfg with
  | some cfg => cfg.run platopxe config
  | none =>
    if config.items ≠ [] then throw 1
    else
      match config.boot with
      | none => throw 1
      | some boot => if boot ≠ [] then throw 1 else pure 0

/-- The exit status of one boot, and what it leaves. -/
def boot (start : σ × Option (Option Int)) : Int × State σ :=
  match main cfg platopxe config { world := start.1, env := start.2 } with
  | .ok code s => (code, s)
  | .error code s => (code, s)

/-- One boot of the machine: the job keeps its environment. -/
def turn (reboot : σ → σ) :
    σ × Option (Option Int) →
      Option (Loop.Turn (σ × Option (Option Int)) (DoTask.Ending × State σ)) :=
  DoTask.turn (boot cfg platopxe config) fun s => (reboot s.world, s.env)

end

end BiosCfg
