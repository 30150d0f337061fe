import Disks.Lib.Assoc
import Disks.Lib.Effect
import Disks.Lib.Lines

/-!
# The commands of an installation (`linux-installer/root/installer/procutils.py`)

The two environments of the module, the functions that run commands, and `preBaseSetup` of
`packaging.py`, which configures one of the environments. `world` says how a process ends, from the
processes before it: `none` where it cannot be started or talked to, else its return code and its
output.
-/

namespace Installer

abbrev Text := List Char

abbrev Env := Assoc.Dict Text Text

inductive Via
  | execute
  | executeLines
  | chrootExecute
  | chrootExecuteLines
deriving DecidableEq

def Via.chroot : Via → Bool
  | .execute | .executeLines => false
  | .chrootExecute | .chrootExecuteLines => true

/-- What a process is started with, and the function it was started for. -/
structure Process where
  via : Via
  cmd : Text
  stdin : Text
  env : Env
deriving DecidableEq

/-- The globals of the module, and the processes that were started. -/
structure Procutils where
  global_env : Env
  chroot_env : Env
  chroot_path : Text := "None".toList
  started : List Process := []
deriving DecidableEq

inductive ExecError
  | whileExecuting (cmd : Text)
  | executing (cmd : Text)
  | retriesExceded (cmd : Text)
  | noOption (option : Text)
  | template
  | valueError
deriving DecidableEq

abbrev World := List Process → Process → Option (Int × Text)

abbrev Exec := EStateM ExecError Procutils

/-! ## The module is loaded -/

def DEBIAN_PRIORITY : Text := "DEBIAN_PRIORITY".toList

def DEBIAN_FRONTEND : Text := "DEBIAN_FRONTEND".toList

/-- `( 'http_proxy', 'https_proxy' )` -/
def proxies : List Text := ["http_proxy".toList, "https_proxy".toList]

/-- `global_env`, which is `os.environ` itself. -/
def globalEnv (environ : Env) : Env :=
  Assoc.set (Assoc.set environ DEBIAN_PRIORITY "critical".toList) DEBIAN_FRONTEND
    "noninteractive".toList

/-- The globals of the module once it is loaded by a process with this environment. -/
def load (environ : Env) : Procutils where
  global_env := globalEnv environ
  chroot_env := (globalEnv environ).filter fun item => ¬ proxies.contains item.1

def setChroot (path : Text) : Exec Unit := modify fun s => { s with chroot_path := path }

/-! ## `_execute` -/

variable (world : World)

/-- `subprocess.Popen( .. )` and `proc.communicate( .. )` -/
def popen (p : Process) : Exec (Option (Int × Text)) :=
  fun s => .ok (world s.started p) { s with started := s.started ++ [p] }

def EXEC_RETRY_COUNT : Nat := 10

/-- The loop of `_execute`, with `retry` more tries; what it comes back with is the output. -/
def tries (p : Process) (retry_rc_list : Option (List Int)) : Nat → Exec Text
  | 0 => throw (.retriesExceded p.cmd)
  | retry + 1 => do
    match ← popen world p with
    | none => throw (.whileExecuting p.cmd)
    | some (returncode, output) =>
      if returncode = 0 then pure output
      else
        match retry_rc_list with
        | none => throw (.executing p.cmd)
        | some rcs =>
          if rcs.contains returncode then tries p (some rcs) retry else throw (.executing p.cmd)

def _execute (p : Process) (retry_rc_list : Option (List Int)) : Exec Text :=
  tries world p retry_rc_list EXEC_RETRY_COUNT

def execute (cmd stdin : Text) (retry_rc_list : Option (List Int)) : Exec Unit := do
  let s ← get
  let _ ← _execute world ⟨.execute, cmd, stdin, s.global_env⟩ retry_rc_list

def executeLines (cmd stdin : Text) (retry_rc_list : Option (List Int)) : Exec (List Text) := do
  let s ← get
  let stdout ← _execute world ⟨.executeLines, cmd, stdin, s.global_env⟩ retry_rc_list
  pure (Lines.splitlines stdout)

/-- `'/sbin/chroot {0} {1}'.format( chroot_path, cmd )` -/
def chrootCmd (chroot_path cmd : Text) : Text :=
  "/sbin/chroot ".toList ++ chroot_path ++ ' ' :: cmd

def chrootExecute (cmd stdin : Text) (retry_rc_list : Option (List Int)) : Exec Unit := do
  let s ← get
  let p := ⟨.chrootExecute, chrootCmd s.chroot_path cmd, stdin, s.global_env⟩
  let _ ← _execute world p retry_rc_list

def chrootExecuteLines (cmd stdin : Text) (retry_rc_list : Option (List Int)) :
    Exec (List Text) := do
  let s ← get
  let p := ⟨.chrootExecuteLines, chrootCmd s.chroot_path cmd, stdin, s.global_env⟩
  let stdout ← _execute world p retry_rc_list
  pure (Lines.splitlines stdout)

/-! ## `preBaseSetup` -/

/-- `profile.items( 'packaging' )` -/
abbrev Packaging := Assoc.Dict Text Text

/-- `( name, value ) = text.split( ':', 1 )` -/
def nameValue (text : Text) : Option (Text × Text) :=
  match text.dropWhile (· ≠ ':') with
  | [] => none
  | _ :: value => some (text.takeWhile (· ≠ ':'), value)

/-- A turn of the loop over the items `install_env_var_..`. -/
def installEnvVar (item : Text × Text) : Exec Unit :=
  if "install_env_var_".toList.isPrefixOf item.1 then
    match nameValue item.2 with
    | none => throw .valueError
    | some (name, value) =>
      modify fun s => { s with chroot_env := Assoc.set s.chroot_env name value }
  else pure ()

def debconfSetSelections (selection : Text) : Exec Unit :=
  chrootExecute world "/usr/bin/debconf-set-selections".toList selection none

/-- A turn of the loop over the items `selection_..`. -/
def profileSelection (item : Text × Text) : Exec Unit :=
  if "selection_".toList.isPrefixOf item.1 then debconfSetSelections world item.2 else pure ()

/-- A turn of the loop over the items `prebase_cmd_..`. -/
def prebaseCmd (item : Text × Text) : Exec Unit :=
  if "prebase_cmd_".toList.isPrefixOf item.1 then chrootExecute world item.2 [] none else pure ()

/-- What is done for `apt` only; `debconf_selection_list` is that of the `value_map`, if it has
one. -/
def selections (profile : Packaging) (manager_type : Text)
    (debconf_selection_list : Option (List Text)) : Exec Unit :=
  if manager_type = "apt".toList then do
    profile.forM (profileSelection world)
    (debconf_selection_list.getD []).forM (debconfSetSelections world)
  else pure ()

/-- `renderTemplates( profile.get( 'packaging', 'prebase_templates' ).split( ',' ) )`, and whether
the templates could be rendered. -/
def prebaseTemplates (profile : Packaging) (rendered : Bool) : Exec Unit :=
  if (profile.lookup "prebase_templates".toList).isNone then
    throw (.noOption "prebase_templates".toList)
  else if rendered then pure ()
  else throw .template

def preBaseSetup (profile : Packaging) (manager_type : Text) (rendered : Bool)
    (debconf_selection_list : Option (List Text)) : Exec Unit := do
  prebaseTemplates profile rendered
  profile.forM installEnvVar
  selections world profile manager_type debconf_selection_list
  profile.forM (prebaseCmd world)

/-! ## Runs -/

/-- What an installer does to the processes and the environments. -/
inductive Step
  | call (via : Via) (cmd stdin : Text) (retry_rc_list : Option (List Int))
  | setChroot (path : Text)
  | preBaseSetup (manager_type : Text) (rendered : Bool)
      (debconf_selection_list : Option (List Text))
deriving DecidableEq

def Step.exec (profile : Packaging) : Step → Exec Unit
  | .call .execute cmd stdin rcs => execute world cmd stdin rcs
  | .call .executeLines cmd stdin rcs => discard (executeLines world cmd stdin rcs)
  | .call .chrootExecute cmd stdin rcs => chrootExecute world cmd stdin rcs
  | .call .chrootExecuteLines cmd stdin rcs => discard (chrootExecuteLines world cmd stdin rcs)
  | .setChroot path => Installer.setChroot path
  | .preBaseSetup manager_type rendered debconf_selection_list =>
    Installer.preBaseSetup world profile manager_type rendered debconf_selection_list

/-- The steps of an installer, until one raises. -/
def install (profile : Packaging) (steps : List Step) : Exec Unit :=
  steps.forM (Step.exec world profile)

/-- The processes that are started after a step, once it has come back. -/
def startedAfter (environ : Env) (profile : Packaging) (before : List Step) (step : Step)
    (after : List Step) : List Process :=
  match install world profile (before ++ [step]) (load environ) with
  | .error _ _ => []
  | .ok _ s => (Effect.final (install world profile after s)).started.drop s.started.length

end Installer
