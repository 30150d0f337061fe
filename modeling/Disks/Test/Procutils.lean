import Disks.Lib.Effect
import Disks.Test.Evaluator

/-!
# Commands on the drives of a test (`disk-test/root/pylib/procutils.py`)

A command is run on each drive of the working list, on one after the other or on all of them at the
same time, and a drive that it fails on is found bad. Processes end when they like; the clock goes
on in the sleeps, which may last longer than they were to. The log files are left out.
-/

namespace DriveTest

open DiskTest
open Manager (Text Name)

def POLL_DELAY : Nat := 60
def MID_DRIVE_DELAY : Nat := 2
def TERMINATE_DELAY : Nat := 10

/-! ## Commands -/

/-- A piece of a command with `%( .. )s` in it. -/
inductive Piece
  | text (t : String)
  | block_name
  | block_path
  | libdrive_name
deriving DecidableEq, Repr

abbrev Command := List Piece

/-- `'%s' % value`, of a value that may be `None`. -/
def showText (value : Option Text) : Text := value.getD "None".toList

def Piece.format (drive : TestDrive) : Piece → Text
  | .text t => t.toList
  | .block_name => showText (drive.block_name.map (·.text))
  | .block_path => showText drive.block_path
  | .libdrive_name => drive.drive.libdrive_name

/-- `cmd % { .. }` -/
def Command.format (cmd : Command) (drive : TestDrive) : Text := cmd.flatMap (Piece.format drive)

/-- `'%(block_name)' in cmd or '%(block_path)' in cmd` -/
def Command.needsBlock (cmd : Command) : Bool :=
  cmd.contains .block_name || cmd.contains .block_path

/-- The drives that the loop over the working list does not pass over. -/
def selected (cmd : Command) : List TestDrive → List (Option Name) → List TestDrive
  | [], _ => []
  | drive :: rest, block_list =>
    if drive.block_name.isNone && cmd.needsBlock then selected cmd rest block_list
    else if drive.block_name.isSome && block_list.contains drive.block_name then
      selected cmd rest block_list
    else drive :: selected cmd rest (block_list ++ [drive.block_name])

/-! ## What is written -/

/-- A class of all of `string.printable`, where the backslash escapes the bracket behind it. -/
def isPrintable (c : Char) : Bool := isspace c || (32 < c.toNat && c.toNat < 127 && c != '\\')

/-- `printable.sub( '', text )` -/
def printable (text : Text) : Text := text.filter isPrintable

/-- `text[-n:]` -/
def lastChars (n : Nat) (text : Text) : Text := text.drop (text.length - n)

/-- `text[ text.rfind( '\n' ): ].strip()`, where a text without a newline has its last character
only. -/
def lastLine (text : Text) : Text :=
  strip (if text.contains '\n' then (text.reverse.takeWhile (· ≠ '\n')).reverse
    else lastChars 1 text)

/-- `'"%s" failed. rc: %d, out: "%s", err: "%s"'` -/
def failed (cmd : Text) (rc : Int) (out err : Text) : String :=
  "\"" ++ String.ofList cmd ++ "\" failed. rc: " ++ toString rc ++
    ", out: \"" ++ String.ofList out ++
    "\", err: \"" ++ String.ofList err ++ "\""

def notInTime (cmd : Text) : String := "\"" ++ String.ofList cmd ++ "\" did not complete in time"

/-! ## What the program runs on -/

/-- A process: its return code, by the time, and all that it has written by then. -/
structure Process where
  poll : Nat → Option Int
  stdout : Nat → Text
  stderr : Nat → Text
  /-- The return code at a time, when it was told to terminate at an earlier one. -/
  terminated : Nat → Nat → Option Int
  /-- A return code stays. -/
  lasting : ∀ t u rc, t ≤ u → poll t = some rc → poll u = some rc

structure Output where
  rc : Int
  stdout : Text
  stderr : Text

/-- The evaluator and what is outside; `fuel` is how often a loop turns before it is given up. -/
structure Host (σ : Type) extends Evaluator σ where
  /-- `subprocess.Popen`, of a command that is split. -/
  Popen : Text → EStateM Unit σ Process
  /-- The same, and `communicate( stdin )`. -/
  communicate : Text → Option Text → EStateM Unit σ Output
  setFault : TestDrive → EStateM Unit σ Unit
  postMessage : String → EStateM Unit σ Unit
  /-- The write of a message to the last sector of a device. -/
  writeStatus : Text → Text → EStateM String σ Unit
  readline : EStateM Unit σ Text
  gmtime : Nat → Text
  /-- How much longer than it is to a sleep lasts. -/
  late : Nat → Nat
  fuel : Nat

/-- What can be seen of a test. -/
inductive Event
  | started (drive : TestDrive) (cmd : Command)
  | returned (drive : TestDrive) (cmd : Command) (rc : Int)
  | terminated (drive : TestDrive) (cmd : Command)
  | killed (drive : TestDrive) (cmd : Command)
  | pruned (drive : TestDrive) (reason : String) (skip : Bool)
  | saved (drive : TestDrive) (pass : Bool)
  /-- `dd` is started on a drive, for its light, or told to terminate. -/
  | lit (drive : TestDrive)
  | dark (drive : TestDrive)
  | thrashed (drive : TestDrive)
  | stored (drive : TestDrive)

structure State (σ : Type) where
  manager : DriveManager
  world : σ
  /-- Seconds. -/
  clock : Nat := 0
  trace : List Event := []

/-- How a test ends that does not come to its end: with an exit status, or in a loop. -/
inductive Halt
  | exit (code : Int)
  | waiting
deriving DecidableEq, Repr

abbrev Test (σ α : Type) := EStateM Halt (State σ) α

variable {σ α : Type}

/-- Something outside; what it raises ends the program with 1. -/
def call (m : EStateM Unit σ α) : Test σ α :=
  Effect.within State.world (fun s world => { s with world }) (.exit 1) m

def note (event : Event) : Test σ Unit := modify fun s => { s with trace := s.trace ++ [event] }

/-- `if condition: m` -/
def whenever (condition : Bool) (m : Test σ Unit) : Test σ Unit :=
  if condition then m else pure ()

namespace Host

variable (host : Host σ)

/-- `time.sleep( delay )` -/
def sleep (delay : Nat) : Test σ Unit :=
  modify fun s => { s with clock := s.clock + delay + host.late s.clock }

/-- `DriveManager.prune`, with the fault light and the callback. -/
def prune (drive : TestDrive) (reason : String) (report skip : Bool) : Test σ Unit := do
  modify fun s =>
    { s with
      manager := s.manager.prune drive reason report skip
      trace := s.trace ++ [.pruned drive reason skip] }
  whenever (!skip) (call (host.setFault drive))
  whenever (!skip && report) (call (host.reportFail drive reason))

/-! ## One drive after the other -/

/-- A turn of the loop of `runOnEachDrive`. -/
def runOn (cmd : Command) (stdin : Option Text) (drive : TestDrive) : Test σ Unit := do
  note (.started drive cmd)
  let out ← call (host.communicate (cmd.format drive) stdin)
  note (.returned drive cmd out.rc)
  whenever (out.rc ≠ 0) (host.prune drive (failed (cmd.format drive) out.rc
    (lastChars 60 (printable (strip out.stdout))) (lastChars 60 (printable (strip out.stderr))))
    true false)

def runOnEachDrive (cmd : Command) (stdin : Option Text) : Test σ Unit := do
  (selected cmd (← get).manager.working_list []).forM (host.runOn cmd stdin)

/-! ## All drives at the same time -/

/-- `drive_list`, `cmd_list` and `proc_list`. -/
structure Job where
  drive : TestDrive
  cmd : Command
  proc : Process

/-- The processes are started. -/
def startAll (cmd : Command) : List TestDrive → Test σ (List Job)
  | [] => pure []
  | drive :: rest => do
    note (.started drive cmd)
    let proc ← call (host.Popen (cmd.format drive))
    host.sleep MID_DRIVE_DELAY
    let jobs ← startAll cmd rest
    pure (⟨drive, cmd, proc⟩ :: jobs)

/-- The loop until all have ended, or until a time. -/
def waitFor (endTime : Option Nat) (jobs : List Job) : Nat → Test σ Unit
  | 0 => throw .waiting
  | fuel + 1 => do
    if endTime.any (· ≤ (← get).clock) then pure ()
    else
      host.sleep POLL_DELAY
      let now := (← get).clock
      if jobs.all fun job => (job.proc.poll now).isSome then pure () else waitFor endTime jobs fuel

/-- What happens to a process that has not ended. -/
def stop (job : Job) (now : Nat) : Test σ Unit := do
  host.prune job.drive (notInTime (job.cmd.format job.drive)) true false
  note (.terminated job.drive job.cmd)
  host.sleep TERMINATE_DELAY
  match job.proc.terminated now (← get).clock with
  | none => note (.killed job.drive job.cmd)
  | some rc => note (.returned job.drive job.cmd rc)

/-- A turn of the loop over the results, at a time. -/
def checkResult (job : Job) (now : Nat) : Test σ Unit :=
  match job.proc.poll now with
  | none => host.stop job now
  | some rc => do
    note (.returned job.drive job.cmd rc)
    whenever (rc ≠ 0) (host.prune job.drive (failed (job.cmd.format job.drive) rc
      (lastChars 60 (strip (lastChars 100 (printable (job.proc.stdout now)))))
      (lastChars 60 (strip (lastChars 100 (printable (job.proc.stderr now)))))) true false)

/-- The loop over the results; the last lines that were written. -/
def checkResults : List Job → Test σ (List (TestDrive × Text))
  | [] => pure []
  | job :: rest => do
    let now := (← get).clock
    host.checkResult job now
    let lastline_list ← checkResults rest
    pure ((job.drive, lastLine (strip (lastChars 100 (printable (job.proc.stdout now))))) ::
      lastline_list)

def runOnEachDriveWait (cmd : Command) (maxTime : Int) : Test σ (List (TestDrive × Text)) := do
  let working_list := (← get).manager.working_list
  if working_list.isEmpty then pure []
  else
    let jobs ← host.startAll cmd (selected cmd working_list [])
    let startTime := (← get).clock
    host.waitFor (if maxTime > 0 then some (startTime + maxTime.toNat * 60) else none) jobs
      host.fuel
    host.checkResults jobs

end Host

end DriveTest
