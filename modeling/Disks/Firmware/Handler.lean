import Disks.Lib.Lines
import Mathlib.Logic.Function.Iterate

/-!
# Capture of an updater's output (`firmware/root/firmware/handler.py`)

`Handler._execute`, one operation of the handler (a poll of the process, or a read of a pipe that
does not block) after the other. What the child process does in between is its schedule: what it
writes before each operation. It ends after the last one of these. The program's name, the time
stamps of the log and the sleep after an error are left out.
-/

namespace Firmware

inductive Stream
  | stdout
  | stderr
deriving DecidableEq, Repr

/-- `string.printable`, in brackets, where the backslash only escapes the bracket behind it. -/
def isPrintable (b : UInt8) : Bool :=
  (9 ≤ b && b ≤ 13 || 32 ≤ b && b ≤ 126) && b != 92

/-- `printable.sub( b'', tmp ).decode()` -/
def filtered (tmp : List UInt8) : List Char :=
  (tmp.filter isPrintable).map fun b => Char.ofNat b.toNat

/-! ## The child process -/

structure Chunk where
  stream : Stream
  bytes : List UInt8

structure Child where
  /-- What it writes before each operation of the handler. -/
  turns : List (List Chunk)
  returncode : Int
  /-- The operations of the handler that raise `IOError`. -/
  ioerror : Nat → Bool := fun _ => false

/-- What these chunks put on a stream. -/
def output (chunks : List Chunk) (stream : Stream) : List UInt8 :=
  (chunks.filter (·.stream = stream)).flatMap (·.bytes)

/-- All that the child writes on a stream. -/
def Child.written (child : Child) (stream : Stream) : List UInt8 :=
  output child.turns.flatten stream

/-! ## The handler -/

/-- Before and after `proc.poll()` has told the end. -/
inductive Phase
  | running
  | ended
deriving DecidableEq, Repr

/-- Where the handler is: before a poll, before the first read of a stream, or before the read at
the end of the loop over it. -/
inductive Position
  | poll
  | first (stream : Stream) (phase : Phase)
  | again (stream : Stream) (phase : Phase)
  | returned
  | raised
deriving DecidableEq, Repr

/-- What is written to the log: the header of a stream, or what was read. -/
inductive Record
  | header (stream : Stream)
  | data (text : List Char)
deriving DecidableEq, Repr

structure State where
  position : Position := .poll
  turns : List (List Chunk)
  pipe : Stream → List UInt8 := fun _ => []
  operations : Nat := 0
  log : List Record := []
  return_lines : List Char := []

def Child.start (child : Child) : State := { turns := child.turns }

/-- The child's turn. -/
def State.advance (s : State) : State :=
  { s with
    turns := s.turns.tail
    pipe := fun stream => s.pipe stream ++ output (s.turns.headD []) stream
    operations := s.operations + 1 }

/-- `read()`: all that is in the pipe. Nothing is `None` or the end of the file. -/
def State.read (s : State) (stream : Stream) : List UInt8 × State :=
  (s.pipe stream, { s with pipe := Function.update s.pipe stream [] })

/-- Behind the loop over a stream. -/
def afterLoop : Stream → Phase → Position
  | .stdout, phase => .first .stderr phase
  | .stderr, .running => .poll
  | .stderr, .ended => .returned

/-- The body of the loop over a stream, up to its read. -/
def State.keep (s : State) (stream : Stream) (phase : Phase) (tmp : List UInt8) : State :=
  { s with
    position := .again stream phase
    log := s.log ++ [Record.data (filtered tmp)]
    return_lines :=
      if stream = .stdout then (s.return_lines ++ filtered tmp).rtake 5000 else s.return_lines }

/-- One operation, after the child's turn. -/
def State.operation (ioerror : Bool) (s : State) : State :=
  match s.position with
  | .poll => { s with position := .first .stdout (if s.turns = [] then .ended else .running) }
  | .first stream phase =>
    if ioerror then
      match phase with
      | .running => { s with position := .poll }
      | .ended => { s with position := afterLoop stream .ended }
    else
      let (tmp, s) := s.read stream
      if tmp = [] then { s with position := afterLoop stream phase }
      else { s with log := s.log ++ [Record.header stream] }.keep stream phase tmp
  | .again stream phase =>
    if ioerror then { s with position := .raised }
    else
      -- both loops read `proc.stdout` here
      let (tmp, s) := s.read .stdout
      if tmp = [] then { s with position := afterLoop stream phase }
      else s.keep stream phase tmp
  | .returned | .raised => s

def State.Finished (s : State) : Prop := s.position = .returned ∨ s.position = .raised

instance (s : State) : Decidable s.Finished := inferInstanceAs (Decidable (_ ∨ _))

def Child.step (child : Child) (s : State) : State :=
  if s.Finished then s else s.advance.operation (child.ioerror s.operations)

/-- The handler after this many operations. -/
def Child.run (child : Child) (operations : Nat) : State := child.step^[operations] child.start

/-- `( proc.returncode, return_lines.splitlines() )` -/
def Child.result (child : Child) (s : State) : Option (Int × List (List Char)) :=
  if s.position = .returned then some (child.returncode, Lines.splitlines s.return_lines) else none

end Firmware
