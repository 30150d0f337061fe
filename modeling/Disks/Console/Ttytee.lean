import Mathlib.Logic.Function.Basic
import Disks.Lib.Actions
import Disks.Lib.Bytes

/-!
# One tty for several (`ttytee.c`)

What is written to a new tty is given to every tty of a list, and what is typed at one of those is
typed at the new one. `main` sets up the ttys; `step` is its loop, next to what happens around it:
bytes that arrive at the ttys, and signals. The bytes of a tty are those its line discipline gives.
-/

namespace Ttytee

open Bytes (Byte)

/-! ## The start -/

inductive FileType
  | S_IFREG
  | S_IFCHR
  | other
deriving DecidableEq, Repr

/-- What `stat` finds, or its error. -/
inductive Stat
  | file (type : FileType)
  | ENOENT
  | error
deriving DecidableEq, Repr

/-- What the calls on a tty come to. -/
structure Tty where
  stat : Stat
  /-- The `open` of `check_create_tty`. -/
  opens : Bool
  /-- The `open` of `open_tty`. -/
  fd : Option Nat
  isatty : Bool
  tcgetattr : Bool
  tcsetattr : Bool
  F_GETFL : Bool
  F_SETFL : Bool
  fstat : Option FileType
  epoll_ctl : Bool

/-- `strncmp( filename, "-", 1 ) == 0` -/
def isFlag (filename : String) : Bool := "-".isPrefixOf filename

def checkCreateTty (filename : String) (tty : Tty) : Bool :=
  if isFlag filename then true
  else
    match tty.stat with
    | .ENOENT => tty.opens
    | .error => false
    | .file .other => false
    | .file .S_IFREG | .file .S_IFCHR => tty.opens

def openTty (filename : String) (tty : Tty) : Option Nat :=
  if isFlag filename then some 1
  else
    match tty.fd with
    | none => none
    | some fd =>
      if tty.isatty then if tty.tcgetattr && tty.tcsetattr then some fd else none
      else if tty.F_GETFL && tty.F_SETFL then some fd
      else none

/-- What is at the name of the new tty: nothing, a link to nothing, a file, or the link that this
process has made. -/
inductive Link
  | absent
  | dangling
  | file
  | ours
deriving DecidableEq, Repr

/-- What the other calls before the loop come to. -/
structure Calls where
  daemonize : Bool
  malloc : Bool
  ptmx : Tty
  ptsname : Bool
  grantpt : Bool
  unlockpt : Bool
  symlink : Bool
  chmod : Bool
  epoll_create : Bool
  epoll_ctl : Bool
  /-- By the index in `tty_names`. -/
  ttys : Nat → Tty

/-- The ttys of the loop: how many, and those that are polled. -/
structure Tee where
  tty_count : Nat
  polled : List Nat
deriving DecidableEq, Repr

/-- The exit status of a start that has failed, and what it leaves at the name. -/
abbrev Failed := Int × Link

/-- `for( i = 1; i < tty_count; i++ )`, where the ttys are opened. -/
def openTtys (calls : Calls) : Nat → List String → List Nat → Except Failed (List Nat)
  | _, [], polled => .ok polled
  | i, filename :: rest, polled =>
    match openTty filename (calls.ttys i) with
    | none => .error (1, .absent)
    | some _ =>
      match (calls.ttys i).fstat with
      -- the only way out that does not go to error
      | none => .error (-1, .ours)
      | some .S_IFCHR =>
        if (calls.ttys i).epoll_ctl then openTtys calls (i + 1) rest (polled ++ [i])
        else .error (1, .absent)
      | some _ => openTtys calls (i + 1) rest polled

/-- From the link to the loop; `error:` unlinks it. -/
def setUp (calls : Calls) (tty_names : List String) : Except Failed Tee :=
  if calls.chmod && calls.epoll_create && calls.epoll_ctl then
    (openTtys calls 1 tty_names.tail [0]).map fun polled => ⟨tty_names.length, polled⟩
  else .error (1, .absent)

/-- From the check of the name to the loop; without a name nothing can be linked. -/
def start (calls : Calls) (tty_names : List String) (link : Link) : Except Failed Tee :=
  if link = .file then .error (1, .file)
  else if !calls.malloc then .error (1, .absent)
  else if (openTty "/dev/ptmx" calls.ptmx).isNone then .error (1, link)
  else if !(calls.ptsname && calls.grantpt && calls.unlockpt) then .error (1, link)
  else if !(link = .absent && calls.symlink && !tty_names.isEmpty) then .error (1, link)
  else setUp calls tty_names

/-- `strncmp( argv[1], "-d", 2 ) == 0`; `argv` is without the name of the program. -/
def hasFlag (argv : List String) : Bool := argv.head?.any fun first => "-d".isPrefixOf first

def ttyNames (argv : List String) : List String := if hasFlag argv then argv.tail else argv

/-- `for( i = 1; i < tty_count; i++ ) check_create_tty( tty_names[i] )` -/
def checkTtys (calls : Calls) (tty_names : List String) : Bool :=
  (List.range tty_names.length).tail.all fun i =>
    checkCreateTty (tty_names.getD i "") (calls.ttys i)

/-- `main`, up to the loop. -/
def main (calls : Calls) (argv : List String) (link : Link) : Except Failed Tee :=
  if argv.isEmpty then .error (1, link)
  else if !checkTtys calls (ttyNames argv) then .error (1, link)
  else if hasFlag argv && !calls.daemonize then .error (1, link)
  else start calls (ttyNames argv) link

/-! ## The loop -/

def sizeofWrkBuff : Nat := 512

/-- `struct epoll_event` -/
structure Event where
  u32 : Nat
  EPOLLIN : Bool
  EPOLLERR : Bool
  EPOLLHUP : Bool
deriving DecidableEq, Repr

/-- What is written to `stderr`. -/
inductive Message
  | epoll (errno : Int)
  | polling (i : Nat)
  | writing (j : Nat)
deriving DecidableEq, Repr

def Message.text (tty_names : List String) : Message → String
  | .epoll errno => "Error with epoll, errno: " ++ toString errno ++ "\n"
  | .polling 0 => "Error polling source\n"
  | .polling i => "Error polling '" ++ tty_names.getD i "" ++ "'\n"
  | .writing 0 => "Error writting all data to source\n"
  | .writing j => "Error writting all data to '" ++ tty_names.getD j "" ++ "'\n"

/-- Where the loop is: events of the last wait are left to be handled (none: at `while( cont )`),
it waits, or the process has ended. -/
inductive Phase
  | handling (rest : List Event)
  | waiting
  | exited (status : Int)
deriving DecidableEq, Repr

/-- The process, and its ttys by their index: the new one is 0. -/
structure State where
  /-- All bytes that have come to a tty. -/
  arrived : Nat → List Byte
  /-- Those of them that are not read. -/
  unread : Nat → List Byte
  /-- What a tty has taken. -/
  taken : Nat → List Byte
  cont : Bool
  phase : Phase
  link : Link
  stderr : List Message

/-- In front of the loop, with what has come to the ttys by then. -/
def State.init (arrived : Nat → List Byte) : State where
  arrived := arrived
  unread := arrived
  taken := fun _ => []
  cont := true
  phase := .handling []
  link := .ours
  stderr := []

/-- `write( ttys[j], wrk_buff, byte_count ) != byte_count`, where the tty takes `accepts j` bytes
at most; none where it fails. -/
def writeTo (accepts : Nat → Nat) (wrk_buff : List Byte) (s : State) (j : Nat) : State :=
  let written := wrk_buff.take (accepts j)
  let s := { s with taken := Function.update s.taken j (s.taken j ++ written) }
  if written.length ≠ wrk_buff.length then
    { s with cont := false, stderr := s.stderr ++ [.writing j] }
  else s

/-- What was read from one tty is written to the others, or to the new one. -/
def forward (tty_count i : Nat) (wrk_buff : List Byte) (accepts : Nat → Nat) (s : State) : State :=
  if i = 0 then (List.range tty_count).tail.foldl (writeTo accepts wrk_buff) s
  else writeTo accepts wrk_buff s 0

/-- One turn over the events. The `read` gives `given` bytes at most; none where it fails. -/
def handle (tty_count : Nat) (e : Event) (given : Nat) (accepts : Nat → Nat) (s : State) : State :=
  if e.EPOLLERR || e.EPOLLHUP then
    { s with cont := false, stderr := s.stderr ++ [.polling e.u32] }
  else if e.EPOLLIN then
    let wrk_buff := (s.unread e.u32).take (min given sizeofWrkBuff)
    if wrk_buff.length < 1 then s
    else
      forward tty_count e.u32 wrk_buff accepts
        { s with
          unread := Function.update s.unread e.u32
            ((s.unread e.u32).drop wrk_buff.length) }
  else s

/-- What happens: bytes come to a tty, a signal is handled, or the loop goes on. -/
inductive Action
  | arrive (i : Nat) (bytes : List Byte)
  | signal
  | loop
  | epoll_wait (result : Except Int (List Event))
  | handle (given : Nat) (accepts : Nat → Nat)

/-- An event for each of the polled ttys at most. -/
def Tee.gives (t : Tee) (events : List Event) : Bool :=
  (events.map Event.u32).Nodup && events.all fun e => t.polled.contains e.u32

def step (t : Tee) (s : State) : Action → Option State
  | .arrive i bytes => some { s with
      arrived := Function.update s.arrived i (s.arrived i ++ bytes)
      unread := Function.update s.unread i (s.unread i ++ bytes) }
  | .signal =>
    match s.phase with
    | .exited _ => none
    | _ => some { s with cont := false }
  | .loop =>
    match s.phase with
    | .handling [] =>
      if s.cont then some { s with phase := .waiting }
      else some { s with phase := .exited 0, link := .absent }
    | _ => none
  | .epoll_wait (.error errno) =>
    match s.phase with
    | .waiting => some { s with
        phase := .exited 1, link := .absent, stderr := s.stderr ++ [.epoll errno] }
    | _ => none
  | .epoll_wait (.ok events) =>
    match s.phase with
    | .waiting => if t.gives events then some { s with phase := .handling events } else none
    | _ => none
  | .handle given accepts =>
    match s.phase with
    | .handling (e :: rest) =>
      some { handle t.tty_count e given accepts s with phase := .handling rest }
    | _ => none

/-- From the start of the loop, with what has come to the ttys by then. -/
def Tee.run (t : Tee) (arrived : Nat → List Byte) (acts : List Action) : Option State :=
  Actions.run (step t) (State.init arrived) acts

end Ttytee
