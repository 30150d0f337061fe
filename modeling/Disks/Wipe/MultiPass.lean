import Disks.Lib.Background
import Disks.Manager.DriveManager

/-!
# The passes of a wipe (`disk-wipe/root/multi_pass`)

Four loops over the arguments, each of which starts a command in the background for a drive and then
waits for all of them.

* `zerosPass`, `patternPass`, `onesPass`, `lastPass`: what a turn of each loop starts.
* `multi_pass`: the script.
-/

namespace Wipe

open Background
open Manager (Text dev)

/-- The commands that are started. -/
inductive Command
  /-- `wipedrive -q --value <value> <device>`; without `--value` the value is 0. -/
  | wipedrive (value : Nat) (device : Text)
  /-- `wipedrive -q -r <device>` -/
  | trim (device : Text)
  /-- `dd of=<device>` of one value over and over: `/dev/zero`, or what `tr` makes of it. -/
  | dd (value : Nat) (device : Text)
deriving DecidableEq

/-- The variables of the script. -/
structure Vars where
  item : Text := []
  drive : Text := []
  proc : Text := []

def isBlank (c : Char) : Bool := c = ' ' ∨ c = '\t' ∨ c = '\n'

/-- The words of `$@`. -/
def words (args : List Text) : List Text :=
  args.flatMap fun arg => (arg.splitOnP isBlank).filter (!·.isEmpty)

/-- `cut -d ':' -f <n>`: a line without the delimiter is printed as a whole. -/
def cutField (n : Nat) (line : Text) : Text :=
  let fields := line.splitOn ':'
  if fields.length = 1 then line else fields.getD (n - 1) []

/-- `for item in $@` and `for drive in $@` -/
def setItem (vars : Vars) (word : Text) : Vars := { vars with item := word }

def setDrive (vars : Vars) (word : Text) : Vars := { vars with drive := word }

/-- The two fields of `$item`. -/
def fields (vars : Vars) : Vars :=
  { vars with drive := cutField 1 vars.item, proc := cutField 2 vars.item }

/-- A loop: the commands that it starts, and the variables behind it. -/
def forLoop (assign : Vars → Text → Vars) (command : Vars → Option Command) (vars : Vars) :
    List Text → List Command × Vars
  | [] => ([], vars)
  | word :: rest =>
    let vars := fields (assign vars word)
    let later := forLoop assign command vars rest
    ((command vars).toList ++ later.1, later.2)

/-! ## The four loops -/

def zerosPass (vars : Vars) : Option Command :=
  if vars.proc = "wipedrive".toList then some (.wipedrive 0 (dev vars.drive))
  else if vars.proc = "trim".toList then some (.trim (dev vars.drive))
  else some (.dd 0 (dev vars.drive))

def patternPass (vars : Vars) : Option Command :=
  if vars.proc = "wipedrive".toList then some (.wipedrive 175 (dev vars.drive))
  else if vars.proc = "trim".toList then none
  else some (.dd 0o257 (dev vars.drive))

def onesPass (vars : Vars) : Option Command :=
  if vars.proc = "wipedrive".toList then some (.wipedrive 255 (dev vars.drive))
  else if vars.proc = "trim".toList then none
  else some (.dd 0o377 (dev vars.drive))

/-- Here `wipedrive` is given the name of the drive without `/dev/`. -/
def lastPass (vars : Vars) : Option Command :=
  if vars.proc = "wipedrive".toList then some (.wipedrive 0 vars.drive)
  else if vars.proc = "trim".toList then none
  else some (.dd 0 (dev vars.drive))

/-- The four passes, with the message that each begins with. -/
def phases (args : List Text) : List (String × List Command) :=
  let zeros := forLoop setItem zerosPass {} (words args)
  let pattern := forLoop setItem patternPass zeros.2 (words args)
  let ones := forLoop setItem onesPass pattern.2 (words args)
  -- the last loop sets `drive` to the word, and leaves `item` as the loop before it did
  let last := forLoop setDrive lastPass ones.2 (words args)
  [("Wiping With Zeros", zeros.1), ("Wiping With Pattern", pattern.1),
    ("Wiping With Ones", ones.1), ("Wiping With Zeros", last.1)]

def multiPass (args : List Text) : List (Instr String Command) := body (phases args)

/-- `exit 0`, whatever the jobs came to. -/
def exitStatus : Nat := 0

end Wipe
