import Disks.Drive.Device
import Disks.Lib.Effect
import Mathlib.Data.Nat.Log

/-!
# The stress tool (`muncher.c`)

`muncher` reads and writes single sectors: at random addresses, and in sweeps from both ends of the
disk. A run is given the values that `rand()` returns, one after the other, and which of its
accesses fail; it ends where the values do (`more`). The logarithms are exact.

`int`s and the addresses are words; `none` is an overflow of an `int`, which has no result.
-/

namespace Muncher

open Drive Effect

/-! ## The range -/

/-- A value of `rand()`, from 0 to `RAND_MAX`. -/
abbrev Rand := BitVec 31

def RAND_MAX : Nat := 2147483647
def INT_MAX : U32 := 2147483647

/-- The options, as far as they decide on the addresses. -/
structure Options where
  readTest : Bool := true
  writeTest : Bool := false
  ignoreErrors : Bool := false
  startLBA : U64 := 0
  endLBA : U64 := 0
  roundCount : U32 := 1
  randSeekCount : U32 := 10000
  ODIDCount : U32 := 1000
  FullODIDCount : U32 := 100

/-- The globals and the counts, once they are set up. -/
structure Plan where
  startLBA : U64
  endLBA : U64
  totalLBACount : U64
  ODIDStep : U32
  roundCount : U32
  randSeekCount : U32
  ODIDCount : U32
  FullODIDCount : U32

/-- `endLBA`: zero is all of the disk. -/
def endOf (o : Options) (totalLBACount : U64) : U64 :=
  if o.endLBA = 0 then totalLBACount
  else if o.endLBA > totalLBACount then totalLBACount
  else o.endLBA

/-- `ODIDStep`, an `int`, as long as it is for one test. -/
def stepOf (o : Options) (totalLBACount : U64) : U32 :=
  if o.ODIDCount ≠ 0 then
    let ODIDStep : U32 := (totalLBACount / o.ODIDCount.setWidth 64).setWidth 32
    if ODIDStep.toInt < 30 then 30 else ODIDStep
  else 0

/-- What is set up before the first round. -/
def setUp (o : Options) (totalLBACount : U64) : Option Plan :=
  let ODIDStep := stepOf o totalLBACount
  let p : Plan := {
    startLBA := o.startLBA
    endLBA := endOf o totalLBACount
    totalLBACount := totalLBACount
    ODIDStep := ODIDStep
    roundCount := o.roundCount
    randSeekCount := o.randSeekCount
    ODIDCount := o.ODIDCount
    FullODIDCount := if o.ODIDCount ≠ 0 then o.FullODIDCount else 0 }
  if o.readTest ∧ o.writeTest then
    if ODIDStep.toInt * 3 > INT_MAX.toInt then none
    else some { p with
      randSeekCount := p.randSeekCount / 3
      ODIDStep := ODIDStep * 3
      FullODIDCount := p.FullODIDCount / 3
      ODIDCount := p.ODIDCount / 3 }
  else some p

/-! ## `initRand` -/

/-- `ceil( log10( RAND_MAX ) / log10( 2 ) )` -/
def randBits : Nat := Nat.clog 2 RAND_MAX

section plan

variable (p : Plan)

/-- `ODIDStep` where it is used with an address. -/
def step : U64 := p.ODIDStep.signExtend 64

def LBABits : Nat := Nat.clog 2 p.endLBA.toNat
def LBARounds : Nat := LBABits p / randBits
def LBALastBits : Nat := LBABits p % randBits
def LBALastMask : U32 := INT_MAX >>> (randBits - LBALastBits p)

/-- `ODIDMask`: without a step nothing asks for it. -/
def ODIDMask : U32 :=
  let tmpNum := Nat.log 2 p.ODIDStep.toNat >>> 1
  if tmpNum ≥ randBits then INT_MAX else INT_MAX >>> (randBits - tmpNum)

def ODIDMid : U32 := ODIDMask p >>> 1

/-! ## The run -/

/-- A sector that is read or written. -/
structure Access where
  write : Bool
  LBA : U64
deriving DecidableEq, Repr

/-- The values that `rand()` has still to return, and what was accessed so far. -/
structure Run where
  rands : List Rand
  accesses : List Access

/-- Why a run ends early: an access has failed, or it needs more values. -/
inductive Stop
  | bail
  | more
deriving DecidableEq, Repr

abbrev Munch := EStateM Stop Run

/-- `rand()` -/
def rand : Munch Rand := fun s =>
  match s.rands with
  | [] => .error .more s
  | r :: rands => .ok r { s with rands }

/-! ## Addresses -/

/-- The values of `LBARounds` calls of `rand()`, shifted together. -/
def rounds : Nat → U64 → Munch U64
  | 0, wrkNum => pure wrkNum
  | n + 1, wrkNum => do
    let r ← rand
    rounds n ((wrkNum <<< randBits) + r.setWidth 64)

/-- One attempt of `getRandLBA`. -/
def attempt : Munch U64 := do
  let wrkNum ← rounds (LBARounds p) 0
  let r ← rand
  pure ((wrkNum <<< LBALastBits p) + (r.setWidth 32 &&& LBALastMask p).setWidth 64)

/-- The attempts until one is in the range. -/
def again : Nat → Munch U64
  | 0 => throw .more
  | fuel + 1 => do
    let wrkNum ← attempt p
    if wrkNum > p.endLBA ∨ wrkNum < p.startLBA then again fuel else pure wrkNum

/-- `getRandLBA`: every attempt takes a value. -/
def getRandLBA : Munch U64 := fun s => again p (s.rands.length + 1) s

/-- The address that `getOffsetLBA` gives for a value of `rand()`. -/
def offsetLBA (target : U64) (r : Rand) : U64 :=
  let wrkNum := target + (r.setWidth 32 &&& ODIDMask p).setWidth 64
  let mid := (ODIDMid p).setWidth 64
  if wrkNum - mid < p.startLBA then p.startLBA
  else if wrkNum - mid > p.endLBA then p.endLBA
  else wrkNum - mid

/-- `getOffsetLBA` -/
def getOffsetLBA (target : U64) : Munch U64 := do
  let r ← rand
  pure (offsetLBA p target r)

/-- `flipCoin`: whether to read. -/
def flipCoin : Munch Bool := do
  let r ← rand
  pure (r &&& 1 ≠ 0)

/-! ## Accesses -/

-- which of the accesses fail, by number, and whether that is ignored
variable (fails : Nat → Bool) (ignoreErrors : Bool)

/-- The access itself: whether it fails. -/
def record (write : Bool) (LBA : U64) : Munch Bool := fun s =>
  .ok (fails s.accesses.length) { s with accesses := s.accesses ++ [⟨write, LBA⟩] }

/-- `DO_READ( LBA )` and `DO_WRITE( LBA )`: where the access fails, the macro works its argument out
again for the message. -/
def access (write : Bool) (LBA : Munch U64) : Munch Unit := do
  let lba ← LBA
  let failed ← record fails write lba
  if failed then
    let _ ← LBA
    if ignoreErrors then pure () else throw .bail
  else pure ()

def DO_READ : Munch U64 → Munch Unit := access fails ignoreErrors false
def DO_WRITE : Munch U64 → Munch Unit := access fails ignoreErrors true

/-- A random seek. -/
def seek (write : Bool) : Munch Unit := do
  let LBA ← getRandLBA p
  access fails ignoreErrors write (pure LBA)

/-! ## The sweeps -/

/-- The two accesses of a turn. -/
def pair (reads : Munch Bool) (wrkLBA wrkLBA2 : U64) : Munch Unit := do
  let read ← reads
  if read then
    DO_READ fails ignoreErrors (getOffsetLBA p wrkLBA)
    DO_READ fails ignoreErrors (getOffsetLBA p wrkLBA2)
  else
    DO_WRITE fails ignoreErrors (getOffsetLBA p wrkLBA)
    DO_WRITE fails ignoreErrors (getOffsetLBA p wrkLBA2)

/-- `for( wrk = ODIDStep; wrk < ( endLBA - ODIDStep ); wrk += ODIDStep ) turn( wrk )`; every turn
takes values of `rand()`. -/
def sweep (turn : U64 → Munch Unit) : Munch Unit := fun s =>
  forLoop (fun wrk => wrk < p.endLBA - step p) (fun wrk => wrk + step p) turn .more
    (s.rands.length + 1) (step p) s

/-- ID to Full, Full, and Full to ID. The near cursor stays at the first step until the last loop,
the far one is at `far` from the second loop on. -/
def idod (reads : Munch Bool) (far : U64) : Munch Unit := do
  sweep p fun wrkLBA2 => pair p fails ignoreErrors reads (step p) wrkLBA2
  times (pair p fails ignoreErrors reads (step p) far) p.FullODIDCount.toNat
  sweep p fun wrkLBA => pair p fails ignoreErrors reads wrkLBA far

/-- The sweeps of the read test go by the size of the disk, the others by the end of the range. -/
def readSweeps : Munch Unit := idod p fails ignoreErrors (pure true) (p.totalLBACount - step p)
def writeSweeps : Munch Unit := idod p fails ignoreErrors (pure false) (p.endLBA - step p)
def mixedSweeps : Munch Unit := idod p fails ignoreErrors flipCoin (p.endLBA - step p)

/-! ## The rounds -/

/-- A random seek of the mixed test. -/
def mixedSeek : Munch Unit := do
  let read ← flipCoin
  seek p fails ignoreErrors (!read)

/-- The sweeps of a test, unless they are disabled. -/
def unlessDisabled (sweeps : Munch Unit) : Munch Unit :=
  if p.ODIDCount ≠ 0 then sweeps else pure ()

variable (readTest writeTest : Bool)

/-- The parts of a round, each in its test. -/
def pattern : Munch Unit := if writeTest then rand >>= fun _ => pure () else pure ()

def randomReads : Munch Unit :=
  if readTest then times (seek p fails ignoreErrors false) p.randSeekCount.toNat else pure ()

def randomWrites : Munch Unit :=
  if writeTest then times (seek p fails ignoreErrors true) p.randSeekCount.toNat else pure ()

def sweepReads : Munch Unit :=
  if readTest then unlessDisabled p (readSweeps p fails ignoreErrors) else pure ()

def sweepWrites : Munch Unit :=
  if writeTest then unlessDisabled p (writeSweeps p fails ignoreErrors) else pure ()

def mixed : Munch Unit :=
  if readTest ∧ writeTest then do
    times (mixedSeek p fails ignoreErrors) p.randSeekCount.toNat
    unlessDisabled p (mixedSweeps p fails ignoreErrors)
  else pure ()

/-- A round. -/
def round : Munch Unit := do
  pattern writeTest
  randomReads p fails ignoreErrors readTest
  randomWrites p fails ignoreErrors writeTest
  sweepReads p fails ignoreErrors readTest
  sweepWrites p fails ignoreErrors writeTest
  mixed p fails ignoreErrors readTest writeTest

end plan

/-- `main`, once everything is set up. -/
def munch (o : Options) (p : Plan) (fails : Nat → Bool) : Munch Unit :=
  times (round p fails o.ignoreErrors o.readTest o.writeTest) p.roundCount.toNat

end Muncher
