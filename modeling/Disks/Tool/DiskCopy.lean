import Disks.Drive.Device
import Disks.Lib.Loop

/-!
# The disk copy tool (`diskcopy.c`)

`doCopy` copies a range chunk by chunk, then what is left of it, and then tries again, block by
block, what could not be read. `readLBA( source, 1, 0, .. )` and `writeLBA( target, 1, 0, .. )` are
its parameters; `B` is the type of a buffer.
-/

namespace DiskCopy

open Drive Loop

/-- `readLBA`: the return code and the buffer. -/
abbrev ReadLBA (B W : Type) := U64 → U16 → W → Option (Int × B × W)

/-- `writeLBA`. -/
abbrev WriteLBA (B W : Type) := U64 → U16 → B → W → Option (Int × W)

/-- `block_t`. -/
structure Block where
  LBA : U64
  count : U16
deriving DecidableEq, Repr

section copy

variable {B W : Type} (readLBA : ReadLBA B W) (writeLBA : WriteLBA B W)

/-- How the `COPY` macro ends: with `continue` and the range added to the list, behind the macro, or
with `break`. -/
inductive Copied (W : Type)
  | continued (w : W)
  | copied (w : W)
  | broken (w : W)

/-- `COPY`. -/
def copy (LBA : U64) (count : U16) (w : W) : Option (Copied W) := do
  let (rc, buff, w) ← readLBA LBA count w
  if rc ≠ 0 then some (.continued w)
  else
    let (rc, w) ← writeLBA LBA count buff w
    some (if rc ≠ 0 then .broken w else .copied w)

/-- One turn of the first loop: the cursor and the missed ranges. It leaves with these and the
return code. -/
def chunkTurn (count : U16) (ending : U64) (s : U64 × List Block × W) :
    Option (Turn (U64 × List Block × W) (U64 × Int × List Block × W)) :=
  let (wrkLBA, missed, w) := s
  let next := wrkLBA + count.setWidth 64
  if next < ending then do
    some (match ← copy readLBA writeLBA wrkLBA count w with
      | .continued w => .next (next, missed ++ [⟨wrkLBA, count⟩], w)
      | .copied w => .next (next, missed, w)
      | .broken w => .stop (wrkLBA, 1, missed, w))
  else some (.stop (wrkLBA, 0, missed, w))

/-- The remaining sectors: the return code and the missed ranges. -/
def remainder (wrkLBA : U64) (count : U16) (missed : List Block) (w : W) :
    Option (Int × List Block × W) := do
  some (match ← copy readLBA writeLBA wrkLBA count w with
    | .continued w => (0, missed ++ [⟨wrkLBA, count⟩], w)
    | .copied w => (0, missed, w)
    | .broken w => (1, missed, w))

/-- One turn of the loop over the blocks of a missed range: the cursor, the return code and the
failed blocks. -/
def retryTurn (iter : Block) (s : U64 × Int × List Block × W) :
    Option (Turn (U64 × Int × List Block × W) (Int × List Block × W)) :=
  let (wrkLBA, rc, failed, w) := s
  if wrkLBA < iter.LBA + iter.count.setWidth 64 then do
    some (match ← copy readLBA writeLBA wrkLBA 1 w with
      | .continued w => .next (wrkLBA + 1, rc, failed ++ [⟨wrkLBA, 1⟩], w)
      | .copied w => .next (wrkLBA + 1, rc, failed, w)
      | .broken w => .stop (1, failed, w))
  else some (.stop (rc, failed, w))

/-- The loop over the missed ranges. -/
def retry (fuel : Nat) : List Block → Int × List Block × W → Option (Int × List Block × W)
  | [], s => some s
  | iter :: rest, (rc, failed, w) => do
    let s ← run (retryTurn readLBA writeLBA iter) fuel (iter.LBA, rc, failed, w)
    retry fuel rest s

/-- `doCopy`: the return code and the list of failed blocks. -/
def doCopy (fuel : Nat) (count : U16) (start ending : U64) (w : W) :
    Option (Int × List Block × W) := do
  let (wrkLBA, rc, missed, w) ← run (chunkTurn readLBA writeLBA count ending) fuel (start, [], w)
  if rc ≠ 0 then some (rc, [], w)
  else
    -- back to the last chunk, with 16 bits for the length
    let wrkLBA := wrkLBA - count.setWidth 64
    let (rc, missed, w) ←
      remainder readLBA writeLBA wrkLBA ((ending - wrkLBA).setWidth 16) missed w
    if rc ≠ 0 then some (rc, [], w)
    else if missed = [] then some (0, [], w)
    else retry readLBA writeLBA fuel missed (0, [], w)

end copy

end DiskCopy
