import Disks.Drive.Device
import Disks.Lib.CString

/-!
# The walk through the SMBIOS table (`dmi_decode.c`)

`dmi_table` goes from one structure of the table to the next: by the length of the formatted area,
and then to the two zeros behind the strings. `dmi_decode` gets the header of each structure; what
it makes of the entries is a parameter, and does not lead the walk.

An access outside the table has no result (`none`).
-/

namespace Dmi

open Bytes Drive

/-- `struct dmi_header`; `data` is what the table holds from the structure on. -/
structure Header where
  type : Byte
  length : Byte
  handle : U16
  data : List Byte
deriving DecidableEq

/-- `to_dmi_header( &hdr, buff + pos )` -/
def toDmiHeader (buff : List Byte) (pos : Nat) : Option Header := do
  let type ← buff[pos]?
  let length ← buff[pos + 1]?
  let low ← buff[pos + 2]?
  let high ← buff[pos + 3]?
  return ⟨type, length, high ++ low, buff.drop pos⟩

/-! ## `dmi_string` -/

/-- `while( id > 1 && *str ) str += strlen( str ) + 1`: where the string of a number is. -/
def stringAt (data : List Byte) (str : Nat) : Nat → Option Nat
  | 0 => some str
  | 1 => some str
  | id + 2 => do
    let c ← data[str]?
    if c = 0 then return str
    -- `strlen` reads up to the zero behind the string
    let next := str + (cstr (data.drop str)).length
    let _ ← data[next]?
    stringAt data (next + 1) (id + 1)

def ascii (text : String) : List Byte := text.toList.map fun c => BitVec.ofNat 8 c.toNat

/-- `dmi_string`, with the string that the pointer is for. -/
def dmiString (hdr : Header) (id : Byte) : Option (List Byte) :=
  if id = 0 then some (ascii "Not Specified")
  else do
    let str ← stringAt hdr.data hdr.length.toNat id.toNat
    let c ← hdr.data[str]?
    if c = 0 then return ascii "ERR"
    let text := cstr (hdr.data.drop str)
    let _ ← hdr.data[str + text.length]?
    return text

/-! ## `dmi_table` -/

/-- `( pos[0] != 0 ) || ( pos[1] != 0 )`: the second byte is read where the first is zero. -/
def moreStrings (buff : List Byte) (pos : Nat) : Option Bool := do
  let first ← buff[pos]?
  if first ≠ 0 then return true
  let second ← buff[pos + 1]?
  return second ≠ 0

/-- The inner loop: it reads before it compares `pos` with the length of the table. -/
def stringsEnd (buff : List Byte) (pos : Nat) : Option Nat :=
  match moreStrings buff pos with
  | none => none
  | some more =>
    if more ∧ pos < buff.length then stringsEnd buff (pos + 1) else some pos
termination_by buff.length - pos

theorem le_stringsEnd {buff : List Byte} {pos next : Nat} (h : stringsEnd buff pos = some next) :
    pos ≤ next := by
  fun_induction stringsEnd buff pos with
  | case1 => cases h
  | case2 pos more _ _ ih => exact Nat.le_of_succ_le (ih h)
  | case3 => exact Nat.le_of_eq (Option.some.inj h)

/-- What the walk leaves: the number of structures, `errno`, the entries and the next group. -/
structure Walked (σ : Type) where
  i : Nat
  errno : Bool
  list : σ
  group_counter : Nat

variable {σ : Type} (dmi_decode : Header → Nat → σ → σ) (count : Nat) (buff : List Byte)

/-- The loop over the structures, from structure `i` at `pos`. -/
def walk (i pos : Nat) (list : σ) (group_counter : Nat) : Option (Walked σ) :=
  if (count = 0 ∨ i ≤ count) ∧ pos < buff.length then
    match toDmiHeader buff pos with
    | none => none
    | some hdr =>
      if hdr.length < 4 then some ⟨i, true, list, group_counter⟩
      else if count = 0 ∧ hdr.type = 127 then some ⟨i, false, list, group_counter⟩
      else
        match _h : stringsEnd buff (pos + hdr.length.toNat) with
        | none => none
        | some next =>
          walk (i + 1) (next + 2) (dmi_decode hdr group_counter list) (group_counter + 1)
  else some ⟨i, false, list, group_counter⟩
termination_by buff.length - pos
decreasing_by
  have hle := le_stringsEnd _h
  omega

/-- What `dmi_table` returns, with the entries and the next group. -/
structure Outcome (σ : Type) where
  rc : Int
  list : σ
  group_counter : Nat
deriving DecidableEq

/-- `dmi_table`, of the block that is read; a block that cannot be read is an error. -/
def dmiTable (block : Option (List Byte)) (list : σ) (group_counter : Nat) :
    Option (Outcome σ) :=
  match block with
  | none => some ⟨-1, list, group_counter⟩
  | some buff =>
    (walk dmi_decode count buff 0 0 list group_counter).map fun w =>
      let errno := w.errno || (count ≠ 0 && w.i ≠ count)
      ⟨if errno then -1 else 0, w.list, w.group_counter⟩

end Dmi
