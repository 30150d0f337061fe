import Disks.Drive.ScsiPages

/-!
# The elements of an enclosure (`libenclosure.c`, `libenclosure.py`)

`get_subenc_descriptors` walks through the configuration page and the status page of an enclosure,
each in a buffer of 2048 bytes. `set_subenc_descriptors` makes a control page.

An access outside a buffer or an array has no result (`none`), and an error is an exception inside.
-/

namespace Enclosure

open Bytes Drive

def MAX_SUBENC : Nat := 10
def MAX_DIAG_PAGE_SIZE : Nat := 2048
def HELP_TEXT_LENGTH : Nat := 50
def DESCRIPTOR_MAX_COUNT : Nat := 250

/-- `unsigned char desc_buff[2048]`, `unsigned char diag_buff[MAX_DIAG_PAGE_SIZE]`. -/
abbrev Buffer := Vector Byte 2048

/-- A page in a buffer that was cleared; what does not fit is left out. -/
def bufferOf (page : List Byte) : Buffer := Vector.ofFn fun i => page.getD i.val 0

/-- `buff[i]`. -/
def Buffer.at? (buff : Buffer) (i : Nat) : Option Byte := buff.toList[i]?

/-- `struct subenc_descriptor_element`, cleared. -/
structure DescriptorElement where
  sub_enclosure : Byte := 0
  element_index : Byte := 0
  element_type : Byte := 0
  subelement_index : Byte := 0
  help_text : List Byte := List.replicate HELP_TEXT_LENGTH 0
  value_offset : U16 := 0
  value : List Byte := List.replicate 4 0
deriving DecidableEq, Repr

/-- `struct subenc_descriptors`: `count` is the number of descriptors that are in use. -/
structure Descriptors where
  page_size : U32
  generation : U32
  descriptors : List DescriptorElement
deriving DecidableEq, Repr

/-- `descriptors->descriptors[ descriptors->count ]` filled in, and `descriptors->count++`. -/
def push (descriptors : List DescriptorElement) (d : DescriptorElement) :
    Option (List DescriptorElement) :=
  if descriptors.length < DESCRIPTOR_MAX_COUNT then some (descriptors ++ [d]) else none

/-! ## `get_subenc_descriptors` -/

/-- What the loop over the sub-enclosures changes. -/
structure Subs where
  counts : List Nat
  buff_pos : Nat
  element_header_count : Nat
  descriptors : List DescriptorElement

/-- A turn of the loop over the sub-enclosures. The text is looked for from the start of the
buffer, and the lengths before it are added without their own bytes. -/
def subTurn (desc_buff : Buffer) (s : Subs) (sub : Nat) : Reading Subs := do
  let count ← (desc_buff.at? (s.buff_pos + 2) : Option Byte)
  let counts ← (if sub < MAX_SUBENC then some (s.counts ++ [count.toNat]) else none :
    Option (List Nat))
  let versions ← (desc_buff.at? (s.buff_pos + 63) : Option Byte)
  let text_offset := versions.toNat * 18
  let buffers ← (desc_buff.at? text_offset : Option Byte)
  let text_offset := text_offset + buffers.toNat * 4
  let pages ← (desc_buff.at? text_offset : Option Byte)
  let text_offset := text_offset + pages.toNat + 1
  let length ← (desc_buff.at? (text_offset - 1) : Option Byte)
  let d : DescriptorElement := { sub_enclosure := BitVec.ofNat 8 sub }
  let help_text ← (strncpyAt desc_buff.toList d.help_text text_offset
    (min length.toNat HELP_TEXT_LENGTH) : Option (List Byte))
  let descriptors ← (push s.descriptors { d with help_text } : Option (List DescriptorElement))
  let skip ← (desc_buff.at? (s.buff_pos + 3) : Option Byte)
  pure ⟨counts, s.buff_pos + skip.toNat + 4, s.element_header_count + count.toNat, descriptors⟩

/-- What the loops over the elements change. -/
structure Cursor where
  buff_pos : Nat
  text_offset : Nat
  element_offset : Nat
  descriptors : List DescriptorElement

/-- A turn of the loop over the elements of a type. -/
def elementTurn (desc_buff diag_buff : Buffer) (sub i : Nat) (s : Cursor) (j : Nat) :
    Reading Cursor := do
  let type ← (desc_buff.at? s.buff_pos : Option Byte)
  let d : DescriptorElement := {
    sub_enclosure := BitVec.ofNat 8 sub
    element_index := BitVec.ofNat 8 i
    element_type := type
    value_offset := BitVec.ofNat 16 s.element_offset
    subelement_index := BitVec.ofNat 8 j }
  let length ← (desc_buff.at? (s.buff_pos + 3) : Option Byte)
  let help_text ← (strncpyAt desc_buff.toList d.help_text s.text_offset
    (min length.toNat HELP_TEXT_LENGTH) : Option (List Byte))
  let value ← (strncpyAt diag_buff.toList d.value s.element_offset 4 : Option (List Byte))
  let descriptors ← (push s.descriptors { d with help_text, value } :
    Option (List DescriptorElement))
  if descriptors.length ≥ DESCRIPTOR_MAX_COUNT then throw (-1)
  else pure { s with element_offset := s.element_offset + 4, descriptors }

/-- A turn of the loop over the type headers of a sub-enclosure. -/
def typeTurn (desc_buff diag_buff : Buffer) (sub : Nat) (s : Cursor) (i : Nat) :
    Reading Cursor := do
  let elements ← (desc_buff.at? (s.buff_pos + 1) : Option Byte)
  let s ← (List.range elements.toNat).foldlM (elementTurn desc_buff diag_buff sub i) s
  let length ← (desc_buff.at? (s.buff_pos + 3) : Option Byte)
  pure { s with
    element_offset := s.element_offset + 4
    text_offset := s.text_offset + length.toNat
    buff_pos := s.buff_pos + 4 }

/-- A turn of the second loop over the sub-enclosures. -/
def typesTurn (desc_buff diag_buff : Buffer) (counts : List Nat) (s : Cursor) (sub : Nat) :
    Reading Cursor := do
  let count ← (counts[sub]? : Option Nat)
  (List.range count).foldlM (typeTurn desc_buff diag_buff sub) s

/-- `descriptors->page_size` and `descriptors->generation`. -/
def pageSize (diag_buff : Buffer) : U32 :=
  let b (i : Nat) : U32 := (diag_buff.toList.getD i 0).setWidth 32
  (b 2 <<< 8) + b 3

def generationOf (diag_buff : Buffer) : U32 :=
  let b (i : Nat) : U32 := (diag_buff.toList.getD i 0).setWidth 32
  (b 4 <<< 24) + (b 5 <<< 16) + (b 6 <<< 8) + b 7

/-- `sub_count`, an `unsigned char`. -/
def subCount (desc_buff : Buffer) : Nat := ((desc_buff.toList.getD 1 0).toNat + 1) % 256

/-- `get_subenc_descriptors`, for the pages that the enclosure answers with. -/
def getSubencDescriptors (config status : Option Buffer) : Reading Descriptors :=
  match config, status with
  | some desc_buff, some diag_buff => do
    let page_size := pageSize diag_buff
    if page_size.toNat + 4 > MAX_DIAG_PAGE_SIZE then throw (-1)
    let sub_count := subCount desc_buff
    if sub_count > MAX_SUBENC then throw (-1)
    let s ← (List.range sub_count).foldlM (subTurn desc_buff) ⟨[], 8, 0, []⟩
    let c ← (List.range sub_count).foldlM (typesTurn desc_buff diag_buff s.counts)
      ⟨s.buff_pos, s.buff_pos + 4 * s.element_header_count, 12, s.descriptors⟩
    pure ⟨page_size, generationOf diag_buff, c.descriptors⟩
  | _, _ => throw (-1)

/-! ## `set_subenc_descriptors` -/

/-- `strncpy( &diag_buff[ value_offset ], value, 4 )`. -/
def putValue (diag_buff : List Byte) (d : DescriptorElement) : Option (List Byte) :=
  if d.value_offset.toNat + 4 ≤ MAX_DIAG_PAGE_SIZE then
    some (poke diag_buff d.value_offset.toNat (strncpyBytes d.value 4))
  else none

/-- The control page. -/
def controlPage (d : Descriptors) : Option (List Byte) :=
  let diag_buff := poke (List.replicate MAX_DIAG_PAGE_SIZE 0) 0 [0x02]
  let diag_buff := poke diag_buff 2 (beBytes 2 d.page_size ++ beBytes 4 d.generation)
  d.descriptors.foldlM putValue diag_buff

/-- `set_subenc_descriptors`: the bytes that are sent, if any; the length is that of the caller. -/
def setSubencDescriptors (d : Descriptors) : Option (Option (List Byte)) :=
  if d.descriptors = [] then some none
  else do
    let diag_buff ← controlPage d
    if (d.page_size + 4).toNat ≤ MAX_DIAG_PAGE_SIZE then
      some (some (diag_buff.take (d.page_size + 4).toNat))
    else none

/-! ## `Enclosure.setSubEncDescriptors` -/

/-- An exception: `Exception`, `ValueError` and `ctypes.ArgumentError`. -/
inductive EnclosureError
  | exception (text : String)
  | valueError (text : String)
  | argumentError (text : String)
deriving DecidableEq

/-- The `struct_subenc_descriptors` that the method fills in; the fields take what fits. -/
def subencDescriptors (generation page_size : Nat) (descriptor_list : List (Nat × List Byte)) :
    Except EnclosureError Descriptors := do
  let descriptors ← descriptor_list.foldlM (fun descriptors p =>
    if p.2.length ≠ 4 then .error (.exception "Value is not a bytearray of 4 bytes")
    else
      let d : DescriptorElement := { value_offset := BitVec.ofNat 16 p.1, value := p.2 }
      if descriptors.length + 1 ≥ 250 then
        .error (.valueError "To many descriptors in descriptor_list")
      else .ok (descriptors ++ [d])) []
  .ok ⟨BitVec.ofNat 32 page_size, BitVec.ofNat 32 generation, descriptors⟩

/-- `errstr.value.strip()` of `_test_and_open` without a device: there is nothing to `stat`. -/
def noDevice (root : Bool) : String :=
  if root then "b\"Error opening device '(null)', errno: 14.\"" else "b'Must be root.'"

/-- The method: the bytes that are sent, if any. The parameter of the library is a
`POINTER( c_char )`, which takes no `str`; `None` is a null pointer. -/
def setSubEncDescriptors (root : Bool) (scsi_generic : Option String) (generation page_size : Nat)
    (descriptor_list : List (Nat × List Byte)) :
    Option (Except EnclosureError (Option (List Byte))) :=
  match subencDescriptors generation page_size descriptor_list with
  | .error e => some (.error e)
  | .ok d =>
    match scsi_generic with
    | some _ => some (.error (.argumentError
        "argument 1: <class 'TypeError'>: expected LP_c_char instance instead of str"))
    | none =>
      if d.descriptors = [] then some (.ok none)
      else (controlPage d).map fun _ =>
        .error (.exception ("Error setting enclosure info \"" ++ noDevice root ++ "\""))

end Enclosure
