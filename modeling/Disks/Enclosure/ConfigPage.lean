import Disks.Enclosure.LibEnclosure

/-!
# The configuration and the status page of an enclosure

What the pages that `get_subenc_descriptors` walks through are made of: the descriptors of the
sub-enclosures, the headers of their types, and the texts of these, one behind the other; and the
words of the status page, where an overall element stands before the elements of each type.
`Configuration.entries` is the list that such pages call for.
-/

namespace Enclosure

open Bytes Drive

structure TypeDescriptor where
  element_type : Byte
  elements : Byte
  sub_enclosure : Byte
  text : List Byte
  short : text.length < HELP_TEXT_LENGTH

/-- The `body` is what stands behind the four bytes at the head of the descriptor. -/
structure SubEnclosure where
  process : Byte
  identifier : Byte
  body : List Byte
  types : List TypeDescriptor
  fits : body.length < 256
  few : types.length < 256

structure Configuration where
  generation : U32
  subs : List SubEnclosure
  nonempty : subs ≠ []
  few : subs.length ≤ 256

/-! ## The configuration page -/

def TypeDescriptor.header (t : TypeDescriptor) : List Byte :=
  [t.element_type, t.elements, t.sub_enclosure, BitVec.ofNat 8 t.text.length]

def SubEnclosure.descriptor (s : SubEnclosure) : List Byte :=
  [s.process, s.identifier, BitVec.ofNat 8 s.types.length, BitVec.ofNat 8 s.body.length] ++ s.body

def Configuration.types (c : Configuration) : List TypeDescriptor := c.subs.flatMap (·.types)

/-- What stands behind the descriptors of the sub-enclosures. -/
def Configuration.typePart (c : Configuration) : List Byte :=
  c.types.flatMap (·.header) ++ c.types.flatMap (·.text)

def Configuration.front (c : Configuration) : List Byte :=
  [1, BitVec.ofNat 8 (c.subs.length - 1)] ++
    beBytes 2 (BitVec.ofNat 16
      (4 + (c.subs.flatMap (·.descriptor)).length + c.typePart.length)) ++
    beBytes 4 c.generation

def Configuration.page (c : Configuration) : List Byte :=
  c.front ++ c.subs.flatMap (·.descriptor) ++ c.typePart

/-- The text in the descriptor of a sub-enclosure: behind the version descriptors of 18 bytes, the
buffer descriptors of 4, and the numbers of the vital product data pages, each with their count. -/
def SubEnclosure.text (s : SubEnclosure) : List Byte :=
  let byte (i : Nat) : Nat := (s.body.getD i 0).toNat
  let buffers := 60 + byte 59 * 18
  let pages := buffers + 1 + byte buffers * 4
  let length := pages + 1 + byte pages
  slice s.body (length + 1) (byte length)

/-! ## The status page -/

/-- The words of the first types: an overall element for each type, and its elements. -/
def wordsBefore (types : List TypeDescriptor) (k : Nat) : Nat :=
  ((types.take k).map fun t => 1 + t.elements.toNat).sum

structure StatusPage (c : Configuration) where
  info : Byte
  generation : U32
  words : List (List Byte)
  four : ∀ w ∈ words, w.length = 4
  count : words.length = wordsBefore c.types c.types.length

def StatusPage.bytes {c : Configuration} (status : StatusPage c) : List Byte :=
  [2, status.info] ++ beBytes 2 (BitVec.ofNat 16 (4 + 4 * status.words.length)) ++
    beBytes 4 status.generation ++ status.words.flatten

/-! ## The descriptors -/

/-- What a descriptor says about an element. -/
structure Listed where
  sub_enclosure : Nat
  element_index : Nat
  element_type : Byte
  subelement_index : Nat
  help_text : List Byte
  value_offset : Nat
deriving DecidableEq, Repr

def shown (d : DescriptorElement) : Listed where
  sub_enclosure := d.sub_enclosure.toNat
  element_index := d.element_index.toNat
  element_type := d.element_type
  subelement_index := d.subelement_index.toNat
  help_text := cstr d.help_text
  value_offset := d.value_offset.toNat

/-- The types with their sub-enclosures and their numbers in these. -/
def Configuration.labelled (c : Configuration) : List ((Nat × Nat) × TypeDescriptor) :=
  c.subs.zipIdx.flatMap fun s => s.1.types.zipIdx.map fun t => ((s.2, t.2), t.1)

/-- The elements of type `k`, a type `t` with its label. -/
def typeEntries (types : List TypeDescriptor) (label : Nat × Nat) (t : TypeDescriptor) (k : Nat) :
    List Listed :=
  (List.range t.elements.toNat).map fun j =>
    ⟨label.1, label.2, t.element_type, j, cstr t.text, 8 + 4 * (wordsBefore types k + 1 + j)⟩

/-- A descriptor for each sub-enclosure, with such a text, and one for each element. -/
def Configuration.entries (c : Configuration) (texts : Nat → List Byte) : List Listed :=
  (List.range c.subs.length).map (fun sub => ⟨sub, 0, 0, 0, texts sub, 0⟩) ++
    c.labelled.zipIdx.flatMap fun x => typeEntries c.types x.1.1 x.1.2 x.2

/-- How many descriptors there are in all. -/
def Configuration.total (c : Configuration) : Nat :=
  c.subs.length + (c.types.map (·.elements.toNat)).sum

/-- The texts of the sub-enclosures. -/
def Configuration.subTexts (c : Configuration) (sub : Nat) : List Byte :=
  (c.subs[sub]?.map fun s => cstr s.text).getD []

end Enclosure
