import Disks.Lib.Assoc
import Disks.Lib.CString
import Disks.Manager.DriveInfo

/-!
# The vital product data of PCI devices (`pci.c`, `libhardware.py`)

`getVPDInfo` reads the VPD of one device and stores its items in a list, and `pciInfo` does so for
all devices, with one list for all of them.

A read or write outside a buffer or a list entry has no result (`none`), and neither has a read of a
byte of `buff` in which nothing was stored.

* `getVPDInfo`, with the loops `vpdLoop` over the tags and `tagLoop` over the items of an area.
* `pciInfo`: the attributes of each device.
-/

namespace Pci

open Bytes
open Manager (Text LoadError)

def ENTRY_LIST_SIZE : Nat := 1024

/-- `sizeof( buff )` -/
def BUFF_SIZE : Nat := 1024

/-- `struct vpd_entry`: three bytes and 256 bytes. -/
structure VpdEntry where
  id : List Byte
  value : List Byte
deriving DecidableEq

def VpdEntry.cleared : VpdEntry := ⟨List.replicate 3 0, List.replicate 256 0⟩

inductive Format
  | binary
  | text
  | resvd
  | rdwr
deriving DecidableEq

/-- `struct vpd_item`, without the name. -/
structure VpdItem where
  id1 : Byte
  id2 : Byte
  format : Format

def char (c : Char) : Byte := BitVec.ofNat 8 c.toNat

def vpdItems : List VpdItem :=
  [⟨char 'C', char 'P', .binary⟩, ⟨char 'E', char 'C', .text⟩, ⟨char 'M', char 'N', .text⟩,
    ⟨char 'P', char 'N', .text⟩, ⟨char 'R', char 'V', .resvd⟩, ⟨char 'R', char 'W', .rdwr⟩,
    ⟨char 'S', char 'N', .text⟩, ⟨char 'Y', char 'A', .text⟩, ⟨char 'V', 0, .text⟩,
    ⟨char 'Y', 0, .text⟩, ⟨char 'C', char 'C', .text⟩, ⟨char 'F', char 'C', .text⟩,
    ⟨char 'F', char 'N', .text⟩, ⟨char 'N', char 'A', .text⟩, ⟨char 'R', char 'M', .text⟩,
    ⟨char 'Z', 0, .text⟩, ⟨0, 0, .binary⟩]

/-- The item of two id bytes has a text; a zero in the table is for any byte. -/
def isText (id1 id2 : Byte) : Bool :=
  (vpdItems.find? fun item =>
    (item.id1 = 0 || item.id1 = id1) && (item.id2 = 0 || item.id2 = id2)).any (·.format = .text)

/-! ## `getVPDInfo` -/

/-- Bytes stored at the start of a buffer, of which the rest stays. -/
def store (buff data : List Byte) : List Byte := data ++ buff.drop data.length

/-- `strncpy( dst, &buff[i], n )`, with room for it. -/
def copyInto (buff dst : List Byte) (i n : Nat) : Option (List Byte) :=
  if n ≤ dst.length then strncpyAt buff dst i n else none

/-- An item with a text, at `pos`. -/
def storeTag (buff : List Byte) (pos : Nat) (tag_len : Byte) (counter : Nat)
    (list : List VpdEntry) : Option (List VpdEntry) := do
  let entry ← list[counter]?
  let id ← copyInto buff entry.id pos 2
  let value ← copyInto buff entry.value (pos + 3) tag_len.toNat
  return list.set counter ⟨id, value⟩

/-- An item at `pos`, of which only a text is stored. -/
def storeItem (list_size : Nat) (buff : List Byte) (pos : Nat) (id1 id2 tag_len : Byte)
    (counter : Nat) (list : List VpdEntry) : Option (List VpdEntry) :=
  if counter < list_size && isText id1 id2 then storeTag buff pos tag_len counter list
  else some list

/-- The loop over the items of an area. -/
def tagLoop (list_size : Nat) (buff : List Byte) (len pos counter : Nat) (list : List VpdEntry) :
    Option (Nat × List VpdEntry) :=
  if _h : pos < len then do
    let id1 ← buff[pos]?
    let id2 ← buff[pos + 1]?
    let tag_len ← buff[pos + 2]?
    let list ← storeItem list_size buff pos id1 id2 tag_len counter list
    tagLoop list_size buff len (pos + 3 + tag_len.toNat) (counter + 1) list
  else some (counter, list)
termination_by len - pos

/-- `"ID"` with its terminator. -/
def ident : List Byte := [char 'I', char 'D', 0]

/-- The identifier, of which at most 255 bytes were read. -/
def storeIdent (data : List Byte) (counter : Nat) (list : List VpdEntry) :
    Option (List VpdEntry) := do
  let entry ← list[counter]?
  if ident.length ≤ entry.id.length ∧ data.length ≤ entry.value.length then
    return list.set counter ⟨store entry.id ident, store entry.value data⟩
  else none

/-- The loop over the tags, from what is left of the VPD: the counter where it comes to the end tag,
and nothing where it is an error. -/
def vpdLoop (list_size : Nat) (rest buff : List Byte) (counter : Nat) (list : List VpdEntry) :
    Option (Option Nat × List VpdEntry) :=
  match rest with
  | [] => some (none, list)
  | id :: rest =>
    if id = 0x78 then some (some counter, list)
    else
      match rest with
      | lo :: hi :: rest =>
        let buff := store buff [lo, hi]
        let len := lo.toNat + (hi.toNat <<< 8)
        if id = 0x82 then
          -- what does not fit in the value is passed
          let stored :=
            if counter < list_size then storeIdent (rest.take (min len 255)) counter list
            else some list
          match stored with
          | none => none
          | some list => vpdLoop list_size (rest.drop len) buff (counter + 1) list
        else if id = 0x90 ∨ id = 0x91 then
          let data := rest.take len
          if BUFF_SIZE < data.length then none
          else if data.length ≠ len then some (none, list)
          else
            let buff := store buff data
            match tagLoop list_size buff len 0 counter list with
            | none => none
            | some (counter, list) => vpdLoop list_size (rest.drop len) buff counter list
        else some (none, list)
      | _ => some (none, list)
termination_by rest.length
decreasing_by all_goals simp only [List.length_cons, List.length_drop]; omega

/-- The VPD of a device: there is none, it cannot be opened, or it can be read. -/
inductive File
  | missing
  | error
  | content (bytes : List Byte)

/-- `getVPDInfo`: what it returns, and the list; `memset` clears the first entry only. -/
def getVPDInfo (list_size : Nat) (file : File) (list : List VpdEntry) :
    Option (Int × List VpdEntry) :=
  match list with
  | [] => none
  | _ :: rest =>
    let list := VpdEntry.cleared :: rest
    match file with
    | .missing => some (0, list)
    | .error => some (-1, list)
    | .content bytes =>
      match vpdLoop list_size bytes [] 0 list with
      | none => none
      | some (none, list) => some (-1, list)
      | some (some counter, list) => some (counter - 1, list)

/-! ## `pciInfo` -/

/-- An entry that has an id, as `ctypes` gives its members. -/
def VpdEntry.attribute (vpd : VpdEntry) : Option (List Byte × List Byte) :=
  if cstr vpd.id = [] then none else some (cstr vpd.id, cstr vpd.value)

/-- The entries that have an id. -/
def attributes (list : List VpdEntry) : List (List Byte × List Byte) :=
  list.filterMap VpdEntry.attribute

def SAFE_CHARS : Text :=
  ("0123456789abcdefghijklmnopqrstuvwxyzABCDEFGHIJKLMNOPQRSTUVWXYZ " ++
    "!#$%&()*+,-./:;<=>?@[]^_\x7b|\x7d~").toList

/-- `safeCString` -/
def safeCString (value : List Byte) : Except LoadError Text :=
  (Manager.decode value).map fun text =>
    (Lines.strip text).map fun char => if SAFE_CHARS.contains char then char else ' '

/-- `{ 'id': safeCString( vpd.id ), 'value': safeCString( vpd.value ) }` -/
def vpdText (vpd : List Byte × List Byte) : Except LoadError (Text × Text) := do
  let id ← safeCString vpd.1
  let value ← safeCString vpd.2
  return (id, value)

/-- `vpd_list` -/
def vpdList (attributes : List (List Byte × List Byte)) : Except LoadError (List (Text × Text)) :=
  attributes.mapM vpdText

/-- `struct pci_entry`; the first four members make the name of the device. -/
structure PciEntry where
  address : Int × Byte × Byte × Byte
  vendor_id : Int
  device_id : Int

/-- What is reported of a device. -/
structure Info where
  vendor : Int
  device : Int
  vpd : List (Text × Text)

/-- An exception for a VPD, and that of `str`. -/
inductive PciError
  | vpdInfo
  | unicode (e : LoadError)

/-- The loop over the devices. -/
def pciInfoFrom (results : Assoc.Dict (Int × Byte × Byte × Byte) Info) (list : List VpdEntry) :
    List (PciEntry × File) →
      Option (Except PciError (Assoc.Dict (Int × Byte × Byte × Byte) Info))
  | [] => some (.ok results)
  | device :: rest =>
    if device.1.vendor_id = 0 then pciInfoFrom results list rest
    else
      match getVPDInfo ENTRY_LIST_SIZE device.2 list with
      | none => none
      | some (rc, list) =>
        if rc = -1 then some (.error .vpdInfo)
        else
          match vpdList (attributes list) with
          | .error e => some (.error (.unicode e))
          | .ok vpd =>
            let info := ⟨device.1.vendor_id, device.1.device_id, vpd⟩
            pciInfoFrom (Assoc.set results device.1.address info) list rest

/-- `vpdEntryList()` -/
def vpdEntryList : List VpdEntry := List.replicate ENTRY_LIST_SIZE .cleared

/-- `pciInfo`, of the devices in `/proc/bus/pci/devices`. -/
def pciInfo (devices : List (PciEntry × File)) :
    Option (Except PciError (Assoc.Dict (Int × Byte × Byte × Byte) Info)) :=
  pciInfoFrom [] vpdEntryList devices

end Pci
