import Disks.Drive.Ata

/-!
# SMART attributes of ATA drives (`ata.c`, `CMD_SMART_ATTRIBS`)

Two pages of 30 entries each: the values, and the thresholds that go with them by id. The answer is
a `struct smart_attribs`, here the list of its attributes.
-/

namespace Drive

open Bytes

def NUM_ATA_SMART_ATTRIBS : Nat := 30

/-- `sizeof( struct smart_attribs )`. -/
def sizeofSmartAttribs : Nat := 508

/-- `struct ata_smart_attrib`: the fields that are read. -/
structure AtaSmartAttrib where
  id : Byte
  curValue : Byte
  maxValue : Byte
  rawValue : List Byte
deriving DecidableEq, Repr

/-- `struct ata_smart_threshold`: the fields that are read. -/
structure AtaSmartThreshold where
  id : Byte
  threshold : Byte
deriving DecidableEq, Repr

/-- `struct smart_attrib_ata`. -/
structure SmartAttribAta where
  id : Byte
  current : Byte
  max : Byte
  threshold : Byte
  raw : U64
deriving DecidableEq, Repr

/-- `attrib[i]`, 12 bytes from byte 2 on. -/
def attribAt (tdata : List Byte) (i : Nat) : AtaSmartAttrib :=
  let b (j : Nat) : Byte := tdata.getD (2 + 12 * i + j) 0
  ⟨b 0, b 3, b 4, [b 5, b 6, b 7, b 8, b 9, b 10]⟩

/-- `threshold[i]`. -/
def thresholdAt (tdata : List Byte) (i : Nat) : AtaSmartThreshold :=
  let b (j : Nat) : Byte := tdata.getD (2 + 12 * i + j) 0
  ⟨b 0, b 1⟩

/-- `.raw`: one byte of a temperature or a wear level, and six bytes otherwise. -/
def rawOf (a : AtaSmartAttrib) : U64 :=
  let b (i : Nat) : U64 := (a.rawValue.getD i 0).setWidth 64
  if a.id = 194 ∨ a.id = 190 ∨ a.id = 231 then b 0
  else (b 5 <<< 40) ||| (b 4 <<< 32) ||| (b 3 <<< 24) ||| (b 2 <<< 16) ||| (b 1 <<< 8) ||| b 0

/-- An entry of the values page as an attribute. -/
def AtaSmartAttrib.report (a : AtaSmartAttrib) : SmartAttribAta :=
  ⟨a.id, a.curValue, a.maxValue, 0, rawOf a⟩

/-- The loop over the values: empty entries are skipped. -/
def smartValues (tdata : List Byte) : List SmartAttribAta :=
  (List.range NUM_ATA_SMART_ATTRIBS).filterMap fun i =>
    let a := attribAt tdata i
    if a.id = 0 then none else some a.report

/-- The inner loop over the attributes: the first with the id is given the threshold. -/
def setThreshold (attribs : List SmartAttribAta) (t : AtaSmartThreshold) : List SmartAttribAta :=
  match attribs with
  | [] => []
  | a :: rest =>
    if a.id = t.id then { a with threshold := t.threshold } :: rest else a :: setThreshold rest t

/-- The loop over the thresholds: it ends at the first empty entry. -/
def smartThresholds (tdata : List Byte) (attribs : List SmartAttribAta) : List SmartAttribAta :=
  (((List.range NUM_ATA_SMART_ATTRIBS).map (thresholdAt tdata)).takeWhile (·.id ≠ 0)).foldl
    setThreshold attribs

/-- `CMD_SMART_ATTRIBS`: the return code and the attributes it leaves. -/
def ataSmartAttribs {W : Type} (send : Cmd W) (dataLen : Nat) (w : W) :
    Option (Int × List SmartAttribAta × W) :=
  if dataLen < sizeofSmartAttribs then some (-1, [], w)
  else do
    let v ← send .ataSmartAttribsValues .read (some zeroed) 512 [] w
    if v.rc ≠ 0 then some (-1, [], v.world)
    else
      let attribs := smartValues v.data
      let t ← send .ataSmartAttribsThresholds .read (some zeroed) 512 [] v.world
      if t.rc ≠ 0 then some (-1, attribs, t.world)
      else some (0, smartThresholds t.data attribs, t.world)

end Drive
