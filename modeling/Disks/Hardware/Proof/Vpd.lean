import Disks.Hardware.Vpd
import Mathlib.Data.List.Forall2

/-!
# What the VPD of a device leaves in the list

* `Tags`, `Blocks`: VPD data of which every read is inside the buffer, with what it stores.
* `vpdLoop_eq_some_iff`: when `getVPDInfo` reads inside its buffers, and what it then leaves.
* `getVPDInfo_content`: what a device leaves in the list.
-/

namespace Pci

open Bytes

/-! ## What is stored -/

/-- What an item stores: bytes at the start of the id and of the value, or nothing. -/
abbrev Store := Option (List Byte × List Byte)

/-- An entry in which an item was stored. -/
def VpdEntry.after (entry : VpdEntry) : Store → VpdEntry
  | none => entry
  | some s => ⟨store entry.id s.1, store entry.value s.2⟩

/-- The list after items that were counted from `counter` on. -/
def writeAll (counter : Nat) : List Store → List VpdEntry → List VpdEntry
  | [], list => list
  | s :: stores, list => writeAll (counter + 1) stores (list.modify counter (·.after s))

/-- An entry as C and Python leave it: of its size, and with a zero at the end of the id. -/
structure Sized (entry : VpdEntry) : Prop where
  id : entry.id.length = 3
  value : entry.value.length = 256
  last : entry.id[2]? = some 0

/-- What fits in an entry and leaves it so. -/
structure Fits (s : List Byte × List Byte) : Prop where
  id : s.1.length ≤ 3
  value : s.2.length ≤ 255
  last : s.1.length = 2 ∨ s.1[2]? = some 0

/-- What is stored for an item with a text. -/
def tagStore (id1 id2 tag_len : Byte) (rest : List Byte) : Store :=
  if isText id1 id2 then some (strncpyBytes [id1, id2] 2, strncpyBytes rest tag_len.toNat) else none

/-- Items in an area: `left` bytes of the area are left, and `bytes` of the buffer have been stored
from here on. An item has its three bytes there, and a text is there as a whole or ends with a
zero. -/
inductive Tags (list_size : Nat) : Nat → Nat → List Byte → List Store → Prop
  | done {counter : Nat} {bytes : List Byte} : Tags list_size counter 0 bytes []
  | item {counter left : Nat} {id1 id2 tag_len : Byte} {rest : List Byte} {stores : List Store}
      (hleft : 0 < left)
      (hread : counter < list_size → isText id1 id2 → tag_len.toNat ≤ rest.length ∨ 0 ∈ rest)
      (h : Tags list_size (counter + 1) (left - (3 + tag_len.toNat)) (rest.drop tag_len.toNat)
        stores) :
      Tags list_size counter left (id1 :: id2 :: tag_len :: rest)
        (tagStore id1 id2 tag_len rest :: stores)

/-- The length of a tag. -/
def lenOf (lo hi : Byte) : Nat := lo.toNat + (hi.toNat <<< 8)

/-- VPD data from a tag on, where `buff` has been stored in the buffer: no area that is there is
longer than the buffer, and the items of each whole area are read inside it. It has what is stored,
and whether it comes to the end tag. -/
inductive Blocks (list_size : Nat) : Nat → List Byte → List Byte → List Store → Bool → Prop
  | nothing {counter : Nat} {buff : List Byte} : Blocks list_size counter buff [] [] false
  | endTag {counter : Nat} {buff rest : List Byte} :
      Blocks list_size counter buff (0x78 :: rest) [] true
  | noLength {counter : Nat} {buff rest : List Byte} {id : Byte} (hid : id ≠ 0x78)
      (hrest : rest.length < 2) : Blocks list_size counter buff (id :: rest) [] false
  | ident {counter : Nat} {buff rest : List Byte} {lo hi : Byte} {stores : List Store} {ok : Bool}
      (h : Blocks list_size (counter + 1) (store buff [lo, hi]) (rest.drop (lenOf lo hi)) stores
        ok) :
      Blocks list_size counter buff (0x82 :: lo :: hi :: rest)
        (some (Pci.ident, rest.take (min (lenOf lo hi) 255)) :: stores) ok
  | cutArea {counter : Nat} {buff rest : List Byte} {id lo hi : Byte} (hid : id = 0x90 ∨ id = 0x91)
      (hcut : rest.length < lenOf lo hi) (hfits : rest.length ≤ BUFF_SIZE) :
      Blocks list_size counter buff (id :: lo :: hi :: rest) [] false
  | area {counter : Nat} {buff rest : List Byte} {id lo hi : Byte} {items stores : List Store}
      {ok : Bool} (hid : id = 0x90 ∨ id = 0x91) (hwhole : lenOf lo hi ≤ rest.length)
      (hfits : lenOf lo hi ≤ BUFF_SIZE)
      (hitems : Tags list_size counter (lenOf lo hi)
        (store (store buff [lo, hi]) (rest.take (lenOf lo hi))) items)
      (h : Blocks list_size (counter + items.length)
        (store (store buff [lo, hi]) (rest.take (lenOf lo hi))) (rest.drop (lenOf lo hi)) stores
        ok) :
      Blocks list_size counter buff (id :: lo :: hi :: rest) (items ++ stores) ok
  | unknown {counter : Nat} {buff rest : List Byte} {id lo hi : Byte}
      (hid : id ≠ 0x78 ∧ id ≠ 0x82 ∧ id ≠ 0x90 ∧ id ≠ 0x91) :
      Blocks list_size counter buff (id :: lo :: hi :: rest) [] false

/-! ## Entries -/

theorem length_store {buff data : List Byte} (h : data.length ≤ buff.length) :
    (store buff data).length = buff.length := by
  rw [store, List.length_append, List.length_drop]
  omega

theorem Sized.after {entry : VpdEntry} (h : Sized entry) {s : Store} (hs : ∀ x ∈ s, Fits x) :
    Sized (entry.after s) := by
  cases s with
  | none => exact h
  | some s =>
    have hfits := hs s rfl
    refine ⟨?_, ?_, ?_⟩
    · exact (length_store (by rw [h.id]; exact hfits.id)).trans h.id
    · exact (length_store (by rw [h.value]; exact Nat.le_succ_of_le hfits.value)).trans h.value
    · change (s.1 ++ entry.id.drop s.1.length)[2]? = some 0
      rcases hfits.last with htwo | hthree
      · rw [List.getElem?_append_right (by omega), List.getElem?_drop, htwo]
        exact h.last
      · obtain ⟨hlt, -⟩ := List.getElem?_eq_some_iff.mp hthree
        rw [List.getElem?_append_left hlt, hthree]

/-- The list entries stay as they are to be. -/
structure SizedList (list_size : Nat) (list : List VpdEntry) : Prop where
  length : list.length = list_size
  entries : ∀ entry ∈ list, Sized entry

theorem SizedList.modify {list_size : Nat} {list : List VpdEntry} (h : SizedList list_size list)
    {s : Store} (hs : ∀ x ∈ s, Fits x) (counter : Nat) :
    SizedList list_size (list.modify counter (·.after s)) := by
  refine ⟨by rw [List.length_modify, h.length], ?_⟩
  intro entry hentry
  obtain ⟨i, hi⟩ := List.mem_iff_getElem?.mp hentry
  rw [List.getElem?_modify] at hi
  obtain ⟨old, hold, rfl⟩ := Option.map_eq_some_iff.mp hi
  have hsized := h.entries old (List.mem_of_getElem? hold)
  split
  · exact hsized.after hs
  · exact hsized

theorem SizedList.writeAll {list_size : Nat} {list : List VpdEntry} (h : SizedList list_size list)
    {stores : List Store} (hs : ∀ s ∈ stores, ∀ x ∈ s, Fits x) (counter : Nat) :
    SizedList list_size (Pci.writeAll counter stores list) := by
  induction stores generalizing counter list with
  | nil => exact h
  | cons s stores ih =>
    obtain ⟨hfirst, hrest⟩ := List.forall_mem_cons.mp hs
    exact ih (h.modify hfirst counter) hrest (counter + 1)

theorem writeAll_append (counter : Nat) (stores more : List Store) (list : List VpdEntry) :
    writeAll counter (stores ++ more) list =
      writeAll (counter + stores.length) more (writeAll counter stores list) := by
  induction stores generalizing counter list with
  | nil => rfl
  | cons s stores ih =>
    rw [List.cons_append, writeAll, ih, List.length_cons, writeAll, Nat.add_right_comm,
      ← Nat.add_assoc]

theorem tagStore_fits (id1 id2 tag_len : Byte) (rest : List Byte) :
    ∀ x ∈ tagStore id1 id2 tag_len rest, Fits x := by
  intro x hx
  unfold tagStore at hx
  split at hx
  · cases hx
    have hlt := tag_len.isLt
    refine ⟨?_, ?_, .inl (length_strncpyBytes ..)⟩
    · rw [length_strncpyBytes]
      decide
    · rw [length_strncpyBytes]
      omega
  · cases hx

theorem Tags.fits {list_size counter left : Nat} {bytes : List Byte} {stores : List Store}
    (h : Tags list_size counter left bytes stores) : ∀ s ∈ stores, ∀ x ∈ s, Fits x := by
  induction h with
  | done => simp
  | item _ _ _ ih => exact List.forall_mem_cons.mpr ⟨tagStore_fits _ _ _ _, ih⟩

theorem ident_fits (data : List Byte) (n : Nat) : Fits (ident, data.take (min n 255)) := by
  refine ⟨Nat.le_refl 3, ?_, .inr rfl⟩
  exact (List.length_take_le ..).trans (Nat.min_le_right ..)

theorem Blocks.fits {list_size counter : Nat} {buff bytes : List Byte} {stores : List Store}
    {ok : Bool} (h : Blocks list_size counter buff bytes stores ok) :
    ∀ s ∈ stores, ∀ x ∈ s, Fits x := by
  induction h with
  | nothing | endTag | noLength | cutArea | unknown => simp
  | ident _ ih =>
    refine List.forall_mem_cons.mpr ⟨?_, ih⟩
    intro x hx
    cases hx
    exact ident_fits ..
  | area _ _ _ hitems _ ih =>
    intro s hs
    rcases List.mem_append.mp hs with hs | hs
    · exact hitems.fits s hs
    · exact ih s hs

/-! ## The items of an area -/

theorem modify_eq_set {list : List VpdEntry} {counter : Nat} {entry : VpdEntry}
    (h : list[counter]? = some entry) (s : Store) :
    list.modify counter (·.after s) = list.set counter (entry.after s) := by
  apply List.ext_getElem?
  intro i
  rw [List.getElem?_modify, List.getElem?_set]
  by_cases hi : counter = i
  · have hlt := (List.getElem?_eq_some_iff.mp h).1
    subst hi
    rw [if_pos rfl, h, if_pos hlt, Option.map_eq_map, Option.map_some, if_pos rfl]
  · simp [hi]

/-- A text is stored where it can be read. -/
theorem storeTag_eq {list_size : Nat} {buff rest : List Byte} {pos counter : Nat}
    {id1 id2 tag_len : Byte} {list : List VpdEntry}
    (hdrop : buff.drop pos = id1 :: id2 :: tag_len :: rest) (hlist : SizedList list_size list)
    (hcounter : counter < list_size) :
    storeTag buff pos tag_len counter list =
      if tag_len.toNat ≤ rest.length ∨ 0 ∈ rest then
        some (list.modify counter
          (·.after (some (strncpyBytes [id1, id2] 2, strncpyBytes rest tag_len.toNat))))
      else none := by
  have hlt : counter < list.length := by rwa [hlist.length]
  have hentry : list[counter]? = some list[counter] := List.getElem?_eq_getElem hlt
  have hsized := hlist.entries _ (List.mem_of_getElem? hentry)
  have hlength := congrArg List.length hdrop
  rw [List.length_drop, List.length_cons, List.length_cons, List.length_cons] at hlength
  have hrest : buff.drop (pos + 3) = rest := by
    rw [← List.drop_drop, hdrop]
    rfl
  have htag := tag_len.isLt
  have hid : copyInto buff list[counter].id pos 2 =
      some (store list[counter].id (strncpyBytes [id1, id2] 2)) := by
    have htwo : strncpyBytes (id1 :: id2 :: tag_len :: rest) 2 = strncpyBytes [id1, id2] 2 := rfl
    rw [copyInto, if_pos (by rw [hsized.id]; decide), strncpyAt, if_pos (.inr (.inl (by omega))),
      strncpy, hdrop, htwo, store, length_strncpyBytes]
  have hvalue : copyInto buff list[counter].value (pos + 3) tag_len.toNat =
      if tag_len.toNat ≤ rest.length ∨ 0 ∈ rest then
        some (store list[counter].value (strncpyBytes rest tag_len.toNat)) else none := by
    have hread : (tag_len.toNat = 0 ∨ pos + 3 + tag_len.toNat ≤ buff.length ∨
        (buff.drop (pos + 3)).contains 0) ↔ tag_len.toNat ≤ rest.length ∨ 0 ∈ rest := by
      rw [hrest, List.contains_iff_mem, ← or_assoc]
      exact or_congr_left (by omega)
    rw [copyInto, if_pos (by rw [hsized.value]; omega), strncpyAt, if_congr hread rfl rfl, strncpy,
      hrest, store, length_strncpyBytes]
  unfold storeTag
  rw [modify_eq_set hentry]
  simp only [hentry, Option.bind_eq_bind, Option.bind_some, hid, hvalue]
  split <;> rfl

/-- An item, where its text can be read. -/
theorem storeItem_eq {list_size : Nat} {buff rest : List Byte} {pos counter : Nat}
    {id1 id2 tag_len : Byte} {list : List VpdEntry}
    (hdrop : buff.drop pos = id1 :: id2 :: tag_len :: rest) (hlist : SizedList list_size list) :
    storeItem list_size buff pos id1 id2 tag_len counter list =
      if counter < list_size → isText id1 id2 → tag_len.toNat ≤ rest.length ∨ 0 ∈ rest then
        some (list.modify counter (·.after (tagStore id1 id2 tag_len rest)))
      else none := by
  unfold storeItem tagStore
  by_cases htext : isText id1 id2
  · by_cases hcounter : counter < list_size
    · rw [storeTag_eq hdrop hlist hcounter]
      simp [htext, hcounter]
    · have hmodify : list.modify counter
          (·.after (some (strncpyBytes [id1, id2] 2, strncpyBytes rest tag_len.toNat))) = list :=
        List.modify_eq_self (by rw [hlist.length]; omega)
      simp [htext, hcounter, hmodify]
  · have hmodify : list.modify counter (·.after none) = list := List.modify_id counter list
    simp [htext, hmodify]

/-- A turn of the loop over the items. -/
theorem tagLoop_item {list_size : Nat} {buff rest : List Byte} {len pos counter : Nat}
    {id1 id2 tag_len : Byte} {list : List VpdEntry} (hpos : pos < len)
    (hdrop : buff.drop pos = id1 :: id2 :: tag_len :: rest) (hlist : SizedList list_size list) :
    tagLoop list_size buff len pos counter list =
      if counter < list_size → isText id1 id2 → tag_len.toNat ≤ rest.length ∨ 0 ∈ rest then
        tagLoop list_size buff len (pos + 3 + tag_len.toNat) (counter + 1)
          (list.modify counter (·.after (tagStore id1 id2 tag_len rest)))
      else none := by
  have hget (k : Nat) : buff[pos + k]? = (id1 :: id2 :: tag_len :: rest)[k]? := by
    rw [← hdrop, List.getElem?_drop]
  have hid1 : buff[pos]? = some id1 := hget 0
  have hid2 : buff[pos + 1]? = some id2 := hget 1
  have htag : buff[pos + 2]? = some tag_len := hget 2
  conv_lhs => rw [tagLoop]
  rw [dif_pos hpos]
  simp only [hid1, hid2, htag, Option.bind_eq_bind, Option.bind_some, storeItem_eq hdrop hlist]
  split <;> rfl

theorem tagLoop_short {list_size : Nat} {buff : List Byte} {len pos counter : Nat}
    {list : List VpdEntry} (hpos : pos < len) (hshort : (buff.drop pos).length < 3) :
    tagLoop list_size buff len pos counter list = none := by
  have htag : buff[pos + 2]? = none := by
    rw [List.length_drop] at hshort
    exact List.getElem?_eq_none (by omega)
  rw [tagLoop, dif_pos hpos, htag]
  cases buff[pos]? with
  | none => rfl
  | some id1 =>
    cases buff[pos + 1]? with
    | none => rfl
    | some id2 => rfl

theorem tagLoop_of_tags {list_size counter left : Nat} {bytes : List Byte} {stores : List Store}
    (h : Tags list_size counter left bytes stores) {buff : List Byte} {len pos : Nat}
    {list : List VpdEntry} (hbytes : bytes = buff.drop pos) (hleft : left = len - pos)
    (hlist : SizedList list_size list) :
    tagLoop list_size buff len pos counter list =
      some (counter + stores.length, writeAll counter stores list) := by
  induction h generalizing pos list with
  | done =>
    rw [tagLoop, dif_neg (by omega)]
    rfl
  | @item counter left id1 id2 tag_len rest stores hpos hread _ ih =>
    have hrest : rest.drop tag_len.toNat = buff.drop (pos + 3 + tag_len.toNat) := by
      rw [← List.drop_drop, ← List.drop_drop, ← hbytes]
      rfl
    rw [tagLoop_item (by omega) hbytes.symm hlist, if_pos hread,
      ih hrest (by omega) (hlist.modify (tagStore_fits _ _ _ _) counter), List.length_cons]
    rw [Nat.add_right_comm, Nat.add_assoc]
    rfl

theorem tags_of_tagLoop {list_size : Nat} {buff : List Byte} {len pos counter : Nat}
    {list : List VpdEntry} {r : Nat × List VpdEntry} (hlist : SizedList list_size list)
    (h : tagLoop list_size buff len pos counter list = some r) :
    ∃ stores, Tags list_size counter (len - pos) (buff.drop pos) stores := by
  -- by what is left of the area
  induction hn : len - pos using Nat.strong_induction_on generalizing pos counter list with
  | _ n ih =>
    by_cases hpos : pos < len
    · match hdrop : buff.drop pos with
      | id1 :: id2 :: tag_len :: rest =>
        rw [tagLoop_item hpos hdrop hlist] at h
        split at h
        · rename_i hread
          obtain ⟨stores, hstores⟩ := ih (len - (pos + 3 + tag_len.toNat)) (by omega)
            (hlist.modify (tagStore_fits _ _ _ _) counter) h rfl
          have hrest : buff.drop (pos + 3 + tag_len.toNat) = rest.drop tag_len.toNat := by
            rw [← List.drop_drop, ← List.drop_drop, hdrop]
            rfl
          rw [hrest, Nat.add_assoc, ← Nat.sub_sub, hn] at hstores
          exact ⟨_, .item (by omega) hread hstores⟩
        · cases h
      | [] | [_] | [_, _] =>
        rw [tagLoop_short hpos (by rw [hdrop]; simp)] at h
        cases h
    · rw [← hn, Nat.sub_eq_zero_of_le (Nat.le_of_not_lt hpos)]
      exact ⟨[], .done⟩

/-- **The loop over the items of an area**: it stays in the buffer where the items do. -/
theorem tagLoop_eq_some_iff {list_size : Nat} {buff : List Byte} {len counter : Nat}
    {list : List VpdEntry} {r : Nat × List VpdEntry} (hlist : SizedList list_size list) :
    tagLoop list_size buff len 0 counter list = some r ↔ ∃ stores,
      Tags list_size counter len buff stores ∧
        r = (counter + stores.length, writeAll counter stores list) := by
  constructor
  · intro h
    obtain ⟨stores, hstores⟩ := tags_of_tagLoop hlist h
    rw [tagLoop_of_tags hstores rfl rfl hlist, Option.some.injEq] at h
    exact ⟨stores, hstores, h.symm⟩
  · intro h
    obtain ⟨stores, hstores, rfl⟩ := h
    exact tagLoop_of_tags hstores rfl rfl hlist

/-! ## The tags -/

/-- What the loop over the tags gives. -/
def loopResult (counter : Nat) (list : List VpdEntry) (stores : List Store) (ok : Bool) :
    Option Nat × List VpdEntry :=
  (if ok then some (counter + stores.length) else none, writeAll counter stores list)

theorem loopResult_append (counter : Nat) (list : List VpdEntry) (items stores : List Store)
    (ok : Bool) : loopResult counter list (items ++ stores) ok =
      loopResult (counter + items.length) (writeAll counter items list) stores ok := by
  rw [loopResult, loopResult, writeAll_append, List.length_append, Nat.add_assoc]

/-- The identifier is stored. -/
theorem storeIdent_eq {list_size : Nat} {list : List VpdEntry} (hlist : SizedList list_size list)
    {counter : Nat} (hcounter : counter < list_size) (data : List Byte) (n : Nat) :
    storeIdent (data.take (min n 255)) counter list =
      some (list.modify counter (·.after (some (ident, data.take (min n 255))))) := by
  have hlt : counter < list.length := by rwa [hlist.length]
  have hentry : list[counter]? = some list[counter] := List.getElem?_eq_getElem hlt
  have hsized := hlist.entries _ (List.mem_of_getElem? hentry)
  have hfits := ident_fits data n
  have hroom : ident.length ≤ list[counter].id.length ∧
      (data.take (min n 255)).length ≤ list[counter].value.length := by
    rw [hsized.id, hsized.value]
    exact ⟨hfits.id, Nat.le_succ_of_le hfits.value⟩
  unfold storeIdent
  rw [modify_eq_set hentry]
  simp only [hentry, Option.bind_eq_bind, Option.bind_some, if_pos hroom]
  rfl

/-- A turn of the loop for the identifier. -/
theorem vpdLoop_ident {list_size : Nat} {list : List VpdEntry} (hlist : SizedList list_size list)
    (lo hi : Byte) (rest buff : List Byte) (counter : Nat) :
    vpdLoop list_size (0x82 :: lo :: hi :: rest) buff counter list =
      vpdLoop list_size (rest.drop (lenOf lo hi)) (store buff [lo, hi]) (counter + 1)
        (list.modify counter
          (·.after (some (ident, rest.take (min (lenOf lo hi) 255))))) := by
  have hstored : (if counter < list_size then
        storeIdent (rest.take (min (lenOf lo hi) 255)) counter list else some list) =
      some (list.modify counter
        (·.after (some (ident, rest.take (min (lenOf lo hi) 255))))) := by
    by_cases hcounter : counter < list_size
    · rw [if_pos hcounter, storeIdent_eq hlist hcounter]
    · rw [if_neg hcounter, List.modify_eq_self (by rw [hlist.length]; omega)]
  have hend : ¬ (0x82 : Byte) = 0x78 := by decide
  conv_lhs => rw [vpdLoop]
  simp only [hend, if_false, if_true]
  rw [← lenOf, hstored]

/-- A turn of the loop for an area. -/
theorem vpdLoop_area {id : Byte} (hid : id = 0x90 ∨ id = 0x91) (list_size : Nat) (lo hi : Byte)
    (rest buff : List Byte) (counter : Nat) (list : List VpdEntry) :
    vpdLoop list_size (id :: lo :: hi :: rest) buff counter list =
      if BUFF_SIZE < min (lenOf lo hi) rest.length then none
      else if rest.length < lenOf lo hi then some (none, list)
      else
        match tagLoop list_size (store (store buff [lo, hi]) (rest.take (lenOf lo hi)))
          (lenOf lo hi) 0 counter list with
        | none => none
        | some r => vpdLoop list_size (rest.drop (lenOf lo hi))
            (store (store buff [lo, hi]) (rest.take (lenOf lo hi))) r.1 r.2 := by
  have hend : ¬ id = 0x78 := by rcases hid with rfl | rfl <;> decide
  have hident : ¬ id = 0x82 := by rcases hid with rfl | rfl <;> decide
  have hshort : ¬ min (lenOf lo hi) rest.length = lenOf lo hi ↔ rest.length < lenOf lo hi := by
    omega
  conv_lhs => rw [vpdLoop]
  simp only [hend, hident, hid, if_false, if_true]
  rw [← lenOf, List.length_take, if_congr hshort rfl rfl]
  cases tagLoop list_size (store (store buff [lo, hi]) (rest.take (lenOf lo hi))) (lenOf lo hi) 0
    counter list <;> rfl

theorem vpdLoop_unknown {id : Byte} (hid : id ≠ 0x78 ∧ id ≠ 0x82 ∧ id ≠ 0x90 ∧ id ≠ 0x91)
    (list_size : Nat) (lo hi : Byte) (rest buff : List Byte) (counter : Nat)
    (list : List VpdEntry) :
    vpdLoop list_size (id :: lo :: hi :: rest) buff counter list = some (none, list) := by
  rw [vpdLoop, if_neg hid.1]
  simp only [if_neg hid.2.1, if_neg (not_or.mpr hid.2.2)]

theorem vpdLoop_noLength {id : Byte} (hid : id ≠ 0x78) {rest : List Byte} (hrest : rest.length < 2)
    (list_size : Nat) (buff : List Byte) (counter : Nat) (list : List VpdEntry) :
    vpdLoop list_size (id :: rest) buff counter list = some (none, list) := by
  match rest, hrest with
  | [], _ | [_], _ =>
    rw [vpdLoop.eq_def]
    exact if_neg hid

theorem vpdLoop_of_blocks {list_size counter : Nat} {buff bytes : List Byte} {stores : List Store}
    {ok : Bool} (h : Blocks list_size counter buff bytes stores ok) {list : List VpdEntry}
    (hlist : SizedList list_size list) :
    vpdLoop list_size bytes buff counter list = some (loopResult counter list stores ok) := by
  induction h generalizing list with
  | nothing => rw [vpdLoop]; rfl
  | endTag =>
    rw [vpdLoop.eq_def]
    exact if_pos rfl
  | noLength hid hrest => exact vpdLoop_noLength hid hrest ..
  | @ident counter _ rest lo hi stores ok _ ih =>
    have hfits : ∀ x ∈ some (Pci.ident, rest.take (min (lenOf lo hi) 255)), Fits x := by
      intro x hx
      cases hx
      exact ident_fits ..
    rw [vpdLoop_ident hlist, ih (hlist.modify hfits counter)]
    exact congrArg some (loopResult_append counter list [_] stores ok).symm
  | cutArea hid hcut hfits =>
    rw [vpdLoop_area hid, if_neg (by omega), if_pos hcut]
    rfl
  | @area counter _ rest id lo hi items stores ok hid hwhole hfits hitems _ ih =>
    rw [vpdLoop_area hid, if_neg (by omega), if_neg (by omega),
      tagLoop_of_tags hitems rfl rfl hlist, loopResult_append]
    exact ih (hlist.writeAll hitems.fits counter)
  | unknown hid => exact vpdLoop_unknown hid ..

theorem blocks_of_vpdLoop {list_size : Nat} {bytes buff : List Byte} {counter : Nat}
    {list : List VpdEntry} {r : Option Nat × List VpdEntry} (hlist : SizedList list_size list)
    (h : vpdLoop list_size bytes buff counter list = some r) :
    ∃ stores ok, Blocks list_size counter buff bytes stores ok := by
  -- by what is left of the VPD
  induction hn : bytes.length using Nat.strong_induction_on
    generalizing bytes buff counter list with
  | _ n ih =>
    match bytes with
    | [] => exact ⟨[], false, .nothing⟩
    | id :: rest =>
      by_cases hend : id = 0x78
      · rw [hend]
        exact ⟨[], true, .endTag⟩
      match rest with
      | [] | [_] => exact ⟨[], false, .noLength hend (by simp)⟩
      | lo :: hi :: rest =>
        have hless (k : Nat) : (rest.drop k).length < n := by
          rw [← hn, List.length_drop, List.length_cons, List.length_cons, List.length_cons]
          omega
        by_cases hident : id = 0x82
        · rw [hident] at h ⊢
          rw [vpdLoop_ident hlist] at h
          have hfits : ∀ x ∈ some (ident, rest.take (min (lenOf lo hi) 255)), Fits x := by
            intro x hx
            cases hx
            exact ident_fits ..
          obtain ⟨stores, ok, hstores⟩ := ih _ (hless _) (hlist.modify hfits counter) h rfl
          exact ⟨_, ok, .ident hstores⟩
        by_cases harea : id = 0x90 ∨ id = 0x91
        · rw [vpdLoop_area harea] at h
          split at h
          · cases h
          rename_i hroom
          split at h
          · rename_i hcut
            exact ⟨[], false, .cutArea harea hcut (by omega)⟩
          · rename_i hwhole
            split at h
            · cases h
            · rename_i r' htags
              obtain ⟨items, hitems, rfl⟩ := (tagLoop_eq_some_iff hlist).mp htags
              obtain ⟨stores, ok, hstores⟩ :=
                ih _ (hless _) (hlist.writeAll hitems.fits counter) h rfl
              exact ⟨_, ok, .area harea (by omega) (by omega) hitems hstores⟩
        · rw [not_or] at harea
          exact ⟨[], false, .unknown ⟨hend, hident, harea⟩⟩

/-- **When the VPD is read inside the buffer**, and what the loop over its tags then gives. -/
theorem vpdLoop_eq_some_iff {list_size : Nat} {bytes buff : List Byte} {counter : Nat}
    {list : List VpdEntry} {r : Option Nat × List VpdEntry} (hlist : SizedList list_size list) :
    vpdLoop list_size bytes buff counter list = some r ↔ ∃ stores ok,
      Blocks list_size counter buff bytes stores ok ∧ r = loopResult counter list stores ok := by
  constructor
  · intro h
    obtain ⟨stores, ok, hblocks⟩ := blocks_of_vpdLoop hlist h
    rw [vpdLoop_of_blocks hblocks hlist, Option.some.injEq] at h
    exact ⟨stores, ok, hblocks, h.symm⟩
  · intro h
    obtain ⟨stores, ok, hblocks, rfl⟩ := h
    exact vpdLoop_of_blocks hblocks hlist

/-! ## A device -/

theorem cleared_sized : Sized .cleared := ⟨List.length_replicate, List.length_replicate, rfl⟩

theorem vpdEntryList_sized : SizedList ENTRY_LIST_SIZE vpdEntryList := by
  refine ⟨List.length_replicate, fun entry hentry => ?_⟩
  rw [List.eq_of_mem_replicate hentry]
  exact cleared_sized

theorem SizedList.clear {list_size : Nat} {first : VpdEntry} {rest : List VpdEntry}
    (h : SizedList list_size (first :: rest)) : SizedList list_size (.cleared :: rest) :=
  ⟨h.length, List.forall_mem_cons.mpr ⟨cleared_sized, (List.forall_mem_cons.mp h.entries).2⟩⟩

theorem getVPDInfo_content {list_size : Nat} {bytes : List Byte} {stores : List Store} {ok : Bool}
    (hblocks : Blocks list_size 0 [] bytes stores ok) {first : VpdEntry}
    {rest : List VpdEntry} (hlist : SizedList list_size (first :: rest)) :
    getVPDInfo list_size (.content bytes) (first :: rest) =
      some (if ok then (stores.length : Int) - 1 else -1,
        writeAll 0 stores (.cleared :: rest)) := by
  simp only [getVPDInfo, vpdLoop_of_blocks hblocks hlist.clear, loopResult, Nat.zero_add]
  cases ok <;> rfl

end Pci
