import Disks.Hardware.Proof.Vpd
import Disks.Lib.Fold

/-!
# The devices are reported by themselves

What a device is reported with, in two runs that differ in the VPD of other devices.

* `safeCString_append_iff`: what bytes behind a text do to it.
* `vpdList_eq_iff`: when a list that was used shows what a cleared one would.
* `turn_own_iff`, `turns_own_iff`: when a device, and a run, shows what the VPD alone would.
* `report_alone`: a run in which no other device has a VPD.
* `pciInfo_isolated_iff`: **when the report of each device depends on its own VPD only.**
-/

namespace Pci

open Bytes
open Manager (Text LoadError decode)
open Lines (isspace strip)

/-! ## Texts -/

def bytesOf (bs : List Byte) : ByteArray := ⟨(bs.map UInt8.ofBitVec).toArray⟩

theorem bytesOf_append (v w : List Byte) : bytesOf (v ++ w) = bytesOf v ++ bytesOf w := by
  simp [bytesOf, ByteArray.ext_iff]

theorem fromUTF8?_eq_some_iff {b : ByteArray} {s : String} :
    String.fromUTF8? b = some s ↔ b = s.toByteArray := by
  unfold String.fromUTF8?
  by_cases h : b.IsValidUTF8
  · rw [dif_pos h, Option.some.injEq, ← String.toByteArray_inj]
    exact Iff.rfl
  · rw [dif_neg h]
    refine iff_of_false (fun heq => by cases heq) fun heq => h ?_
    rw [heq]
    exact s.isValidUTF8

theorem decode_eq_ok {bs : List Byte} {text : Text} :
    decode bs = .ok text ↔ bytesOf bs = text.utf8Encode := by
  have hdecode : decode bs = .ok text ↔ ∃ s, String.fromUTF8? (bytesOf bs) = some s ∧
      s.toList = text := by
    rw [decode, bytesOf]
    cases String.fromUTF8? _ <;> simp
  rw [hdecode]
  constructor
  · rintro ⟨s, hs, rfl⟩
    rw [fromUTF8?_eq_some_iff.mp hs, String.utf8Encode_toList]
  · intro h
    refine ⟨String.ofList text, fromUTF8?_eq_some_iff.mpr ?_, String.toList_ofList⟩
    rw [h, String.toByteArray_ofList]

theorem decode_append {v w : List Byte} {front text : Text} (h : decode v = .ok front) :
    decode (v ++ w) = .ok text ↔ ∃ back, decode w = .ok back ∧ text = front ++ back := by
  simp only [decode_eq_ok] at h ⊢
  rw [bytesOf_append, h]
  constructor
  · intro heq
    obtain ⟨back, rfl⟩ := List.isPrefix_of_utf8Encode_append_eq_utf8Encode _ heq
    rw [List.utf8Encode_append, ByteArray.append_right_inj] at heq
    exact ⟨back, heq, rfl⟩
  · rintro ⟨back, hback, rfl⟩
    rw [hback, List.utf8Encode_append]

/-- Bytes that are white space. -/
def Blank (bytes : List Byte) : Prop := ∃ text, decode bytes = .ok text ∧ ∀ c ∈ text, isspace c

theorem safeCString_eq_ok {v : List Byte} {text : Text} :
    safeCString v = .ok text ↔ ∃ front, decode v = .ok front ∧
      ((strip front).map fun char => if SAFE_CHARS.contains char then char else ' ') = text := by
  unfold safeCString
  cases decode v <;> simp [Except.map]

/-- What stands behind a text changes nothing where it is white space. -/
theorem safeCString_append_iff {v w : List Byte} {text : Text} (h : safeCString v = .ok text) :
    safeCString (v ++ w) = .ok text ↔ Blank w := by
  obtain ⟨front, hfront, rfl⟩ := safeCString_eq_ok.mp h
  rw [safeCString_eq_ok]
  constructor
  · rintro ⟨whole, hwhole, hsame⟩
    obtain ⟨back, hback, rfl⟩ := (decode_append hfront).mp hwhole
    refine ⟨back, hback, fun c hc => ?_⟩
    by_contra hspace
    have hlt : (Lines.strip front).length < (Lines.strip (front ++ back)).length :=
      Lines.length_strip_append_lt hc (by simpa using hspace)
    have hlength := congrArg List.length hsame
    rw [List.length_map, List.length_map] at hlength
    omega
  · rintro ⟨back, hback, hspace⟩
    refine ⟨front ++ back, (decode_append hfront).mpr ⟨back, hback, rfl⟩, ?_⟩
    rw [Lines.strip_append hspace]

/-! ## What shows of an entry -/

/-- The texts of an entry that has an id. -/
def VpdEntry.shown (vpd : VpdEntry) : Option (Except LoadError (Text × Text)) :=
  vpd.attribute.map vpdText

theorem vpdText_eq_ok {vpd : List Byte × List Byte} {id value : Text} :
    vpdText vpd = .ok (id, value) ↔ safeCString vpd.1 = .ok id ∧ safeCString vpd.2 = .ok value := by
  unfold vpdText
  cases safeCString vpd.1 with
  | error e => simp [bind, Except.bind]
  | ok i => cases safeCString vpd.2 <;> simp [bind, Except.bind, pure, Except.pure]

theorem vpdList_eq_ok {list : List VpdEntry} {vpd : List (Text × Text)} :
    vpdList (attributes list) = .ok vpd ↔ list.filterMap VpdEntry.shown = vpd.map .ok := by
  rw [vpdList, Fold.mapM_eq_ok, attributes, List.map_filterMap]
  rfl

/-- What an entry had before does not show: an entry in which nothing is stored has no id, and a
value that is stored has a zero, or only white space behind it, or has no id. -/
def HiddenAt (entry : VpdEntry) : Store → Prop
  | none => cstr entry.id = []
  | some s => cstr s.1 = [] ∨ 0 ∈ s.2 ∨ Blank (cstr (entry.value.drop s.2.length))

/-- What is stored is shown as texts. -/
def ReadableAt : Store → Prop
  | none => True
  | some s => cstr s.1 = [] ∨ ∃ text, vpdText (cstr s.1, cstr s.2) = .ok text

/-- What is stored in an id is all that there is. -/
theorem store_id {entry : VpdEntry} (h : Sized entry) {s : List Byte × List Byte} (hs : Fits s) :
    store entry.id s.1 = s.1 ++ List.replicate (3 - s.1.length) 0 := by
  rw [store, List.append_cancel_left_eq]
  rcases hs.last with htwo | hthree
  · have hdrop : entry.id.drop 2 = [0] := by
      obtain ⟨hlt, hget⟩ := List.getElem?_eq_some_iff.mp h.last
      rw [List.drop_eq_getElem_cons hlt, hget, List.drop_eq_nil_of_le (by rw [h.id])]
    rw [htwo, hdrop]
    rfl
  · obtain ⟨hlt, -⟩ := List.getElem?_eq_some_iff.mp hthree
    have hfits := hs.id
    rw [List.drop_eq_nil_of_le (by rw [h.id]; omega), Nat.sub_eq_zero_of_le (by omega)]
    rfl

theorem attribute_after {entry : VpdEntry} (h : Sized entry) {s : List Byte × List Byte}
    (hs : Fits s) : (entry.after (some s)).attribute =
      if cstr s.1 = [] then none
      else some (cstr s.1,
        if 0 ∈ s.2 then cstr s.2 else s.2 ++ cstr (entry.value.drop s.2.length)) := by
  simp only [VpdEntry.attribute, VpdEntry.after, store_id h hs, cstr_append_zeros]
  rw [store, cstr_append]

theorem attribute_cleared {s : List Byte × List Byte} (hs : Fits s) :
    (VpdEntry.cleared.after (some s)).attribute =
      if cstr s.1 = [] then none else some (cstr s.1, cstr s.2) := by
  have hzeros : cstr (VpdEntry.cleared.value.drop s.2.length) = [] := by
    rw [VpdEntry.cleared, List.drop_replicate, cstr_zeros]
  rw [attribute_after cleared_sized hs, hzeros, List.append_nil]
  by_cases hzero : 0 ∈ s.2
  · rw [if_pos hzero]
  · rw [if_neg hzero, cstr_of_notMem hzero]

/-- An entry shows nothing else than a cleared one would exactly where it hides what it had. -/
theorem shown_after_iff {entry : VpdEntry} (h : Sized entry) {s : Store} (hs : ∀ x ∈ s, Fits x)
    (hread : ReadableAt s) :
    (entry.after s).shown = (VpdEntry.cleared.after s).shown ↔ HiddenAt entry s := by
  cases s with
  | none =>
    change entry.attribute.map vpdText = none ↔ cstr entry.id = []
    rw [Option.map_eq_none_iff, VpdEntry.attribute]
    split
    · rename_i hid
      exact iff_of_true rfl hid
    · rename_i hid
      exact iff_of_false (by simp) hid
  | some s =>
    rw [VpdEntry.shown, VpdEntry.shown, attribute_after h (hs s rfl), attribute_cleared (hs s rfl),
      HiddenAt]
    by_cases hid : cstr s.1 = []
    · simp only [hid, if_true, true_or]
    · obtain ⟨⟨id, value⟩, htext⟩ := hread.resolve_left hid
      rw [if_neg hid, if_neg hid, Option.map_some, Option.map_some, Option.some.injEq, htext,
        vpdText_eq_ok]
      obtain ⟨hidText, hvalue⟩ := vpdText_eq_ok.mp htext
      simp only [hid, false_or, hidText, true_and]
      by_cases hzero : 0 ∈ s.2
      · simp only [hzero, if_true, true_or, hvalue]
      · rw [cstr_of_notMem hzero] at hvalue
        simp only [hzero, if_false, false_or]
        exact safeCString_append_iff hvalue

/-- What shows of a cleared entry shows of any. -/
theorem shown_mono {entry : VpdEntry} (h : Sized entry) {s : Store} (hs : ∀ x ∈ s, Fits x)
    (hshown : (VpdEntry.cleared.after s).shown.isSome) : (entry.after s).shown.isSome := by
  cases s with
  | none => cases hshown
  | some s =>
    rw [VpdEntry.shown, attribute_cleared (hs s rfl)] at hshown
    rw [VpdEntry.shown, attribute_after h (hs s rfl)]
    split at hshown
    · cases hshown
    · rename_i hid
      rw [if_neg hid]
      rfl

/-! ## What shows of a list -/

section

variable {α β : Type} {f : α → Option β} {xs ys : List α}

theorem filterMap_length_le (h : List.Forall₂ (fun x y => (f y).isSome → (f x).isSome) xs ys) :
    (ys.filterMap f).length ≤ (xs.filterMap f).length := by
  induction h with
  | nil => exact Nat.le_refl _
  | @cons x y xs ys hxy _ ih =>
    rw [List.filterMap_cons, List.filterMap_cons]
    cases hy : f y with
    | none =>
      refine Nat.le_trans ih ?_
      cases f x <;> simp
    | some b =>
      obtain ⟨a, ha⟩ := Option.isSome_iff_exists.mp (hxy (by rw [hy]; rfl))
      rw [ha]
      exact Nat.succ_le_succ ih

/-- Two lists show the same where they show the same at each place, if one of them shows something
wherever the other one does. -/
theorem filterMap_eq_iff (h : List.Forall₂ (fun x y => (f y).isSome → (f x).isSome) xs ys) :
    xs.filterMap f = ys.filterMap f ↔ List.Forall₂ (fun x y => f x = f y) xs ys := by
  induction h with
  | nil => exact iff_of_true rfl .nil
  | @cons x y xs ys hxy hrest ih =>
    rw [List.forall₂_cons, ← ih, List.filterMap_cons, List.filterMap_cons]
    cases hx : f x with
    | none =>
      have hy : f y = none := by
        by_contra hy
        have hshown := hxy (Option.isSome_iff_ne_none.mpr hy)
        rw [hx] at hshown
        cases hshown
      simp only [hy, true_and]
    | some a =>
      cases hy : f y with
      | none =>
        refine iff_of_false (fun heq => ?_) fun heq => by cases heq.1
        have hlength := congrArg List.length heq
        have hle := filterMap_length_le hrest
        change (xs.filterMap f).length + 1 = (ys.filterMap f).length at hlength
        omega
      | some b => rw [List.cons.injEq, Option.some.injEq]

end

/-- What is stored in the entry of an index. -/
def storeOf (stores : List Store) (i : Nat) : Store := stores[i]?.join

theorem storeOf_fits {stores : List Store} (h : ∀ s ∈ stores, ∀ x ∈ s, Fits x) (i : Nat) :
    ∀ x ∈ storeOf stores i, Fits x := by
  intro x hx
  exact h (some x) (List.mem_of_getElem? (Option.join_eq_some_iff.mp hx)) x rfl

/-- Each entry has what is stored in it. -/
theorem getElem?_writeAll (counter : Nat) (stores : List Store) (list : List VpdEntry) (j : Nat) :
    (writeAll counter stores list)[j]? = list[j]?.map fun entry =>
      if counter ≤ j then entry.after (storeOf stores (j - counter)) else entry := by
  induction stores generalizing counter list with
  | nil =>
    have hnone (entry : VpdEntry) : entry.after (storeOf [] (j - counter)) = entry := rfl
    simp only [writeAll, hnone, ite_self, Option.map_id']
  | cons s stores ih =>
    rw [writeAll, ih, List.getElem?_modify, Option.map_eq_map, Option.map_map]
    refine congrArg (list[j]?.map ·) (funext fun entry => ?_)
    rcases Nat.lt_trichotomy j counter with hlt | rfl | hgt
    · simp [Nat.not_le.mpr hlt, Nat.ne_of_gt hlt, show ¬ counter + 1 ≤ j by omega]
    · simp [storeOf]
    · obtain ⟨i, rfl⟩ := Nat.exists_eq_add_of_lt hgt
      have hindex : counter + i + 1 - counter = i + 1 := by omega
      have hrest : counter + i + 1 - (counter + 1) = i := by omega
      have hne : ¬ counter = counter + i + 1 := by omega
      simp [show counter ≤ counter + i + 1 by omega, hindex, hrest, hne, storeOf]

theorem length_writeAll (counter : Nat) (stores : List Store) (list : List VpdEntry) :
    (writeAll counter stores list).length = list.length := by
  induction stores generalizing counter list with
  | nil => rfl
  | cons s stores ih => rw [writeAll, ih, List.length_modify]

theorem forall₂_of_getElem? {R : VpdEntry → VpdEntry → Prop} {xs ys : List VpdEntry}
    (hlength : xs.length = ys.length) :
    List.Forall₂ R xs ys ↔ ∀ (i : Nat) x y, xs[i]? = some x → ys[i]? = some y → R x y := by
  rw [List.forall₂_iff_get]
  constructor
  · intro h i x y hx hy
    obtain ⟨hi, rfl⟩ := List.getElem?_eq_some_iff.mp hx
    obtain ⟨hj, rfl⟩ := List.getElem?_eq_some_iff.mp hy
    exact h.2 i hi hj
  · intro h
    exact ⟨hlength, fun i hi hj =>
      h i _ _ (List.getElem?_eq_getElem hi) (List.getElem?_eq_getElem hj)⟩

/-- What the list had behind its first entry does not show. -/
def Hidden (stores : List Store) (list : List VpdEntry) : Prop :=
  ∀ (i : Nat) entry, 0 < i → list[i]? = some entry → HiddenAt entry (storeOf stores i)

/-- What is stored in the list is shown as texts. -/
def Readable (stores : List Store) : Prop :=
  ∀ i < ENTRY_LIST_SIZE, ReadableAt (storeOf stores i)

theorem Readable.shown {stores : List Store} (h : Readable stores)
    (hs : ∀ s ∈ stores, ∀ x ∈ s, Fits x) :
    ∃ vpd, vpdList (attributes (writeAll 0 stores vpdEntryList)) = .ok vpd := by
  refine Fold.mapM_ok_iff.mpr fun texts htexts => ?_
  obtain ⟨entry, hentry, hshown⟩ := List.mem_filterMap.mp htexts
  obtain ⟨i, hi⟩ := List.mem_iff_getElem?.mp hentry
  rw [getElem?_writeAll, Option.map_eq_some_iff] at hi
  obtain ⟨old, hold, rfl⟩ := hi
  rw [vpdEntryList, List.getElem?_replicate] at hold
  split at hold
  · rename_i hlt
    cases hold
    have hread := h i hlt
    simp only [Nat.zero_le, if_true, Nat.sub_zero] at hshown
    cases hstore : storeOf stores i with
    | none =>
      rw [hstore] at hshown
      cases hshown
    | some s =>
      rw [hstore] at hshown hread
      rw [attribute_cleared (storeOf_fits hs i s hstore)] at hshown
      split at hshown
      · cases hshown
      · rename_i hid
        cases hshown
        exact hread.resolve_left hid
  · cases hold

theorem readable_of_shown {stores : List Store} (hs : ∀ s ∈ stores, ∀ x ∈ s, Fits x)
    {vpd : List (Text × Text)}
    (h : vpdList (attributes (writeAll 0 stores vpdEntryList)) = .ok vpd) : Readable stores := by
  intro i hi
  cases hstore : storeOf stores i with
  | none => trivial
  | some s =>
    by_cases hid : cstr s.1 = []
    · exact .inl hid
    · refine .inr (Fold.mapM_ok_iff.mp ⟨vpd, h⟩ _ (List.mem_filterMap.mpr
        ⟨VpdEntry.cleared.after (some s), List.mem_iff_getElem?.mpr ⟨i, ?_⟩, ?_⟩))
      · rw [getElem?_writeAll, vpdEntryList, List.getElem?_replicate, if_pos hi]
        simp [hstore]
      · rw [attribute_cleared (storeOf_fits hs i s hstore), if_neg hid]

/-- **A list of which the first entry is cleared shows what a cleared list would** exactly where it
hides what it had. -/
theorem vpdList_eq_iff {first : VpdEntry} {rest : List VpdEntry}
    (hlist : SizedList ENTRY_LIST_SIZE (first :: rest)) {stores : List Store}
    (hs : ∀ s ∈ stores, ∀ x ∈ s, Fits x) {vpd : List (Text × Text)}
    (hown : vpdList (attributes (writeAll 0 stores vpdEntryList)) = .ok vpd) :
    vpdList (attributes (writeAll 0 stores (.cleared :: rest))) = .ok vpd ↔
      Hidden stores (first :: rest) := by
  have hread := readable_of_shown hs hown
  have hsame : (writeAll 0 stores (.cleared :: rest)).length =
      (writeAll 0 stores vpdEntryList).length := by
    rw [length_writeAll, length_writeAll, vpdEntryList_sized.length, ← hlist.length]
    rfl
  have hentry (i : Nat) (x : VpdEntry) :
      (writeAll 0 stores (.cleared :: rest))[i]? = some x ↔
        ∃ entry, (VpdEntry.cleared :: rest)[i]? = some entry ∧
          entry.after (storeOf stores i) = x := by
    rw [getElem?_writeAll, Option.map_eq_some_iff]
    simp
  have hcleared (i : Nat) (y : VpdEntry) :
      (writeAll 0 stores vpdEntryList)[i]? = some y ↔
        i < ENTRY_LIST_SIZE ∧ VpdEntry.cleared.after (storeOf stores i) = y := by
    rw [getElem?_writeAll, Option.map_eq_some_iff]
    simp [vpdEntryList, List.getElem?_replicate]
  have hsized (i : Nat) (entry : VpdEntry) (h : (VpdEntry.cleared :: rest)[i]? = some entry) :
      Sized entry := by
    rcases List.mem_cons.mp (List.mem_of_getElem? h) with rfl | hmem
    · exact cleared_sized
    · exact hlist.entries entry (List.mem_cons_of_mem _ hmem)
  rw [vpdList_eq_ok, ← vpdList_eq_ok.mp hown, filterMap_eq_iff, forall₂_of_getElem? hsame]
  · constructor
    · intro h i entry hi hget
      obtain ⟨k, rfl⟩ := Nat.exists_eq_succ_of_ne_zero (Nat.ne_of_gt hi)
      have hlt : k + 1 < ENTRY_LIST_SIZE := by
        rw [← hlist.length]
        exact (List.getElem?_eq_some_iff.mp hget).1
      exact (shown_after_iff (hsized (k + 1) entry hget) (storeOf_fits hs _) (hread _ hlt)).mp
        (h (k + 1) _ _ ((hentry _ _).mpr ⟨entry, hget, rfl⟩) ((hcleared _ _).mpr ⟨hlt, rfl⟩))
    · intro h i x y hx hy
      obtain ⟨entry, hget, rfl⟩ := (hentry i x).mp hx
      obtain ⟨hlt, rfl⟩ := (hcleared i y).mp hy
      cases i with
      | zero =>
        cases hget
        rfl
      | succ i =>
        exact (shown_after_iff (hsized _ entry hget) (storeOf_fits hs _) (hread _ hlt)).mpr
          (h (i + 1) entry (Nat.succ_pos i) hget)
  · refine (forall₂_of_getElem? hsame).mpr fun i x y hx hy hshown => ?_
    obtain ⟨entry, hget, rfl⟩ := (hentry i x).mp hx
    obtain ⟨-, rfl⟩ := (hcleared i y).mp hy
    exact shown_mono (hsized i entry hget) (storeOf_fits hs i) hshown

/-! ## The turn of a device -/

/-- What is taken from a list for a device, and the list. -/
def listed (list : List VpdEntry) : Except PciError (List (Text × Text) × List VpdEntry) :=
  match vpdList (attributes list) with
  | .error e => .error (.unicode e)
  | .ok vpd => .ok (vpd, list)

/-- A device: what is reported of it, with the list that it leaves, or an exception. -/
def turn (file : File) (list : List VpdEntry) :
    Option (Except PciError (List (Text × Text) × List VpdEntry)) :=
  (getVPDInfo ENTRY_LIST_SIZE file list).map fun r =>
    if r.1 = -1 then .error .vpdInfo else listed r.2

/-- What a VPD that is read inside the buffer stores, nothing where it is an error: it has to come
to its end tag, with an item. -/
inductive Gives : File → Option (List Store) → Prop
  | missing : Gives .missing (some [])
  | unopened : Gives .error none
  | whole {bytes : List Byte} {stores : List Store}
      (h : Blocks ENTRY_LIST_SIZE 0 [] bytes stores true) (hne : stores ≠ []) :
      Gives (.content bytes) (some stores)
  | broken {bytes : List Byte} {stores : List Store} {ok : Bool}
      (h : Blocks ENTRY_LIST_SIZE 0 [] bytes stores ok) (hbroken : ok = false ∨ stores = []) :
      Gives (.content bytes) none

/-- What comes of what is stored in a list. -/
def outcome (list : List VpdEntry) :
    Option (List Store) → Except PciError (List (Text × Text) × List VpdEntry)
  | none => .error .vpdInfo
  | some stores => listed (writeAll 0 stores (.cleared :: list.tail))

variable {file : File} {list : List VpdEntry}

theorem Gives.fits {stores : List Store} (h : Gives file (some stores)) :
    ∀ s ∈ stores, ∀ x ∈ s, Fits x := by
  cases h with
  | missing => simp
  | whole h _ => exact h.fits

theorem exists_cons (hlist : SizedList ENTRY_LIST_SIZE list) :
    ∃ first rest, list = first :: rest := by
  cases list with
  | nil => cases hlist.length
  | cons first rest => exact ⟨first, rest, rfl⟩

/-- **What a VPD makes of a list.** -/
theorem turn_of_gives (hlist : SizedList ENTRY_LIST_SIZE list) {given : Option (List Store)}
    (h : Gives file given) :
    turn file list = some (outcome list given) := by
  obtain ⟨first, rest, rfl⟩ := exists_cons hlist
  cases h with
  | missing => rfl
  | unopened => rfl
  | @whole bytes stores h hne =>
    have hrc : ¬ (stores.length : Int) - 1 = -1 := by
      have := List.length_pos_of_ne_nil hne
      omega
    rw [turn, getVPDInfo_content h hlist, Option.map_some, if_pos rfl, if_neg hrc]
    rfl
  | @broken bytes stores ok h hbroken =>
    have hrc : (if ok then (stores.length : Int) - 1 else -1) = -1 := by
      rcases hbroken with rfl | rfl
      · rfl
      · cases ok <;> rfl
    rw [turn, getVPDInfo_content h hlist, Option.map_some, if_pos hrc]
    rfl

theorem gives_of_turn (hlist : SizedList ENTRY_LIST_SIZE list) (h : (turn file list).isSome) :
    ∃ given, Gives file given := by
  obtain ⟨first, rest, rfl⟩ := exists_cons hlist
  cases file with
  | missing => exact ⟨_, .missing⟩
  | error => exact ⟨_, .unopened⟩
  | content bytes =>
    cases hloop : vpdLoop ENTRY_LIST_SIZE bytes [] 0 (.cleared :: rest) with
    | none =>
      simp only [turn, getVPDInfo, hloop] at h
      cases h
    | some r =>
      obtain ⟨stores, ok, hblocks, -⟩ := (vpdLoop_eq_some_iff hlist.clear).mp hloop
      by_cases hwhole : ok = true ∧ stores ≠ []
      · rw [hwhole.1] at hblocks
        exact ⟨_, .whole hblocks hwhole.2⟩
      · exact ⟨_, .broken hblocks (by cases ok <;> simp_all)⟩

theorem clear_sized (hlist : SizedList ENTRY_LIST_SIZE list) {stores : List Store}
    (hs : ∀ s ∈ stores, ∀ x ∈ s, Fits x) :
    SizedList ENTRY_LIST_SIZE (writeAll 0 stores (.cleared :: list.tail)) := by
  obtain ⟨first, rest, rfl⟩ := exists_cons hlist
  exact hlist.clear.writeAll hs 0

theorem clear_vpdEntryList : VpdEntry.cleared :: vpdEntryList.tail = vpdEntryList := by
  have hcons : vpdEntryList = .cleared :: List.replicate (ENTRY_LIST_SIZE - 1) .cleared :=
    List.replicate_succ
  rw [hcons, List.tail_cons]

/-- What the VPD is reported with where no device was before it. -/
def Own (file : File) (vpd : List (Text × Text)) : Prop :=
  ∃ list, turn file vpdEntryList = some (.ok (vpd, list))

/-- The VPD alone gives an exception. -/
def Refused (file : File) : Prop :=
  Gives file none ∨ ∃ stores, Gives file (some stores) ∧ ¬ Readable stores

theorem listed_eq_ok {vpd : List (Text × Text)} {left : List VpdEntry} :
    listed list = .ok (vpd, left) ↔ vpdList (attributes list) = .ok vpd ∧ left = list := by
  unfold listed
  cases vpdList (attributes list) <;> simp [eq_comm]

/-- The VPD alone is reported where it is read, and readable. -/
theorem own_iff {vpd : List (Text × Text)} :
    Own file vpd ↔ ∃ stores, Gives file (some stores) ∧
      vpdList (attributes (writeAll 0 stores vpdEntryList)) = .ok vpd := by
  constructor
  · rintro ⟨left, h⟩
    obtain ⟨given, hgives⟩ := gives_of_turn vpdEntryList_sized (by rw [h]; rfl)
    rw [turn_of_gives vpdEntryList_sized hgives, Option.some.injEq] at h
    cases given with
    | none => cases h
    | some stores =>
      rw [outcome, clear_vpdEntryList] at h
      exact ⟨stores, hgives, (listed_eq_ok.mp h).1⟩
  · rintro ⟨stores, hgives, h⟩
    refine ⟨writeAll 0 stores vpdEntryList, ?_⟩
    rw [turn_of_gives vpdEntryList_sized hgives, outcome, clear_vpdEntryList]
    exact congrArg some (listed_eq_ok.mpr ⟨h, rfl⟩)

theorem refused_iff :
    Refused file ↔ ∃ e, turn file vpdEntryList = some (.error e) := by
  constructor
  · rintro (h | ⟨stores, h, hread⟩)
    · exact ⟨_, turn_of_gives vpdEntryList_sized h⟩
    · have hturn := turn_of_gives vpdEntryList_sized h
      rw [outcome, clear_vpdEntryList] at hturn
      cases hlisted : vpdList (attributes (writeAll 0 stores vpdEntryList)) with
      | error e =>
        simp only [listed, hlisted] at hturn
        exact ⟨_, hturn⟩
      | ok vpd => exact absurd (readable_of_shown h.fits hlisted) hread
  · rintro ⟨e, h⟩
    obtain ⟨given, hgives⟩ := gives_of_turn vpdEntryList_sized (by rw [h]; rfl)
    cases given with
    | none => exact .inl hgives
    | some stores =>
      refine .inr ⟨stores, hgives, fun hread => ?_⟩
      obtain ⟨vpd, hvpd⟩ := hread.shown hgives.fits
      obtain ⟨left, hown⟩ := own_iff.mpr ⟨stores, hgives, hvpd⟩
      rw [hown] at h
      cases h

/-- **When a device is reported as its VPD alone would be**, from a list that was used. -/
theorem turn_own_iff (hlist : SizedList ENTRY_LIST_SIZE list) {vpd : List (Text × Text)}
    {left : List VpdEntry} :
    turn file list = some (.ok (vpd, left)) ∧ Own file vpd ↔
      ∃ stores, Gives file (some stores) ∧ Readable stores ∧ Hidden stores list ∧
        vpdList (attributes (writeAll 0 stores vpdEntryList)) = .ok vpd ∧
        left = writeAll 0 stores (.cleared :: list.tail) := by
  obtain ⟨first, rest, rfl⟩ := exists_cons hlist
  constructor
  · rintro ⟨hturn, hown⟩
    obtain ⟨stores, hgives, hvpd⟩ := own_iff.mp hown
    rw [turn_of_gives hlist hgives, Option.some.injEq] at hturn
    obtain ⟨hlisted, rfl⟩ := listed_eq_ok.mp hturn
    exact ⟨stores, hgives, readable_of_shown hgives.fits hvpd,
      (vpdList_eq_iff hlist hgives.fits hvpd).mp hlisted, hvpd, rfl⟩
  · rintro ⟨stores, hgives, -, hhidden, hvpd, rfl⟩
    refine ⟨?_, own_iff.mpr ⟨stores, hgives, hvpd⟩⟩
    rw [turn_of_gives hlist hgives]
    exact congrArg some
      (listed_eq_ok.mpr ⟨(vpdList_eq_iff hlist hgives.fits hvpd).mpr hhidden, rfl⟩)

/-! ## Runs over the devices -/

/-- What is put into the results for each device, nothing for one without a vendor. -/
def turnsFrom (list : List VpdEntry) :
    List (PciEntry × File) → Option (Except PciError (List (Option (List (Text × Text)))))
  | [] => some (.ok [])
  | device :: rest =>
    if device.1.vendor_id = 0 then (turnsFrom list rest).map (Except.map (none :: ·))
    else
      match turn device.2 list with
      | none => none
      | some (.error e) => some (.error e)
      | some (.ok (vpd, list)) => (turnsFrom list rest).map (Except.map (some vpd :: ·))

def turns (devices : List (PciEntry × File)) :
    Option (Except PciError (List (Option (List (Text × Text))))) :=
  turnsFrom vpdEntryList devices

/-- What is put into the results for a device. -/
def put (results : Assoc.Dict (Int × Byte × Byte × Byte) Info)
    (device : (PciEntry × File) × Option (List (Text × Text))) :
    Assoc.Dict (Int × Byte × Byte × Byte) Info :=
  match device.2 with
  | none => results
  | some vpd =>
    Assoc.set results device.1.1.address ⟨device.1.1.vendor_id, device.1.1.device_id, vpd⟩

/-- **The results of a run** are what its turns put into them. -/
theorem pciInfoFrom_eq (results : Assoc.Dict (Int × Byte × Byte × Byte) Info)
    (list : List VpdEntry) (devices : List (PciEntry × File)) :
    pciInfoFrom results list devices =
      (turnsFrom list devices).map
        (Except.map fun vpds => (devices.zip vpds).foldl put results) := by
  induction devices generalizing results list with
  | nil => rfl
  | cons device rest ih =>
    rw [pciInfoFrom, turnsFrom]
    by_cases hvendor : device.1.vendor_id = 0
    · rw [if_pos hvendor, if_pos hvendor, ih, Option.map_map]
      congr 1
      funext r
      cases r <;> rfl
    · rw [if_neg hvendor, if_neg hvendor]
      simp only [turn]
      cases getVPDInfo ENTRY_LIST_SIZE device.2 list with
      | none => rfl
      | some r =>
        obtain ⟨rc, left⟩ := r
        simp only [Option.map_some]
        by_cases hrc : rc = -1
        · simp only [hrc, if_true]
          rfl
        · simp only [hrc, if_false, listed]
          cases vpdList (attributes left) with
          | error e => rfl
          | ok vpd =>
            simp only [ih, Option.map_map]
            congr 1
            funext r
            cases r <;> rfl

/-- Whether a device is reported as its VPD alone would be. -/
def Reported (device : PciEntry × File) (report : Option (List (Text × Text))) : Prop :=
  if device.1.vendor_id = 0 then report = none else ∃ vpd, report = some vpd ∧ Own device.2 vpd

/-- At its turn each VPD is read inside the buffer and readable, comes to its end, and hides what
the list had. -/
def SoundFrom : List VpdEntry → List (PciEntry × File) → Prop
  | _, [] => True
  | list, device :: rest =>
    if device.1.vendor_id = 0 then SoundFrom list rest
    else ∃ stores, Gives device.2 (some stores) ∧ Readable stores ∧ Hidden stores list ∧
      SoundFrom (writeAll 0 stores (.cleared :: list.tail)) rest

variable {devices : List (PciEntry × File)}

theorem turns_skip {device : PciEntry × File} (hvendor : device.1.vendor_id = 0)
    {vpds : List (Option (List (Text × Text)))} :
    turnsFrom list (device :: devices) = some (.ok vpds) ↔
      ∃ vpds', vpds = none :: vpds' ∧ turnsFrom list devices = some (.ok vpds') := by
  rw [turnsFrom, if_pos hvendor]
  rcases turnsFrom list devices with _ | e | vpds' <;> simp [Except.map, eq_comm]

theorem turns_next {device : PciEntry × File} (hvendor : device.1.vendor_id ≠ 0)
    {vpds : List (Option (List (Text × Text)))} :
    turnsFrom list (device :: devices) = some (.ok vpds) ↔
      ∃ vpd left vpds', vpds = some vpd :: vpds' ∧ turn device.2 list = some (.ok (vpd, left)) ∧
        turnsFrom left devices = some (.ok vpds') := by
  rw [turnsFrom, if_neg hvendor]
  rcases turn device.2 list with _ | e | ⟨vpd, left⟩
  · simp
  · simp
  · rcases hrest : turnsFrom left devices with _ | e | vpds' <;>
      simp [Except.map, eq_comm, hrest]

/-- **When all devices of a run are reported as their VPDs alone would be.** -/
theorem turns_own_iff (hlist : SizedList ENTRY_LIST_SIZE list) :
    (∃ vpds, turnsFrom list devices = some (.ok vpds) ∧ List.Forall₂ Reported devices vpds) ↔
      SoundFrom list devices := by
  induction devices generalizing list with
  | nil => exact iff_of_true ⟨[], rfl, .nil⟩ trivial
  | cons device rest ih =>
    rw [SoundFrom]
    by_cases hvendor : device.1.vendor_id = 0
    · rw [if_pos hvendor, ← ih hlist]
      constructor
      · rintro ⟨vpds, hturns, hreported⟩
        obtain ⟨vpds', rfl, hrest⟩ := (turns_skip hvendor).mp hturns
        exact ⟨vpds', hrest, (List.forall₂_cons.mp hreported).2⟩
      · rintro ⟨vpds, hturns, hreported⟩
        exact ⟨none :: vpds, (turns_skip hvendor).mpr ⟨vpds, rfl, hturns⟩,
          .cons (by rw [Reported, if_pos hvendor]) hreported⟩
    · rw [if_neg hvendor]
      constructor
      · rintro ⟨vpds, hturns, hreported⟩
        obtain ⟨vpd, left, vpds', rfl, hturn, hrest⟩ := (turns_next hvendor).mp hturns
        obtain ⟨hfirst, hreported⟩ := List.forall₂_cons.mp hreported
        rw [Reported, if_neg hvendor] at hfirst
        obtain ⟨_, heq, hown⟩ := hfirst
        cases heq
        obtain ⟨stores, hgives, hread, hhidden, -, rfl⟩ := (turn_own_iff hlist).mp ⟨hturn, hown⟩
        exact ⟨stores, hgives, hread, hhidden,
          (ih (clear_sized hlist hgives.fits)).mp ⟨vpds', hrest, hreported⟩⟩
      · rintro ⟨stores, hgives, hread, hhidden, hsound⟩
        obtain ⟨vpd, hvpd⟩ := hread.shown hgives.fits
        obtain ⟨hturn, hown⟩ :=
          (turn_own_iff hlist).mpr ⟨stores, hgives, hread, hhidden, hvpd, rfl⟩
        obtain ⟨vpds, hrest, hreported⟩ := (ih (clear_sized hlist hgives.fits)).mpr hsound
        exact ⟨some vpd :: vpds, (turns_next hvendor).mpr ⟨vpd, _, vpds, rfl, hturn, hrest⟩,
          .cons (by rw [Reported, if_neg hvendor]; exact ⟨vpd, rfl, hown⟩) hreported⟩

/-- There is a report for each device, nothing for one without a vendor. -/
theorem turns_vendor {vpds : List (Option (List (Text × Text)))}
    (h : turnsFrom list devices = some (.ok vpds)) :
    List.Forall₂ (fun device vpd => device.1.vendor_id = 0 ↔ vpd = none) devices vpds := by
  induction devices generalizing list vpds with
  | nil =>
    cases h
    exact .nil
  | cons device rest ih =>
    by_cases hvendor : device.1.vendor_id = 0
    · obtain ⟨vpds', rfl, hrest⟩ := (turns_skip hvendor).mp h
      exact .cons (iff_of_true hvendor rfl) (ih hrest)
    · obtain ⟨vpd, left, vpds', rfl, -, hrest⟩ := (turns_next hvendor).mp h
      exact .cons (iff_of_false hvendor (by simp)) (ih hrest)

/-- Where each VPD alone gives an exception, the run gives one at the first. -/
theorem turns_refused (h : ∀ device ∈ devices, device.1.vendor_id ≠ 0 → Refused device.2) :
    (∃ e, turns devices = some (.error e)) ∨
      (∀ device ∈ devices, device.1.vendor_id = 0) ∧ ∃ vpds, turns devices = some (.ok vpds) := by
  unfold turns
  induction devices with
  | nil => exact .inr ⟨by simp, [], rfl⟩
  | cons device rest ih =>
    rw [List.forall_mem_cons] at h
    rw [turnsFrom]
    by_cases hvendor : device.1.vendor_id = 0
    · rw [if_pos hvendor]
      rcases ih h.2 with ⟨e, he⟩ | ⟨hall, vpds, hvpds⟩
      · exact .inl ⟨e, by rw [he]; rfl⟩
      · exact .inr ⟨List.forall_mem_cons.mpr ⟨hvendor, hall⟩, none :: vpds, by rw [hvpds]; rfl⟩
    · rw [if_neg hvendor]
      obtain ⟨e, he⟩ := refused_iff.mp (h.1 hvendor)
      rw [he]
      exact .inl ⟨e, rfl⟩

/-! ## A device with other devices -/

/-- The attributes that are reported of the device at `k`, nothing where the call raises; and no
result where the VPD of some device is not read inside the buffer. -/
def report (devices : List (PciEntry × File)) (k : Nat) : Option (Option (List (Text × Text))) :=
  (turns devices).map fun r => r.toOption.bind fun vpds => vpds[k]?.join

/-- Two runs with the same devices, of which the one at `k` has the same VPD. -/
structure Alike (k : Nat) (devices devices' : List (PciEntry × File)) : Prop where
  entries : devices.map (·.1) = devices'.map (·.1)
  own : devices[k]?.map (·.2) = devices'[k]?.map (·.2)

def withoutFile (device : PciEntry × File) : PciEntry × File := (device.1, .missing)

/-- The run in which no device but the one at `k` has a VPD. -/
def alone (devices : List (PciEntry × File)) (k : Nat) : List (PciEntry × File) :=
  devices.mapIdx fun i device => if i = k then device else withoutFile device

theorem alone_alike (devices : List (PciEntry × File)) (k : Nat) :
    Alike k devices (alone devices k) where
  entries := by
    refine List.ext_getElem? fun i => ?_
    rw [alone, List.getElem?_map, List.getElem?_map, List.getElem?_mapIdx]
    cases devices[i]? with
    | none => rfl
    | some device =>
      rw [Option.map_some, Option.map_some]
      split <;> rfl
  own := by
    rw [alone, List.getElem?_mapIdx]
    cases devices[k]? <;> simp

theorem Alike.alone_eq {k : Nat} {devices' : List (PciEntry × File)}
    (h : Alike k devices devices') : alone devices k = alone devices' k := by
  refine List.ext_getElem? fun i => ?_
  have hentry := congrArg (·[i]?) h.entries
  simp only [List.getElem?_map] at hentry
  rw [alone, alone, List.getElem?_mapIdx, List.getElem?_mapIdx]
  by_cases hi : i = k
  · obtain rfl := hi
    have hown := h.own
    cases hd : devices[i]? with
    | none => cases hd' : devices'[i]? <;> simp_all
    | some device =>
      cases hd' : devices'[i]? with
      | none => simp [hd, hd'] at hentry
      | some device' =>
        simp only [hd, hd', Option.map_some, Option.some.injEq, if_true] at hentry hown ⊢
        exact Prod.ext hentry hown
  · cases hd : devices[i]? with
    | none => cases hd' : devices'[i]? <;> simp_all
    | some device =>
      cases hd' : devices'[i]? with
      | none => simp [hd, hd'] at hentry
      | some device' =>
        simp only [hd, hd', Option.map_some, Option.some.injEq, hi, if_false, withoutFile]
          at hentry ⊢
        rw [hentry]

theorem attributes_vpdEntryList : attributes vpdEntryList = [] := by
  rw [attributes, List.filterMap_eq_nil_iff]
  intro entry hentry
  rw [List.eq_of_mem_replicate hentry]
  rfl

/-- What a device without a VPD is reported with where nothing was stored before. -/
theorem turn_missing : turn .missing vpdEntryList = some (.ok ([], vpdEntryList)) := by
  rw [turn_of_gives vpdEntryList_sized .missing, outcome, clear_vpdEntryList]
  simp only [writeAll, listed, attributes_vpdEntryList]
  rfl

/-- Devices without a VPD, behind one that was reported. -/
theorem turns_withoutFile (hlist : SizedList ENTRY_LIST_SIZE list)
    (hread : ∃ vpd, vpdList (attributes list) = .ok vpd) (devices : List (PciEntry × File)) :
    ∃ vpds, turnsFrom list (devices.map withoutFile) = some (.ok vpds) := by
  induction devices generalizing list with
  | nil => exact ⟨[], rfl⟩
  | cons device rest ih =>
    rw [List.map_cons]
    by_cases hvendor : device.1.vendor_id = 0
    · obtain ⟨vpds, hvpds⟩ := ih hlist hread
      have hnone : (withoutFile device).1.vendor_id = 0 := hvendor
      exact ⟨none :: vpds, (turns_skip hnone).mpr ⟨vpds, rfl, hvpds⟩⟩
    · -- what the cleared list shows was shown before
      have hclear : ∃ vpd, vpdList (attributes (.cleared :: list.tail)) = .ok vpd := by
        obtain ⟨first, others, rfl⟩ := exists_cons hlist
        refine Fold.mapM_ok_iff.mpr fun texts htexts => Fold.mapM_ok_iff.mp hread texts ?_
        rw [attributes, List.filterMap_cons] at htexts
        rw [attributes, List.filterMap_cons]
        split
        · exact htexts
        · exact List.mem_cons_of_mem _ htexts
      obtain ⟨vpd, hvpd⟩ := hclear
      have hsized : SizedList ENTRY_LIST_SIZE (.cleared :: list.tail) := by
        simpa [writeAll] using clear_sized hlist (Gives.fits .missing)
      obtain ⟨vpds, hvpds⟩ := ih hsized ⟨vpd, hvpd⟩
      have hsome : (withoutFile device).1.vendor_id ≠ 0 := hvendor
      refine ⟨some vpd :: vpds, (turns_next hsome).mpr ⟨vpd, _, vpds, rfl, ?_, hvpds⟩⟩
      refine (turn_of_gives hlist .missing).trans ?_
      rw [outcome, writeAll]
      exact congrArg some (listed_eq_ok.mpr ⟨hvpd, rfl⟩)

/-- Devices without a VPD, in front of others, leave the list as it is. -/
theorem turns_behind (before after : List (PciEntry × File)) :
    ∃ vpds, vpds.length = before.length ∧
      turns (before.map withoutFile ++ after) = (turns after).map (Except.map (vpds ++ ·)) := by
  unfold turns
  induction before with
  | nil =>
    refine ⟨[], rfl, ?_⟩
    rw [List.map_nil, List.nil_append]
    rcases turnsFrom vpdEntryList after with _ | e | vpds <;> rfl
  | cons device rest ih =>
    obtain ⟨vpds, hlength, hturns⟩ := ih
    rw [List.map_cons, List.cons_append, turnsFrom]
    by_cases hvendor : (withoutFile device).1.vendor_id = 0
    · refine ⟨none :: vpds, congrArg (· + 1) hlength, ?_⟩
      rw [if_pos hvendor, hturns]
      rcases turnsFrom vpdEntryList after with _ | e | vpds <;> rfl
    · refine ⟨some [] :: vpds, congrArg (· + 1) hlength, ?_⟩
      rw [if_neg hvendor]
      rw [show (withoutFile device).2 = .missing from rfl, turn_missing]
      simp only [hturns]
      rcases turnsFrom vpdEntryList after with _ | e | vpds <;> rfl

theorem alone_split (before after : List (PciEntry × File)) (device : PciEntry × File) :
    alone (before ++ device :: after) before.length =
      before.map withoutFile ++ device :: after.map withoutFile := by
  refine List.ext_getElem? fun i => ?_
  rw [alone, List.getElem?_mapIdx]
  rcases Nat.lt_trichotomy i before.length with hlt | rfl | hgt
  · rw [List.getElem?_append_left hlt, List.getElem?_append_left (by simpa using hlt),
      List.getElem?_map]
    simp only [Nat.ne_of_lt hlt, if_false]
  · simp
  · obtain ⟨j, rfl⟩ := Nat.exists_eq_add_of_lt hgt
    have hindex : before.length + j + 1 - before.length = j + 1 := by omega
    rw [List.getElem?_append_right (by omega), List.getElem?_append_right (by simp; omega),
      List.length_map, hindex, List.getElem?_cons_succ, List.getElem?_cons_succ,
      List.getElem?_map]
    simp only [Nat.ne_of_gt hgt, if_false]

/-- **What is reported of a device where no other one has a VPD.** -/
theorem report_alone {k : Nat} {device : PciEntry × File} (hk : devices[k]? = some device) :
    report (alone devices k) k =
      if device.1.vendor_id = 0 then some none
      else (turn device.2 vpdEntryList).map fun r => r.toOption.map (·.1) := by
  obtain ⟨before, after, rfl, rfl⟩ : ∃ before after, devices = before ++ device :: after ∧
      before.length = k := by
    obtain ⟨hlt, hget⟩ := List.getElem?_eq_some_iff.mp hk
    refine ⟨devices.take k, devices.drop (k + 1), ?_, ?_⟩
    · rw [← hget, ← List.drop_eq_getElem_cons hlt, List.take_append_drop]
    · rw [List.length_take, Nat.min_eq_left (Nat.le_of_lt hlt)]
  obtain ⟨vpds, hlength, hturns⟩ := turns_behind before (device :: after.map withoutFile)
  rw [report, alone_split, hturns, turns, turnsFrom]
  by_cases hvendor : device.1.vendor_id = 0
  · obtain ⟨vpds', hvpds'⟩ := turns_withoutFile vpdEntryList_sized
      ⟨[], by rw [attributes_vpdEntryList]; rfl⟩ after
    rw [if_pos hvendor, if_pos hvendor, hvpds']
    simp [Except.map, Except.toOption, ← hlength]
  · rw [if_neg hvendor, if_neg hvendor]
    rcases hturn : turn device.2 vpdEntryList with _ | e | ⟨vpd, left⟩
    · rfl
    · rfl
    · obtain ⟨stores, hgives, -, -, -, rfl⟩ :=
        (turn_own_iff vpdEntryList_sized).mp ⟨hturn, _, hturn⟩
      obtain ⟨vpds', hvpds'⟩ := turns_withoutFile
        (clear_sized vpdEntryList_sized hgives.fits)
        ⟨vpd, by
          rw [turn_of_gives vpdEntryList_sized hgives, Option.some.injEq] at hturn
          exact (listed_eq_ok.mp hturn).1⟩ after
      simp only [hvpds']
      simp [Except.map, Except.toOption, ← hlength]

theorem report_outside {k : Nat} (hk : devices[k]? = none) :
    report (alone devices k) k = some none := by
  have hnone : alone devices k = devices.map withoutFile := by
    refine List.ext_getElem? fun i => ?_
    rw [alone, List.getElem?_mapIdx, List.getElem?_map]
    by_cases hi : i = k
    · rw [hi, hk]
      rfl
    · simp only [hi, if_false]
  obtain ⟨vpds, hvpds⟩ := turns_withoutFile vpdEntryList_sized
    ⟨[], by rw [attributes_vpdEntryList]; rfl⟩ devices
  have hlength := (turns_vendor hvpds).length_eq
  have hend : vpds[k]? = none := by
    rw [List.getElem?_eq_none_iff, ← hlength, List.length_map]
    exact List.getElem?_eq_none_iff.mp hk
  rw [report, hnone, turns, hvpds]
  simp [Except.toOption, hend]

/-! ## When the report of each device depends on its own VPD only -/

/-- Every VPD that is read is read inside the buffer, and the report of each device is the one that
it has where no other device has a VPD. -/
def Isolated (devices : List (PciEntry × File)) : Prop :=
  (pciInfo devices).isSome ∧ ∀ k, report devices k = report (alone devices k) k

/-- Each VPD alone gives an exception, or at its turn each one is whole and hides what the list
had. -/
def Sound (devices : List (PciEntry × File)) : Prop :=
  (∀ device ∈ devices, device.1.vendor_id ≠ 0 → Refused device.2) ∨ SoundFrom vpdEntryList devices

theorem report_error {e : PciError} (h : turns devices = some (.error e)) (k : Nat) :
    report devices k = some none := by
  rw [report, h]
  rfl

theorem report_ok {vpds : List (Option (List (Text × Text)))} (h : turns devices = some (.ok vpds))
    (k : Nat) : report devices k = some (vpds[k]?.join) := by
  rw [report, h]
  rfl

theorem pciInfo_isSome : (pciInfo devices).isSome ↔ (turns devices).isSome := by
  rw [pciInfo, pciInfoFrom_eq, Option.isSome_map]
  rfl

theorem sound_of_isolated (h : Isolated devices) : Sound devices := by
  obtain ⟨hsome, hreports⟩ := h
  obtain ⟨r, hturns⟩ := Option.isSome_iff_exists.mp (pciInfo_isSome.mp hsome)
  obtain e | vpds := r
  · refine .inl fun device hdevice hvendor => ?_
    obtain ⟨k, hk⟩ := List.mem_iff_getElem?.mp hdevice
    have hreport := hreports k
    rw [report_error hturns, report_alone hk, if_neg hvendor] at hreport
    obtain ⟨r, hturn, hr⟩ := Option.map_eq_some_iff.mp hreport.symm
    obtain e' | ⟨vpd, left⟩ := r
    · exact refused_iff.mpr ⟨e', hturn⟩
    · cases hr
  · refine .inr ((turns_own_iff vpdEntryList_sized).mp ⟨vpds, hturns, ?_⟩)
    have hvendors := List.forall₂_iff_get.mp (turns_vendor hturns)
    refine List.forall₂_iff_get.mpr ⟨hvendors.1, fun k hk hk' => ?_⟩
    have hvendor := hvendors.2 k hk hk'
    have hreport := hreports k
    rw [report_ok hturns, report_alone (List.getElem?_eq_getElem hk),
      List.getElem?_eq_getElem hk', Option.join_some] at hreport
    simp only [List.get_eq_getElem, Reported] at hvendor ⊢
    split
    · rename_i hnone
      exact hvendor.mp hnone
    · rename_i hsome
      rw [if_neg hsome] at hreport
      obtain ⟨r, hturn, hr⟩ := Option.map_eq_some_iff.mp hreport.symm
      obtain e' | ⟨vpd, left⟩ := r
      · exact absurd (hvendor.mpr hr.symm) hsome
      · exact ⟨vpd, hr.symm, left, hturn⟩

theorem isolated_of_refused
    (h : ∀ device ∈ devices, device.1.vendor_id ≠ 0 → Refused device.2) : Isolated devices := by
  have hnone : (turns devices).isSome ∧ ∀ k, report devices k = some none := by
    rcases turns_refused h with ⟨e, he⟩ | ⟨hall, vpds, hvpds⟩
    · exact ⟨by rw [he]; rfl, report_error he⟩
    · refine ⟨by rw [hvpds]; rfl, fun k => ?_⟩
      rw [report_ok hvpds]
      have hvendors := List.forall₂_iff_get.mp (turns_vendor hvpds)
      cases hk : vpds[k]? with
      | none => rfl
      | some vpd =>
        obtain ⟨hlt, rfl⟩ := List.getElem?_eq_some_iff.mp hk
        have hlt' : k < devices.length := hvendors.1 ▸ hlt
        have hvpd : vpds[k] = none := (hvendors.2 k hlt' hlt).mp (hall _ (List.getElem_mem _))
        rw [hvpd]
        rfl
  refine ⟨pciInfo_isSome.mpr hnone.1, fun k => ?_⟩
  rw [hnone.2]
  cases hk : devices[k]? with
  | none => exact (report_outside hk).symm
  | some device =>
    rw [report_alone hk]
    split
    · rfl
    · rename_i hvendor
      obtain ⟨e, he⟩ := refused_iff.mp (h device (List.mem_of_getElem? hk) hvendor)
      rw [he]
      rfl

theorem isolated_of_sound (h : SoundFrom vpdEntryList devices) : Isolated devices := by
  obtain ⟨vpds, hturns, hreported⟩ := (turns_own_iff vpdEntryList_sized).mpr h
  refine ⟨pciInfo_isSome.mpr (Option.isSome_iff_exists.mpr ⟨_, hturns⟩), fun k => ?_⟩
  rw [report_ok hturns]
  obtain ⟨hlength, hreported⟩ := List.forall₂_iff_get.mp hreported
  cases hk : devices[k]? with
  | none =>
    have hend : vpds[k]? = none := by
      rw [List.getElem?_eq_none_iff, ← hlength]
      exact List.getElem?_eq_none_iff.mp hk
    rw [report_outside hk, hend]
    rfl
  | some device =>
    obtain ⟨hlt, rfl⟩ := List.getElem?_eq_some_iff.mp hk
    have hlt' : k < vpds.length := hlength ▸ hlt
    have hown := hreported k hlt hlt'
    simp only [List.get_eq_getElem, Reported] at hown
    rw [report_alone hk, List.getElem?_eq_getElem hlt', Option.join_some]
    split at hown
    · rename_i hvendor
      rw [if_pos hvendor, hown]
    · rename_i hvendor
      obtain ⟨vpd, hvpd, left, hturn⟩ := hown
      rw [if_neg hvendor, hvpd, hturn]
      rfl

/-- **When the report of each device depends on its own VPD only**: each run is compared with the
runs in which no other device has a VPD; so any two runs for which the condition holds agree on a
device that has the same VPD in both. The results of a run are its reports. -/
theorem pciInfo_isolated_iff (devices : List (PciEntry × File)) :
    (Isolated devices ↔ Sound devices) ∧
      (∀ devices' k, Alike k devices devices' → Sound devices → Sound devices' →
        report devices k = report devices' k) ∧
      pciInfo devices =
        (turns devices).map (Except.map fun vpds => (devices.zip vpds).foldl put []) := by
  have hsound (devices : List (PciEntry × File)) (h : Sound devices) : Isolated devices :=
    h.elim isolated_of_refused isolated_of_sound
  refine ⟨⟨sound_of_isolated, hsound devices⟩, fun devices' k halike h h' => ?_,
    pciInfoFrom_eq [] vpdEntryList devices⟩
  rw [(hsound devices h).2, (hsound devices' h').2, halike.alone_eq]

/-- A device with a part number and a serial number. -/
def twoItems : PciEntry × File :=
  (⟨(0, 0, 3, 0), 0x15b3, 0x1013⟩,
    .content [0x90, 8, 0, char 'P', char 'N', 1, char 'A', char 'S', char 'N', 1, char 'B', 0x78])

/-- A device without VPD. -/
def withoutVpd : PciEntry × File := (⟨(0, 0, 4, 0), 0x8086, 0x1521⟩, .missing)

/-- A device without VPD is reported with the serial number of the device before it, and not at all
where the VPD before it is empty; without the VPD before it, it has no attributes. -/
theorem serial_leaks :
    report [twoItems, withoutVpd] 1 = some (some [(['S', 'N'], ['B'])]) ∧
      report [(twoItems.1, .content [0x78]), withoutVpd] 1 = some none ∧
      report [(twoItems.1, .missing), withoutVpd] 1 = some (some []) := by
  refine ⟨?_, ?_, ?_⟩ <;> decide +kernel

end Pci
