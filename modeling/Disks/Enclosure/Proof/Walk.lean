import Disks.Enclosure.LibEnclosure
import Disks.Drive.Proof.Wwn
import Disks.Lib.Stages

/-!
# The walk through the enclosure pages

Where `get_subenc_descriptors` reads, and what it lists, as functions of the two pages.

* `subPos`, `typePos`, `textOf`, `offsetOf`: where each sub-enclosure, type header, text and status
  element is looked for.
* `subs_staged`, `elements_staged`, `types_staged`: what one turn of each loop does.
* `getSubencDescriptors_isSome_iff`: **when the walk stays in the buffers**.
* `getSubencDescriptors_ok_iff`: **what it lists**.
-/

namespace Enclosure

open Bytes Drive Stages

/-! ## Bytes -/

/-- A byte of a buffer as a number, zero outside. -/
def num (buff : Buffer) (i : Nat) : Nat := (buff.toList.getD i 0).toNat

theorem getD_bufferOf (page : List Byte) {i : Nat} (h : i < 2048) :
    (bufferOf page).toList.getD i 0 = page.getD i 0 := by
  have hlen : (bufferOf page).toList.length = 2048 := Vector.length_toList
  rw [List.getD_eq_getElem?_getD, List.getElem?_eq_getElem (by omega), Option.getD_some,
    Vector.getElem_toList]
  exact Vector.getElem_ofFn h

theorem num_bufferOf (page : List Byte) {i : Nat} (h : i < 2048) :
    num (bufferOf page) i = (page.getD i 0).toNat := by rw [num, getD_bufferOf page h]

/-- A field of a page is that of its buffer. -/
theorem slice_bufferOf {page : List Byte} {i n : Nat} (h : i + n ≤ page.length)
    (hpage : page.length ≤ 2048) : slice (bufferOf page).toList i n = slice page i n := by
  have hlen : (bufferOf page).toList.length = 2048 := Vector.length_toList
  apply List.ext_getElem?
  intro k
  rw [getElem?_slice, getElem?_slice]
  by_cases hk : k < n
  · have hbyte := getD_bufferOf page (show i + k < 2048 by omega)
    rw [List.getD_eq_getElem?_getD, List.getD_eq_getElem?_getD, List.getElem?_eq_getElem (by omega),
      List.getElem?_eq_getElem (by omega), Option.getD_some, Option.getD_some] at hbyte
    rw [if_pos hk, if_pos hk, List.getElem?_eq_getElem (by omega),
      List.getElem?_eq_getElem (by omega), hbyte]
  · rw [if_neg hk, if_neg hk]

theorem at?_of_lt (buff : Buffer) {i : Nat} (h : i < 2048) :
    buff.at? i = some (buff.toList.getD i 0) := by
  have hlen : buff.toList.length = 2048 := Vector.length_toList
  rw [Buffer.at?, List.getD_eq_getElem?_getD, List.getElem?_eq_getElem (by omega)]
  rfl

theorem at?_num (buff : Buffer) {i : Nat} (h : i < 2048) :
    ∃ b, buff.at? i = some b ∧ b.toNat = num buff i := ⟨_, at?_of_lt buff h, rfl⟩

theorem at?_of_ge (buff : Buffer) {i : Nat} (h : 2048 ≤ i) : buff.at? i = none := by
  have hlen : buff.toList.length = 2048 := Vector.length_toList
  exact List.getElem?_eq_none (by omega)

/-- A string of up to `n` bytes is read within the buffer. -/
def CopyFits (buff : Buffer) (i n : Nat) : Prop :=
  n = 0 ∨ i + n ≤ 2048 ∨ (buff.toList.drop i).contains 0 = true

instance (buff : Buffer) (i n : Nat) : Decidable (CopyFits buff i n) :=
  inferInstanceAs (Decidable (_ ∨ _))

theorem strncpyAt_of_fits {buff : Buffer} {i n : Nat} (h : CopyFits buff i n)
    (dst : List Byte) :
    strncpyAt buff.toList dst i n = some (strncpy dst (buff.toList.drop i) n) := by
  have hlen : buff.toList.length = 2048 := Vector.length_toList
  unfold CopyFits at h
  rw [strncpyAt, hlen, if_pos h]

theorem strncpyAt_of_not {buff : Buffer} {i n : Nat} (h : ¬ CopyFits buff i n)
    (dst : List Byte) : strncpyAt buff.toList dst i n = none := by
  have hlen : buff.toList.length = 2048 := Vector.length_toList
  unfold CopyFits at h
  rw [strncpyAt, hlen, if_neg h]

theorem lift_some {α β : Type} (a : α) (f : α → Reading β) :
    ((liftM (some a) : Reading α) >>= f) = f a := rfl

/-- A read that is gone on from. -/
theorem isSome_lift_bind {α β : Type} {x : Option α} {f : α → Reading β}
    (h : Option.isSome ((liftM x >>= f : Reading β))) : ∃ a, x = some a ∧ Option.isSome (f a) := by
  cases x with
  | none => cases h
  | some a => exact ⟨a, rfl, h⟩

theorem lt_of_at? {buff : Buffer} {i : Nat} {b : Byte} (h : buff.at? i = some b) :
    i < 2048 ∧ b.toNat = num buff i := by
  by_cases hi : i < 2048
  · rw [at?_of_lt buff hi] at h
    cases h
    exact ⟨hi, rfl⟩
  · rw [at?_of_ge buff (by omega)] at h
    cases h

theorem fits_of_strncpyAt {buff : Buffer} {dst s : List Byte} {i n : Nat}
    (h : strncpyAt buff.toList dst i n = some s) : CopyFits buff i n := by
  by_contra hno
  rw [strncpyAt_of_not hno] at h
  cases h

theorem push_of_lt {ds : List DescriptorElement} (h : ds.length < DESCRIPTOR_MAX_COUNT)
    (d : DescriptorElement) : push ds d = some (ds ++ [d]) := by rw [push, if_pos h]

/-! ## The sub-enclosures -/

section config

variable (desc_buff : Buffer)

/-- Where a sub-enclosure begins. -/
def subPos : Nat → Nat
  | 0 => 8
  | sub + 1 => subPos sub + num desc_buff (subPos sub + 3) + 4

/-- Where the text of the sub-enclosure at `pos` is looked for: the number of buffer descriptors,
the number of vital product data pages, and the length. -/
def buffersAt (pos : Nat) : Nat := num desc_buff (pos + 63) * 18
def pagesAt (pos : Nat) : Nat :=
  buffersAt desc_buff pos + num desc_buff (buffersAt desc_buff pos) * 4
def lengthAt (pos : Nat) : Nat := pagesAt desc_buff pos + num desc_buff (pagesAt desc_buff pos)

/-- What is read for the sub-enclosure at `pos` is in the buffer. -/
structure SubFits (pos : Nat) : Prop where
  header : pos + 63 < 2048
  buffers : buffersAt desc_buff pos < 2048
  pages : pagesAt desc_buff pos < 2048
  length : lengthAt desc_buff pos < 2048
  text : CopyFits desc_buff (lengthAt desc_buff pos + 1)
    (min (num desc_buff (lengthAt desc_buff pos)) HELP_TEXT_LENGTH)

/-- A text as it is stored. -/
def textAt (i n : Nat) : List Byte :=
  strncpy (List.replicate HELP_TEXT_LENGTH 0) (desc_buff.toList.drop i) (min n HELP_TEXT_LENGTH)

/-- The descriptor of a sub-enclosure. -/
def subDescriptor (sub : Nat) : DescriptorElement :=
  let pos := lengthAt desc_buff (subPos desc_buff sub)
  { sub_enclosure := BitVec.ofNat 8 sub
    help_text := textAt desc_buff (pos + 1) (num desc_buff pos) }

/-- The number of type headers of each of the first sub-enclosures. -/
def countsOf (n : Nat) : List Nat :=
  (List.range n).map fun sub => num desc_buff (subPos desc_buff sub + 2)

/-- The state after some sub-enclosures. -/
def subsAt (n : Nat) : Subs :=
  ⟨countsOf desc_buff n, subPos desc_buff n, (countsOf desc_buff n).sum,
    (List.range n).map (subDescriptor desc_buff)⟩

theorem countsOf_succ (n : Nat) :
    countsOf desc_buff (n + 1) =
      countsOf desc_buff n ++ [num desc_buff (subPos desc_buff n + 2)] := by
  rw [countsOf, List.range_succ, List.map_append]
  rfl

/-- A turn of the loop over the sub-enclosures. -/
theorem subs_staged {n : Nat} (hn : n ≤ MAX_SUBENC) :
    Staged (subTurn desc_buff) (subsAt desc_buff)
      (fun sub => SubFits desc_buff (subPos desc_buff sub)) (fun _ => True) n := by
  have hturn (sub : Nat) (hsub : sub < n) :
      (SubFits desc_buff (subPos desc_buff sub) →
        subTurn desc_buff (subsAt desc_buff sub) sub = some (.ok (subsAt desc_buff (sub + 1)))) ∧
      (¬ SubFits desc_buff (subPos desc_buff sub) →
        subTurn desc_buff (subsAt desc_buff sub) sub = none) := by
    refine ⟨fun hfits => ?_, fun hno => ?_⟩
    · have hheader := hfits.header
      obtain ⟨count, hcount, hcountNum⟩ :=
        at?_num desc_buff (show subPos desc_buff sub + 2 < 2048 by omega)
      obtain ⟨versions, hversions, hversionsNum⟩ := at?_num desc_buff hfits.header
      obtain ⟨buffers, hbuffers, hbuffersNum⟩ := at?_num desc_buff hfits.buffers
      obtain ⟨pages, hpages, hpagesNum⟩ := at?_num desc_buff hfits.pages
      obtain ⟨length, hlength, hlengthNum⟩ := at?_num desc_buff hfits.length
      obtain ⟨skip, hskip, hskipNum⟩ :=
        at?_num desc_buff (show subPos desc_buff sub + 3 < 2048 by omega)
      have htext := strncpyAt_of_fits hfits.text (List.replicate HELP_TEXT_LENGTH 0)
      have hroom : ((List.range sub).map (subDescriptor desc_buff)).length <
          DESCRIPTOR_MAX_COUNT := by
        rw [List.length_map, List.length_range]
        exact (hsub.trans_le hn).trans (by decide)
      unfold subTurn subsAt
      dsimp only
      rw [hcount, lift_some, if_pos (by omega), lift_some, hversions, lift_some, hversionsNum,
        show num desc_buff (subPos desc_buff sub + 63) * 18 =
          buffersAt desc_buff (subPos desc_buff sub) by rfl, hbuffers, lift_some, hbuffersNum,
        show buffersAt desc_buff (subPos desc_buff sub) +
          num desc_buff (buffersAt desc_buff (subPos desc_buff sub)) * 4 =
            pagesAt desc_buff (subPos desc_buff sub) by rfl, hpages, lift_some, hpagesNum,
        Nat.add_sub_cancel,
        show pagesAt desc_buff (subPos desc_buff sub) +
          num desc_buff (pagesAt desc_buff (subPos desc_buff sub)) =
            lengthAt desc_buff (subPos desc_buff sub) by rfl, hlength, lift_some, hlengthNum,
        htext, lift_some, push_of_lt hroom, lift_some, hskip, lift_some, hskipNum, hcountNum,
        countsOf_succ, List.sum_append, List.range_succ, List.map_append]
      rfl
    · by_contra hsome
      have hsome := Option.isSome_iff_ne_none.mpr hsome
      unfold subTurn at hsome
      obtain ⟨count, hcount, hsome⟩ := isSome_lift_bind hsome
      obtain ⟨counts, -, hsome⟩ := isSome_lift_bind hsome
      obtain ⟨versions, hversions, hsome⟩ := isSome_lift_bind hsome
      obtain ⟨buffers, hbuffers, hsome⟩ := isSome_lift_bind hsome
      obtain ⟨pages, hpages, hsome⟩ := isSome_lift_bind hsome
      obtain ⟨length, hlength, hsome⟩ := isSome_lift_bind hsome
      obtain ⟨text, htext, hsome⟩ := isSome_lift_bind hsome
      obtain ⟨hversionsLt, hversionsNum⟩ := lt_of_at? hversions
      obtain ⟨hbuffersLt, hbuffersNum⟩ := lt_of_at? hbuffers
      obtain ⟨hpagesLt, hpagesNum⟩ := lt_of_at? hpages
      obtain ⟨hlengthLt, hlengthNum⟩ := lt_of_at? hlength
      have htextFits := fits_of_strncpyAt htext
      rw [Nat.add_sub_cancel] at hlengthLt hlengthNum
      rw [hlengthNum, hpagesNum, hbuffersNum, hversionsNum] at htextFits
      rw [hpagesNum, hbuffersNum, hversionsNum] at hlengthLt
      rw [hbuffersNum, hversionsNum] at hpagesLt
      rw [hversionsNum] at hbuffersLt
      exact hno ⟨hversionsLt, hbuffersLt, hpagesLt, hlengthLt, htextFits⟩
  refine ⟨fun sub hsub _ => (hturn sub hsub).2, fun sub _ _ _ hno => absurd trivial hno,
    fun sub hsub _ hfits _ => (hturn sub hsub).1 hfits⟩

end config

/-! ## The types -/

section types

-- The type headers begin at `pos`, and their texts at `text`.
variable (desc_buff diag_buff : Buffer) (pos text : Nat)

def typePos (t : Nat) : Nat := pos + 4 * t

/-- The number of elements of a type, and the length of its text. -/
def elementsOf (t : Nat) : Nat := num desc_buff (typePos pos t + 1)
def lengthOf (t : Nat) : Nat := num desc_buff (typePos pos t + 3)

/-- The number of elements before a type. -/
def before (t : Nat) : Nat := ((List.range t).map (elementsOf desc_buff pos)).sum

/-- Where the text of a type is. -/
def textOf (t : Nat) : Nat := text + ((List.range t).map (lengthOf desc_buff pos)).sum

/-- Where the first element of a type is in the status page: an overall element stands before the
elements of each type. -/
def offsetOf (t : Nat) : Nat := 12 + 4 * (before desc_buff pos t + t)

/-- What is read for an element is in the buffers. -/
structure ElementFits (t j : Nat) : Prop where
  text : CopyFits desc_buff (textOf desc_buff pos text t)
    (min (lengthOf desc_buff pos t) HELP_TEXT_LENGTH)
  value : CopyFits diag_buff (offsetOf desc_buff pos t + 4 * j) 4

/-- What is read for a type is in the buffers, up to the element that fills the table, which has
`count` descriptors so far. -/
structure TypeFits (count t : Nat) : Prop where
  header : typePos pos t + 3 < 2048
  elements : ∀ j < elementsOf desc_buff pos t, count + j < DESCRIPTOR_MAX_COUNT →
    ElementFits desc_buff diag_buff pos text t j

/-- The descriptor of an element; `label` is the sub-enclosure, and the type in it. -/
def elementDescriptor (label : Nat × Nat) (t j : Nat) : DescriptorElement where
  sub_enclosure := BitVec.ofNat 8 label.1
  element_index := BitVec.ofNat 8 label.2
  element_type := desc_buff.toList.getD (typePos pos t) 0
  value_offset := BitVec.ofNat 16 (offsetOf desc_buff pos t + 4 * j)
  subelement_index := BitVec.ofNat 8 j
  help_text := textAt desc_buff (textOf desc_buff pos text t) (lengthOf desc_buff pos t)
  value := strncpy (List.replicate 4 0)
    (diag_buff.toList.drop (offsetOf desc_buff pos t + 4 * j)) 4

def typeDescriptors (label : Nat × Nat) (t j : Nat) : List DescriptorElement :=
  (List.range j).map (elementDescriptor desc_buff diag_buff pos text label t)

/-- The state in a type, after some elements. -/
def elementCursor (ds : List DescriptorElement) (label : Nat × Nat) (t j : Nat) : Cursor :=
  ⟨typePos pos t, textOf desc_buff pos text t, offsetOf desc_buff pos t + 4 * j,
    ds ++ typeDescriptors desc_buff diag_buff pos text label t j⟩

theorem typeDescriptors_succ (label : Nat × Nat) (t j : Nat) :
    typeDescriptors desc_buff diag_buff pos text label t (j + 1) =
      typeDescriptors desc_buff diag_buff pos text label t j ++
        [elementDescriptor desc_buff diag_buff pos text label t j] := by
  rw [typeDescriptors, List.range_succ, List.map_append]
  rfl

theorem length_typeDescriptors (label : Nat × Nat) (t j : Nat) :
    (typeDescriptors desc_buff diag_buff pos text label t j).length = j := by
  rw [typeDescriptors, List.length_map, List.length_range]

variable {desc_buff diag_buff pos text}

/-- A turn of the loop over the elements of a type. -/
theorem elements_staged {ds : List DescriptorElement} {label : Nat × Nat} {t n : Nat}
    (hheader : typePos pos t + 3 < 2048) (hroom : ds.length < DESCRIPTOR_MAX_COUNT) :
    Staged (elementTurn desc_buff diag_buff label.1 label.2)
      (elementCursor desc_buff diag_buff pos text ds label t)
      (ElementFits desc_buff diag_buff pos text t)
      (fun j => ds.length + j + 1 < DESCRIPTOR_MAX_COUNT) n := by
  have hlength (j : Nat) : (ds ++ typeDescriptors desc_buff diag_buff pos text label t j).length =
      ds.length + j := by
    rw [List.length_append, length_typeDescriptors]
  have hfull (j : Nat) (hbefore : ∀ i < j, ds.length + i + 1 < DESCRIPTOR_MAX_COUNT) :
      ds.length + j < DESCRIPTOR_MAX_COUNT := by
    cases j with
    | zero => exact hroom
    | succ j => exact hbefore j (Nat.lt_succ_self j)
  have hturn (j : Nat) (hj : ds.length + j < DESCRIPTOR_MAX_COUNT)
      (hfits : ElementFits desc_buff diag_buff pos text t j) :
      elementTurn desc_buff diag_buff label.1 label.2
          (elementCursor desc_buff diag_buff pos text ds label t j) j =
        if ds.length + j + 1 ≥ DESCRIPTOR_MAX_COUNT then throw (-1)
        else pure (elementCursor desc_buff diag_buff pos text ds label t (j + 1)) := by
    obtain ⟨length, hlen, hlenNum⟩ := at?_num desc_buff hheader
    have htext := strncpyAt_of_fits hfits.text (List.replicate HELP_TEXT_LENGTH 0)
    have hvalue := strncpyAt_of_fits hfits.value (List.replicate 4 0)
    unfold elementTurn elementCursor
    dsimp only
    rw [at?_of_lt desc_buff (by omega), lift_some, hlen, lift_some, hlenNum]
    rw [show num desc_buff (typePos pos t + 3) = lengthOf desc_buff pos t by rfl, htext, lift_some,
      hvalue, lift_some, push_of_lt (by rw [hlength]; exact hj), lift_some, List.length_append,
      List.length_singleton, hlength, typeDescriptors_succ, List.append_assoc]
    rfl
  refine ⟨fun j _ hbefore hno => ?_, fun j _ hbefore hfits hno => ?_,
    fun j _ hbefore hfits hyes => ?_⟩
  · by_contra hsome
    have hsome := Option.isSome_iff_ne_none.mpr hsome
    unfold elementTurn elementCursor at hsome
    dsimp only at hsome
    obtain ⟨type, -, hsome⟩ := isSome_lift_bind hsome
    obtain ⟨length, hlen, hsome⟩ := isSome_lift_bind hsome
    obtain ⟨help_text, htext, hsome⟩ := isSome_lift_bind hsome
    obtain ⟨value, hvalue, hsome⟩ := isSome_lift_bind hsome
    have htextFits := fits_of_strncpyAt htext
    rw [(lt_of_at? hlen).2] at htextFits
    exact hno ⟨htextFits, fits_of_strncpyAt hvalue⟩
  · rw [hturn j (hfull j hbefore) hfits, if_pos (by omega)]
    exact ⟨-1, rfl⟩
  · rw [hturn j (hfull j hbefore) hfits, if_neg (by omega)]
    rfl

/-- What the first types list. -/
def listed (desc_buff diag_buff : Buffer) (pos text : Nat) (labels : List (Nat × Nat)) (t : Nat) :
    List DescriptorElement :=
  (List.range t).flatMap fun k =>
    typeDescriptors desc_buff diag_buff pos text (labels.getD k (0, 0)) k
      (elementsOf desc_buff pos k)

/-- The state after some types. -/
def typeCursor (desc_buff diag_buff : Buffer) (pos text : Nat) (base : List DescriptorElement)
    (labels : List (Nat × Nat)) (t : Nat) : Cursor :=
  ⟨typePos pos t, textOf desc_buff pos text t, offsetOf desc_buff pos t,
    base ++ listed desc_buff diag_buff pos text labels t⟩

theorem before_succ (t : Nat) :
    before desc_buff pos (t + 1) = before desc_buff pos t + elementsOf desc_buff pos t := by
  rw [before, List.range_succ, List.map_append, List.sum_append]
  rfl

theorem textOf_succ (t : Nat) :
    textOf desc_buff pos text (t + 1) = textOf desc_buff pos text t + lengthOf desc_buff pos t := by
  rw [textOf, List.range_succ, List.map_append, List.sum_append, ← Nat.add_assoc]
  rfl

theorem listed_succ (labels : List (Nat × Nat)) (t : Nat) :
    listed desc_buff diag_buff pos text labels (t + 1) =
      listed desc_buff diag_buff pos text labels t ++
        typeDescriptors desc_buff diag_buff pos text (labels.getD t (0, 0)) t
          (elementsOf desc_buff pos t) := by
  rw [listed, List.range_succ, List.flatMap_append, List.flatMap_singleton]
  rfl

theorem length_listed (labels : List (Nat × Nat)) (t : Nat) :
    (listed desc_buff diag_buff pos text labels t).length = before desc_buff pos t := by
  induction t with
  | zero => rfl
  | succ t ih => rw [listed_succ, List.length_append, ih, length_typeDescriptors, before_succ]

theorem before_mono {t u : Nat} (h : t ≤ u) : before desc_buff pos t ≤ before desc_buff pos u := by
  induction h with
  | refl => exact Nat.le_refl _
  | step _ ih => exact ih.trans (by rw [before_succ]; omega)

theorem isSome_bind {α β : Type} {x : Reading α} {f : α → Reading β}
    (h : Option.isSome (x >>= f : Reading β)) : Option.isSome x := by
  cases x with
  | none => cases h
  | some r => rfl

/-- A type whose header ends outside the buffer. -/
theorem typeTurn_outside {sub i : Nat} {s : Cursor} (h : 2048 ≤ s.buff_pos + 3) :
    typeTurn desc_buff diag_buff sub s i = none := by
  by_contra hsome
  have hsome := Option.isSome_iff_ne_none.mpr hsome
  unfold typeTurn at hsome
  obtain ⟨elements, -, hsome⟩ := isSome_lift_bind hsome
  cases hcount : elements.toNat with
  | zero =>
    rw [hcount] at hsome
    obtain ⟨length, hlength, -⟩ := isSome_lift_bind (f := fun _ => pure _) hsome
    have hlt := (lt_of_at? hlength).1
    omega
  | succ c =>
    rw [hcount, List.range_succ_eq_map, List.foldlM_cons] at hsome
    have hfirst := isSome_bind (isSome_bind hsome)
    unfold elementTurn at hfirst
    obtain ⟨type, -, hfirst⟩ := isSome_lift_bind hfirst
    obtain ⟨length, hlength, -⟩ := isSome_lift_bind hfirst
    have hlt := (lt_of_at? hlength).1
    omega

/-- The end of a turn over a type. -/
def typeEnd (desc_buff : Buffer) (s : Cursor) : Reading Cursor := do
  let length ← (desc_buff.at? (s.buff_pos + 3) : Option Byte)
  pure { s with
    element_offset := s.element_offset + 4
    text_offset := s.text_offset + length.toNat
    buff_pos := s.buff_pos + 4 }

theorem typeTurn_inside {sub i t : Nat} {s : Cursor} (hs : s.buff_pos = typePos pos t)
    (hheader : typePos pos t + 3 < 2048) :
    typeTurn desc_buff diag_buff sub s i =
      (List.range (elementsOf desc_buff pos t)).foldlM (elementTurn desc_buff diag_buff sub i) s >>=
        typeEnd desc_buff := by
  obtain ⟨elements, helements, hnum⟩ :=
    at?_num desc_buff (show s.buff_pos + 1 < 2048 by omega)
  rw [typeTurn, helements, lift_some, hnum, hs]
  rfl

/-- A turn of the loop over the types. -/
theorem types_staged {base : List DescriptorElement} {labels : List (Nat × Nat)} {n : Nat}
    (hbase : base.length < DESCRIPTOR_MAX_COUNT) :
    Staged (fun s t => typeTurn desc_buff diag_buff (labels.getD t (0, 0)).1 s
        (labels.getD t (0, 0)).2)
      (typeCursor desc_buff diag_buff pos text base labels)
      (fun t => TypeFits desc_buff diag_buff pos text (base.length + before desc_buff pos t) t)
      (fun t => base.length + before desc_buff pos (t + 1) < DESCRIPTOR_MAX_COUNT) n := by
  have hroom (t : Nat)
      (hbefore : ∀ i < t, base.length + before desc_buff pos (i + 1) < DESCRIPTOR_MAX_COUNT) :
      (base ++ listed desc_buff diag_buff pos text labels t).length < DESCRIPTOR_MAX_COUNT := by
    rw [List.length_append, length_listed]
    cases t with
    | zero => exact hbase
    | succ t => exact hbefore t (Nat.lt_succ_self t)
  have hstart (t : Nat) : typeCursor desc_buff diag_buff pos text base labels t =
      elementCursor desc_buff diag_buff pos text
        (base ++ listed desc_buff diag_buff pos text labels t) (labels.getD t (0, 0)) t 0 := by
    rw [elementCursor, typeDescriptors, List.range_zero, List.map_nil, List.append_nil]
    rfl
  have hlength (t : Nat) : (base ++ listed desc_buff diag_buff pos text labels t).length =
      base.length + before desc_buff pos t := by
    rw [List.length_append, length_listed]
  refine ⟨fun t _ hbefore hno => ?_, fun t _ hbefore hfits hno => ?_,
    fun t _ hbefore hfits hyes => ?_⟩
  · by_cases hheader : typePos pos t + 3 < 2048
    swap
    · apply typeTurn_outside
      change 2048 ≤ typePos pos t + 3
      omega
    have hrun : (List.range (elementsOf desc_buff pos t)).foldlM
        (elementTurn desc_buff diag_buff (labels.getD t (0, 0)).1 (labels.getD t (0, 0)).2)
        (typeCursor desc_buff diag_buff pos text base labels t) = none := by
      rw [hstart]
      apply (elements_staged hheader (hroom t hbefore)).of_out
      by_contra hall
      refine hno ⟨hheader, fun j hj hcount => by_contra fun hnofit => hall ⟨j, hj, ?_, hnofit⟩⟩
      intro i hi
      rw [hlength]
      omega
    rw [typeTurn_inside rfl hheader, hrun]
    rfl
  · have hrun : ∃ e, (List.range (elementsOf desc_buff pos t)).foldlM
        (elementTurn desc_buff diag_buff (labels.getD t (0, 0)).1 (labels.getD t (0, 0)).2)
        (typeCursor desc_buff diag_buff pos text base labels t) = some (.error e) := by
      have hcount := hroom t hbefore
      rw [hlength] at hcount
      rw [before_succ] at hno
      rw [hstart]
      apply (elements_staged hfits.header (hroom t hbefore)).of_full
      · intro j hj hbefore'
        apply hfits.elements j hj
        cases j with
        | zero => exact hcount
        | succ j =>
          have hlast := hbefore' j (Nat.lt_succ_self j)
          rw [hlength] at hlast
          omega
      · refine ⟨DESCRIPTOR_MAX_COUNT - 1 - (base.length + before desc_buff pos t), by omega, ?_⟩
        rw [hlength]
        omega
    obtain ⟨e, he⟩ := hrun
    rw [typeTurn_inside rfl hfits.header, he]
    exact ⟨e, rfl⟩
  · have hrun : (List.range (elementsOf desc_buff pos t)).foldlM
        (elementTurn desc_buff diag_buff (labels.getD t (0, 0)).1 (labels.getD t (0, 0)).2)
        (typeCursor desc_buff diag_buff pos text base labels t) =
          some (.ok (elementCursor desc_buff diag_buff pos text
            (base ++ listed desc_buff diag_buff pos text labels t) (labels.getD t (0, 0)) t
            (elementsOf desc_buff pos t))) := by
      rw [before_succ] at hyes
      rw [hstart]
      apply (elements_staged hfits.header (hroom t hbefore)).of_all
      intro j hj
      refine ⟨hfits.elements j hj (by omega), ?_⟩
      rw [hlength]
      omega
    obtain ⟨length, hlen, hlenNum⟩ := at?_num desc_buff hfits.header
    have hoffset : offsetOf desc_buff pos t + 4 * elementsOf desc_buff pos t + 4 =
        offsetOf desc_buff pos (t + 1) := by
      rw [offsetOf, offsetOf, before_succ]
      omega
    rw [typeTurn_inside rfl hfits.header, hrun]
    change typeEnd desc_buff _ = _
    unfold typeEnd elementCursor typeCursor
    dsimp only
    rw [hlen, lift_some, hlenNum, hoffset, textOf_succ, listed_succ, List.append_assoc]
    rfl

end types

/-! ## The walk -/

/-- The type headers by sub-enclosure and index. -/
def labelsOf (counts : List Nat) : List (Nat × Nat) :=
  (List.range counts.length).flatMap fun sub =>
    (List.range (counts.getD sub 0)).map fun i => (sub, i)

theorem length_labelsOf (counts : List Nat) : (labelsOf counts).length = counts.sum := by
  have hall : (List.range counts.length).map (fun sub => counts.getD sub 0) = counts := by
    apply List.ext_getElem
    · rw [List.length_map, List.length_range]
    · intro k hk hk'
      rw [List.getElem_map, List.getElem_range, List.getD_eq_getElem?_getD,
        List.getElem?_eq_getElem hk']
      rfl
  rw [labelsOf, List.length_flatMap]
  simp only [List.length_map, List.length_range]
  rw [hall]

/-- The loops over sub-enclosures and types are one over the types. -/
theorem typesTurn_eq (desc_buff diag_buff : Buffer) {counts subs : List Nat}
    (h : ∀ sub ∈ subs, sub < counts.length) (s : Cursor) :
    subs.foldlM (typesTurn desc_buff diag_buff counts) s =
      (subs.flatMap fun sub => (List.range (counts.getD sub 0)).map fun i => (sub, i)).foldlM
        (fun s p => typeTurn desc_buff diag_buff p.1 s p.2) s := by
  induction subs generalizing s with
  | nil => rfl
  | cons sub subs ih =>
    rw [List.forall_mem_cons] at h
    have hcount : counts[sub]? = some (counts.getD sub 0) := by
      rw [List.getD_eq_getElem?_getD, List.getElem?_eq_getElem h.1]
      rfl
    rw [List.foldlM_cons, List.flatMap_cons, List.foldlM_append, List.foldlM_map, typesTurn,
      hcount, lift_some]
    exact congrArg _ (funext fun s => ih h.2 s)

section walk

variable (desc_buff diag_buff : Buffer)

/-- The number of type headers, where they begin, and where their texts do. -/
def typeCount : Nat := (countsOf desc_buff (subCount desc_buff)).sum
def typesStart : Nat := subPos desc_buff (subCount desc_buff)
def textsStart : Nat := typesStart desc_buff + 4 * typeCount desc_buff

def labels : List (Nat × Nat) := labelsOf (countsOf desc_buff (subCount desc_buff))

/-- The descriptors in use when a type is begun. -/
def filled (t : Nat) : Nat := subCount desc_buff + before desc_buff (typesStart desc_buff) t

/-- The pages are accepted. -/
def Accepted : Prop :=
  (pageSize diag_buff).toNat + 4 ≤ MAX_DIAG_PAGE_SIZE ∧ subCount desc_buff ≤ MAX_SUBENC

/-- **What is read is in the buffers**: for every sub-enclosure, and for every type that is reached
before the table is full. -/
structure WalkFits : Prop where
  subs : ∀ sub < subCount desc_buff, SubFits desc_buff (subPos desc_buff sub)
  types : ∀ t < typeCount desc_buff, filled desc_buff t < DESCRIPTOR_MAX_COUNT →
    TypeFits desc_buff diag_buff (typesStart desc_buff) (textsStart desc_buff)
      (filled desc_buff t) t

/-- **What is listed**: a descriptor for each sub-enclosure, and one for each element. -/
def allDescriptors : List DescriptorElement :=
  (List.range (subCount desc_buff)).map (subDescriptor desc_buff) ++
    listed desc_buff diag_buff (typesStart desc_buff) (textsStart desc_buff) (labels desc_buff)
      (typeCount desc_buff)

/-- The loop over the sub-enclosures. -/
def subsRun : Reading Subs :=
  (List.range (subCount desc_buff)).foldlM (subTurn desc_buff) ⟨[], 8, 0, []⟩

/-- The loops over the elements. -/
def typesRun (s : Subs) : Reading Cursor :=
  (List.range (subCount desc_buff)).foldlM (typesTurn desc_buff diag_buff s.counts)
    ⟨s.buff_pos, s.buff_pos + 4 * s.element_header_count, 12, s.descriptors⟩

theorem getSubencDescriptors_eq (h : Accepted desc_buff diag_buff) :
    getSubencDescriptors (some desc_buff) (some diag_buff) =
      subsRun desc_buff >>= fun s => typesRun desc_buff diag_buff s >>= fun c =>
        pure ⟨pageSize diag_buff, generationOf diag_buff, c.descriptors⟩ := by
  unfold getSubencDescriptors
  dsimp only
  rw [if_neg (Nat.not_lt.mpr h.1), if_neg (Nat.not_lt.mpr h.2)]
  rfl

theorem getSubencDescriptors_refused (h : ¬ Accepted desc_buff diag_buff) :
    getSubencDescriptors (some desc_buff) (some diag_buff) = some (.error (-1)) := by
  unfold getSubencDescriptors
  dsimp only
  by_cases hsize : (pageSize diag_buff).toNat + 4 ≤ MAX_DIAG_PAGE_SIZE
  · rw [if_neg (Nat.not_lt.mpr hsize), if_pos (Nat.not_le.mp fun hcount => h ⟨hsize, hcount⟩)]
    rfl
  · rw [if_pos (Nat.not_le.mp hsize)]
    rfl

variable {desc_buff diag_buff}

theorem subsRun_isSome_iff (h : subCount desc_buff ≤ MAX_SUBENC) :
    Option.isSome (subsRun desc_buff) ↔
      ∀ sub < subCount desc_buff, SubFits desc_buff (subPos desc_buff sub) := by
  have hrun := (subs_staged desc_buff h).isSome_iff
  simp only [implies_true, true_imp_iff] at hrun
  exact hrun

theorem subsRun_of_fits (h : subCount desc_buff ≤ MAX_SUBENC)
    (hfits : ∀ sub < subCount desc_buff, SubFits desc_buff (subPos desc_buff sub)) :
    subsRun desc_buff = some (.ok (subsAt desc_buff (subCount desc_buff))) :=
  (subs_staged desc_buff h).of_all fun sub hsub => ⟨hfits sub hsub, trivial⟩

/-- The loops over the elements, as one loop. -/
theorem typesRun_eq : typesRun desc_buff diag_buff (subsAt desc_buff (subCount desc_buff)) =
    (List.range (typeCount desc_buff)).foldlM
      (fun s t => typeTurn desc_buff diag_buff ((labels desc_buff).getD t (0, 0)).1 s
        ((labels desc_buff).getD t (0, 0)).2)
      (typeCursor desc_buff diag_buff (typesStart desc_buff) (textsStart desc_buff)
        ((List.range (subCount desc_buff)).map (subDescriptor desc_buff)) (labels desc_buff)
        0) := by
  have hlen : (countsOf desc_buff (subCount desc_buff)).length = subCount desc_buff := by
    rw [countsOf, List.length_map, List.length_range]
  have hlabels : ((List.range (subCount desc_buff)).flatMap fun sub =>
      (List.range ((countsOf desc_buff (subCount desc_buff)).getD sub 0)).map fun i => (sub, i)) =
        labels desc_buff := by
    rw [labels, labelsOf, hlen]
  have hcount : (labels desc_buff).length = typeCount desc_buff := length_labelsOf _
  unfold typesRun subsAt
  dsimp only
  rw [typesTurn_eq desc_buff diag_buff (fun sub hsub => by
      rw [hlen]
      exact List.mem_range.mp hsub), hlabels, foldlM_eq_range _ _ _ (0, 0), hcount]
  unfold typeCursor listed
  rw [List.range_zero, List.flatMap_nil, List.append_nil]
  rfl

/-- What a turn over the types does, for these pages. -/
theorem walk_staged (h : subCount desc_buff ≤ MAX_SUBENC) (n : Nat) :
    Staged (fun s t => typeTurn desc_buff diag_buff ((labels desc_buff).getD t (0, 0)).1 s
        ((labels desc_buff).getD t (0, 0)).2)
      (typeCursor desc_buff diag_buff (typesStart desc_buff) (textsStart desc_buff)
        ((List.range (subCount desc_buff)).map (subDescriptor desc_buff)) (labels desc_buff))
      (fun t => TypeFits desc_buff diag_buff (typesStart desc_buff) (textsStart desc_buff)
        (filled desc_buff t) t)
      (fun t => filled desc_buff (t + 1) < DESCRIPTOR_MAX_COUNT) n := by
  have hlen : ((List.range (subCount desc_buff)).map (subDescriptor desc_buff)).length =
      subCount desc_buff := by
    rw [List.length_map, List.length_range]
  have hstaged := @types_staged desc_buff diag_buff (typesStart desc_buff) (textsStart desc_buff)
    ((List.range (subCount desc_buff)).map (subDescriptor desc_buff)) (labels desc_buff) n
    (by rw [hlen]; exact h.trans_lt (by decide))
  rw [hlen] at hstaged
  exact hstaged

/-- The types before one that is reached leave room. -/
theorem filled_lt_iff (h : subCount desc_buff ≤ MAX_SUBENC) (t : Nat) :
    (∀ i < t, filled desc_buff (i + 1) < DESCRIPTOR_MAX_COUNT) ↔
      filled desc_buff t < DESCRIPTOR_MAX_COUNT := by
  refine ⟨fun hall => ?_, fun ht i hi => ?_⟩
  · cases t with
    | zero => exact h.trans_lt (by decide)
    | succ t => exact hall t (Nat.lt_succ_self t)
  · refine (Nat.add_le_add_left (before_mono hi) _).trans_lt ht

theorem isSome_bind_pure {α β : Type} {x : Reading α} {f : α → β} :
    Option.isSome (x >>= fun a => pure (f a) : Reading β) ↔ Option.isSome x := by
  refine ⟨isSome_bind, fun h => ?_⟩
  cases x with
  | none => cases h
  | some r =>
    cases r with
    | error e => rfl
    | ok a => rfl

/-- **When the walk stays in the buffers**, the counts and the table. -/
theorem getSubencDescriptors_isSome_iff :
    Option.isSome (getSubencDescriptors (some desc_buff) (some diag_buff)) ↔
      (Accepted desc_buff diag_buff → WalkFits desc_buff diag_buff) := by
  by_cases haccepted : Accepted desc_buff diag_buff
  swap
  · rw [getSubencDescriptors_refused _ _ haccepted]
    exact iff_of_true rfl fun h => absurd h haccepted
  have hsubs := haccepted.2
  rw [getSubencDescriptors_eq _ _ haccepted]
  by_cases hfits : ∀ sub < subCount desc_buff, SubFits desc_buff (subPos desc_buff sub)
  swap
  · refine iff_of_false (fun h => ?_) fun h => hfits (h haccepted).subs
    exact hfits ((subsRun_isSome_iff hsubs).mp (isSome_bind h))
  have hrun := (@walk_staged desc_buff diag_buff hsubs (typeCount desc_buff)).isSome_iff
  simp only [filled_lt_iff hsubs] at hrun
  rw [subsRun_of_fits hsubs hfits]
  refine (isSome_bind_pure (x := typesRun desc_buff diag_buff
    (subsAt desc_buff (subCount desc_buff)))).trans ?_
  rw [typesRun_eq, hrun]
  exact ⟨fun h _ => ⟨hfits, h⟩, fun h => (h haccepted).types⟩

/-- **What is listed.** -/
theorem getSubencDescriptors_ok_iff {d : Descriptors} :
    getSubencDescriptors (some desc_buff) (some diag_buff) = some (.ok d) ↔
      Accepted desc_buff diag_buff ∧ WalkFits desc_buff diag_buff ∧
        filled desc_buff (typeCount desc_buff) < DESCRIPTOR_MAX_COUNT ∧
        d = ⟨pageSize diag_buff, generationOf diag_buff, allDescriptors desc_buff diag_buff⟩ := by
  by_cases haccepted : Accepted desc_buff diag_buff
  swap
  · rw [getSubencDescriptors_refused _ _ haccepted]
    exact iff_of_false (fun h => by cases h) fun h => haccepted h.1
  have hsubs := haccepted.2
  rw [getSubencDescriptors_eq _ _ haccepted]
  by_cases hfits : ∀ sub < subCount desc_buff, SubFits desc_buff (subPos desc_buff sub)
  swap
  · refine iff_of_false (fun h => ?_) fun h => hfits h.2.1.subs
    apply hfits
    apply (subsRun_isSome_iff hsubs).mp
    apply isSome_bind
    rw [h]
    rfl
  have hrun {c : Cursor} :=
    (@walk_staged desc_buff diag_buff hsubs (typeCount desc_buff)).ok_iff (s := c)
  rw [subsRun_of_fits hsubs hfits]
  change (typesRun desc_buff diag_buff (subsAt desc_buff (subCount desc_buff)) >>= fun c => _) =
    some (.ok d) ↔ _
  rw [Reading.bind_ok]
  simp only [typesRun_eq, hrun]
  refine ⟨?_, ?_⟩
  · rintro ⟨c, ⟨hall, rfl⟩, hd⟩
    cases hd
    have hroom : filled desc_buff (typeCount desc_buff) < DESCRIPTOR_MAX_COUNT :=
      (filled_lt_iff hsubs _).mp fun t ht => (hall t ht).2
    exact ⟨haccepted, ⟨hfits, fun t ht _ => (hall t ht).1⟩, hroom, rfl⟩
  · rintro ⟨-, hwalk, hroom, rfl⟩
    have hrooms := (filled_lt_iff hsubs _).mpr hroom
    refine ⟨_, ⟨fun t ht => ⟨hwalk.types t ht ?_, hrooms t ht⟩, rfl⟩, rfl⟩
    exact (filled_lt_iff hsubs t).mp fun i hi => hrooms i (by omega)

end walk

end Enclosure
