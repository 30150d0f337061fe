import Disks.Enclosure.ConfigPage
import Disks.Enclosure.Proof.Walk
import Disks.Lib.Layout

/-!
# The descriptors of a page that is well formed

* `drop_subPos`, `drop_typePos`, `drop_textOf`: the cursors of the walk stand at the pieces of the
  page.
* `shown_element`, `shown_listed`: the descriptors of the elements.
* `descriptors_faithful`: **the list is the one that the pages call for**, up to the texts of the
  sub-enclosures. `eleven_refused`: what is refused, and a text that is not found.
-/

namespace Enclosure

open Bytes Drive Layout

/-! ## Bytes of a page -/

/-- A byte behind a position, in a page that fits the buffer. -/
theorem byte_of_drop {page rest : List Byte} (hpage : page.length ≤ 2048) {pos i : Nat} {b : Byte}
    (hdrop : page.drop pos = rest) (hb : rest[i]? = some b) :
    (bufferOf page).toList.getD (pos + i) 0 = b := by
  have hbyte : page[pos + i]? = some b := by
    rw [← hdrop, List.getElem?_drop] at hb
    exact hb
  have hlt := (List.getElem?_eq_some_iff.mp hbyte).1
  rw [getD_bufferOf page (by omega), List.getD_eq_getElem?_getD, hbyte]
  rfl

theorem num_of_drop {page rest : List Byte} (hpage : page.length ≤ 2048) {pos i : Nat} {b : Byte}
    (hdrop : page.drop pos = rest) (hb : rest[i]? = some b) :
    num (bufferOf page) (pos + i) = b.toNat :=
  congrArg BitVec.toNat (byte_of_drop hpage hdrop hb)

theorem toNat_count {n : Nat} (h : n < 256) : (BitVec.ofNat 8 n).toNat = n := by
  rw [BitVec.toNat_ofNat]
  exact Nat.mod_eq_of_lt h

theorem length_descriptor (s : SubEnclosure) : s.descriptor.length = s.body.length + 4 := by
  simp only [SubEnclosure.descriptor, List.length_append, List.length_cons, List.length_nil]
  omega

theorem length_front (c : Configuration) : c.front.length = 8 := by
  simp [Configuration.front]

theorem length_header (t : TypeDescriptor) : t.header.length = 4 := rfl

section page

variable {c : Configuration}

theorem drop_descriptors (k : Nat) :
    c.page.drop (8 + start SubEnclosure.descriptor c.subs k) =
      (c.subs.drop k).flatMap (·.descriptor) ++ c.typePart := by
  have hdrop := drop_pieces SubEnclosure.descriptor c.front c.typePart c.subs k
  rwa [length_front] at hdrop

/-- The head of a descriptor. -/
theorem drop_sub {k : Nat} (hk : k < c.subs.length) :
    ∃ rest, c.page.drop (8 + start SubEnclosure.descriptor c.subs k) =
      c.subs[k].process :: c.subs[k].identifier :: BitVec.ofNat 8 c.subs[k].types.length ::
        BitVec.ofNat 8 c.subs[k].body.length :: rest := by
  rw [drop_descriptors, drop_pieces_cons _ hk]
  exact ⟨_, rfl⟩

/-- Where a sub-enclosure begins. -/
theorem subPos_page (hpage : c.page.length ≤ 2048) {k : Nat} (hk : k ≤ c.subs.length) :
    subPos (bufferOf c.page) k = 8 + start SubEnclosure.descriptor c.subs k := by
  induction k with
  | zero => rfl
  | succ k ih =>
    have hlt : k < c.subs.length := hk
    obtain ⟨rest, hdrop⟩ := drop_sub hlt
    have hskip := num_of_drop hpage hdrop (i := 3) rfl
    rw [toNat_count c.subs[k].fits] at hskip
    rw [subPos, ih (Nat.le_of_lt hlt), hskip, start_succ _ hlt, length_descriptor]
    omega

theorem countsOf_page (hpage : c.page.length ≤ 2048) {k : Nat} (hk : k ≤ c.subs.length) :
    countsOf (bufferOf c.page) k = (c.subs.take k).map (·.types.length) := by
  induction k with
  | zero => rfl
  | succ k ih =>
    have hlt : k < c.subs.length := hk
    obtain ⟨rest, hdrop⟩ := drop_sub hlt
    have hcount := num_of_drop hpage hdrop (i := 2) rfl
    rw [toNat_count c.subs[k].few] at hcount
    rw [countsOf_succ, ih (Nat.le_of_lt hlt), subPos_page hpage (Nat.le_of_lt hlt), hcount,
      List.take_succ_eq_append_getElem hlt, List.map_append]
    rfl

/-- The number of sub-enclosures, which wraps for 256 of them. -/
theorem subCount_page (hfew : c.subs.length < 256) :
    subCount (bufferOf c.page) = c.subs.length := by
  have hsome := List.length_pos_iff.mpr c.nonempty
  have hbyte : c.page.getD 1 0 = BitVec.ofNat 8 (c.subs.length - 1) := rfl
  rw [subCount, getD_bufferOf _ (by decide), hbyte, toNat_count (by omega),
    Nat.sub_add_cancel hsome, Nat.mod_eq_of_lt hfew]

theorem length_types (c : Configuration) :
    c.types.length = (c.subs.map (·.types.length)).sum := by
  rw [Configuration.types, List.length_flatMap]

/-! ## The cursors over the types -/

theorem typesStart_page (hpage : c.page.length ≤ 2048) (hfew : c.subs.length < 256) :
    typesStart (bufferOf c.page) = (c.front ++ c.subs.flatMap (·.descriptor)).length := by
  rw [typesStart, subCount_page hfew, subPos_page hpage (Nat.le_refl _), start_length,
    List.length_append, length_front]

theorem typeCount_page (hpage : c.page.length ≤ 2048) (hfew : c.subs.length < 256) :
    typeCount (bufferOf c.page) = c.types.length := by
  rw [typeCount, subCount_page hfew, countsOf_page hpage (Nat.le_refl _), List.take_length,
    length_types]

/-- The head of a type, and where its header stands. -/
theorem drop_typePos (hpage : c.page.length ≤ 2048) (hfew : c.subs.length < 256) {t : Nat}
    (ht : t < c.types.length) :
    ∃ rest, c.page.drop (typePos (typesStart (bufferOf c.page)) t) =
      c.types[t].element_type :: c.types[t].elements :: c.types[t].sub_enclosure ::
        BitVec.ofNat 8 c.types[t].text.length :: rest := by
  have hstart : start TypeDescriptor.header c.types t = 4 * t :=
    start_eq_mul length_header c.types (Nat.le_of_lt ht)
  have hdrop := drop_pieces TypeDescriptor.header (c.front ++ c.subs.flatMap (·.descriptor))
    (c.types.flatMap (·.text)) c.types t
  rw [hstart, ← typesStart_page hpage hfew, List.append_assoc, drop_pieces_cons _ ht] at hdrop
  exact ⟨_, hdrop⟩

theorem elementsOf_page (hpage : c.page.length ≤ 2048) (hfew : c.subs.length < 256) {t : Nat}
    (ht : t < c.types.length) :
    elementsOf (bufferOf c.page) (typesStart (bufferOf c.page)) t =
      c.types[t].elements.toNat := by
  obtain ⟨rest, hdrop⟩ := drop_typePos hpage hfew ht
  exact num_of_drop hpage hdrop rfl

theorem lengthOf_page (hpage : c.page.length ≤ 2048) (hfew : c.subs.length < 256) {t : Nat}
    (ht : t < c.types.length) :
    lengthOf (bufferOf c.page) (typesStart (bufferOf c.page)) t = c.types[t].text.length := by
  obtain ⟨rest, hdrop⟩ := drop_typePos hpage hfew ht
  have hshort : c.types[t].text.length < 256 := c.types[t].short.trans (by decide)
  exact (num_of_drop hpage hdrop rfl).trans (toNat_count hshort)

theorem textsStart_page (hpage : c.page.length ≤ 2048) (hfew : c.subs.length < 256) :
    textsStart (bufferOf c.page) =
      (c.front ++ c.subs.flatMap (·.descriptor) ++ c.types.flatMap (·.header)).length := by
  have hheaders : (c.types.flatMap (·.header)).length = 4 * c.types.length :=
    (start_length TypeDescriptor.header c.types).symm.trans
      (start_eq_mul length_header c.types (Nat.le_refl _))
  rw [textsStart, typesStart_page hpage hfew, typeCount_page hpage hfew, ← hheaders]
  exact List.length_append.symm

theorem textOf_page (hpage : c.page.length ≤ 2048) (hfew : c.subs.length < 256) {t : Nat}
    (ht : t ≤ c.types.length) :
    textOf (bufferOf c.page) (typesStart (bufferOf c.page)) (textsStart (bufferOf c.page)) t =
      textsStart (bufferOf c.page) + start TypeDescriptor.text c.types t := by
  induction t with
  | zero => rfl
  | succ t ih =>
    have hlt : t < c.types.length := ht
    rw [textOf_succ, ih (Nat.le_of_lt hlt), lengthOf_page hpage hfew hlt, start_succ _ hlt,
      Nat.add_assoc]

/-- The text of a type, and where it stands. -/
theorem drop_textOf (hpage : c.page.length ≤ 2048) (hfew : c.subs.length < 256) {t : Nat}
    (ht : t < c.types.length) :
    ∃ rest, c.page.drop (textOf (bufferOf c.page) (typesStart (bufferOf c.page))
      (textsStart (bufferOf c.page)) t) = c.types[t].text ++ rest := by
  have hdrop := drop_pieces TypeDescriptor.text
    (c.front ++ c.subs.flatMap (·.descriptor) ++ c.types.flatMap (·.header)) [] c.types t
  rw [← textsStart_page hpage hfew, ← textOf_page hpage hfew (Nat.le_of_lt ht),
    drop_pieces_cons _ ht, List.append_nil] at hdrop
  refine ⟨_, Eq.trans ?_ hdrop⟩
  rw [Configuration.page, Configuration.typePart, ← List.append_assoc]

/-- The texts are in the page. -/
theorem textOf_le (hpage : c.page.length ≤ 2048) (hfew : c.subs.length < 256) {t : Nat}
    (ht : t < c.types.length) :
    textOf (bufferOf c.page) (typesStart (bufferOf c.page)) (textsStart (bufferOf c.page)) t +
      c.types[t].text.length ≤ c.page.length := by
  have hlast : start TypeDescriptor.text c.types (t + 1) ≤ (c.types.flatMap (·.text)).length :=
    start_le ..
  have hlength : c.page.length =
      textsStart (bufferOf c.page) + (c.types.flatMap (·.text)).length := by
    rw [textsStart_page hpage hfew, ← List.length_append, Configuration.page,
      Configuration.typePart, ← List.append_assoc]
  rw [start_succ _ ht] at hlast
  rw [textOf_page hpage hfew (Nat.le_of_lt ht), hlength]
  omega

theorem typePos_lt (hpage : c.page.length ≤ 2048) (hfew : c.subs.length < 256) {t : Nat}
    (ht : t < c.types.length) : typePos (typesStart (bufferOf c.page)) t + 3 < 2048 := by
  obtain ⟨rest, hdrop⟩ := drop_typePos hpage hfew ht
  have hlength := congrArg List.length hdrop
  simp only [List.length_drop, List.length_cons] at hlength
  omega

/-! ## The labels -/

theorem labelled_types (c : Configuration) : c.labelled.map (·.2) = c.types := by
  have hsub (s : SubEnclosure × Nat) :
      (s.1.types.zipIdx.map fun t => ((s.2, t.2), t.1)).map (·.2) = s.1.types := by
    rw [List.map_map]
    exact List.zipIdx_map_fst 0 s.1.types
  have hfirst : (c.subs.zipIdx.map (·.1)).flatMap (·.types) =
      c.subs.zipIdx.flatMap fun s => s.1.types := List.flatMap_map ..
  rw [Configuration.labelled, List.map_flatMap]
  simp only [hsub]
  rw [← hfirst, List.zipIdx_map_fst, Configuration.types]

theorem labelled_labels (c : Configuration) :
    c.labelled.map (·.1) = labelsOf (c.subs.map (·.types.length)) := by
  have hsub (s : SubEnclosure × Nat) :
      (s.1.types.zipIdx.map fun t => ((s.2, t.2), t.1)).map (·.1) =
        (List.range s.1.types.length).map fun i => (s.2, i) := by
    rw [List.map_map, List.range_eq_range', ← List.zipIdx_map_snd 0 s.1.types, List.map_map]
    rfl
  rw [Configuration.labelled, List.map_flatMap, labelsOf, List.length_map]
  simp only [hsub]
  refine (flatMap_range fun k hk => ?_).symm
  rw [List.getD_eq_getElem?_getD, List.getElem?_map, List.getElem?_eq_getElem hk]
  rfl

theorem labelled_lt {c : Configuration} {x : (Nat × Nat) × TypeDescriptor} (h : x ∈ c.labelled) :
    x.1.1 < c.subs.length ∧ x.1.2 < 256 := by
  obtain ⟨s, hs, hx⟩ := List.mem_flatMap.mp h
  obtain ⟨t, ht, rfl⟩ := List.mem_map.mp hx
  exact ⟨List.snd_lt_of_mem_zipIdx hs, (List.snd_lt_of_mem_zipIdx ht).trans s.1.few⟩

/-! ## The status page -/

theorem wordsBefore_succ {types : List TypeDescriptor} {k : Nat} (hk : k < types.length) :
    wordsBefore types (k + 1) = wordsBefore types k + (1 + types[k].elements.toNat) := by
  rw [wordsBefore, List.take_succ_eq_append_getElem hk, List.map_append, List.sum_append]
  simp [wordsBefore]

theorem wordsBefore_le (types : List TypeDescriptor) (k : Nat) :
    wordsBefore types k ≤ wordsBefore types types.length := by
  have hsplit : wordsBefore types types.length =
      wordsBefore types k + ((types.drop k).map fun t => 1 + t.elements.toNat).sum := by
    rw [wordsBefore, wordsBefore, ← List.sum_append, ← List.map_append, List.take_append_drop,
      List.take_length]
  exact hsplit ▸ Nat.le_add_right ..

theorem before_page (hpage : c.page.length ≤ 2048) (hfew : c.subs.length < 256) {k : Nat}
    (hk : k ≤ c.types.length) :
    before (bufferOf c.page) (typesStart (bufferOf c.page)) k + k = wordsBefore c.types k := by
  induction k with
  | zero => rfl
  | succ k ih =>
    have hlt : k < c.types.length := hk
    rw [before_succ, elementsOf_page hpage hfew hlt, wordsBefore_succ hlt,
      ← ih (Nat.le_of_lt hlt)]
    omega

theorem length_status (status : StatusPage c) :
    status.bytes.length = 8 + 4 * status.words.length := by
  have hwords : status.words.flatten.length = 4 * status.words.length := by
    rw [List.length_flatten, List.map_congr_left status.four, List.map_const',
      List.sum_replicate_nat]
    exact Nat.mul_comm ..
  rw [StatusPage.bytes, List.length_append, hwords]
  simp

theorem pageSize_status {status : StatusPage c} (h : status.bytes.length < 65540) :
    (pageSize (bufferOf status.bytes)).toNat + 4 = status.bytes.length := by
  have hlen := length_status status
  have hhigh : status.bytes.getD 2 0 = byteAt (BitVec.ofNat 16 (4 + 4 * status.words.length)) 1 :=
    rfl
  have hlow : status.bytes.getD 3 0 = byteAt (BitVec.ofNat 16 (4 + 4 * status.words.length)) 0 :=
    rfl
  simp only [pageSize]
  rw [getD_bufferOf _ (by decide), getD_bufferOf _ (by decide), hhigh, hlow, BitVec.toNat_add,
    BitVec.toNat_shiftLeft, BitVec.toNat_setWidth, BitVec.toNat_setWidth, toNat_byteAt,
    toNat_byteAt, BitVec.toNat_ofNat, Nat.shiftLeft_eq]
  omega

/-- The elements are in the status page. -/
theorem words_lt (status : StatusPage c) {t j : Nat} (ht : t < c.types.length)
    (hj : j < c.types[t].elements.toNat) :
    8 + 4 * (wordsBefore c.types t + 1 + j) + 4 ≤ status.bytes.length := by
  have hlast := wordsBefore_le c.types (t + 1)
  rw [wordsBefore_succ ht, ← status.count] at hlast
  rw [length_status]
  omega

theorem offsetOf_page (hpage : c.page.length ≤ 2048) (hfew : c.subs.length < 256) {t : Nat}
    (ht : t ≤ c.types.length) (j : Nat) :
    offsetOf (bufferOf c.page) (typesStart (bufferOf c.page)) t + 4 * j =
      8 + 4 * (wordsBefore c.types t + 1 + j) := by
  rw [offsetOf, before_page hpage hfew ht]
  omega

/-! ## The list -/

/-- The descriptor of an element of a type. -/
theorem shown_element (hpage : c.page.length ≤ 2048) (hfew : c.subs.length < 256)
    {status : StatusPage c} (hstatus : status.bytes.length ≤ 2048) {t j : Nat}
    (ht : t < c.types.length) (hj : j < c.types[t].elements.toNat) {label : Nat × Nat}
    (hsub : label.1 < 256) (hindex : label.2 < 256) :
    shown (elementDescriptor (bufferOf c.page) (bufferOf status.bytes)
        (typesStart (bufferOf c.page)) (textsStart (bufferOf c.page)) label t j) =
      ⟨label.1, label.2, c.types[t].element_type, j, cstr c.types[t].text,
        8 + 4 * (wordsBefore c.types t + 1 + j)⟩ := by
  obtain ⟨header, hheader⟩ := drop_typePos hpage hfew ht
  obtain ⟨rest, hrest⟩ := drop_textOf hpage hfew ht
  have htype := byte_of_drop hpage hheader (i := 0) rfl
  rw [Nat.add_zero] at htype
  have hwords := words_lt status ht hj
  have helement : j < 256 := hj.trans (c.types[t].elements.isLt)
  have htext : cstr (textAt (bufferOf c.page) (textOf (bufferOf c.page)
      (typesStart (bufferOf c.page)) (textsStart (bufferOf c.page)) t)
      (lengthOf (bufferOf c.page) (typesStart (bufferOf c.page)) t)) = cstr c.types[t].text := by
    have hslice := slice_bufferOf (textOf_le hpage hfew ht) hpage
    rw [slice, slice, hrest, List.take_left] at hslice
    rw [textAt, cstr_strncpy, lengthOf_page hpage hfew ht,
      Nat.min_eq_left (Nat.le_of_lt c.types[t].short), hslice]
  have hoffset : (BitVec.ofNat 16 (8 + 4 * (wordsBefore c.types t + 1 + j))).toNat =
      8 + 4 * (wordsBefore c.types t + 1 + j) := by
    rw [BitVec.toNat_ofNat]
    exact Nat.mod_eq_of_lt (by omega)
  simp only [shown, elementDescriptor, toNat_count hsub, toNat_count hindex, toNat_count helement,
    offsetOf_page hpage hfew (Nat.le_of_lt ht), hoffset, htext, htype]

/-- The descriptors of all elements. -/
theorem shown_listed (hpage : c.page.length ≤ 2048) (hfew : c.subs.length < 256)
    {status : StatusPage c} (hstatus : status.bytes.length ≤ 2048) :
    (listed (bufferOf c.page) (bufferOf status.bytes) (typesStart (bufferOf c.page))
        (textsStart (bufferOf c.page)) (labels (bufferOf c.page))
        (typeCount (bufferOf c.page))).map shown =
      c.labelled.zipIdx.flatMap fun x => typeEntries c.types x.1.1 x.1.2 x.2 := by
  have hlabels : labels (bufferOf c.page) = c.labelled.map (·.1) := by
    rw [labels, subCount_page hfew, countsOf_page hpage (Nat.le_refl _), List.take_length,
      labelled_labels]
  have hcount : typeCount (bufferOf c.page) = c.labelled.length := by
    rw [typeCount_page hpage hfew, ← labelled_types, List.length_map]
  rw [listed, List.map_flatMap, hlabels, hcount]
  refine flatMap_range fun t ht => ?_
  have htypes : t < c.types.length := by rwa [← labelled_types, List.length_map]
  have htype : c.labelled[t].2 = c.types[t] := by
    simp only [← labelled_types, List.getElem_map]
  obtain ⟨hsub, hindex⟩ := labelled_lt (List.getElem_mem ht)
  have hlabel : (c.labelled.map (·.1)).getD t (0, 0) = c.labelled[t].1 := by
    rw [List.getD_eq_getElem?_getD, List.getElem?_map, List.getElem?_eq_getElem ht]
    rfl
  rw [hlabel, typeDescriptors, typeEntries, htype, List.map_map,
    elementsOf_page hpage hfew htypes]
  refine List.map_congr_left fun j hj => ?_
  exact shown_element hpage hfew hstatus htypes (List.mem_range.mp hj) (hsub.trans hfew) hindex

/-- The walk is in the pages. -/
theorem walkFits_page (hpage : c.page.length ≤ 2048) (hfew : c.subs.length < 256)
    {status : StatusPage c} (hstatus : status.bytes.length ≤ 2048)
    (hsubs : ∀ sub < c.subs.length,
      SubFits (bufferOf c.page) (subPos (bufferOf c.page) sub)) :
    WalkFits (bufferOf c.page) (bufferOf status.bytes) where
  subs sub hsub := hsubs sub (subCount_page hfew ▸ hsub)
  types t ht _ := by
    rw [typeCount_page hpage hfew] at ht
    refine ⟨typePos_lt hpage hfew ht, fun j hj _ => ⟨.inr (.inl ?_), .inr (.inl ?_)⟩⟩
    · have hle := textOf_le hpage hfew ht
      rw [lengthOf_page hpage hfew ht, Nat.min_eq_left (Nat.le_of_lt c.types[t].short)]
      omega
    · rw [elementsOf_page hpage hfew ht] at hj
      have hle := words_lt status ht hj
      rw [offsetOf_page hpage hfew (Nat.le_of_lt ht)]
      omega

theorem wordsBefore_length (types : List TypeDescriptor) :
    wordsBefore types types.length = types.length + (types.map (·.elements.toNat)).sum := by
  rw [wordsBefore, List.take_length]
  induction types with
  | nil => rfl
  | cons t types ih =>
    rw [List.map_cons, List.sum_cons, ih, List.length_cons, List.map_cons, List.sum_cons]
    omega

theorem filled_page (hpage : c.page.length ≤ 2048) (hfew : c.subs.length < 256) :
    filled (bufferOf c.page) (typeCount (bufferOf c.page)) = c.total := by
  have hbefore := before_page hpage hfew (Nat.le_refl c.types.length)
  rw [wordsBefore_length] at hbefore
  rw [filled, subCount_page hfew, typeCount_page hpage hfew, Configuration.total]
  omega

/-- The list of pages that fit. -/
theorem page_listed {status : StatusPage c} (hcount : c.subs.length ≤ MAX_SUBENC)
    (htotal : c.total < DESCRIPTOR_MAX_COUNT) (hpage : c.page.length ≤ 2048)
    (hstatus : status.bytes.length ≤ MAX_DIAG_PAGE_SIZE)
    (hsubs : ∀ sub < c.subs.length, SubFits (bufferOf c.page) (subPos (bufferOf c.page) sub)) :
    ∃ d texts, getSubencDescriptors (some (bufferOf c.page)) (some (bufferOf status.bytes)) =
      some (.ok d) ∧ d.descriptors.map shown = c.entries texts := by
  have hfew : c.subs.length < 256 := hcount.trans_lt (by decide)
  have haccepted : Accepted (bufferOf c.page) (bufferOf status.bytes) := by
    refine ⟨?_, by rwa [subCount_page hfew]⟩
    rwa [pageSize_status (hstatus.trans_lt (by decide))]
  have hroom := filled_page hpage hfew ▸ htotal
  refine ⟨_, fun sub => (shown (subDescriptor (bufferOf c.page) sub)).help_text,
    getSubencDescriptors_ok_iff.mpr
      ⟨haccepted, walkFits_page hpage hfew hstatus hsubs, hroom, rfl⟩, ?_⟩
  rw [allDescriptors, List.map_append, shown_listed hpage hfew hstatus, List.map_map,
    subCount_page hfew, Configuration.entries]
  refine congrArg (· ++ _) (List.map_congr_left fun sub hsub => ?_)
  have hsmall : sub < 256 := (List.mem_range.mp hsub).trans hfew
  simp [shown, subDescriptor, toNat_count hsmall]

theorem page_refused {status : StatusPage c}
    (hlarge : MAX_SUBENC < c.subs.length ∧ c.subs.length < 256 ∨
      MAX_DIAG_PAGE_SIZE < status.bytes.length ∧ status.bytes.length < 65540) :
    getSubencDescriptors (some (bufferOf c.page)) (some (bufferOf status.bytes)) =
      some (.error (-1)) := by
  refine getSubencDescriptors_refused _ _ fun haccepted => ?_
  rcases hlarge with ⟨hmany, hfew⟩ | ⟨hlong, hsize⟩
  · have hle := haccepted.2
    rw [subCount_page hfew] at hle
    omega
  · have hle := haccepted.1
    rw [pageSize_status hsize] at hle
    omega

/-- **The list is the one that the pages call for**, up to the texts of the sub-enclosures; more
sub-enclosures and a longer status page are refused. -/
theorem descriptors_faithful (c : Configuration) (status : StatusPage c) :
    (c.subs.length ≤ MAX_SUBENC → c.total < DESCRIPTOR_MAX_COUNT → c.page.length ≤ 2048 →
      status.bytes.length ≤ MAX_DIAG_PAGE_SIZE →
      (∀ sub < c.subs.length, SubFits (bufferOf c.page) (subPos (bufferOf c.page) sub)) →
      ∃ d texts, getSubencDescriptors (some (bufferOf c.page)) (some (bufferOf status.bytes)) =
        some (.ok d) ∧ d.descriptors.map shown = c.entries texts) ∧
    (MAX_SUBENC < c.subs.length ∧ c.subs.length < 256 ∨
        MAX_DIAG_PAGE_SIZE < status.bytes.length ∧ status.bytes.length < 65540 →
      getSubencDescriptors (some (bufferOf c.page)) (some (bufferOf status.bytes)) =
        some (.error (-1))) := by
  exact ⟨page_listed, page_refused⟩

end page

/-! ## Where the text of a sub-enclosure is looked for -/

/-- Without version descriptors it is looked for in the first bytes of the page. -/
theorem lengthAt_plain {page : List Byte} {pos : Nat} (hpos : pos + 63 < 2048)
    (hcode : page.getD 0 0 = 1) (hgeneration : page.getD 4 0 = 0)
    (hversions : page.getD (pos + 63) 0 = 0) :
    lengthAt (bufferOf page) pos = 4 ∧ SubFits (bufferOf page) pos := by
  have hcodeNum : num (bufferOf page) 0 = 1 := by
    rw [num_bufferOf page (by decide), hcode]
    rfl
  have hgenerationNum : num (bufferOf page) 4 = 0 := by
    rw [num_bufferOf page (by decide), hgeneration]
    rfl
  have hbuffers : buffersAt (bufferOf page) pos = 0 := by
    rw [buffersAt, num_bufferOf page hpos, hversions]
    rfl
  have hpages : pagesAt (bufferOf page) pos = 4 := by rw [pagesAt, hbuffers, hcodeNum]
  have hlength : lengthAt (bufferOf page) pos = 4 := by rw [lengthAt, hpages, hgenerationNum]
  refine ⟨hlength, hpos, ?_, ?_, ?_, .inl ?_⟩
  · rw [hbuffers]
    decide
  · rw [hpages]
    decide
  · rw [hlength]
    decide
  · rw [hlength, hgenerationNum]
    rfl

def powerSupplies : TypeDescriptor where
  element_type := 2
  elements := 2
  sub_enclosure := 0
  text := [0x50, 0x53]
  short := by decide

def fan : TypeDescriptor where
  element_type := 3
  elements := 1
  sub_enclosure := 1
  text := [0x46, 0x61, 0x6e]
  short := by decide

/-- A sub-enclosure without a text. -/
def plainSub (identifier : Byte) (t : TypeDescriptor) : SubEnclosure where
  process := 0
  identifier := identifier
  body := List.replicate 63 0
  types := [t]
  fits := by decide
  few := (by decide : 1 < 256)

/-- Two sub-enclosures, one with power supplies and one with a fan. -/
def twoSubs : Configuration where
  generation := 1
  subs := [plainSub 0 powerSupplies, plainSub 1 fan]
  nonempty := by decide
  few := by decide

def twoStatus : StatusPage twoSubs where
  info := 0
  generation := 1
  words := List.replicate 5 [1, 0, 0, 0]
  four := by decide
  count := by decide

theorem twoSubs_listed : ∃ d texts,
    getSubencDescriptors (some (bufferOf twoSubs.page)) (some (bufferOf twoStatus.bytes)) =
      some (.ok d) ∧ d.descriptors.map shown = twoSubs.entries texts := by
  have hpage : twoSubs.page.length ≤ 2048 := by decide +kernel
  refine (descriptors_faithful twoSubs twoStatus).1 (by decide) (by decide) hpage
    (by decide +kernel) fun sub hsub => ?_
  rw [subPos_page hpage (Nat.le_of_lt hsub)]
  have hplaces : ∀ sub < twoSubs.subs.length,
      8 + start SubEnclosure.descriptor twoSubs.subs sub + 63 < 2048 ∧
        twoSubs.page.getD (8 + start SubEnclosure.descriptor twoSubs.subs sub + 63) 0 = 0 := by
    decide +kernel
  obtain ⟨hlt, hversions⟩ := hplaces sub hsub
  exact (lengthAt_plain hlt (by decide +kernel) (by decide +kernel) hversions).2

/-- Eleven sub-enclosures. -/
def elevenSubs : Configuration where
  generation := 1
  subs := List.replicate 11 (plainSub 0 fan)
  nonempty := by decide
  few := by decide

def elevenStatus : StatusPage elevenSubs where
  info := 0
  generation := 1
  words := List.replicate 22 [1, 0, 0, 0]
  four := by decide
  count := by decide

/-- A sub-enclosure whose descriptor ends in a text. -/
def namedSub : SubEnclosure where
  process := 0
  identifier := 0
  body := List.replicate 62 0 ++ [3, 0x4c, 0x43, 0x43]
  types := []
  fits := by decide
  few := by decide

def named : Configuration where
  generation := 1
  subs := [namedSub]
  nonempty := by decide
  few := by decide

def namedStatus : StatusPage named where
  info := 0
  generation := 1
  words := []
  four := by decide
  count := by decide

/-- The texts of the sub-enclosures are short. -/
def ShortTexts (c : Configuration) : Prop := ∀ s ∈ c.subs, s.text.length < HELP_TEXT_LENGTH

/-- More than ten sub-enclosures are refused; and their texts are not found. -/
theorem eleven_refused :
    (¬ ∀ (c : Configuration) (status : StatusPage c), c.total ≤ DESCRIPTOR_MAX_COUNT →
      ShortTexts c → ∃ d,
        getSubencDescriptors (some (bufferOf c.page)) (some (bufferOf status.bytes)) =
          some (.ok d) ∧ d.descriptors.map shown = c.entries c.subTexts) ∧
    ∀ d, getSubencDescriptors (some (bufferOf named.page)) (some (bufferOf namedStatus.bytes)) =
        some (.ok d) →
      d.descriptors.map shown ≠ named.entries named.subTexts := by
  refine ⟨fun hall => ?_, fun d hd hentries => ?_⟩
  · have hshort : ShortTexts elevenSubs := by
      intro s hs
      rw [List.eq_of_mem_replicate hs]
      decide +kernel
    obtain ⟨d, hd, -⟩ := hall elevenSubs elevenStatus (by decide +kernel) hshort
    rw [page_refused (.inl (by decide))] at hd
    cases hd
  · obtain ⟨-, -, -, rfl⟩ := getSubencDescriptors_ok_iff.mp hd
    have hplace : lengthAt (bufferOf named.page) (subPos (bufferOf named.page) 0) = 4 :=
      (lengthAt_plain (by decide) (by decide +kernel) (by decide +kernel) (by decide +kernel)).1
    have hlength : num (bufferOf named.page) 4 = 0 := by
      rw [num_bufferOf _ (by decide)]
      decide +kernel
    have hfirst := congrArg (fun l => l.head?.map Listed.help_text) hentries
    have hcount : subCount (bufferOf named.page) = 1 := subCount_page (by decide)
    rw [allDescriptors, hcount] at hfirst
    have hempty : (shown (subDescriptor (bufferOf named.page) 0)).help_text = [] := by
      simp only [shown, subDescriptor, textAt, hplace, hlength, cstr_strncpy]
      rfl
    have hnamed : (named.entries named.subTexts).head?.map Listed.help_text =
        some [0x4c, 0x43, 0x43] := by
      decide +kernel
    rw [hnamed] at hfirst
    have hshown : some ((shown (subDescriptor (bufferOf named.page) 0)).help_text) =
        some [0x4c, 0x43, 0x43] := hfirst
    rw [hempty] at hshown
    cases hshown

end Enclosure
