import Disks.Enclosure.Proof.Bounds

/-!
# The values of the elements, read and set

* `listed_value_iff`: when the value of an element that is listed is that of the status page.
* `controlPage_values`: what a control page that is sent holds.
* `setSubEncDescriptors_never`: the method of the library sends no page.
* `element_values_round_trip_iff`: **which values are read and set as they are**.
-/

namespace Enclosure

open Bytes Drive

/-! ## Reading -/

section reading

variable {desc_buff diag_buff : Buffer}

/-- Every element that is listed was read within the buffers. -/
theorem element_fits (hfits : WalkFits desc_buff diag_buff)
    (hroom : filled desc_buff (typeCount desc_buff) < DESCRIPTOR_MAX_COUNT) {t j : Nat}
    (ht : t < typeCount desc_buff) (hj : j < elementsOf desc_buff (typesStart desc_buff) t) :
    ElementFits desc_buff diag_buff (typesStart desc_buff) (textsStart desc_buff) t j := by
  have hnext : filled desc_buff (t + 1) ≤ filled desc_buff (typeCount desc_buff) :=
    Nat.add_le_add_left (before_mono ht) _
  have htotal : filled desc_buff (t + 1) =
      filled desc_buff t + elementsOf desc_buff (typesStart desc_buff) t := by
    rw [filled, before_succ, filled, Nat.add_assoc]
  apply (hfits.types t ht (by omega)).elements j hj
  omega

/-- The status elements stand at multiples of four, so that one that begins in the page is whole. -/
theorem offset_le {pos t j : Nat} (h : CopyFits diag_buff (offsetOf desc_buff pos t + 4 * j) 4) :
    offsetOf desc_buff pos t + 4 * j + 4 ≤ 2048 := by
  rcases h with h | h | h
  · cases h
  · exact h
  · have hlen : diag_buff.toList.length = 2048 := Vector.length_toList
    by_contra hpast
    unfold offsetOf at h hpast
    rw [List.drop_of_length_le (by omega)] at h
    cases h

theorem mem_listed {pos text n : Nat} {labels : List (Nat × Nat)} {d : DescriptorElement} :
    d ∈ listed desc_buff diag_buff pos text labels n ↔
      ∃ t < n, ∃ j < elementsOf desc_buff pos t,
        d = elementDescriptor desc_buff diag_buff pos text (labels.getD t (0, 0)) t j := by
  simp only [listed, typeDescriptors, List.mem_flatMap, List.mem_map, List.mem_range, eq_comm]

/-- A value that is listed is that of the status page unless a byte behind a zero is lost. -/
theorem listed_value_iff {pos text t j : Nat} {label : Nat × Nat}
    (h : CopyFits diag_buff (offsetOf desc_buff pos t + 4 * j) 4) :
    (elementDescriptor desc_buff diag_buff pos text label t j).value =
        slice diag_buff.toList
          (elementDescriptor desc_buff diag_buff pos text label t j).value_offset.toNat 4 ↔
      Padded (slice diag_buff.toList (offsetOf desc_buff pos t + 4 * j) 4) := by
  have hlen : diag_buff.toList.length = 2048 := Vector.length_toList
  have hle := offset_le h
  have hoffset : (elementDescriptor desc_buff diag_buff pos text label t j).value_offset.toNat =
      offsetOf desc_buff pos t + 4 * j := by
    rw [elementDescriptor, BitVec.toNat_ofNat]
    exact Nat.mod_eq_of_lt (by omega)
  have hvalue : (elementDescriptor desc_buff diag_buff pos text label t j).value =
      strncpyBytes (diag_buff.toList.drop (offsetOf desc_buff pos t + 4 * j)) 4 :=
    List.append_nil _
  rw [hoffset, hvalue, slice]
  apply strncpyBytes_eq_iff
  rw [List.length_drop]
  omega

/-- **Which values are read as they are**, in every page that is walked through. -/
theorem values_read_iff {d : Descriptors}
    (h : getSubencDescriptors (some desc_buff) (some diag_buff) = some (.ok d)) :
    (∀ e ∈ d.descriptors.drop (subCount desc_buff),
        e.value = slice diag_buff.toList e.value_offset.toNat 4) ↔
      ∀ t < typeCount desc_buff, ∀ j < elementsOf desc_buff (typesStart desc_buff) t,
        Padded
          (slice diag_buff.toList (offsetOf desc_buff (typesStart desc_buff) t + 4 * j) 4) := by
  obtain ⟨-, hfits, hroom, rfl⟩ := getSubencDescriptors_ok_iff.mp h
  have hsubs : ((List.range (subCount desc_buff)).map (subDescriptor desc_buff)).length =
      subCount desc_buff := by
    rw [List.length_map, List.length_range]
  have hdrop : (allDescriptors desc_buff diag_buff).drop (subCount desc_buff) =
      listed desc_buff diag_buff (typesStart desc_buff) (textsStart desc_buff) (labels desc_buff)
        (typeCount desc_buff) := by
    rw [allDescriptors, List.drop_append_of_le_length hsubs.ge, List.drop_of_length_le hsubs.le]
    rfl
  rw [hdrop]
  refine ⟨fun hall t ht j hj => ?_, fun hall e he => ?_⟩
  · have hread := hall _ (mem_listed.mpr ⟨t, ht, j, hj, rfl⟩)
    exact (listed_value_iff (element_fits hfits hroom ht hj).value).mp hread
  · obtain ⟨t, ht, j, hj, rfl⟩ := mem_listed.mp he
    exact (listed_value_iff (element_fits hfits hroom ht hj).value).mpr (hall t ht j hj)

end reading

/-! ## Setting -/

/-- **A control page** that sets these values, and nothing else. -/
structure ControlPage (page : List Byte) (page_size generation : U32)
    (values : List (Nat × List Byte)) : Prop where
  length : page.length = page_size.toNat + 4
  code : slice page 0 2 = [2, 0]
  page_size : slice page 2 2 = beBytes 2 page_size
  generation : slice page 4 4 = beBytes 4 generation
  holds : ∀ v ∈ values, slice page v.1 4 = v.2
  zeros : ∀ i, 8 ≤ i → i < page.length → (∀ v ∈ values, i < v.1 ∨ v.1 + 4 ≤ i) →
    page[i]? = some 0

/-- The values lie in the body of the page, and do not overlap. -/
structure InBody (page_size : U32) (values : List (Nat × List Byte)) : Prop where
  four : ∀ v ∈ values, v.2.length = 4
  body : ∀ v ∈ values, 8 ≤ v.1 ∧ v.1 + 4 ≤ page_size.toNat + 4
  apart : values.Pairwise Apart

/-- The descriptor that a value is passed on in. -/
def valueElement (v : Nat × List Byte) : DescriptorElement :=
  { value_offset := BitVec.ofNat 16 v.1, value := v.2 }

/-- What is copied of a value. -/
def copied (v : Nat × List Byte) : Nat × List Byte := (v.1, strncpyBytes v.2 4)

@[simp] theorem copied_fst (v : Nat × List Byte) : (copied v).1 = v.1 := rfl

@[simp] theorem length_copied (v : Nat × List Byte) : (copied v).2.length = 4 :=
  length_strncpyBytes ..

/-- The `struct subenc_descriptors` with a list of values, which has room for so many. -/
def descriptorsOf (page_size generation : U32) (values : List (Nat × List Byte)) :
    Option Descriptors :=
  if values.length ≤ DESCRIPTOR_MAX_COUNT then
    some ⟨page_size, generation, values.map valueElement⟩
  else none

theorem length_controlHeader (d : Descriptors) : (controlHeader d).length = 2048 := by
  rw [controlHeader, length_poke, length_poke, List.length_replicate]
  rfl

section setting

variable {page_size generation : U32} {values : List (Nat × List Byte)}

theorem copied_apart (h : InBody page_size values) : (values.map copied).Pairwise Apart := by
  rw [List.pairwise_map]
  refine h.apart.imp_of_mem fun {v w} hv hw hvw => ?_
  have hv := h.four v hv
  have hw := h.four w hw
  unfold Apart at hvw ⊢
  rw [length_copied, length_copied, copied_fst, copied_fst]
  rwa [hv, hw] at hvw

/-- What is sent for values in the body of a page that fits. -/
theorem sent_page (h : InBody page_size values) (hne : values ≠ [])
    (hsize : page_size.toNat + 4 ≤ MAX_DIAG_PAGE_SIZE) :
    setSubencDescriptors ⟨page_size, generation, values.map valueElement⟩ =
      some (some ((pokes (controlHeader ⟨page_size, generation, values.map valueElement⟩)
        (values.map copied)).take (page_size.toNat + 4))) := by
  have hmax : MAX_DIAG_PAGE_SIZE = 2048 := rfl
  have hoffset (v : Nat × List Byte) (hv : v ∈ values) :
      (valueElement v).value_offset.toNat = v.1 := by
    have hbody := (h.body v hv).2
    rw [valueElement, BitVec.toNat_ofNat]
    exact Nat.mod_eq_of_lt (by omega)
  have hfits : ∀ e ∈ values.map valueElement, ValueFits e := by
    intro e he
    obtain ⟨v, hv, rfl⟩ := List.mem_map.mp he
    have hbody := (h.body v hv).2
    rw [ValueFits, hoffset v hv]
    omega
  have hstored : (values.map valueElement).map stored =
      values.map copied := by
    rw [List.map_map]
    apply List.map_congr_left
    intro v hv
    change ((valueElement v).value_offset.toNat, strncpyBytes v.2 4) = _
    rw [hoffset v hv]
    rfl
  have hlength : (page_size + 4).toNat = page_size.toNat + 4 := by
    rw [BitVec.toNat_add]
    exact Nat.mod_eq_of_lt (by change page_size.toNat + 4 < _; omega)
  rw [setSubencDescriptors, if_neg (by simpa using hne), controlPage_eq, if_pos hfits,
    Option.bind_eq_bind, Option.bind_some, hlength, if_pos hsize, hstored]

/-- **What a control page that is sent holds**: the values as far as C strings go. -/
theorem controlPage_values {d : Descriptors} (h : InBody page_size values)
    (hd : d.page_size = page_size) (hgen : d.generation = generation)
    (hsize : page_size.toNat + 4 ≤ MAX_DIAG_PAGE_SIZE) (hne : values ≠ []) :
    ControlPage ((pokes (controlHeader d) (values.map copied)).take
      (page_size.toNat + 4)) page_size generation (values.map copied) := by
  have hmax : MAX_DIAG_PAGE_SIZE = 2048 := rfl
  have hlen : (pokes (controlHeader d) (values.map copied)).length =
      2048 := by
    rw [length_pokes, length_controlHeader]
  -- The body begins behind the header, so that the page holds the header.
  have height : 8 ≤ page_size.toNat := by
    obtain ⟨v, hv⟩ := List.exists_mem_of_ne_nil values hne
    have hbody := h.body v hv
    omega
  have hbehind {i n : Nat} (hi : i + n ≤ 8) :
      slice (pokes (controlHeader d) (values.map copied)) i n =
        slice (controlHeader d) i n := by
    apply slice_pokes
    intro p hp
    obtain ⟨v, hv, rfl⟩ := List.mem_map.mp hp
    have hbody := (h.body v hv).1
    left
    change i + n ≤ v.1
    omega
  have hheader : slice (controlHeader d) 2 (2 + 4) =
      beBytes 2 d.page_size ++ beBytes 4 d.generation := by
    have hfields : (beBytes 2 d.page_size ++ beBytes 4 d.generation).length = 2 + 4 := by
      rw [List.length_append, length_beBytes, length_beBytes]
    rw [controlHeader, ← hfields]
    apply slice_poke_same
    rw [hfields, length_poke, List.length_replicate]
    decide
  refine ⟨?_, ?_, ?_, ?_, ?_, ?_⟩
  · rw [List.length_take, hlen]
    omega
  · rw [slice_take (by omega), hbehind (by omega), controlHeader,
      slice_poke_disjoint (Or.inl (by omega))]
    rfl
  · rw [slice_take (by omega), hbehind (by omega), ← hd]
    have hfront := congrArg (List.take 2) hheader
    rw [List.take_left' (length_beBytes ..), slice, List.take_take] at hfront
    exact hfront
  · rw [slice_take (by omega), hbehind (by omega), ← hgen]
    have hback := congrArg (List.drop 2) hheader
    rw [List.drop_left' (length_beBytes ..), slice, List.drop_take, List.drop_drop] at hback
    exact hback
  · intro p hp
    obtain ⟨v, hv, rfl⟩ := List.mem_map.mp hp
    have hbody := (h.body v hv).2
    have hroom : (copied v).1 + (copied v).2.length ≤ (controlHeader d).length := by
      rw [length_copied, length_controlHeader, copied_fst]
      omega
    have hread := slice_pokes_mem (copied_apart h) hp hroom
    rw [length_copied] at hread
    rw [slice_take (by rw [copied_fst]; omega), hread]
  · intro i hi hlt hout
    rw [List.length_take, hlen] at hlt
    rw [List.getElem?_take, if_pos (by omega), getElem?_pokes, controlHeader,
      getElem?_poke_of_ge, getElem?_poke_of_ge, List.getElem?_replicate, if_pos (by omega)]
    · exact (by omega : 0 + 1 ≤ i)
    · rw [List.length_append, length_beBytes, length_beBytes]
      omega
    · intro p hp
      obtain ⟨v, hv, rfl⟩ := List.mem_map.mp hp
      rw [length_copied]
      exact hout _ hp

theorem length_sent_le {d : Descriptors} {page : List Byte}
    (h : setSubencDescriptors d = some (some page)) : page.length ≤ MAX_DIAG_PAGE_SIZE := by
  rw [setSubencDescriptors, controlPage_eq] at h
  by_cases hempty : d.descriptors = []
  · rw [if_pos hempty] at h
    cases h
  rw [if_neg hempty] at h
  by_cases hfits : ∀ e ∈ d.descriptors, ValueFits e
  swap
  · rw [if_neg hfits] at h
    cases h
  rw [if_pos hfits, Option.bind_eq_bind, Option.bind_some] at h
  by_cases hsize : (d.page_size + 4).toNat ≤ MAX_DIAG_PAGE_SIZE
  · rw [if_pos hsize] at h
    cases h
    exact (List.length_take_le ..).trans hsize
  · rw [if_neg hsize] at h
    cases h

theorem copied_eq_iff {v : Nat × List Byte} (h : v.2.length = 4) :
    (copied v).2 = v.2 ↔ Padded v.2 := by
  have hcopy := @strncpyBytes_eq_iff v.2 4 h.ge
  rwa [List.take_of_length_le h.le] at hcopy

/-- **Which values are set as they are**, in the body of a page. -/
theorem values_set_iff (h : InBody page_size values) :
    (∃ d page, descriptorsOf page_size generation values = some d ∧
        setSubencDescriptors d = some (some page) ∧
        ControlPage page page_size generation values) ↔
      values ≠ [] ∧ values.length ≤ DESCRIPTOR_MAX_COUNT ∧
        page_size.toNat + 4 ≤ MAX_DIAG_PAGE_SIZE ∧ ∀ v ∈ values, Padded v.2 := by
  rw [descriptorsOf]
  refine ⟨?_, ?_⟩
  · rintro ⟨d, page, hd, hsent, hpage⟩
    have hcount : values.length ≤ DESCRIPTOR_MAX_COUNT := by
      by_contra hcount
      rw [if_neg hcount] at hd
      cases hd
    rw [if_pos hcount] at hd
    cases hd
    have hne : values ≠ [] := by
      rintro rfl
      cases hsent
    have hsize : page_size.toNat + 4 ≤ MAX_DIAG_PAGE_SIZE := by
      rw [← hpage.length]
      exact length_sent_le hsent
    rw [sent_page h hne hsize] at hsent
    cases hsent
    refine ⟨hne, hcount, hsize, fun v hv => (copied_eq_iff (h.four v hv)).mp ?_⟩
    have hsentPage := @controlPage_values page_size generation values
      ⟨page_size, generation, values.map valueElement⟩ h rfl rfl hsize hne
    exact (hsentPage.holds _ (List.mem_map_of_mem hv)).symm.trans (hpage.holds v hv)
  · rintro ⟨hne, hcount, hsize, hpadded⟩
    rw [if_pos hcount]
    refine ⟨_, _, rfl, sent_page h hne hsize, ?_⟩
    have hsentPage := @controlPage_values page_size generation values
      ⟨page_size, generation, values.map valueElement⟩ h rfl rfl hsize hne
    have hsame : values.map copied = values := by
      refine (List.map_congr_left fun v hv => ?_).trans (List.map_id _)
      exact Prod.ext rfl ((copied_eq_iff (h.four v hv)).mpr (hpadded v hv))
    rw [hsame] at hsentPage ⊢
    exact hsentPage

end setting

/-- The method of the library sends nothing: a name is refused, and without one there is no
device. -/
theorem setSubEncDescriptors_never (root : Bool) (scsi_generic : Option String)
    (generation page_size : Nat) (values : List (Nat × List Byte)) (page : List Byte) :
    setSubEncDescriptors root scsi_generic generation page_size values ≠
      some (.ok (some page)) := by
  intro hsent
  rw [setSubEncDescriptors] at hsent
  cases hd : subencDescriptors generation page_size values with
  | error e =>
    rw [hd] at hsent
    cases hsent
  | ok d =>
    rw [hd] at hsent
    cases scsi_generic with
    | some name => cases hsent
    | none =>
      simp only at hsent
      split at hsent
      · cases hsent
      · obtain ⟨_, -, hpage⟩ := Option.map_eq_some_iff.mp hsent
        cases hpage

/-! ## Both directions -/

/-- **Which values are read and set as they are**: those where no byte stands behind a zero byte;
with the method of the library none are set. -/
theorem element_values_round_trip_iff (desc_buff diag_buff : Buffer) (page_size generation : U32)
    (values : List (Nat × List Byte)) :
    (∀ d, getSubencDescriptors (some desc_buff) (some diag_buff) = some (.ok d) →
      ((∀ e ∈ d.descriptors.drop (subCount desc_buff),
          e.value = slice diag_buff.toList e.value_offset.toNat 4) ↔
        ∀ t < typeCount desc_buff, ∀ j < elementsOf desc_buff (typesStart desc_buff) t,
          Padded
            (slice diag_buff.toList (offsetOf desc_buff (typesStart desc_buff) t + 4 * j) 4))) ∧
    (InBody page_size values →
      ((∃ d page, descriptorsOf page_size generation values = some d ∧
          setSubencDescriptors d = some (some page) ∧
          ControlPage page page_size generation values) ↔
        values ≠ [] ∧ values.length ≤ DESCRIPTOR_MAX_COUNT ∧
          page_size.toNat + 4 ≤ MAX_DIAG_PAGE_SIZE ∧ ∀ v ∈ values, Padded v.2)) ∧
    ∀ root scsi_generic page, setSubEncDescriptors root scsi_generic generation.toNat
      page_size.toNat values ≠ some (.ok (some page)) :=
  ⟨fun _ h => values_read_iff h, fun h => values_set_iff h, fun root scsi_generic =>
    setSubEncDescriptors_never root scsi_generic generation.toNat page_size.toNat values⟩

/-- The walk through the smallest pages with an element: one sub-enclosure with one type. -/
theorem one_walk {desc_buff diag_buff : Buffer} (hsubs : subCount desc_buff = 1)
    (hsize : pageSize diag_buff = 12)
    (hnum : ∀ i < 2048, num desc_buff i =
      [0, 0, 0, 0, 0, 0, 0, 0, 0, 0, 1, 0, 2, 1, 0, 0].getD i 0) :
    (∃ d, getSubencDescriptors (some desc_buff) (some diag_buff) = some (.ok d)) ∧
      typeCount desc_buff = 1 ∧ typesStart desc_buff = 12 ∧ elementsOf desc_buff 12 0 = 1 := by
  have htypes : countsOf desc_buff 1 = [1] := by simp [countsOf, subPos, hnum]
  have hstart : typesStart desc_buff = 12 := by simp [typesStart, hsubs, subPos, hnum]
  have hcount : typeCount desc_buff = 1 := by rw [typeCount, hsubs, htypes]; rfl
  have hone : elementsOf desc_buff 12 0 = 1 := by simp [elementsOf, typePos, hnum]
  refine ⟨⟨_, getSubencDescriptors_ok_iff.mpr
    ⟨⟨by rw [hsize]; decide, by rw [hsubs]; decide⟩, ⟨?_, ?_⟩, ?_, rfl⟩⟩, hcount, hstart, hone⟩
  · intro sub hsub
    obtain rfl : sub = 0 := by omega
    constructor <;> simp [buffersAt, pagesAt, lengthAt, CopyFits, subPos, hnum]
  · intro t ht hfull
    obtain rfl : t = 0 := by omega
    rw [hstart]
    refine ⟨by simp [typePos], fun j hj _ => ⟨?_, ?_⟩⟩
    · simp [CopyFits, lengthOf, typePos, hnum]
    · obtain rfl : j = 0 := by omega
      simp [CopyFits, offsetOf, before]
  · rw [hcount, filled, hsubs, hstart, before_succ, hone]
    exact (by decide : 1 + (0 + 1) < DESCRIPTOR_MAX_COUNT)

/-- An element with a fault bit in its first byte, read and set. -/
theorem element_values_round_trip_one :
    (∃ d, getSubencDescriptors (some (bufferOf [0, 0, 0, 0, 0, 0, 0, 0, 0, 0, 1, 0, 2, 1, 0, 0]))
        (some (bufferOf [2, 0, 0, 12, 0, 0, 0, 1, 0, 0, 0, 0, 0x80, 0, 0, 0])) = some (.ok d) ∧
      ∀ e ∈ d.descriptors.drop
          (subCount (bufferOf [0, 0, 0, 0, 0, 0, 0, 0, 0, 0, 1, 0, 2, 1, 0, 0])),
        e.value = slice (bufferOf [2, 0, 0, 12, 0, 0, 0, 1, 0, 0, 0, 0, 0x80, 0, 0, 0]).toList
          e.value_offset.toNat 4) ∧
    ∃ d page, descriptorsOf 12 1 [(12, [0x80, 0, 0, 0])] = some d ∧
      setSubencDescriptors d = some (some page) ∧
      ControlPage page 12 1 [(12, [0x80, 0, 0, 0])] := by
  have hsubs : subCount (bufferOf [0, 0, 0, 0, 0, 0, 0, 0, 0, 0, 1, 0, 2, 1, 0, 0]) = 1 := by
    rw [subCount, getD_bufferOf _ (by decide)]
    rfl
  have hsize : pageSize (bufferOf [2, 0, 0, 12, 0, 0, 0, 1, 0, 0, 0, 0, 0x80, 0, 0, 0]) = 12 := by
    simp only [pageSize]
    rw [getD_bufferOf _ (by decide), getD_bufferOf _ (by decide)]
    rfl
  have hnum (i : Nat) (h : i < 2048) :
      num (bufferOf [0, 0, 0, 0, 0, 0, 0, 0, 0, 0, 1, 0, 2, 1, 0, 0]) i =
        [0, 0, 0, 0, 0, 0, 0, 0, 0, 0, 1, 0, 2, 1, 0, 0].getD i 0 := by
    rw [num_bufferOf _ h, List.getD_eq_getElem?_getD, List.getD_eq_getElem?_getD]
    exact (Option.getD_map BitVec.toNat 0 _).symm.trans (by rw [← List.getElem?_map]; rfl)
  obtain ⟨⟨d, hd⟩, hcount, hstart, hone⟩ := one_walk hsubs hsize hnum
  have hbody : InBody 12 [(12, [0x80, 0, 0, 0])] := by
    refine ⟨?_, ?_, List.pairwise_singleton ..⟩
    · simp
    · simp
  obtain ⟨hread, hset, -⟩ := element_values_round_trip_iff
    (bufferOf [0, 0, 0, 0, 0, 0, 0, 0, 0, 0, 1, 0, 2, 1, 0, 0])
    (bufferOf [2, 0, 0, 12, 0, 0, 0, 1, 0, 0, 0, 0, 0x80, 0, 0, 0]) 12 1 [(12, [0x80, 0, 0, 0])]
  refine ⟨⟨d, hd, (hread d hd).mpr fun t ht j hj => ?_⟩, (hset hbody).mpr ⟨?_, ?_, ?_, ?_⟩⟩
  · obtain rfl : t = 0 := by omega
    rw [hstart, hone] at hj
    obtain rfl : j = 0 := by omega
    rw [hstart]
    change Padded (slice _ 12 4)
    rw [slice_bufferOf (by decide) (by decide)]
    decide
  · exact List.cons_ne_nil _ _
  · decide
  · decide
  · intro v hv
    rw [List.mem_singleton] at hv
    subst hv
    decide

/-- A value with a bit set behind a zero byte is set to zero, and the method sets none. -/
theorem value_cut :
    (∃ values d page, InBody 12 values ∧ descriptorsOf 12 0 values = some d ∧
      setSubencDescriptors d = some (some page) ∧ ¬ ControlPage page 12 0 values) ∧
    setSubEncDescriptors true (some "/dev/sg3") 0 12 [(12, [0x80, 0, 0, 0])] =
      some (.error (.argumentError
        "argument 1: <class 'TypeError'>: expected LP_c_char instance instead of str")) := by
  refine ⟨⟨[(12, [0x80, 0, 0x02, 0])], ?_⟩, rfl⟩
  have hbody : InBody 12 [(12, [0x80, 0, 0x02, 0])] := by
    refine ⟨?_, ?_, List.pairwise_singleton ..⟩
    · simp
    · simp
  have hsent := @sent_page 12 0 _ hbody (List.cons_ne_nil _ _) (by decide)
  refine ⟨_, _, hbody, rfl, hsent, fun hpage => ?_⟩
  have hpadded := (@values_set_iff 12 0 _ hbody).mp ⟨_, _, rfl, hsent, hpage⟩
  exact absurd (hpadded.2.2.2 _ (List.mem_singleton_self _)) (by decide)

end Enclosure
