import Mathlib.Data.List.TakeWhile
import Disks.Drive.Identity
import Disks.Drive.Proof.Wwn

/-!
# The identity strings are the fields of the standards

What `struct drive_info` holds of the strings a drive identifies itself with.

* `ascii_eq`: what `atastring_2_ascii` makes of a field.
* `ataStrings_iff`: the model is cut to half its field.
* `inquiryStrings_iff`: the terminators are put in the last byte of each field.
* `nvmeStrings_iff`: the fields are complete.
* `identity_strings_iff`: **when the strings are the fields**, for the three protocols.
-/

namespace Drive

open Bytes

/-! ## ATA -/

/-- The characters of a field: each word has its first one in the high byte. -/
def chars (ata_field : List U16) : List Byte :=
  ata_field.flatMap fun w => [highByte w, lowByte w]

/-- **An ATA string**: without leading blanks, and without NULs. -/
def asciiOf (field : List Byte) : List Byte := (field.dropWhile (· = 0x20)).filter (· ≠ 0)

theorem filter_cons_eq (b : Byte) (bs : List Byte) :
    (b :: bs).filter (· ≠ 0) = (if b ≠ 0 then [b] else []) ++ bs.filter (· ≠ 0) := by
  by_cases hb : b = 0
  · rw [List.filter_cons_of_neg (by simpa using hb), if_neg (not_not_intro hb), List.nil_append]
  · rw [List.filter_cons_of_pos (by simpa using hb), if_pos hb, List.singleton_append]

theorem chars_cons (w : U16) (ws : List U16) :
    chars (w :: ws) = highByte w :: lowByte w :: chars ws := rfl

theorem copyRest_eq (ws : List U16) : copyRest ws = (chars ws).filter (· ≠ 0) := by
  induction ws with
  | nil => rfl
  | cons w ws ih => rw [copyRest, ih, chars_cons, filter_cons_eq, filter_cons_eq]

/-- **What `atastring_2_ascii` makes of a field.** -/
theorem ascii_eq (ws : List U16) :
    (firstNonSpace ws).1 ++ copyRest (firstNonSpace ws).2 = asciiOf (chars ws) := by
  induction ws with
  | nil => rfl
  | cons w ws ih =>
    rw [firstNonSpace]
    by_cases hhigh : highByte w = 0x20
    swap
    · rw [if_pos hhigh, List.nil_append, copyRest_eq, asciiOf, chars_cons,
        List.dropWhile_cons_of_neg (by simpa using hhigh)]
    rw [if_neg (not_not_intro hhigh), asciiOf, chars_cons,
      List.dropWhile_cons_of_pos (by simpa using hhigh)]
    by_cases hlow : lowByte w = 0x20
    · rw [if_neg (not_not_intro hlow), List.dropWhile_cons_of_pos (by simpa using hlow)]
      exact ih
    · rw [if_pos hlow, List.dropWhile_cons_of_neg (by simpa using hlow), filter_cons_eq,
        copyRest_eq]

theorem length_asciiOf_le (field : List Byte) : (asciiOf field).length ≤ field.length :=
  (List.length_filter_le _ _).trans (List.dropWhile_suffix _).length_le

theorem zero_notMem_asciiOf (field : List Byte) : (0 : Byte) ∉ asciiOf field := by
  intro h
  have hne := (List.mem_filter.mp h).2
  simp at hne

theorem length_chars (ws : List U16) : (chars ws).length = 2 * ws.length := by
  induction ws with
  | nil => rfl
  | cons w ws ih =>
    rw [chars_cons, List.length_cons, List.length_cons, List.length_cons, ih]
    omega

theorem poke_zero {buf bs : List Byte} (h : bs.length ≤ buf.length) :
    poke buf 0 bs = bs ++ buf.drop bs.length := by
  apply List.ext_getElem?
  intro k
  by_cases hk : k < bs.length
  · have hsame := getElem?_poke_same (i := 0) hk (by omega : 0 + bs.length ≤ buf.length)
    rw [Nat.zero_add] at hsame
    rw [hsame, List.getElem?_append_left hk]
  · rw [getElem?_poke_of_ge (by omega), List.getElem?_append_right (by omega), List.getElem?_drop]
    congr 1
    omega

/-- A string of ATA in a cleared buffer. -/
theorem holds_atastring2Ascii {ws : List U16} {size : Nat} (h : 2 * ws.length < size) :
    Holds (atastring2Ascii ws (List.replicate size 0)) (asciiOf (chars ws)) size := by
  have hlen := length_asciiOf_le (chars ws)
  rw [length_chars] at hlen
  refine ⟨by omega, ?_⟩
  rw [atastring2Ascii, ascii_eq, poke_zero, List.drop_replicate, List.append_assoc,
    List.length_append, List.length_singleton]
  · obtain ⟨k, hk⟩ : ∃ k, size - (asciiOf (chars ws)).length = k + 1 :=
      ⟨size - (asciiOf (chars ws)).length - 1, by omega⟩
    rw [hk, show size - ((asciiOf (chars ws)).length + 1) = k by omega]
    rfl
  · rw [List.length_append, List.length_singleton, List.length_replicate]
    omega

/-- A buffer holds one string. -/
theorem cstr_of_holds {buf s : List Byte} {size : Nat} (h : Holds buf s size)
    (hzero : (0 : Byte) ∉ s) : cstr buf = s := by
  have hfits := h.fits
  obtain ⟨k, hk⟩ : ∃ k, size - s.length = k + 1 := ⟨size - s.length - 1, by omega⟩
  rw [h.bytes, hk, List.replicate_succ]
  exact cstr_append_zero hzero _

/-- Nothing of `rest` is left when it stands behind `front`. -/
def NothingBehind (front rest : List Byte) : Prop :=
  (∀ b ∈ rest, b = 0) ∨ (∀ b ∈ front, b = 0x20) ∧ ∀ b ∈ rest.dropWhile (· = 0x20), b = 0

instance (front rest : List Byte) : Decidable (NothingBehind front rest) :=
  inferInstanceAs (Decidable (_ ∨ _))

theorem filter_eq_nil_iff (bs : List Byte) : bs.filter (· ≠ 0) = [] ↔ ∀ b ∈ bs, b = 0 := by
  rw [List.filter_eq_nil_iff]
  simp only [ne_eq, decide_not, Bool.not_eq_true', decide_eq_false_iff_not, not_not]

theorem asciiOf_append_iff (front rest : List Byte) :
    asciiOf front = asciiOf (front ++ rest) ↔ NothingBehind front rest := by
  unfold asciiOf NothingBehind
  rw [List.dropWhile_append]
  have hzeros : (∀ b ∈ rest, b = 0) → ∀ b ∈ rest.dropWhile (· = 0x20), b = 0 :=
    fun hrest b hb => hrest b ((List.dropWhile_suffix _).subset hb)
  by_cases hblank : front.dropWhile (· = 0x20) = []
  · have hall : ∀ b ∈ front, b = 0x20 := by
      simpa using List.dropWhile_eq_nil_iff.mp hblank
    rw [hblank, if_pos List.isEmpty_nil, List.filter_nil, eq_comm, filter_eq_nil_iff]
    refine ⟨fun h => .inr ⟨hall, h⟩, ?_⟩
    rintro (h | ⟨-, h⟩)
    · exact hzeros h
    · exact h
  · have hsome : ¬ ∀ b ∈ front, b = 0x20 := fun hall =>
      hblank (List.dropWhile_eq_nil_iff.mpr (by simpa using hall))
    rw [if_neg (by simpa using hblank), List.filter_append, List.self_eq_append_right,
      filter_eq_nil_iff]
    refine ⟨.inl, ?_⟩
    rintro (h | ⟨h, -⟩)
    · exact h
    · exact absurd h hsome

/-- The characters of `n` words of the answer. -/
def ataField (identity : List U16) (i n : Nat) : List Byte := chars ((identity.drop i).take n)

/-- The strings of an ATA drive are its fields. -/
structure AtaStrings (identity : List U16) : Prop where
  model : Holds (loadInfoATA identity).model
    (asciiOf (ataField identity 27 ATA_MODEL_NUMBER_RAW_LEN)) MODEL_NUMBER_LEN
  serial : Holds (loadInfoATA identity).serial
    (asciiOf (ataField identity 10 ATA_SERIAL_NUMBER_RAW_LEN)) SERIAL_NUMBER_LEN
  firmware_rev : Holds (loadInfoATA identity).firmware_rev
    (asciiOf (ataField identity 23 ATA_FIRMWARE_REV_RAW_LEN)) FIRMWARE_REV_LEN

theorem holds_ataField (identity : List U16) (i : Nat) {n size : Nat} (h : 2 * n < size) :
    Holds (atastring2Ascii ((identity.drop i).take n) (List.replicate size 0))
      (asciiOf (ataField identity i n)) size := by
  apply holds_atastring2Ascii
  have hlen := List.length_take_le n (identity.drop i)
  omega

/-- **ATA**: the second half of the model is not read. -/
theorem ataStrings_iff (identity : List U16) :
    AtaStrings identity ↔ NothingBehind (ataField identity 27 10) (ataField identity 37 10) := by
  have hsplit : ataField identity 27 ATA_MODEL_NUMBER_RAW_LEN =
      ataField identity 27 10 ++ ataField identity 37 10 := by
    have hwords : (identity.drop 27).take 20 =
        (identity.drop 27).take 10 ++ (identity.drop 37).take 10 := by
      rw [show 20 = 10 + 10 by rfl, List.take_add, List.drop_drop]
    unfold ataField ATA_MODEL_NUMBER_RAW_LEN chars
    rw [hwords, List.flatMap_append]
  have hmodel := holds_ataField identity 27 (show 2 * 10 < MODEL_NUMBER_LEN by decide)
  rw [← asciiOf_append_iff, ← hsplit]
  refine ⟨fun h => ?_, fun h => ⟨?_, ?_, ?_⟩⟩
  · have hread := cstr_of_holds hmodel (zero_notMem_asciiOf _)
    have hdue := cstr_of_holds h.model (zero_notMem_asciiOf _)
    exact hread.symm.trans hdue
  · rw [← h]
    exact hmodel
  · exact holds_ataField identity 10 (by decide)
  · exact holds_ataField identity 23 (by decide)

/-! ## SCSI -/

/-- The strings of INQUIRY are its fields. -/
structure InquiryStrings (tdata : Page) (info : ScsiInfo) : Prop where
  vendor_id : Holds info.vendor_id (slice tdata.toList 8 SCSI_VENDOR_ID_RAW_LEN) VENDOR_ID_LEN
  model : Holds info.model (slice tdata.toList 16 SCSI_MODEL_NUMBER_RAW_LEN) MODEL_NUMBER_LEN
  version : Holds info.version (slice tdata.toList 32 SCSI_VERSION_RAW_LEN) VERSION_LEN

/-- A field of `n` bytes at `i` ends in a zero, and nothing else stands behind a zero. -/
def EndsInZero (tdata : Page) (i n : Nat) : Prop :=
  Padded (slice tdata.toList i (n - 1)) ∧ tdata.toList.getD (i + (n - 1)) 0 = 0

instance (tdata : Page) (i n : Nat) : Decidable (EndsInZero tdata i n) :=
  inferInstanceAs (Decidable (_ ∧ _))

theorem holds_scsiString_iff (tdata : Page) {i n size : Nat} (hi : i + (n + 1) ≤ 512)
    (hsize : n + 1 < size) :
    Holds (scsiString tdata size (n + 1) i) (slice tdata.toList i (n + 1)) size ↔
      EndsInZero tdata i (n + 1) := by
  have hlen : tdata.toList.length = 512 := Vector.length_toList
  have hcopy := @holds_strncpy_set_iff (tdata.toList.drop i) n size
    (by rw [List.length_drop]; omega) hsize
  have hlast : (tdata.toList.drop i).getD n 0 = tdata.toList.getD (i + n) 0 := by
    rw [List.getD_eq_getElem?_getD, List.getElem?_drop, List.getD_eq_getElem?_getD]
  rw [hlast] at hcopy
  exact hcopy

/-- **SCSI**: the terminator is put in the last byte of each field. -/
theorem inquiryStrings_iff {tdata : Page} {type : Byte} {info : ScsiInfo}
    (h : loadInquiry tdata type = some (.ok info)) : InquiryStrings tdata info ↔
      EndsInZero tdata 8 SCSI_VENDOR_ID_RAW_LEN ∧ EndsInZero tdata 16 SCSI_MODEL_NUMBER_RAW_LEN ∧
        EndsInZero tdata 32 SCSI_VERSION_RAW_LEN := by
  unfold loadInquiry at h
  dsimp only at h
  split at h
  · cases h
  cases h
  have hvendor := @holds_scsiString_iff tdata 8 7 VENDOR_ID_LEN (by decide) (by decide)
  have hmodel := @holds_scsiString_iff tdata 16 15 MODEL_NUMBER_LEN (by decide) (by decide)
  have hversion := @holds_scsiString_iff tdata 32 3 VERSION_LEN (by decide) (by decide)
  refine ⟨fun h => ?_, fun h => ?_⟩
  · exact ⟨hvendor.mp h.vendor_id, hmodel.mp h.model, hversion.mp h.version⟩
  · exact ⟨hvendor.mpr h.1, hmodel.mpr h.2.1, hversion.mpr h.2.2⟩

/-! ## NVMe -/

/-- The strings of the NVMe controller data are its fields. -/
structure NvmeStrings (data : Vector Byte 4096) : Prop where
  serial : Holds (nvmeIdentify data.toList {}).serial
    (slice data.toList 4 NVME_SERIAL_NUMBER_LEN) SERIAL_NUMBER_LEN
  model : Holds (nvmeIdentify data.toList {}).model
    (slice data.toList 24 NVME_MODEL_NUMBER_LEN) MODEL_NUMBER_LEN
  firmware_rev : Holds (nvmeIdentify data.toList {}).firmware_rev
    (slice data.toList 64 NVME_FIRMREV_LEN) FIRMWARE_REV_LEN

/-- **NVMe**: the fields are complete, up to what stands behind a zero. -/
theorem nvmeStrings_iff (data : Vector Byte 4096) : NvmeStrings data ↔
    Padded (slice data.toList 4 NVME_SERIAL_NUMBER_LEN) ∧
      Padded (slice data.toList 24 NVME_MODEL_NUMBER_LEN) ∧
      Padded (slice data.toList 64 NVME_FIRMREV_LEN) := by
  have hlen : data.toList.length = 4096 := Vector.length_toList
  have hfield {i n size : Nat} (hi : i + n ≤ 4096) (hsize : n < size) :
      Holds (strncpy (List.replicate size 0) (data.toList.drop i) n) (slice data.toList i n) size ↔
        Padded (slice data.toList i n) := by
    apply holds_strncpy_iff _ hsize
    rw [List.length_drop]
    omega
  have hserial := @hfield 4 20 SERIAL_NUMBER_LEN (by decide) (by decide)
  have hmodel := @hfield 24 40 MODEL_NUMBER_LEN (by decide) (by decide)
  have hfirmware := @hfield 64 8 FIRMWARE_REV_LEN (by decide) (by decide)
  refine ⟨fun h => ?_, fun h => ?_⟩
  · exact ⟨hserial.mp h.serial, hmodel.mp h.model, hfirmware.mp h.firmware_rev⟩
  · exact ⟨hserial.mpr h.1, hmodel.mpr h.2.1, hfirmware.mpr h.2.2⟩

/-- **When the identity strings are the complete fields of the standards.** -/
theorem identity_strings_iff (identity : List U16) (tdata : Page) (type : Byte)
    (data : Vector Byte 4096) :
    (AtaStrings identity ↔
      NothingBehind (ataField identity 27 10) (ataField identity 37 10)) ∧
    (∀ info, loadInquiry tdata type = some (.ok info) →
      (InquiryStrings tdata info ↔ EndsInZero tdata 8 SCSI_VENDOR_ID_RAW_LEN ∧
        EndsInZero tdata 16 SCSI_MODEL_NUMBER_RAW_LEN ∧
        EndsInZero tdata 32 SCSI_VERSION_RAW_LEN)) ∧
    (NvmeStrings data ↔ Padded (slice data.toList 4 NVME_SERIAL_NUMBER_LEN) ∧
      Padded (slice data.toList 24 NVME_MODEL_NUMBER_LEN) ∧
      Padded (slice data.toList 64 NVME_FIRMREV_LEN)) :=
  ⟨ataStrings_iff identity, fun _ h => inquiryStrings_iff h, nvmeStrings_iff data⟩

theorem loadInquiry_ok {tdata : Page} {type : Byte}
    (h : tdata.toList.getD 0 0 &&& 0xe0 = 0 ∧ tdata.toList.getD 0 0 &&& 0x1f = type) :
    ∃ info, loadInquiry tdata type = some (.ok info) := by
  unfold loadInquiry
  dsimp only
  rw [if_neg (not_or.mpr ⟨not_not_intro h.1, not_not_intro h.2⟩)]
  exact ⟨_, rfl⟩

/-- INQUIRY data with these fields. -/
def inquiryPage (vendor_id model version : List Byte) : Page :=
  let page := List.replicate 8 0 ++ vendor_id ++ model ++ version
  Vector.ofFn fun i => page.getD i 0

/-- A device whose fields end in zeros. -/
theorem identity_strings_zeros : ∃ info,
    loadInquiry (inquiryPage [0x48, 0x47, 0x53, 0x54, 0, 0, 0, 0] (List.replicate 16 0)
      [0x41, 0x31, 0x32, 0]) 0x00 = some (.ok info) ∧
    InquiryStrings (inquiryPage [0x48, 0x47, 0x53, 0x54, 0, 0, 0, 0] (List.replicate 16 0)
      [0x41, 0x31, 0x32, 0]) info := by
  obtain ⟨info, hinfo⟩ := @loadInquiry_ok (inquiryPage [0x48, 0x47, 0x53, 0x54, 0, 0, 0, 0]
    (List.replicate 16 0) [0x41, 0x31, 0x32, 0]) 0x00 (by decide +kernel)
  have hstrings := (identity_strings_iff [] _ 0x00 (Vector.replicate 4096 0)).2.1 info hinfo
  exact ⟨info, hinfo, hstrings.mpr (by decide +kernel)⟩

/-- A drive whose model has forty characters. -/
theorem model_cut : ¬ AtaStrings (List.replicate 256 0x4141) := by
  rw [ataStrings_iff]
  decide +kernel

end Drive
