import Disks.Drive.Proof.ScsiFields

/-!
# The bounds of the SCSI response buffer

What the loops of drive identify, enclosure identify, SMART status and SMART attributes read of
the 512-byte buffer. They stop at the length the device states, which nothing compares with 512.

* `scanExceptions_isSome_iff`, `counters_isSome_iff`, `single_isSome_iff`: when each of the loops
  over the parameters of a page stays in the buffer.
* `scsi_loops_in_bounds_iff`: **when each loop stays in the buffer**; all of them end.
* `commands_in_bounds`: the commands do where their loops do.
-/

namespace Drive

open Bytes Loop

/-! ## The page lists -/

theorem scanPages_isSome_iff (tdata : Page) : (scanPages tdata).isSome ↔ buffLen tdata ≤ 512 := by
  have hlen : 4 ≤ buffLen tdata := by
    unfold buffLen
    omega
  rw [scanPages, mapM_at?]
  split
  · rename_i h
    refine iff_of_true rfl ?_
    omega
  · rename_i h
    refine iff_of_false (fun h => by cases h) ?_
    omega

/-! ## The designators -/

theorem getu64At_isSome_iff (tdata : Page) (i : Nat) :
    (getu64At tdata i).isSome ↔ i + 8 ≤ 512 := by
  unfold getu64At
  rw [mapM_at?]
  split
  · rename_i h
    refine iff_of_true rfl ?_
    omega
  · rename_i h
    refine iff_of_false (fun h => by cases h) ?_
    omega

theorem scanWWN_isSome_iff (tdata : Page) (start : Nat) :
    (scanWWN tdata start (List.range' 4 (buffLen tdata - 4))).isSome ↔
      (∃ o, FirstLook tdata o ∧ o + start + 8 ≤ 512) ∨ NothingLooks tdata := by
  rw [Option.isSome_iff_exists]
  simp only [scanWWN_iff]
  refine ⟨?_, ?_⟩
  · rintro ⟨v, ⟨k, hk, hlook, hfirst, hget⟩ | ⟨hall, -⟩⟩
    · refine .inl ⟨4 + k, ⟨by omega, by omega, hlook, fun o' hlo hhi => ?_⟩, ?_⟩
      · rw [show o' = 4 + (o' - 4) by omega]
        exact hfirst _ (by omega)
      · apply (getu64At_isSome_iff tdata _).mp
        rw [hget]
        rfl
    · refine .inr fun o hlo hhi => ?_
      rw [show o = 4 + (o - 4) by omega]
      exact hall _ (by omega)
  · rintro (⟨o, hlook, hfits⟩ | hno)
    · have hge := hlook.ge
      have hlt := hlook.lt
      obtain ⟨v, hv⟩ := Option.isSome_iff_exists.mp ((getu64At_isSome_iff tdata _).mpr hfits)
      refine ⟨v, .inl ⟨o - 4, by omega, ?_⟩⟩
      rw [show 4 + (o - 4) = o by omega]
      exact ⟨hlook.looks, fun j hj => hlook.first _ (by omega) (by omega), hv⟩
    · exact ⟨0, .inr ⟨fun k hk => hno _ (by omega) (by omega), rfl⟩⟩

/-! ## The parameters of a page -/

/-- The last `n` bytes of a parameter are in the buffer. -/
theorem isSome_parseScsiNumber {tdata : Page} {f : ScsiField} (h : f.data ≤ 512) :
    (parseScsiNumber tdata f.data f.len).isSome ↔ f.data + f.len ≤ 512 := by
  rw [parseScsiNumber_eq]
  split
  · refine iff_of_true rfl ?_
    omega
  · refine iff_of_false (fun h => by cases h) ?_
    omega

theorem isSome_powerOnMinutes (tdata : Page) (f : ScsiField) :
    (powerOnMinutes tdata f).isSome ↔ f.data + 4 ≤ 512 := by
  unfold powerOnMinutes
  by_cases h : f.data + 4 ≤ 512
  · rw [at?_of_lt tdata (by omega), at?_of_lt tdata (by omega), at?_of_lt tdata (by omega),
      at?_of_lt tdata (by omega)]
    exact iff_of_true rfl h
  · refine iff_of_false (fun hsome => ?_) h
    have hlast : tdata.at? (f.data + 3) = none := by rw [at?_eq, if_neg (by omega)]
    rw [hlast] at hsome
    cases hb0 : tdata.at? f.data <;> cases hb1 : tdata.at? (f.data + 1) <;>
      cases hb2 : tdata.at? (f.data + 2) <;> simp [hb0, hb1, hb2] at hsome

/-- The loop over the informational exceptions page reads two bytes of each parameter 0 that has
them. -/
theorem scanExceptions_isSome_iff (tdata : Page) : (scanExceptions tdata).isSome ↔
    ∀ f ∈ fields tdata, f.data ≤ 512 ∧ (f.code = 0 ∧ f.len ≥ 2 → f.data + 2 ≤ 512) := by
  rw [scanExceptions, walk_eq]
  change (walkList _ _ (fields tdata) (0, 0)).isSome ↔ _
  generalize ((0, 0) : Byte × Byte) = sense
  induction fields tdata generalizing sense with
  | nil => exact iff_of_true rfl fun f hf => absurd hf List.not_mem_nil
  | cons f fs ih =>
    rw [List.forall_mem_cons, walkList]
    by_cases hheader : f.data ≤ 512
    swap
    · rw [if_neg hheader]
      exact iff_of_false (fun h => by cases h) fun h => hheader h.1.1
    rw [if_pos hheader, exceptionsTurn]
    by_cases hcode : f.code = 0 ∧ f.len ≥ 2
    swap
    · rw [if_neg hcode, Option.bind_some, ih]
      exact ⟨fun h => ⟨⟨hheader, fun h => absurd h hcode⟩, h⟩, fun h => h.2⟩
    rw [if_pos hcode]
    by_cases hfits : f.data + 2 ≤ 512
    · rw [at?_of_lt tdata (by omega), at?_of_lt tdata (by omega)]
      simp only [Option.bind_eq_bind, Option.bind_some]
      rw [ih]
      exact ⟨fun h => ⟨⟨hheader, fun _ => hfits⟩, h⟩, fun h => h.2⟩
    · have hlast : tdata.at? (f.data + 1) = none := by rw [at?_eq, if_neg (by omega)]
      refine iff_of_false (fun h => ?_) fun h => hfits (h.1.2 hcode)
      rw [hlast] at h
      cases hb : tdata.at? f.data <;> simp [hb] at h

/-- The parameters an error counter loop reads: up to the one that fills the table. -/
def counted (attribs : List SmartAttribScsi) (fs : List ScsiField) : List ScsiField :=
  fs.take (MAX_SCSI_ATTRIBS - 1 - attribs.length + 1)

/-- The loop over an error counter page. -/
theorem counters_isSome_iff (tdata : Page) (page : Byte) (attribs : List SmartAttribScsi)
    (fs : List ScsiField) : (walkList (counterTurn tdata page) some fs attribs).isSome ↔
      ∀ f ∈ counted attribs fs, f.data + f.len ≤ 512 := by
  induction fs generalizing attribs with
  | nil => exact iff_of_true rfl fun f hf => absurd hf List.not_mem_nil
  | cons f fs ih =>
    rw [walkList, counted, List.take_succ_cons, List.forall_mem_cons]
    by_cases hheader : f.data ≤ 512
    swap
    · rw [if_neg hheader]
      exact iff_of_false (fun h => by cases h) fun h => hheader (by have := h.1; omega)
    have hvalue := @isSome_parseScsiNumber tdata f hheader
    rw [if_pos hheader, counterTurn]
    cases hparse : parseScsiNumber tdata f.data f.len with
    | none =>
      rw [hparse] at hvalue
      exact iff_of_false (fun h => by cases h) fun h => by cases hvalue.mpr h.1
    | some value =>
      have hfits : f.data + f.len ≤ 512 := by
        apply hvalue.mp
        rw [hparse]
        rfl
      rw [Option.bind_eq_bind, Option.bind_some, store]
      by_cases hfull : attribs.length + 1 ≥ MAX_SCSI_ATTRIBS
      · have hlast : MAX_SCSI_ATTRIBS - 1 - attribs.length = 0 := by
          unfold MAX_SCSI_ATTRIBS at hfull ⊢
          omega
        rw [if_pos hfull, hlast, List.take_zero]
        exact iff_of_true rfl ⟨hfits, fun f hf => absurd hf List.not_mem_nil⟩
      · rw [if_neg hfull]
        simp only [Option.bind_some]
        rw [ih, counted, List.length_append, List.length_singleton]
        have hleft : MAX_SCSI_ATTRIBS - 1 - (attribs.length + 1) + 1 =
            MAX_SCSI_ATTRIBS - 1 - attribs.length := by
          unfold MAX_SCSI_ATTRIBS at hfull ⊢
          omega
        rw [hleft]
        exact ⟨fun h => ⟨hfits, h⟩, fun h => h.2⟩

/-- The loops that look for parameter 0 read the headers up to it and `size` bytes of it. -/
def SingleFits (size : ScsiField → Nat) (fs : List ScsiField) : Prop :=
  (∀ f ∈ fs.takeWhile fun f => f.code ≠ 0, f.data ≤ 512) ∧
    ∀ f, (fs.find? fun f => f.code = 0) = some f → f.data + size f ≤ 512

/-- The loop over a page of which parameter 0 is asked for. -/
theorem single_isSome_iff {read : ScsiField → Option U64} {size : ScsiField → Nat}
    (hread : ∀ f : ScsiField, f.data ≤ 512 → ((read f).isSome ↔ f.data + size f ≤ 512))
    (page : Byte) (attribs : List SmartAttribScsi) (fs : List ScsiField) :
    (walkList (singleTurn read page) some fs attribs).isSome ↔ SingleFits size fs := by
  unfold SingleFits
  induction fs with
  | nil => exact iff_of_true rfl ⟨fun f hf => absurd hf List.not_mem_nil, fun f hf => by cases hf⟩
  | cons f fs ih =>
    rw [walkList, List.takeWhile_cons, List.find?_cons]
    by_cases hcode : f.code = 0
    · simp only [hcode, ne_eq, not_true_eq_false, decide_false, decide_true, Bool.false_eq_true,
        if_false, Option.some.injEq, List.not_mem_nil, false_imp_iff, implies_true, true_and,
        forall_eq']
      by_cases hheader : f.data ≤ 512
      swap
      · rw [if_neg hheader]
        exact iff_of_false (fun h => by cases h) fun h => hheader (by omega)
      rw [if_pos hheader, singleTurn, if_pos hcode, ← hread f hheader]
      cases read f with
      | none => exact iff_of_false (fun h => by cases h) fun h => by cases h
      | some value => exact iff_of_true rfl rfl
    · simp only [hcode, ne_eq, not_false_eq_true, decide_true, decide_false, if_true,
        List.forall_mem_cons]
      by_cases hheader : f.data ≤ 512
      swap
      · rw [if_neg hheader]
        exact iff_of_false (fun h => by cases h) fun h => hheader h.1.1
      rw [if_pos hheader, singleTurn, if_neg hcode, Option.bind_some]
      simp only
      rw [ih]
      exact ⟨fun h => ⟨⟨hheader, h.1⟩, h.2⟩, fun h => ⟨h.1.2, h.2⟩⟩

/-! ## The loops -/

/-- What a loop of SMART attributes reads of its page is in the buffer. -/
def AttribsFit (tdata : Page) (page : Byte) (attribs : List SmartAttribScsi) : Prop :=
  if page = SCSI_LOG_SENCE_PAGE_TEMPERATURE ∨ page = SCSI_LOG_SENCE_PAGE_FACTORY_LOG then
    SingleFits (·.len) (fields tdata)
  else if page = SCSI_LOG_SENCE_PAGE_BACKGROUND_SCAN then SingleFits (fun _ => 4) (fields tdata)
  else ∀ f ∈ counted attribs (fields tdata), f.data + f.len ≤ 512

theorem attribLoop_isSome_iff (tdata : Page) (page : Byte) (attribs : List SmartAttribScsi) :
    (attribLoop tdata page attribs).isSome ↔ AttribsFit tdata page attribs := by
  unfold attribLoop AttribsFit
  split
  · rw [walk_eq]
    exact single_isSome_iff (fun f hf => isSome_parseScsiNumber hf) page attribs _
  split
  · rw [walk_eq]
    exact single_isSome_iff (fun f _ => isSome_powerOnMinutes tdata f) page attribs _
  · rw [walk_eq]
    exact counters_isSome_iff tdata page attribs _

/-- **When each loop stays in the buffer**: for each, what it goes through ends below 512. There
are at most as many parameters as headers fit in the length the device states. -/
theorem scsi_loops_in_bounds_iff (tdata : Page) :
    ((scanPages tdata).isSome ↔ buffLen tdata ≤ 512) ∧
      (∀ start, (scanWWN tdata start (List.range' 4 (buffLen tdata - 4))).isSome ↔
        (∃ o, FirstLook tdata o ∧ o + start + 8 ≤ 512) ∨ NothingLooks tdata) ∧
      ((scanExceptions tdata).isSome ↔
        ∀ f ∈ fields tdata, f.data ≤ 512 ∧ (f.code = 0 ∧ f.len ≥ 2 → f.data + 2 ≤ 512)) ∧
      (∀ page attribs, (attribLoop tdata page attribs).isSome ↔ AttribsFit tdata page attribs) ∧
      4 * (fields tdata).length ≤ buffLen tdata - 4 :=
  ⟨scanPages_isSome_iff tdata, scanWWN_isSome_iff tdata, scanExceptions_isSome_iff tdata,
    attribLoop_isSome_iff tdata, length_fieldsFrom_le tdata 4⟩

/-- A page list of 514 bytes, of which 508 are in the buffer. -/
theorem page_list_past_buffer : ¬ ∀ tdata : Page, (scanPages tdata).isSome := by
  intro h
  have hfits := (scanPages_isSome_iff _).mp (h (Vector.replicate 512 2))
  exact absurd hfits (by decide +kernel)

/-! ## The commands -/

/-- Every loop stays in the buffer. -/
structure LoopsInBounds (tdata : Page) : Prop where
  pages : buffLen tdata ≤ 512
  wwn : ∀ start, start = 4 ∨ start = 5 →
    (∃ o, FirstLook tdata o ∧ o + start + 8 ≤ 512) ∨ NothingLooks tdata
  exceptions : ∀ f ∈ fields tdata, f.data ≤ 512 ∧ (f.code = 0 ∧ f.len ≥ 2 → f.data + 2 ≤ 512)
  attribs : ∀ page attribs, AttribsFit tdata page attribs

/-- Nothing is read outside the buffer. -/
def Reading.InBounds {α : Type} (x : Reading α) : Prop := Option.isSome x

theorem inBounds_pure {α : Type} (a : α) : Reading.InBounds (pure a) := rfl

theorem inBounds_throw {α : Type} (e : Int) : (throw e : Reading α).InBounds := rfl

theorem inBounds_bind {α β : Type} {x : Reading α} {f : α → Reading β} (hx : x.InBounds)
    (hf : ∀ a, x = some (.ok a) → (f a).InBounds) : (x >>= f).InBounds := by
  match x, hx with
  | some (.ok a), _ => exact hf a rfl
  | some (.error e), _ => exact inBounds_throw e

theorem inBounds_lift {α : Type} {x : Option α} (h : x.isSome) :
    (liftM x : Reading α).InBounds := by
  cases x with
  | none => cases h
  | some a => exact inBounds_pure a

theorem inBounds_loadInquiry (tdata : Page) (type : Byte) :
    (loadInquiry tdata type).InBounds := by
  unfold loadInquiry
  dsimp only
  split
  · exact inBounds_throw (-1)
  · exact inBounds_pure _

/-- The part of a command that goes on with a page list. -/
theorem inBounds_scanPages {β : Type} {tdata : Page} (hfits : LoopsInBounds tdata)
    {f : List Byte → Reading β} (hf : ∀ pages, (f pages).InBounds) :
    ((liftM (scanPages tdata) : Reading (List Byte)) >>= f).InBounds := by
  apply inBounds_bind
  · exact inBounds_lift ((scanPages_isSome_iff tdata).mpr hfits.pages)
  · exact fun pages _ => hf pages

section commands

variable {answers : Answers} (h : ∀ command parms tdata, answers command parms = .ok tdata →
  LoopsInBounds tdata)

include h

/-- A part of a command that asks for a page. -/
theorem inBounds_ask {β : Type} (command : CdbCommand) (parms : List U64)
    {f : Page → Reading β} (hf : ∀ tdata, LoopsInBounds tdata → (f tdata).InBounds) :
    (answers.asks.ask command parms >>= f : Reading β).InBounds := by
  apply inBounds_bind
  · unfold Asks.ask Answers.asks
    cases answers command parms with
    | error e => exact inBounds_throw (-1)
    | ok tdata => exact inBounds_pure tdata
  · intro tdata hask
    exact hf tdata (h _ _ _ (Answers.ask_ok.mp hask))

theorem inBounds_loadLogPages (info : ScsiInfo) :
    Reading.InBounds (answers.asks.loadLogPages info) := by
  unfold Asks.loadLogPages Answers.asks
  cases hanswer : answers .scsiLogPage [SCSI_LOG_SENCE_PAGE_LIST.setWidth 64] with
  | error errno =>
    change Reading.InBounds (ite _ _ _)
    split
    · exact inBounds_throw (-1)
    · exact inBounds_pure info
  | ok tdata =>
    change Reading.InBounds (liftM (scanPages tdata) >>= _)
    apply inBounds_bind
    · exact inBounds_lift ((scanPages_isSome_iff tdata).mpr (h _ _ _ hanswer).pages)
    · exact fun pages _ => inBounds_pure _

theorem inBounds_loadSerial (info : ScsiInfo) :
    Reading.InBounds (answers.asks.loadSerial info) := by
  unfold Asks.loadSerial
  split
  · exact inBounds_ask h _ _ fun tdata _ => inBounds_pure _
  · exact inBounds_pure _

theorem inBounds_loadIdent {start : Nat} (hstart : start = 4 ∨ start = 5) (info : ScsiInfo) :
    Reading.InBounds (answers.asks.loadIdent start info) := by
  unfold Asks.loadIdent
  split
  · apply inBounds_ask h
    intro tdata hfits
    apply inBounds_bind
    · exact inBounds_lift ((scanWWN_isSome_iff tdata start).mpr (hfits.wwn start hstart))
    · exact fun wwn _ => inBounds_pure _
  · exact inBounds_pure _

theorem inBounds_loadLimits (info : ScsiInfo) :
    Reading.InBounds (answers.asks.loadLimits info) := by
  unfold Asks.loadLimits
  split
  · apply inBounds_ask h
    intro tdata _
    dsimp only
    split
    · exact inBounds_pure _
    · exact inBounds_pure _
  · exact inBounds_pure _

theorem inBounds_loadCharacteristics (info : ScsiInfo) :
    Reading.InBounds (answers.asks.loadCharacteristics info) := by
  unfold Asks.loadCharacteristics
  split
  · apply inBounds_ask h
    intro tdata _
    apply inBounds_bind
    · apply inBounds_lift
      rw [parseScsiNumber_eq, if_pos (by decide)]
      rfl
    · exact fun rpm _ => inBounds_pure _
  · exact inBounds_pure _

theorem inBounds_loadReadCapacity (info : ScsiInfo) :
    Reading.InBounds (answers.asks.loadReadCapacity info) := by
  unfold Asks.loadReadCapacity
  split
  · exact inBounds_ask h _ _ fun tdata _ => inBounds_pure _
  · exact inBounds_pure _

theorem inBounds_loadAttribs (logPages : List Byte) (attribs : List SmartAttribScsi)
    (page : Byte) : Reading.InBounds (answers.asks.loadAttribs logPages attribs page) := by
  unfold Asks.loadAttribs
  split
  · apply inBounds_ask h
    intro tdata hfits
    apply inBounds_bind
    · exact inBounds_lift ((attribLoop_isSome_iff tdata page attribs).mpr (hfits.attribs _ _))
    · intro stored _
      cases stored with
      | none => exact inBounds_throw (-1)
      | some attribs => exact inBounds_pure attribs
  · exact inBounds_pure attribs

theorem inBounds_scsiIdentify : (scsiIdentify answers).InBounds := by
  refine inBounds_ask h _ _ fun tdata _ => ?_
  refine inBounds_bind (inBounds_loadInquiry tdata 0x00) fun info _ => ?_
  refine inBounds_bind (inBounds_loadLogPages h info) fun info _ => ?_
  refine inBounds_ask h _ _ fun tdata hfits => ?_
  refine inBounds_scanPages hfits fun pages => ?_
  refine inBounds_bind (inBounds_loadSerial h _) fun info _ => ?_
  refine inBounds_bind (inBounds_loadIdent h (.inl rfl) info) fun info _ => ?_
  refine inBounds_bind (inBounds_loadLimits h info) fun info _ => ?_
  refine inBounds_bind (inBounds_loadCharacteristics h info) fun info _ => ?_
  exact inBounds_loadReadCapacity h info

theorem inBounds_scsiIdentifyEnclosure : (scsiIdentifyEnclosure answers).InBounds := by
  refine inBounds_ask h _ _ fun tdata _ => ?_
  refine inBounds_bind (inBounds_loadInquiry tdata 0x0d) fun info _ => ?_
  refine inBounds_ask h _ _ fun tdata hfits => ?_
  refine inBounds_scanPages hfits fun diagnosticPages => ?_
  refine inBounds_ask h _ _ fun tdata hfits => ?_
  refine inBounds_scanPages hfits fun vpdPages => ?_
  refine inBounds_bind (inBounds_loadSerial h _) fun info _ => ?_
  exact inBounds_loadIdent h (.inr rfl) info

theorem inBounds_scsiSmartStatus (hasLogPageInfoExcept : Bool) :
    (scsiSmartStatus answers hasLogPageInfoExcept).InBounds := by
  unfold scsiSmartStatus Asks.scsiSmartStatus
  extract_lets status sense
  have hstatus (codes : Byte × Byte) : Reading.InBounds (status codes) := inBounds_pure _
  have hsense (codes : Byte × Byte) : Reading.InBounds (sense codes) := by
    change Reading.InBounds (ite _ _ _)
    split
    · refine inBounds_ask h _ _ fun tdata _ => ?_
      dsimp only
      split
      · exact inBounds_throw (-1)
      · exact hstatus (tdata.toList.getD 12 0, tdata.toList.getD 13 0)
    · exact hstatus codes
  split
  · refine inBounds_ask h _ _ fun tdata hfits => ?_
    apply inBounds_bind
    · exact inBounds_lift ((scanExceptions_isSome_iff tdata).mpr hfits.exceptions)
    · exact fun codes _ => hsense codes
  · exact hsense (0, 0)

theorem inBounds_scsiSmartAttribs (logPages : List Byte) :
    (scsiSmartAttribs answers logPages).InBounds := by
  unfold scsiSmartAttribs Asks.scsiSmartAttribs
  generalize ([] : List SmartAttribScsi) = attribs
  induction attribPages generalizing attribs with
  | nil => exact inBounds_pure attribs
  | cons page pages ih =>
    rw [List.foldlM_cons]
    apply inBounds_bind
    · exact inBounds_loadAttribs h logPages attribs page
    · exact fun attribs _ => ih attribs

/-- **The commands stay in the buffer** where the loops over the pages they get do. -/
theorem commands_in_bounds (hasLogPageInfoExcept : Bool) (logPages : List Byte) :
    (scsiIdentify answers).InBounds ∧ (scsiIdentifyEnclosure answers).InBounds ∧
      (scsiSmartStatus answers hasLogPageInfoExcept).InBounds ∧
      (scsiSmartAttribs answers logPages).InBounds :=
  ⟨inBounds_scsiIdentify h, inBounds_scsiIdentifyEnclosure h,
    inBounds_scsiSmartStatus h hasLogPageInfoExcept, inBounds_scsiSmartAttribs h logPages⟩

end commands

end Drive
