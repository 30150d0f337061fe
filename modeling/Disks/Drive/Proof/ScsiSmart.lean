import Disks.Drive.Proof.LogParameters

/-!
# The SMART attributes of SCSI drives

What `CMD_SMART_ATTRIBS` stores for log pages that hold parameters.

* `attribLoop_eq`: what a loop adds to the table.
* `toNat_minutes`: the background scan value, four bytes with a sign.
* `scsiSmartAttribs_ok_iff`: **what the command answers**.
-/

namespace Drive

open Bytes Loop

/-! ## What is due -/

/-- The pages of which parameter 0 is listed. -/
def singlePages : List Byte :=
  [SCSI_LOG_SENCE_PAGE_TEMPERATURE, SCSI_LOG_SENCE_PAGE_BACKGROUND_SCAN,
    SCSI_LOG_SENCE_PAGE_FACTORY_LOG]

/-- The parameter 0 that is found. -/
def zeroOf (ps : List Parameter) : Option Parameter := ps.find? fun p => p.code = 0

/-- The parameters of a page that are listed. -/
def due (page : Byte) (ps : List Parameter) : List Parameter :=
  if singlePages.contains page then (zeroOf ps).toList else ps

/-- A parameter as an attribute. -/
def attribOf (page : Byte) (p : Parameter) : SmartAttribScsi :=
  ⟨page, BitVec.ofNat 8 p.code.toNat, numberOf p.payload⟩

/-- Where the value of the first parameter 0 begins. -/
def zeroStart (offset : Nat) (ps : List Parameter) : Nat :=
  offset + ((ps.takeWhile fun p => p.code ≠ 0).flatMap Parameter.bytes).length + 4

/-! ## The loops -/

/-- What is left of a table with room: the table, or an error. -/
def stored (attribs new : List SmartAttribScsi) : Option (List SmartAttribScsi) :=
  if attribs.length + new.length < MAX_SCSI_ATTRIBS then some (attribs ++ new) else none

/-- The loop over an error counter page. -/
theorem counters_eq {tdata : Page} {offset : Nat} {ps : List Parameter} (page : Byte)
    {attribs : List SmartAttribScsi} (h : Placed tdata offset ps)
    (hroom : attribs.length < MAX_SCSI_ATTRIBS) :
    walkList (counterTurn tdata page) some (headers offset ps) attribs =
      some (stored attribs (ps.map (attribOf page))) := by
  unfold stored
  induction ps generalizing offset attribs with
  | nil =>
    rw [List.map_nil, List.length_nil, Nat.add_zero, if_pos hroom, List.append_nil]
    rfl
  | cons p ps ih =>
    have hfits := h.fits
    rw [length_flatMap_cons] at hfits
    have hheader : (headerOf offset p).data ≤ 512 := by
      change offset + 4 ≤ 512
      omega
    rw [headers, walkList, if_pos hheader, counterTurn, parse_headerOf h,
      Option.bind_eq_bind, Option.bind_some, store, List.length_map, List.length_cons]
    by_cases hfull : attribs.length + 1 ≥ MAX_SCSI_ATTRIBS
    · rw [if_pos hfull, if_neg (by omega)]
      rfl
    · rw [if_neg hfull]
      simp only [Option.bind_some]
      rw [ih h.tail (by rw [List.length_append, List.length_singleton]; omega)]
      rw [List.length_append, List.length_singleton, List.length_map, List.append_assoc,
        Nat.add_assoc, Nat.add_comm 1]
      rfl

/-- A loop that looks for parameter 0. -/
theorem single_eq {tdata : Page} {offset : Nat} {ps : List Parameter} (page : Byte)
    (read : ScsiField → Option U64) {attribs : List SmartAttribScsi}
    (h : Placed tdata offset ps) :
    walkList (singleTurn read page) some (headers offset ps) attribs =
      (zeroOf ps).elim (some (some attribs)) fun p =>
        (read (headerOf (zeroStart offset ps - 4) p)).map fun value =>
          store attribs page p.code.toNat value := by
  unfold zeroOf zeroStart
  induction ps generalizing offset with
  | nil => rfl
  | cons p ps ih =>
    have hfits := h.fits
    rw [length_flatMap_cons] at hfits
    have hheader : (headerOf offset p).data ≤ 512 := by
      change offset + 4 ≤ 512
      omega
    rw [headers, walkList, if_pos hheader, singleTurn, List.takeWhile_cons, List.find?_cons]
    by_cases hcode : p.code = 0
    · have hzero : (headerOf offset p).code = 0 := by
        change p.code.toNat = 0
        rw [hcode]
        rfl
      rw [if_pos hzero]
      simp only [hcode, decide_true, ne_eq, not_true_eq_false, decide_false, Bool.false_eq_true,
        if_false, List.flatMap_nil, List.length_nil, Nat.add_zero, Nat.add_sub_cancel,
        Option.elim_some]
      cases read (headerOf offset p) with
      | none => rfl
      | some value =>
        change some (store attribs page p.code.toNat value) = _
        rw [hcode]
        rfl
    · have hzero : (headerOf offset p).code ≠ 0 := by
        intro h0
        apply hcode
        exact BitVec.eq_of_toNat_eq h0
      rw [if_neg hzero, Option.bind_some]
      simp only [hcode, decide_false, ne_eq, not_false_eq_true, decide_true, if_true]
      rw [ih h.tail, length_flatMap_cons]
      rw [show offset + 4 + p.payload.length = offset + (4 + p.payload.length) by omega,
        Nat.add_assoc offset]

/-! ## The background scan -/

/-- Four bytes with a sign, made 64 bits wide. -/
def minutesOf (n : Nat) : Nat := if n < 2 ^ 31 then n else n + (2 ^ 64 - 2 ^ 32)

/-- **The background scan value**: four bytes of the buffer with a sign. -/
theorem powerOnMinutes_iff (tdata : Page) (f : ScsiField) (v : U64) :
    powerOnMinutes tdata f = some v ↔
      f.data + 4 ≤ 512 ∧ v.toNat = minutesOf (be (slice tdata.toList f.data 4)) := by
  by_cases hfits : f.data + 4 ≤ 512
  swap
  · have hlast : tdata.at? (f.data + 3) = none := by rw [at?_eq, if_neg (by omega)]
    refine iff_of_false (fun h => ?_) fun h => hfits h.1
    unfold powerOnMinutes at h
    rw [hlast] at h
    cases hb0 : tdata.at? f.data <;> cases hb1 : tdata.at? (f.data + 1) <;>
      cases hb2 : tdata.at? (f.data + 2) <;> simp [hb0, hb1, hb2] at h
  have hsize : tdata.toList.length = 512 := Vector.length_toList
  unfold powerOnMinutes
  rw [at?_of_lt tdata (by omega), at?_of_lt tdata (by omega), at?_of_lt tdata (by omega),
    at?_of_lt tdata (by omega), slice_succ (by omega), slice_succ (by omega),
    slice_succ (by omega), slice_succ (by omega)]
  have hnil : slice tdata.toList f.data 0 = [] := rfl
  rw [hnil, Nat.add_zero, be_append, be_append, be_append, List.nil_append, be_singleton,
    be_singleton, be_singleton, be_singleton]
  simp only [Option.bind_eq_bind, Option.bind_some, Option.some.injEq, List.length_singleton,
    Nat.pow_one, hfits, true_and]
  generalize tdata.toList.getD f.data 0 = b0
  generalize tdata.toList.getD (f.data + 1) 0 = b1
  generalize tdata.toList.getD (f.data + 2) 0 = b2
  generalize tdata.toList.getD (f.data + 3) 0 = b3
  have h0 := b0.isLt
  have h1 := b1.isLt
  have h2 := b2.isLt
  have h3 := b3.isLt
  let minutes : U32 := (b0.setWidth 32 <<< 24) + (b1.setWidth 32 <<< 16) +
    (b2.setWidth 32 <<< 8) + b3.setWidth 32
  have hminutes : minutes.toNat =
      ((b0.toNat * 256 + b1.toNat) * 256 + b2.toNat) * 256 + b3.toNat := by
    simp only [minutes, BitVec.toNat_add, BitVec.toNat_shiftLeft, BitVec.toNat_setWidth,
      Nat.shiftLeft_eq]
    omega
  have hsign : (minutes.signExtend 64).toNat = minutesOf minutes.toNat := by
    have hlt := minutes.isLt
    rw [BitVec.toNat_signExtend, BitVec.toNat_setWidth_of_le (by decide), BitVec.msb_eq_decide,
      minutesOf]
    by_cases hneg : minutes.toNat < 2 ^ 31
    · rw [if_pos hneg, if_neg (by simpa using hneg), Nat.add_zero]
    · rw [if_neg hneg, if_pos (by simpa using hneg)]
  rw [← hminutes, ← hsign]
  exact ⟨fun h => by rw [← h], fun h => (BitVec.eq_of_toNat_eq h).symm⟩

/-! ## A page -/

/-- What a loop adds to the table; `none` if its value is not in the buffer. -/
def contribution (tdata : Page) (page : Byte) (ps : List Parameter) :
    Option (List SmartAttribScsi) :=
  if page = SCSI_LOG_SENCE_PAGE_BACKGROUND_SCAN then
    (zeroOf ps).elim (some []) fun p =>
      (powerOnMinutes tdata (headerOf (zeroStart 4 ps - 4) p)).map fun value =>
        [⟨page, BitVec.ofNat 8 p.code.toNat, value⟩]
  else some ((due page ps).map (attribOf page))

theorem store_eq (attribs : List SmartAttribScsi) (page : Byte) (code : Nat) (value : U64) :
    store attribs page code value = stored attribs [⟨page, BitVec.ofNat 8 code, value⟩] := by
  unfold store stored
  rw [List.length_singleton]
  by_cases hfull : attribs.length + 1 ≥ MAX_SCSI_ATTRIBS
  · rw [if_pos hfull, if_neg (by omega)]
  · rw [if_neg hfull, if_pos (by omega)]

theorem stored_nil {attribs : List SmartAttribScsi} (hroom : attribs.length < MAX_SCSI_ATTRIBS) :
    stored attribs [] = some attribs := by
  unfold stored
  rw [List.length_nil, Nat.add_zero, if_pos hroom, List.append_nil]

/-- The parameter 0 that is found, in its place. -/
theorem placed_zero {tdata : Page} {offset : Nat} {ps : List Parameter} {p : Parameter}
    (h : Placed tdata offset ps) (hp : zeroOf ps = some p) :
    ∃ rest, Placed tdata (zeroStart offset ps - 4) (p :: rest) := by
  unfold zeroOf at hp
  unfold zeroStart
  rw [Nat.add_sub_cancel]
  induction ps generalizing offset with
  | nil => cases hp
  | cons q ps ih =>
    by_cases hcode : q.code = 0
    · rw [List.find?_cons_of_pos (by simpa using hcode)] at hp
      cases hp
      rw [List.takeWhile_cons_of_neg (by simpa using hcode)]
      exact ⟨ps, h⟩
    · rw [List.find?_cons_of_neg (by simpa using hcode)] at hp
      obtain ⟨rest, hrest⟩ := ih h.tail hp
      refine ⟨rest, ?_⟩
      rw [List.takeWhile_cons_of_pos (by simpa using hcode), length_flatMap_cons, ← Nat.add_assoc,
        ← Nat.add_assoc]
      exact hrest

theorem headerOf_zero (ps : List Parameter) (p : Parameter) :
    (headerOf (zeroStart 4 ps - 4) p).data = zeroStart 4 ps := by
  change zeroStart 4 ps - 4 + 4 = _
  rw [zeroStart]
  omega

/-- **What a loop adds to the table.** -/
theorem attribLoop_eq {tdata : Page} {ps : List Parameter} (h : LogPage tdata ps) {page : Byte}
    {attribs : List SmartAttribScsi} (hroom : attribs.length < MAX_SCSI_ATTRIBS) :
    attribLoop tdata page attribs = (contribution tdata page (seen ps)).map (stored attribs) := by
  have hplaced := h.placed
  have hfields := fields_eq h
  rw [fields] at hfields
  unfold attribLoop contribution due
  rw [walk_eq, walk_eq, walk_eq, hfields]
  generalize seen ps = qs at hplaced
  rw [single_eq page _ hplaced, single_eq page _ hplaced, counters_eq page hplaced hroom]
  by_cases hbackground : page = SCSI_LOG_SENCE_PAGE_BACKGROUND_SCAN
  · have hother : ¬ (page = SCSI_LOG_SENCE_PAGE_TEMPERATURE ∨
        page = SCSI_LOG_SENCE_PAGE_FACTORY_LOG) := by
      rw [hbackground]
      decide
    rw [if_neg hother, if_pos hbackground, if_pos hbackground]
    cases zeroOf qs with
    | none =>
      change some (some attribs) = some (stored attribs [])
      rw [stored_nil hroom]
    | some p =>
      simp only [Option.elim_some, Option.map_map, store_eq]
      rfl
  rw [if_neg hbackground, if_neg hbackground]
  by_cases hsingle : page = SCSI_LOG_SENCE_PAGE_TEMPERATURE ∨
      page = SCSI_LOG_SENCE_PAGE_FACTORY_LOG
  · have hmem : singlePages.contains page = true := by
      rcases hsingle with rfl | rfl
      · rfl
      · rfl
    rw [if_pos hsingle, if_pos hmem]
    cases hzero : zeroOf qs with
    | none =>
      change some (some attribs) = some (stored attribs [])
      rw [stored_nil hroom]
    | some p =>
      obtain ⟨rest, hrest⟩ := placed_zero hplaced hzero
      simp only [Option.elim_some, parse_headerOf hrest]
      rw [Option.map_some, store_eq]
      rfl
  · have hmem : singlePages.contains page ≠ true := by
      intro hmem
      have hcases : page ∈ singlePages := List.contains_iff_mem.mp hmem
      unfold singlePages at hcases
      simp only [List.mem_cons, List.not_mem_nil, or_false] at hcases
      rcases hcases with h | h | h
      · exact hsingle (.inl h)
      · exact hbackground h
      · exact hsingle (.inr h)
    rw [if_neg hsingle, if_neg hmem]
    rfl

/-! ## The command -/

/-- The log pages of a drive, and what they hold: up to eight bytes for each value that is due. -/
structure Logs (answers : Answers) (logPages : List Byte) (log : Byte → Page)
    (params : Byte → List Parameter) : Prop where
  answer : ∀ page ∈ attribPages, logPages.contains page = true →
    answers .scsiLogPage [page.setWidth 64] = .ok (log page)
  holds : ∀ page ∈ attribPages, logPages.contains page = true → LogPage (log page) (params page)
  short : ∀ page ∈ attribPages, logPages.contains page = true →
    ∀ p ∈ due page (params page), p.payload.length ≤ 8

/-- What a page of a drive adds to the table. -/
def pageAdds (logPages : List Byte) (log : Byte → Page) (params : Byte → List Parameter)
    (page : Byte) : Option (List SmartAttribScsi) :=
  if logPages.contains page then contribution (log page) page (seen (params page)) else some []

theorem loadAttribs_ok_iff {answers : Answers} {logPages : List Byte} {log : Byte → Page}
    {params : Byte → List Parameter} (h : Logs answers logPages log params) {page : Byte}
    (hpage : page ∈ attribPages) {attribs out : List SmartAttribScsi}
    (hroom : attribs.length < MAX_SCSI_ATTRIBS) :
    answers.asks.loadAttribs logPages attribs page = some (.ok out) ↔
      ∃ new, pageAdds logPages log params page = some new ∧ stored attribs new = some out := by
  unfold Asks.loadAttribs pageAdds
  by_cases hhas : logPages.contains page = true
  swap
  · rw [if_neg hhas, if_neg hhas]
    refine ⟨fun hok => ⟨[], rfl, ?_⟩, fun ⟨new, hnew, hok⟩ => ?_⟩
    · cases hok
      exact stored_nil hroom
    · cases hnew
      rw [stored_nil hroom] at hok
      cases hok
      rfl
  rw [if_pos hhas, if_pos hhas, Reading.bind_ok]
  simp only [Answers.ask_ok, h.answer page hpage hhas, Except.ok.injEq, exists_eq_left',
    attribLoop_eq (h.holds page hpage hhas) hroom]
  rw [Reading.bind_ok]
  simp only [Reading.lift_ok, Option.map_eq_some_iff]
  refine ⟨?_, ?_⟩
  · rintro ⟨_, ⟨new, hnew, rfl⟩, hok⟩
    refine ⟨new, hnew, ?_⟩
    cases hstored : stored attribs new with
    | none => simp [hstored] at hok; cases hok
    | some table =>
      simp only [hstored] at hok
      cases hok
      rfl
  · rintro ⟨new, hnew, hstored⟩
    refine ⟨_, ⟨new, hnew, rfl⟩, ?_⟩
    rw [hstored]
    rfl

theorem stored_append (attribs new rest : List SmartAttribScsi) :
    stored attribs (new ++ rest) = (stored attribs new).bind fun table => stored table rest := by
  unfold stored
  rw [List.length_append]
  by_cases hnew : attribs.length + new.length < MAX_SCSI_ATTRIBS
  · rw [if_pos hnew, Option.bind_some, List.length_append, Nat.add_assoc, List.append_assoc]
  · rw [if_neg hnew, if_neg (by omega)]
    rfl

theorem stored_some {attribs new table : List SmartAttribScsi}
    (h : stored attribs new = some table) :
    table = attribs ++ new ∧ table.length < MAX_SCSI_ATTRIBS := by
  unfold stored at h
  split at h
  · cases h
    refine ⟨rfl, ?_⟩
    rwa [List.length_append]
  · cases h

/-- The loop over the pages. -/
theorem foldlM_loadAttribs {answers : Answers} {logPages : List Byte} {log : Byte → Page}
    {params : Byte → List Parameter} (h : Logs answers logPages log params) {pages : List Byte}
    (hpages : ∀ page ∈ pages, page ∈ attribPages) {attribs out : List SmartAttribScsi}
    (hroom : attribs.length < MAX_SCSI_ATTRIBS) :
    pages.foldlM (answers.asks.loadAttribs logPages) attribs = some (.ok out) ↔
      ∃ news, List.Forall₂ (fun page new => pageAdds logPages log params page = some new)
        pages news ∧ stored attribs news.flatten = some out := by
  induction pages generalizing attribs with
  | nil =>
    refine ⟨fun hok => ⟨[], .nil, ?_⟩, ?_⟩
    · cases hok
      exact stored_nil hroom
    · rintro ⟨_, ⟨⟩, hok⟩
      rw [List.flatten_nil, stored_nil hroom] at hok
      cases hok
      rfl
  | cons page pages ih =>
    rw [List.forall_mem_cons] at hpages
    rw [List.foldlM_cons, Reading.bind_ok]
    refine ⟨?_, ?_⟩
    · rintro ⟨table, hload, hrest⟩
      obtain ⟨new, hnew, htable⟩ := (loadAttribs_ok_iff h hpages.1 hroom).mp hload
      obtain ⟨news, hnews, hout⟩ := (ih hpages.2 (stored_some htable).2).mp hrest
      refine ⟨new :: news, .cons hnew hnews, ?_⟩
      rw [List.flatten_cons, stored_append, htable]
      exact hout
    · rintro ⟨all, hall, hout⟩
      cases hall with
      | cons hnew hnews =>
        rw [List.flatten_cons, stored_append] at hout
        obtain ⟨table, htable, hout⟩ := Option.bind_eq_some_iff.mp hout
        refine ⟨table, (loadAttribs_ok_iff h hpages.1 hroom).mpr ⟨_, hnew, htable⟩, ?_⟩
        exact (ih hpages.2 (stored_some htable).2).mpr ⟨_, hnews, hout⟩

/-- **What the command answers**: what the pages add, if there is room. -/
theorem scsiSmartAttribs_ok_iff {answers : Answers} {logPages : List Byte} {log : Byte → Page}
    {params : Byte → List Parameter} (h : Logs answers logPages log params)
    {out : List SmartAttribScsi} :
    scsiSmartAttribs answers logPages = some (.ok out) ↔
      ∃ news, List.Forall₂ (fun page new => pageAdds logPages log params page = some new)
        attribPages news ∧ out = news.flatten ∧ out.length < MAX_SCSI_ATTRIBS := by
  rw [scsiSmartAttribs, Asks.scsiSmartAttribs,
    foldlM_loadAttribs h (fun page hpage => hpage) (by decide)]
  refine exists_congr fun news => and_congr_right fun _ => ?_
  refine ⟨fun hout => stored_some hout, ?_⟩
  rintro ⟨rfl, hlen⟩
  rw [stored, List.length_nil, Nat.zero_add, if_pos hlen, List.nil_append]

end Drive
