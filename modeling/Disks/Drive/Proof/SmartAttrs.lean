import Disks.Drive.Proof.ScsiSmart
import Disks.Drive.SmartAttrs

/-!
# SMART attributes that are complete and have their own names

The log pages of a SCSI drive, and what `CMD_SMART_ATTRIBS` and `Drive.smartAttrs` make of them.

* `contribution_of_right`, `right_of_contribution`: when a page is listed as it should be.
* `attrName_inj`: a name is the codes that are stored, one byte each.
* `scsi_attribs_faithful_iff`: **the attributes are complete and faithful exactly when** none of
  the four flaws is met.
-/

namespace Drive

open Bytes

/-! ## Pages that are listed as they should be -/

/-- An empty parameter at the end of a page is not one that is listed. -/
def EndSeen (page : Byte) (ps : List Parameter) : Prop :=
  ∀ front p, ps = front ++ [p] → p.payload = [] →
    singlePages.contains page = true ∧ (p.code ≠ 0 ∨ ∃ q ∈ front, q.code = 0)

/-- The four bytes at the value of the background scan parameter are its value, and not negative;
or its value is eight times 0xff. -/
def MinutesRead (tdata : Page) (ps : List Parameter) : Prop :=
  ∀ p, zeroOf ps = some p → zeroStart 4 ps + 4 ≤ 512 ∧
    (be (slice tdata.toList (zeroStart 4 ps) 4) < 2 ^ 31 ∧
        be (slice tdata.toList (zeroStart 4 ps) 4) = be p.payload ∨
      p.payload = List.replicate 8 0xff)

theorem seen_append (front : List Parameter) (p : Parameter) :
    seen (front ++ [p]) = if p.payload = [] then front else front ++ [p] := by
  induction front with
  | nil => rfl
  | cons q front ih =>
    have hcons : seen (q :: (front ++ [p])) = q :: seen (front ++ [p]) := by
      cases front with
      | nil => rfl
      | cons r front => rfl
    rw [List.cons_append, hcons, ih]
    split
    · rfl
    · rfl

theorem zeroOf_append (front : List Parameter) (p : Parameter) :
    zeroOf (front ++ [p]) = (zeroOf front).or (if p.code = 0 then some p else none) := by
  unfold zeroOf
  rw [List.find?_append, List.find?_singleton]
  by_cases hcode : p.code = 0
  · rw [if_pos hcode, if_pos (by simpa using hcode)]
  · rw [if_neg hcode, if_neg (by simpa using hcode)]

theorem zeroOf_isSome_iff (ps : List Parameter) : (zeroOf ps).isSome ↔ ∃ q ∈ ps, q.code = 0 := by
  unfold zeroOf
  rw [List.find?_isSome]
  simp only [decide_eq_true_eq]

/-- **What is listed is what is due** when nothing due is lost at the end. -/
theorem due_seen_iff (page : Byte) (ps : List Parameter) :
    (due page (seen ps)).length = (due page ps).length ↔ EndSeen page ps := by
  rcases List.eq_nil_or_concat ps with rfl | ⟨front, p, hps⟩
  · refine iff_of_true rfl fun front p h => ?_
    cases (List.append_ne_nil_of_right_ne_nil front (List.cons_ne_nil p [])) h.symm
  rw [List.concat_eq_append] at hps
  have hend : EndSeen page ps ↔ (p.payload = [] →
      singlePages.contains page = true ∧ (p.code ≠ 0 ∨ ∃ q ∈ front, q.code = 0)) := by
    refine ⟨fun h => h front p hps, fun h front' p' hps' => ?_⟩
    obtain ⟨rfl, hp⟩ := List.append_inj' (hps.symm.trans hps') rfl
    cases hp
    exact h
  rw [hend, hps, seen_append]
  by_cases hempty : p.payload = []
  swap
  · rw [if_neg hempty]
    exact iff_of_true rfl fun h => absurd h hempty
  rw [if_pos hempty]
  unfold due
  by_cases hsingle : singlePages.contains page = true
  swap
  · rw [if_neg hsingle, if_neg hsingle, List.length_append, List.length_singleton]
    exact iff_of_false (by omega) fun h => hsingle (h hempty).1
  rw [if_pos hsingle, if_pos hsingle, zeroOf_append, ← zeroOf_isSome_iff]
  cases zeroOf front with
  | some q => exact iff_of_true rfl fun _ => ⟨hsingle, .inr rfl⟩
  | none =>
    by_cases hcode : p.code = 0
    · rw [if_pos hcode]
      refine iff_of_false Nat.zero_ne_one fun h => ?_
      rcases (h hempty).2 with hne | hsome
      · exact hne hcode
      · cases hsome
    · rw [if_neg hcode]
      exact iff_of_true rfl fun _ => ⟨hsingle, .inl hcode⟩

/-- What is seen is the beginning of what is due. -/
theorem prefix_due {page : Byte} {ps qs : List Parameter} (h : qs <+: ps) :
    due page qs <+: due page ps := by
  unfold due
  split
  · obtain ⟨rest, rfl⟩ := h
    have happend : zeroOf (qs ++ rest) = (zeroOf qs).or (zeroOf rest) := List.find?_append
    rw [happend]
    cases zeroOf qs with
    | none => exact List.nil_prefix
    | some q => exact List.prefix_rfl
  · exact h

theorem due_seen_of_end {page : Byte} {ps : List Parameter} (h : EndSeen page ps) :
    due page (seen ps) = due page ps :=
  (prefix_due (prefix_seen ps)).eq_of_length ((due_seen_iff page ps).mpr h)

/-- The offset of a parameter 0 that is seen. -/
theorem zeroStart_front {ps qs : List Parameter} (h : qs <+: ps) (hzero : (zeroOf qs).isSome)
    (offset : Nat) : zeroStart offset qs = zeroStart offset ps := by
  obtain ⟨rest, rfl⟩ := h
  unfold zeroOf at hzero
  unfold zeroStart
  congr 4
  induction qs with
  | nil => cases hzero
  | cons q qs ih =>
    rw [List.cons_append]
    by_cases hcode : q.code = 0
    · rw [List.takeWhile_cons_of_neg (by simpa using hcode),
        List.takeWhile_cons_of_neg (by simpa using hcode)]
    · rw [List.find?_cons_of_neg (by simpa using hcode)] at hzero
      rw [List.takeWhile_cons_of_pos (by simpa using hcode),
        List.takeWhile_cons_of_pos (by simpa using hcode), ih hzero]

theorem be_inj {bs cs : List Byte} (hl : bs.length = cs.length) (h : be bs = be cs) : bs = cs := by
  apply List.reverse_inj.mp
  apply le_inj
  · rw [List.length_reverse, List.length_reverse, hl]
  · exact h

/-- Four bytes with a sign are a value of up to eight bytes that begins with them. -/
theorem minutesOf_iff {w payload : List Byte} (hw : w.length = 4) (hlen : payload.length ≤ 8)
    (hfront : 4 ≤ payload.length → payload.take 4 = w) :
    minutesOf (be w) = be payload ↔
      be w < 2 ^ 31 ∧ be w = be payload ∨ payload = List.replicate 8 0xff := by
  have hwlt : be w < 256 ^ 4 := hw ▸ be_lt w
  have hall : be (List.replicate 8 (0xff : Byte)) = 2 ^ 64 - 1 := by decide
  have hfour : be (List.replicate 4 (0xff : Byte)) = 2 ^ 32 - 1 := by decide
  refine ⟨fun h => ?_, ?_⟩
  · unfold minutesOf at h
    by_cases hneg : be w < 2 ^ 31
    · rw [if_pos hneg] at h
      exact .inl ⟨hneg, h⟩
    rw [if_neg hneg] at h
    have height : payload.length = 8 := by
      by_contra hne
      have hshort : be payload < 256 ^ 7 :=
        (be_lt payload).trans_le (Nat.pow_le_pow_right (by decide) (by omega))
      omega
    obtain ⟨rest, hrest, hsplit⟩ : ∃ rest : List Byte, rest.length = 4 ∧ payload = w ++ rest := by
      refine ⟨payload.drop 4, ?_, ?_⟩
      · rw [List.length_drop]
        omega
      · rw [← hfront (by omega), List.take_append_drop]
    have hrestlt : be rest < 256 ^ 4 := hrest ▸ be_lt rest
    have hbe : be payload = be w * 256 ^ 4 + be rest := by
      rw [hsplit, be_append, hrest]
    right
    apply be_inj
    · rw [height]
      rfl
    · rw [hall]
      omega
  · rintro (⟨hpos, heq⟩ | hpayload)
    · rw [minutesOf, if_pos hpos, heq]
    · have hwall : w = List.replicate 4 0xff := by
        rw [← hfront (by rw [hpayload]; decide), hpayload]
        rfl
      rw [hpayload, hwall, hall, hfour]
      rfl

/-- A page is listed as it should be. -/
def PageRight (tdata : Page) (page : Byte) (ps : List Parameter) : Prop :=
  EndSeen page ps ∧ (page = SCSI_LOG_SENCE_PAGE_BACKGROUND_SCAN → MinutesRead tdata ps)

/-- The four bytes at the background scan value, and the value. -/
theorem minutesOf_zero {tdata : Page} {ps : List Parameter} (h : LogPage tdata ps)
    {p : Parameter} (hp : zeroOf (seen ps) = some p) (hlen : p.payload.length ≤ 8)
    (hfits : zeroStart 4 ps + 4 ≤ 512) :
    minutesOf (be (slice tdata.toList (zeroStart 4 ps) 4)) = be p.payload ↔
      be (slice tdata.toList (zeroStart 4 ps) 4) < 2 ^ 31 ∧
          be (slice tdata.toList (zeroStart 4 ps) 4) = be p.payload ∨
        p.payload = List.replicate 8 0xff := by
  have hstart := zeroStart_front (prefix_seen ps) (Option.isSome_of_eq_some hp) 4
  obtain ⟨rest, hplaced⟩ := placed_zero h.placed hp
  have hholds := hplaced.holds
  rw [length_flatMap_cons, List.flatMap_cons] at hholds
  have hslice := (slice_cons hholds).1
  rw [show zeroStart 4 (seen ps) - 4 + 4 = zeroStart 4 (seen ps) from headerOf_zero _ p,
    hstart] at hslice
  apply minutesOf_iff (length_slice_of_le tdata hfits) hlen
  intro hfour
  have htake := congrArg (List.take 4) hslice
  rw [slice, List.take_take, Nat.min_eq_left hfour] at htake
  exact htake.symm

theorem singlePages_background :
    singlePages.contains SCSI_LOG_SENCE_PAGE_BACKGROUND_SCAN = true := by
  decide

theorem zeroOf_seen {page : Byte} {ps : List Parameter} (hsingle : singlePages.contains page = true)
    (hend : EndSeen page ps) : zeroOf (seen ps) = zeroOf ps := by
  have hdue := due_seen_of_end hend
  unfold due at hdue
  rw [if_pos hsingle, if_pos hsingle] at hdue
  apply Option.ext
  intro p
  rw [← Option.mem_toList, ← Option.mem_toList, hdue]

/-- Where a page is right, the table gets what is due. -/
theorem contribution_of_right {tdata : Page} {page : Byte} {ps : List Parameter}
    (h : LogPage tdata ps) (hshort : ∀ p ∈ due page ps, p.payload.length ≤ 8)
    (hright : PageRight tdata page ps) :
    contribution tdata page (seen ps) = some ((due page ps).map (attribOf page)) := by
  unfold contribution
  by_cases hbackground : page = SCSI_LOG_SENCE_PAGE_BACKGROUND_SCAN
  swap
  · rw [if_neg hbackground, due_seen_of_end hright.1]
  have hsingle : singlePages.contains page = true := hbackground ▸ singlePages_background
  have hzero := zeroOf_seen hsingle hright.1
  rw [if_pos hbackground]
  unfold due at hshort ⊢
  rw [if_pos hsingle] at hshort ⊢
  cases hfound : zeroOf ps with
  | none =>
    rw [hzero, hfound]
    rfl
  | some p =>
    rw [hfound] at hzero hshort
    have hlen : p.payload.length ≤ 8 := hshort p (List.mem_singleton_self p)
    obtain ⟨hfits, hvalue⟩ := hright.2 hbackground p hfound
    have hstart := zeroStart_front (prefix_seen ps) (Option.isSome_of_eq_some hzero) 4
    have hread : powerOnMinutes tdata (headerOf (zeroStart 4 (seen ps) - 4) p) =
        some (numberOf p.payload) := by
      apply (powerOnMinutes_iff tdata _ _).mpr
      rw [headerOf_zero, hstart, toNat_numberOf_of_le hlen]
      exact ⟨hfits, ((minutesOf_zero h hzero hlen hfits).mpr hvalue).symm⟩
    rw [hzero, Option.elim_some, hread]
    rfl

theorem length_contribution {tdata : Page} {page : Byte} {ps : List Parameter}
    {new : List SmartAttribScsi} (h : contribution tdata page ps = some new) :
    new.length = (due page ps).length := by
  unfold contribution at h
  by_cases hbackground : page = SCSI_LOG_SENCE_PAGE_BACKGROUND_SCAN
  swap
  · rw [if_neg hbackground] at h
    cases h
    exact List.length_map ..
  have hsingle : singlePages.contains page = true := hbackground ▸ singlePages_background
  rw [if_pos hbackground] at h
  unfold due
  rw [if_pos hsingle]
  cases hzero : zeroOf ps with
  | none =>
    rw [hzero] at h
    cases h
    rfl
  | some p =>
    rw [hzero, Option.elim_some] at h
    obtain ⟨value, -, rfl⟩ := Option.map_eq_some_iff.mp h
    rfl

/-- Where the table gets the values that are due, the page is right. -/
theorem right_of_contribution {tdata : Page} {page : Byte} {ps : List Parameter}
    (h : LogPage tdata ps) (hshort : ∀ p ∈ due page ps, p.payload.length ≤ 8)
    {new : List SmartAttribScsi} (hnew : contribution tdata page (seen ps) = some new)
    (hvalues : new.map (fun a => (a.page_code, a.value.toNat)) =
      (due page ps).map fun p => (page, be p.payload)) : PageRight tdata page ps := by
  have hlen := congrArg List.length hvalues
  rw [List.length_map, List.length_map, length_contribution hnew] at hlen
  have hend : EndSeen page ps := (due_seen_iff page ps).mp hlen
  refine ⟨hend, fun hbackground p hfound => ?_⟩
  have hsingle : singlePages.contains page = true := hbackground ▸ singlePages_background
  have hzero := (zeroOf_seen hsingle hend).trans hfound
  unfold contribution at hnew
  rw [if_pos hbackground, hzero, Option.elim_some] at hnew
  obtain ⟨value, hread, rfl⟩ := Option.map_eq_some_iff.mp hnew
  unfold due at hshort hvalues
  rw [if_pos hsingle, hfound] at hshort hvalues
  have hstart := zeroStart_front (prefix_seen ps) (Option.isSome_of_eq_some hzero) 4
  obtain ⟨hfits, hvalue⟩ := (powerOnMinutes_iff tdata _ _).mp hread
  rw [headerOf_zero, hstart] at hfits hvalue
  have heq : value.toNat = be p.payload := by simpa using hvalues
  have hshort := hshort p (List.mem_singleton_self p)
  exact ⟨hfits, (minutesOf_zero h hzero hshort hfits).mp (hvalue.symm.trans heq)⟩

/-! ## The command -/

/-- The parameters of a page that are due. -/
def dueOf (logPages : List Byte) (params : Byte → List Parameter) (page : Byte) :
    List Parameter :=
  if logPages.contains page then due page (params page) else []

/-- **The attributes that are due**, in log order. -/
def dueAttribs (logPages : List Byte) (params : Byte → List Parameter) :
    List (Byte × Parameter) :=
  attribPages.flatMap fun page => (dueOf logPages params page).map fun p => (page, p)

/-- Lists one after the other, each at most as long as it should be. -/
theorem flatten_eq_flatMap_iff {α β : Type} {g : α → List β} {xs : List α} {yss : List (List β)}
    (h : List.Forall₂ (fun x ys => ys.length ≤ (g x).length) xs yss) :
    yss.flatten = xs.flatMap g ↔ List.Forall₂ (fun x ys => ys = g x) xs yss := by
  have hle : ∀ {xs : List α} {yss : List (List β)},
      List.Forall₂ (fun x ys => ys.length ≤ (g x).length) xs yss →
        yss.flatten.length ≤ (xs.flatMap g).length := by
    intro xs yss h
    induction h with
    | nil => exact le_refl 0
    | cons hlen _ ih =>
      rw [List.flatten_cons, List.flatMap_cons, List.length_append, List.length_append]
      omega
  refine ⟨fun heq => ?_, fun heq => ?_⟩
  · induction h with
    | nil => exact .nil
    | @cons x ys xs yss hlen hrest ih =>
      rw [List.flatten_cons, List.flatMap_cons] at heq
      have hlens := congrArg List.length heq
      rw [List.length_append, List.length_append] at hlens
      have hless := hle hrest
      obtain ⟨hfirst, hothers⟩ := List.append_inj heq (by omega)
      exact .cons hfirst (ih hothers)
  · clear h
    induction heq with
    | nil => rfl
    | cons hfirst _ ih => rw [List.flatten_cons, List.flatMap_cons, hfirst, ih]

theorem exists_of_forall₂ {α β : Type} {R S : α → β → Prop} {xs : List α} {ys : List β}
    (hR : List.Forall₂ R xs ys) (hS : List.Forall₂ S xs ys) {x : α} (hx : x ∈ xs) :
    ∃ y, R x y ∧ S x y := by
  induction hR with
  | nil => cases hx
  | cons hxy _ ih =>
    cases hS with
    | cons hxy' hrest =>
      rcases List.mem_cons.mp hx with rfl | hx
      · exact ⟨_, hxy, hxy'⟩
      · exact ih hrest hx

section command

variable {answers : Answers} {logPages : List Byte} {log : Byte → Page}
  {params : Byte → List Parameter} (h : Logs answers logPages log params)

/-- Every page of the drive is right. -/
def PagesRight (logPages : List Byte) (log : Byte → Page) (params : Byte → List Parameter) :
    Prop :=
  ∀ page ∈ attribPages, logPages.contains page = true → PageRight (log page) page (params page)

include h

/-- Where the pages are right and there is room, the table is what is due. -/
theorem scsiSmartAttribs_of_right (hright : PagesRight logPages log params)
    (hroom : (dueAttribs logPages params).length < MAX_SCSI_ATTRIBS) :
    scsiSmartAttribs answers logPages =
      some (.ok ((dueAttribs logPages params).map fun d => attribOf d.1 d.2)) := by
  apply (scsiSmartAttribs_ok_iff h).mpr
  refine ⟨attribPages.map fun page => (dueOf logPages params page).map (attribOf page), ?_, ?_, ?_⟩
  · rw [List.forall₂_map_right_iff, List.forall₂_same]
    intro page hpage
    unfold pageAdds dueOf
    by_cases hhas : logPages.contains page = true
    · rw [if_pos hhas, if_pos hhas]
      apply contribution_of_right (h.holds page hpage hhas) (h.short page hpage hhas)
      exact hright page hpage hhas
    · rw [if_neg hhas, if_neg hhas]
      rfl
  · rw [dueAttribs, List.map_flatMap, ← List.flatMap_def]
    simp only [List.map_map]
    rfl
  · rwa [List.length_map]

/-- Where the table has the values that are due, the pages are right and there is room. -/
theorem right_of_scsiSmartAttribs {out : List SmartAttribScsi}
    (hout : scsiSmartAttribs answers logPages = some (.ok out))
    (hvalues : out.map (fun a => (a.page_code, a.value.toNat)) =
      (dueAttribs logPages params).map fun d => (d.1, be d.2.payload)) :
    PagesRight logPages log params ∧ (dueAttribs logPages params).length < MAX_SCSI_ATTRIBS := by
  obtain ⟨news, hnews, rfl, hroom⟩ := (scsiSmartAttribs_ok_iff h).mp hout
  have hlen := congrArg List.length hvalues
  rw [List.length_map, List.length_map] at hlen
  refine ⟨?_, hlen ▸ hroom⟩
  rw [dueAttribs, List.map_flatMap, List.map_flatten] at hvalues
  have hpages := (flatten_eq_flatMap_iff ?_).mp hvalues
  swap
  · rw [List.forall₂_map_right_iff]
    refine hnews.imp fun page new hnew => ?_
    rw [List.length_map, List.length_map, List.length_map]
    unfold pageAdds at hnew
    unfold dueOf
    split at hnew
    · rename_i hhas
      rw [if_pos hhas, length_contribution hnew]
      exact (prefix_due (prefix_seen _)).length_le
    · cases hnew
      exact Nat.zero_le _
  rw [List.forall₂_map_right_iff] at hpages
  intro page hpage hhas
  obtain ⟨new, hnew, hview⟩ := exists_of_forall₂ hnews hpages hpage
  rw [pageAdds, if_pos hhas] at hnew
  rw [List.map_map, dueOf, if_pos hhas] at hview
  exact right_of_contribution (h.holds page hpage hhas) (h.short page hpage hhas) hnew hview

end command

/-! ## The names -/

theorem decimal_inj {m n : Nat} (h : Manager.decimal m = Manager.decimal n) : m = n := by
  rw [← Nat.ofDigitChars_ten_toDigits (n := m), ← Nat.ofDigitChars_ten_toDigits (n := n)]
  exact congrArg (fun text => Nat.ofDigitChars 10 text 0) h

theorem dash_notMem_decimal (n : Nat) : '-' ∉ Manager.decimal n := by
  intro h
  have hdigit := Nat.isDigit_of_mem_toDigits (by decide) (by decide) h
  revert hdigit
  decide

/-- **A name** is the two codes that are stored. -/
theorem attrName_inj (a b : SmartAttribScsi) : attrName a = attrName b ↔
    a.page_code = b.page_code ∧ a.parm_code = b.parm_code := by
  unfold attrName
  rw [List.append_cons_inj_of_notMem (dash_notMem_decimal _) (dash_notMem_decimal _)]
  refine ⟨fun ⟨hpage, _, hparm⟩ => ?_, fun ⟨hpage, hparm⟩ => ?_⟩
  · exact ⟨BitVec.eq_of_toNat_eq (decimal_inj hpage), BitVec.eq_of_toNat_eq (decimal_inj hparm)⟩
  · rw [hpage, hparm]
    exact ⟨rfl, rfl, rfl⟩

/-- The keys of the dictionary are the names of the attributes. -/
theorem mem_keys_smartAttrs (attribs : List SmartAttribScsi) :
    ∃ d, smartAttrs (.scsi attribs) = .ok d ∧
      ∀ k, k ∈ Assoc.keys d ↔ ∃ a ∈ attribs, AttrKey.name (attrName a) = k := by
  refine ⟨_, rfl, fun k => ?_⟩
  rw [Assoc.mem_keys_ofPairs, List.map_map, List.mem_map]
  rfl

/-- **The attributes are those that are due**, in order, and parameters that differ in page or code
have different names. -/
structure AttribsFaithful (out : List SmartAttribScsi) (dues : List (Byte × Parameter)) :
    Prop where
  listed : out.map (fun a => (a.page_code, a.value.toNat)) =
    dues.map fun d => (d.1, be d.2.payload)
  named : ∀ x ∈ dues.zip out, ∀ y ∈ dues.zip out,
    (x.1.1, x.1.2.code) ≠ (y.1.1, y.1.2.code) → attrName x.2 ≠ attrName y.2

/-- None of the flaws is met: a full table, a parameter that is lost at the end of its page or read
as a signed number, and codes that differ only above their low byte. -/
structure NoFlaw (logPages : List Byte) (log : Byte → Page) (params : Byte → List Parameter) :
    Prop where
  room : (dueAttribs logPages params).length < MAX_SCSI_ATTRIBS
  pages : PagesRight logPages log params
  codes : ∀ page ∈ attribPages, ∀ p ∈ dueOf logPages params page,
    ∀ q ∈ dueOf logPages params page, p.code ≠ q.code →
      p.code.toNat % 256 ≠ q.code.toNat % 256

theorem mem_dueAttribs {logPages : List Byte} {params : Byte → List Parameter}
    {d : Byte × Parameter} : d ∈ dueAttribs logPages params ↔
      d.1 ∈ attribPages ∧ d.2 ∈ dueOf logPages params d.1 := by
  obtain ⟨page, p⟩ := d
  rw [dueAttribs, List.mem_flatMap]
  refine ⟨?_, fun ⟨hpage, hp⟩ => ⟨page, hpage, List.mem_map_of_mem hp⟩⟩
  rintro ⟨page', hpage, hd⟩
  obtain ⟨p', hp, heq⟩ := List.mem_map.mp hd
  cases heq
  exact ⟨hpage, hp⟩

theorem mem_zip_map {α β : Type} {f : α → β} {xs : List α} {x : α × β} :
    x ∈ xs.zip (xs.map f) ↔ x.1 ∈ xs ∧ x.2 = f x.1 := by
  obtain ⟨a, b⟩ := x
  induction xs with
  | nil => simp
  | cons y xs ih =>
    rw [List.map_cons, List.zip_cons_cons, List.mem_cons, ih, List.mem_cons, Prod.mk.injEq]
    refine ⟨?_, ?_⟩
    · rintro (⟨rfl, rfl⟩ | ⟨ha, hb⟩)
      · exact ⟨.inl rfl, rfl⟩
      · exact ⟨.inr ha, hb⟩
    · rintro ⟨rfl | ha, hb⟩
      · exact .inl ⟨rfl, hb⟩
      · exact .inr ⟨ha, hb⟩

/-- The names differ where the low bytes of the codes do. -/
theorem attrName_attribOf (d e : Byte × Parameter) :
    attrName (attribOf d.1 d.2) = attrName (attribOf e.1 e.2) ↔
      d.1 = e.1 ∧ d.2.code.toNat % 256 = e.2.code.toNat % 256 := by
  rw [attrName_inj]
  refine and_congr_right fun _ => ?_
  refine ⟨fun h => ?_, fun h => BitVec.eq_of_toNat_eq ?_⟩
  · have h := congrArg BitVec.toNat h
    rwa [attribOf, attribOf, BitVec.toNat_ofNat, BitVec.toNat_ofNat] at h
  · rwa [attribOf, attribOf, BitVec.toNat_ofNat, BitVec.toNat_ofNat]

theorem named_iff (logPages : List Byte) (params : Byte → List Parameter) :
    (∀ d ∈ dueAttribs logPages params, ∀ e ∈ dueAttribs logPages params,
      (d.1, d.2.code) ≠ (e.1, e.2.code) →
        attrName (attribOf d.1 d.2) ≠ attrName (attribOf e.1 e.2)) ↔
      ∀ page ∈ attribPages, ∀ p ∈ dueOf logPages params page,
        ∀ q ∈ dueOf logPages params page, p.code ≠ q.code →
          p.code.toNat % 256 ≠ q.code.toNat % 256 := by
  refine ⟨fun h page hpage p hp q hq hne heq => ?_, fun h d hd e he hne heq => ?_⟩
  · apply h (page, p) (mem_dueAttribs.mpr ⟨hpage, hp⟩) (page, q) (mem_dueAttribs.mpr ⟨hpage, hq⟩)
    · exact fun hcodes => hne (Prod.mk.inj hcodes).2
    · exact (attrName_attribOf _ _).mpr ⟨rfl, heq⟩
  · obtain ⟨hpage, hp⟩ := mem_dueAttribs.mp hd
    have hq := (mem_dueAttribs.mp he).2
    obtain ⟨hsame, hlow⟩ := (attrName_attribOf d e).mp heq
    rw [← hsame] at hq
    refine h d.1 hpage d.2 hp e.2 hq (fun hcode => hne ?_) hlow
    rw [hsame, hcode]

section command

variable {answers : Answers} {logPages : List Byte} {log : Byte → Page}
  {params : Byte → List Parameter} (h : Logs answers logPages log params)

include h

theorem noFlaw_of_faithful {out : List SmartAttribScsi}
    (hout : scsiSmartAttribs answers logPages = some (.ok out))
    (hfaithful : AttribsFaithful out (dueAttribs logPages params)) :
    NoFlaw logPages log params := by
  obtain ⟨hright, hroom⟩ := right_of_scsiSmartAttribs h hout hfaithful.listed
  rw [scsiSmartAttribs_of_right h hright hroom] at hout
  cases hout
  refine ⟨hroom, hright, (named_iff logPages params).mp fun d hd e he => ?_⟩
  exact hfaithful.named (d, _) (mem_zip_map.mpr ⟨hd, rfl⟩) (e, _) (mem_zip_map.mpr ⟨he, rfl⟩)

theorem faithful_of_noFlaw (hno : NoFlaw logPages log params) :
    ∃ out, scsiSmartAttribs answers logPages = some (.ok out) ∧
      AttribsFaithful out (dueAttribs logPages params) := by
  refine ⟨_, scsiSmartAttribs_of_right h hno.pages hno.room, ?_, ?_⟩
  · rw [List.map_map]
    apply List.map_congr_left
    intro d hd
    obtain ⟨hpage, hp⟩ := mem_dueAttribs.mp hd
    have hshort : d.2.payload.length ≤ 8 := by
      unfold dueOf at hp
      split at hp
      · rename_i hhas
        exact h.short d.1 hpage hhas d.2 hp
      · cases hp
    exact congrArg (Prod.mk d.1) (toNat_numberOf_of_le hshort)
  · intro x hx y hy hne
    obtain ⟨hd, hx⟩ := mem_zip_map.mp hx
    obtain ⟨he, hy⟩ := mem_zip_map.mp hy
    rw [hx, hy]
    exact (named_iff logPages params).mpr hno.codes _ hd _ he hne

/-- **When the SMART attributes of a SCSI drive are complete and faithful.** -/
theorem scsi_attribs_faithful_iff :
    (∃ out, scsiSmartAttribs answers logPages = some (.ok out) ∧
      AttribsFaithful out (dueAttribs logPages params)) ↔ NoFlaw logPages log params :=
  ⟨fun ⟨_, hout, hfaithful⟩ => noFlaw_of_faithful h hout hfaithful, faithful_of_noFlaw h⟩

end command

/-! ## Drives -/

/-- A log page with these parameters. -/
def logPage (ps : List Parameter) : Page :=
  let bytes := ps.flatMap Parameter.bytes
  let page := [0, 0, 0, BitVec.ofNat 8 bytes.length] ++ bytes
  Vector.ofFn fun i => page.getD i 0

/-- A drive with one log page, for write errors. -/
def writeLog (ps : List Parameter) : Answers
  | .scsiLogPage, _ => .ok (logPage ps)
  | _, _ => .error 5

theorem logs_writeLog {ps : List Parameter} (h : LogPage (logPage ps) ps)
    (hshort : ∀ p ∈ ps, p.payload.length ≤ 8) :
    Logs (writeLog ps) [SCSI_LOG_SENCE_PAGE_ERROR_WRITE] (fun _ => logPage ps) fun _ => ps := by
  have hpage {page : Byte} (hhas : [SCSI_LOG_SENCE_PAGE_ERROR_WRITE].contains page = true) :
      page = SCSI_LOG_SENCE_PAGE_ERROR_WRITE :=
    List.mem_singleton.mp (List.contains_iff_mem.mp hhas)
  refine ⟨fun _ _ _ => rfl, fun _ _ _ => h, fun page _ hhas p hp => ?_⟩
  rw [hpage hhas] at hp
  exact hshort p hp

/-- Two parameters with four bytes each. -/
def twoCounters : List Parameter :=
  [⟨0x0000, 0x02, [0, 0, 0, 7], by decide⟩, ⟨0x0006, 0x02, [0, 0, 1, 0], by decide⟩]

/-- A drive whose attributes are complete. -/
theorem scsi_attribs_two : ∃ out,
    scsiSmartAttribs (writeLog twoCounters) [SCSI_LOG_SENCE_PAGE_ERROR_WRITE] = some (.ok out) ∧
      AttribsFaithful out
        (dueAttribs [SCSI_LOG_SENCE_PAGE_ERROR_WRITE] fun _ => twoCounters) := by
  have hlogs := @logs_writeLog twoCounters ⟨by decide +kernel, by decide +kernel⟩ (by decide)
  refine (scsi_attribs_faithful_iff hlogs).mpr ⟨by decide, ?_, by decide⟩
  intro page hpage hhas
  rw [List.mem_singleton.mp (List.contains_iff_mem.mp hhas)]
  refine ⟨fun front p hps hempty => ?_, fun heq => absurd heq (by decide)⟩
  have hlast := congrArg List.getLast? hps
  rw [List.getLast?_append, List.getLast?_singleton] at hlast
  cases hlast
  cases hempty

/-- A standard counter, and one of the vendor. -/
def vendorCounters : List Parameter :=
  [⟨0x0000, 0x02, [0, 0, 0, 7], by decide⟩, ⟨0x8000, 0x02, [0, 0, 1, 0], by decide⟩]

/-- Both get the same name. -/
theorem scsi_attribs_collide :
    Logs (writeLog vendorCounters) [SCSI_LOG_SENCE_PAGE_ERROR_WRITE]
        (fun _ => logPage vendorCounters) (fun _ => vendorCounters) ∧
      ¬ ∃ out, scsiSmartAttribs (writeLog vendorCounters) [SCSI_LOG_SENCE_PAGE_ERROR_WRITE] =
          some (.ok out) ∧
        AttribsFaithful out
          (dueAttribs [SCSI_LOG_SENCE_PAGE_ERROR_WRITE] fun _ => vendorCounters) := by
  have hlogs := @logs_writeLog vendorCounters
    ⟨by decide +kernel, by decide +kernel⟩ (by decide)
  refine ⟨hlogs, fun ⟨out, hout, hfaithful⟩ => ?_⟩
  have hcodes := (noFlaw_of_faithful hlogs hout hfaithful).codes
  exact absurd hcodes (by decide)

end Drive
