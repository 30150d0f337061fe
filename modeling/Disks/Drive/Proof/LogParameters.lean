import Disks.Drive.Proof.ScsiFields

/-!
# Log pages as lists of parameters

A log page that holds a list of parameters, and what the loops over it see of them: every parameter
except an empty one at the end.

* `fields_eq`: the headers of the parameters that are seen.
* `slice_payload`: where the value of a parameter is.
-/

namespace Drive

open Bytes

/-- A log parameter. -/
structure Parameter where
  code : BitVec 16
  flags : Byte
  payload : List Byte
  length : payload.length < 256

def Parameter.bytes (p : Parameter) : List Byte :=
  [BitVec.ofNat 8 (p.code.toNat / 256), BitVec.ofNat 8 p.code.toNat, p.flags,
    BitVec.ofNat 8 p.payload.length] ++ p.payload

/-- A page holds these parameters, and ends in the buffer. -/
structure LogPage (tdata : Page) (ps : List Parameter) : Prop where
  fits : buffLen tdata ≤ 512
  holds : slice tdata.toList 4 (buffLen tdata - 4) = ps.flatMap Parameter.bytes

/-- The header of a parameter at `offset`. -/
def headerOf (offset : Nat) (p : Parameter) : ScsiField :=
  ⟨p.code.toNat, p.flags, p.payload.length, offset + 4⟩

/-- The headers of parameters one after the other. -/
def headers (offset : Nat) : List Parameter → List ScsiField
  | [] => []
  | p :: ps => headerOf offset p :: headers (offset + 4 + p.payload.length) ps

/-- The parameters that are seen: `offset + 4 >= buff_len` is the end, so an empty parameter at the
end of the page is not. -/
def seen : List Parameter → List Parameter
  | [] => []
  | [p] => if p.payload = [] then [] else [p]
  | p :: q :: ps => p :: seen (q :: ps)

/-! ## The headers -/

theorem length_bytes (p : Parameter) : p.bytes.length = 4 + p.payload.length := by
  rw [Parameter.bytes, List.length_append]
  rfl

/-- The two parts of a slice. -/
theorem slice_append {buf xs ys : List Byte} {i n : Nat} (h : slice buf i n = xs ++ ys) :
    slice buf i xs.length = xs ∧ slice buf (i + xs.length) (n - xs.length) = ys := by
  have hlen : xs.length ≤ n := by
    have htake := congrArg List.length h
    rw [slice, List.length_take, List.length_append] at htake
    omega
  refine ⟨?_, ?_⟩
  · have htake := congrArg (List.take xs.length) h
    rwa [slice, List.take_take, Nat.min_eq_left hlen, List.take_left' rfl] at htake
  · have hdrop := congrArg (List.drop xs.length) h
    rwa [slice, List.drop_take, List.drop_drop, List.drop_left' rfl] at hdrop

/-- The header of the first parameter. -/
theorem fieldOf_eq {tdata : Page} {offset n : Nat} {p : Parameter} {bs : List Byte}
    (h : slice tdata.toList offset n = p.bytes ++ bs) :
    fieldOf tdata offset = headerOf offset p := by
  have hbyte (j : Nat) (hj : j < 4) :
      tdata.toList.getD (offset + j) 0 = p.bytes.getD j 0 := by
    have hlen := length_bytes p
    rw [getD_of_slice h (by rw [List.length_append]; omega), List.getD_eq_getElem?_getD,
      List.getD_eq_getElem?_getD, List.getElem?_append_left (by omega)]
  have hcode := p.code.isLt
  have hlen := p.length
  unfold fieldOf headerOf
  dsimp only
  rw [hbyte 0 (by decide), hbyte 1 (by decide), hbyte 2 (by decide), hbyte 3 (by decide)]
  change ScsiField.mk ((BitVec.ofNat 8 (p.code.toNat / 256)).toNat * 256 +
    (BitVec.ofNat 8 p.code.toNat).toNat) p.flags (BitVec.ofNat 8 p.payload.length).toNat _ = _
  rw [BitVec.toNat_ofNat, BitVec.toNat_ofNat, BitVec.toNat_ofNat]
  congr 1
  · omega
  · omega

/-- The value of the first parameter, and the parameters behind it. -/
theorem slice_cons {tdata : Page} {offset n : Nat} {p : Parameter} {bs : List Byte}
    (h : slice tdata.toList offset n = p.bytes ++ bs) :
    slice tdata.toList (offset + 4) p.payload.length = p.payload ∧
      slice tdata.toList (offset + 4 + p.payload.length) (n - (4 + p.payload.length)) = bs := by
  have hrest := (slice_append h).2
  rw [length_bytes] at hrest
  rw [Parameter.bytes, List.append_assoc] at h
  have hvalue := (slice_append h).2
  exact ⟨(slice_append hvalue).1, by rwa [Nat.add_assoc]⟩

theorem length_flatMap_cons (p : Parameter) (ps : List Parameter) :
    ((p :: ps).flatMap Parameter.bytes).length =
      4 + p.payload.length + (ps.flatMap Parameter.bytes).length := by
  rw [List.flatMap_cons, List.length_append, length_bytes]

/-- The headers from `offset` on. -/
theorem fieldsFrom_eq {tdata : Page} {offset : Nat} {ps : List Parameter}
    (hend : offset + (ps.flatMap Parameter.bytes).length = buffLen tdata)
    (h : slice tdata.toList offset (ps.flatMap Parameter.bytes).length =
      ps.flatMap Parameter.bytes) :
    fieldsFrom tdata offset = headers offset (seen ps) := by
  induction ps generalizing offset with
  | nil =>
    rw [List.flatMap_nil, List.length_nil] at hend
    rw [fieldsFrom, if_pos (by omega)]
    rfl
  | cons p ps ih =>
    rw [length_flatMap_cons] at hend
    rw [length_flatMap_cons, List.flatMap_cons] at h
    have hfield := fieldOf_eq h
    have hrest := (slice_cons h).2
    rw [Nat.add_sub_cancel_left] at hrest
    have hlast := @ih (offset + 4 + p.payload.length) (by omega) hrest
    rw [fieldsFrom, hfield, show (headerOf offset p).len = p.payload.length by rfl, hlast]
    cases ps with
    | nil =>
      rw [List.flatMap_nil, List.length_nil, Nat.add_zero] at hend
      have hseen : seen [p] = if p.payload = [] then [] else [p] := rfl
      rw [hseen]
      by_cases hempty : p.payload = []
      · rw [hempty, List.length_nil] at hend
        rw [if_pos (by omega), if_pos hempty]
        rfl
      · have hpos := List.length_pos_iff.mpr hempty
        rw [if_neg (by omega), if_neg hempty]
        rfl
    | cons q ps =>
      rw [length_flatMap_cons] at hend
      rw [if_neg (by omega), seen]
      rfl

/-- **The headers of a page.** -/
theorem fields_eq {tdata : Page} {ps : List Parameter} (h : LogPage tdata ps) :
    fields tdata = headers 4 (seen ps) := by
  have hfour : 4 ≤ buffLen tdata := by
    unfold buffLen
    omega
  have hlen := congrArg List.length h.holds
  have hfits := h.fits
  rw [length_slice_of_le tdata (by omega)] at hlen
  apply fieldsFrom_eq
  · omega
  · rw [← hlen]
    exact h.holds

/-! ## The values -/

/-- Parameters one after the other from `offset` on, in the buffer. -/
structure Placed (tdata : Page) (offset : Nat) (ps : List Parameter) : Prop where
  fits : offset + (ps.flatMap Parameter.bytes).length ≤ 512
  holds : slice tdata.toList offset (ps.flatMap Parameter.bytes).length =
    ps.flatMap Parameter.bytes

theorem prefix_seen (ps : List Parameter) : seen ps <+: ps := by
  fun_induction seen ps with
  | case1 => exact List.prefix_rfl
  | case2 p h => exact List.nil_prefix
  | case3 p h => exact List.prefix_rfl
  | case4 p q ps ih => exact (List.prefix_cons_inj p).mpr ih

theorem Placed.front {tdata : Page} {offset : Nat} {ps qs : List Parameter}
    (h : Placed tdata offset ps) (hfront : qs <+: ps) : Placed tdata offset qs := by
  obtain ⟨rest, rfl⟩ := hfront
  have hholds := h.holds
  have hfits := h.fits
  rw [List.flatMap_append] at hholds hfits
  refine ⟨?_, (slice_append hholds).1⟩
  rw [List.length_append] at hfits
  omega

theorem Placed.tail {tdata : Page} {offset : Nat} {p : Parameter} {ps : List Parameter}
    (h : Placed tdata offset (p :: ps)) :
    Placed tdata (offset + 4 + p.payload.length) ps := by
  have hholds := h.holds
  have hfits := h.fits
  rw [length_flatMap_cons] at hholds hfits
  rw [List.flatMap_cons] at hholds
  have hrest := (slice_cons hholds).2
  rw [Nat.add_sub_cancel_left] at hrest
  exact ⟨by omega, hrest⟩

theorem LogPage.placed {tdata : Page} {ps : List Parameter} (h : LogPage tdata ps) :
    Placed tdata 4 (seen ps) := by
  have hfour : 4 ≤ buffLen tdata := by
    unfold buffLen
    omega
  have hfits := h.fits
  have hlen := congrArg List.length h.holds
  rw [length_slice_of_le tdata (by omega)] at hlen
  have hall : Placed tdata 4 ps := ⟨by omega, hlen ▸ h.holds⟩
  exact hall.front (prefix_seen ps)

/-- **The value of a parameter** of up to eight bytes. -/
theorem parse_headerOf {tdata : Page} {offset : Nat} {p : Parameter} {ps : List Parameter}
    (h : Placed tdata offset (p :: ps)) :
    parseScsiNumber tdata (headerOf offset p).data (headerOf offset p).len =
      some (numberOf p.payload) := by
  have hholds := h.holds
  have hfits := h.fits
  rw [length_flatMap_cons] at hfits
  rw [List.flatMap_cons] at hholds
  have hslice := (slice_cons hholds).1
  change parseScsiNumber tdata (offset + 4) p.payload.length = _
  rw [parseScsiNumber_eq, if_pos (by omega), hslice]

end Drive
