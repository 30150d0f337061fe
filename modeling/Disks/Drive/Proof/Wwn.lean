import Mathlib.Tactic.Tauto
import Disks.Drive.ScsiPages

/-!
# The WWN in the device identification page

The loops of drive identify and enclosure identify look at every byte of the page, and take the
first place that looks like the header of an 8-byte NAA designator.

* `scanWWN_iff`: what the loop finds.
* `identWWN_iff`: **the WWN is that of the designator exactly when** the bytes behind that place are
  those of the designator. The two loops read it one byte apart.
-/

namespace Drive

open Bytes

/-! ## Reads -/

theorem at?_eq (tdata : Page) (i : Nat) :
    tdata.at? i = if i < 512 then some (tdata.toList.getD i 0) else none := by
  have hlen : tdata.toList.length = 512 := Vector.length_toList
  unfold Page.at?
  split
  · rename_i hi
    rw [List.getD_eq_getElem?_getD, List.getElem?_eq_getElem (by omega)]
    rfl
  · exact List.getElem?_eq_none (by omega)

theorem at?_of_lt (tdata : Page) {i : Nat} (hi : i < 512) :
    tdata.at? i = some (tdata.toList.getD i 0) := by
  rw [at?_eq, if_pos hi]

/-- Reads one after the other. -/
theorem mapM_at? (tdata : Page) (i n : Nat) : (List.range' i n).mapM tdata.at? =
    if n = 0 ∨ i + n ≤ 512 then some (slice tdata.toList i n) else none := by
  have hlen : tdata.toList.length = 512 := Vector.length_toList
  induction n generalizing i with
  | zero => simp [slice]
  | succ n ih =>
    rw [List.range'_succ, List.mapM_cons, at?_eq, ih]
    by_cases hi : i < 512
    · rw [if_pos hi]
      have hslice : slice tdata.toList i (n + 1) =
          tdata.toList.getD i 0 :: slice tdata.toList (i + 1) n := by
        rw [slice, List.drop_eq_getElem_cons (by omega), List.take_succ_cons, slice,
          List.getD_eq_getElem?_getD, List.getElem?_eq_getElem (by omega)]
        rfl
      by_cases hn : n = 0 ∨ i + 1 + n ≤ 512
      · have hn' : n + 1 = 0 ∨ i + (n + 1) ≤ 512 := by omega
        rw [if_pos hn, if_pos hn', hslice]
        rfl
      · have hn' : ¬ (n + 1 = 0 ∨ i + (n + 1) ≤ 512) := by omega
        rw [if_neg hn, if_neg hn']
        rfl
    · have hn' : ¬ (n + 1 = 0 ∨ i + (n + 1) ≤ 512) := by omega
      rw [if_neg hi, if_neg hn']
      rfl

/-- Eight big-endian bytes. -/
theorem toNat_getu64 {bs : List Byte} (h : bs.length = 8) : (getu64 bs).toNat = be bs := by
  have hlt : be bs < 256 ^ 8 := h ▸ be_lt bs
  let v : U64 := BitVec.ofNat 64 (be bs)
  have hv : v.toNat = be bs := by
    rw [BitVec.toNat_ofNat]
    exact Nat.mod_eq_of_lt hlt
  have hbytes : beBytes 8 v = bs := by
    apply List.reverse_inj.mp
    apply le_inj (by simp [h])
    change be (beBytes 8 v) = be bs
    rw [be_beBytes_of_lt (by omega), hv]
  rw [← hv, ← getu64_beBytes v [], hbytes, List.append_nil]

theorem getu64At_iff (tdata : Page) (i : Nat) (v : U64) : getu64At tdata i = some v ↔
    i + 8 ≤ 512 ∧ v.toNat = be (slice tdata.toList i 8) := by
  have hlen : tdata.toList.length = 512 := Vector.length_toList
  unfold getu64At
  rw [mapM_at?]
  by_cases hi : i + 8 ≤ 512
  · have hslice : (slice tdata.toList i 8).length = 8 := by
      rw [slice, List.length_take, List.length_drop]
      omega
    rw [if_pos (.inr hi), ← toNat_getu64 hslice]
    simp only [Option.bind_eq_bind, Option.bind_some, Option.some.injEq, hi, true_and]
    exact ⟨fun h => by rw [h], fun h => (BitVec.eq_of_toNat_eq h).symm⟩
  · rw [if_neg (by omega)]
    simp [hi]

/-! ## The loop -/

/-- What looks like the header of an 8-byte NAA designator. -/
def LooksNaa (tdata : Page) (o : Nat) : Prop :=
  tdata.toList.getD (o + 1) 0 &&& 0x0f = 3 ∧ tdata.toList.getD (o + 3) 0 = 8

instance (tdata : Page) (o : Nat) : Decidable (LooksNaa tdata o) :=
  inferInstanceAs (Decidable (_ ∧ _))

/-- The bytes that are looked at for a header are in the buffer. -/
def ReadsHeader (tdata : Page) (o : Nat) : Prop :=
  o + 1 < 512 ∧ (tdata.toList.getD (o + 1) 0 &&& 0x0f = 3 → o + 3 < 512)

instance (tdata : Page) (o : Nat) : Decidable (ReadsHeader tdata o) :=
  inferInstanceAs (Decidable (_ ∧ _))

theorem getD_of_ge (tdata : Page) {i : Nat} (hi : 512 ≤ i) : tdata.toList.getD i 0 = 0 := by
  have hlen : tdata.toList.length = 512 := Vector.length_toList
  rw [List.getD_eq_getElem?_getD, List.getElem?_eq_none (by omega)]
  rfl

theorem LooksNaa.lt {tdata : Page} {o : Nat} (h : LooksNaa tdata o) : o + 3 < 512 := by
  by_contra hge
  have hzero := h.2
  rw [getD_of_ge tdata (by omega)] at hzero
  cases hzero

/-- One turn of the loop. -/
theorem scanWWN_cons (tdata : Page) (start o : Nat) (rest : List Nat) :
    scanWWN tdata start (o :: rest) =
      if ReadsHeader tdata o then
        if LooksNaa tdata o then getu64At tdata (o + start) else scanWWN tdata start rest
      else none := by
  rw [scanWWN, at?_eq, at?_eq]
  by_cases h1 : o + 1 < 512
  swap
  · rw [if_neg h1, if_neg fun h : ReadsHeader tdata o => h1 h.1]
    rfl
  rw [if_pos h1, Option.bind_eq_bind, Option.bind_some]
  by_cases hcode : tdata.toList.getD (o + 1) 0 &&& 0x0f = 3
  swap
  · have hread : ReadsHeader tdata o := ⟨h1, fun h => absurd h hcode⟩
    rw [if_neg hcode, if_pos hread, if_neg fun h : LooksNaa tdata o => hcode h.1]
  rw [if_pos hcode]
  by_cases h3 : o + 3 < 512
  swap
  · rw [if_neg h3, if_neg fun h : ReadsHeader tdata o => h3 (h.2 hcode)]
    rfl
  have hread : ReadsHeader tdata o := ⟨h1, fun _ => h3⟩
  rw [if_pos h3, if_pos hread, Option.bind_some]
  by_cases hlen : tdata.toList.getD (o + 3) 0 = 8
  · have hlook : LooksNaa tdata o := ⟨hcode, hlen⟩
    rw [if_pos hlen, if_pos hlook]
  · rw [if_neg hlen, if_neg fun h : LooksNaa tdata o => hlen h.2]

/-- **What the loop finds.** -/
theorem scanWWN_iff (tdata : Page) (start o n : Nat) (v : U64) :
    scanWWN tdata start (List.range' o n) = some v ↔
      (∃ k < n, LooksNaa tdata (o + k) ∧ (∀ j < k, ¬ LooksNaa tdata (o + j)) ∧
        getu64At tdata (o + k + start) = some v) ∨
      (∀ k < n, ¬ LooksNaa tdata (o + k) ∧ ReadsHeader tdata (o + k)) ∧ v = 0 := by
  induction n generalizing o with
  | zero =>
    rw [List.range'_zero, scanWWN]
    simp only [Nat.not_lt_zero, false_and, exists_false, false_imp_iff, implies_true, true_and,
      false_or, Option.some.injEq]
    exact eq_comm
  | succ n ih =>
    have hsucc (k : Nat) : o + 1 + k = o + (k + 1) := by omega
    have ih := ih (o + 1)
    simp only [hsucc] at ih
    rw [List.range'_succ, scanWWN_cons, Nat.exists_lt_succ_left, Nat.forall_lt_succ_left]
    simp only [Nat.forall_lt_succ_left, Nat.add_zero, Nat.not_lt_zero, false_imp_iff, implies_true,
      true_and]
    by_cases hread : ReadsHeader tdata o
    · rw [if_pos hread]
      by_cases hlook : LooksNaa tdata o
      · rw [if_pos hlook]
        refine ⟨fun h => .inl (.inl ⟨hlook, h⟩), ?_⟩
        rintro ((⟨-, h⟩ | ⟨k, -, -, ⟨hno, -⟩, -⟩) | ⟨⟨⟨hno, -⟩, -⟩, -⟩)
        · exact h
        · exact absurd hlook hno
        · exact absurd hlook hno
      · rw [if_neg hlook, ih]
        refine or_congr ⟨fun ⟨k, hk, h, hfirst, hget⟩ => ?_, ?_⟩ ?_
        · exact .inr ⟨k, hk, h, ⟨hlook, hfirst⟩, hget⟩
        · rintro (⟨h, -⟩ | ⟨k, hk, h, ⟨-, hfirst⟩, hget⟩)
          · exact absurd h hlook
          · exact ⟨k, hk, h, hfirst, hget⟩
        · exact and_congr_left fun _ => ⟨fun h => ⟨⟨hlook, hread⟩, h⟩, fun h => h.2⟩
    · rw [if_neg hread]
      have hlook {k : Nat} (h : LooksNaa tdata (o + k)) : False :=
        hread ⟨by have := h.lt; omega, fun _ => by have := h.lt; omega⟩
      refine iff_of_false (by rintro ⟨⟩) ?_
      rintro ((⟨h, -⟩ | ⟨k, -, h, -⟩) | ⟨⟨⟨-, h⟩, -⟩, -⟩)
      · exact @hlook 0 h
      · exact hlook h
      · exact hread h

/-! ## Designators -/

/-- An identification designator. -/
structure Designator where
  codeSet : Byte
  type : Byte
  reserved : Byte
  payload : List Byte
  length : payload.length < 256

def Designator.bytes (d : Designator) : List Byte :=
  [d.codeSet, d.type, d.reserved, BitVec.ofNat 8 d.payload.length] ++ d.payload

/-- A page holds these designators, and ends in the buffer. -/
structure IdentPage (tdata : Page) (ds : List Designator) : Prop where
  fits : buffLen tdata ≤ 512
  holds : slice tdata.toList 4 (buffLen tdata - 4) = ds.flatMap Designator.bytes

/-- An 8-byte NAA designator. -/
def Designator.naa (d : Designator) : Bool := d.type &&& 0x0f = 3 ∧ d.payload.length = 8

/-- **The WWN that is due**: the first NAA designator, 0 without one. -/
def dueWWN (ds : List Designator) : Nat := ((ds.find? Designator.naa).map (be ·.payload)).getD 0

/-- What the loop reports is due. -/
def RightWWN (tdata : Page) (ds : List Designator) (start : Nat) : Prop :=
  ∃ v, scanWWN tdata start (List.range' 4 (buffLen tdata - 4)) = some v ∧ v.toNat = dueWWN ds

/-- The first place of the page that looks like a header. -/
structure FirstLook (tdata : Page) (o : Nat) : Prop where
  ge : 4 ≤ o
  lt : o < buffLen tdata
  looks : LooksNaa tdata o
  first : ∀ o', 4 ≤ o' → o' < o → ¬ LooksNaa tdata o'

/-- Nothing of the page looks like a header, and it is looked at within the buffer. -/
def NothingLooks (tdata : Page) : Prop :=
  ∀ o, 4 ≤ o → o < buffLen tdata → ¬ LooksNaa tdata o ∧ ReadsHeader tdata o

theorem getD_of_slice {buf bs : List Byte} {i n j : Nat} (h : slice buf i n = bs)
    (hj : j < bs.length) : buf.getD (i + j) 0 = bs.getD j 0 := by
  subst h
  have hjn : j < n := by
    rw [slice, List.length_take] at hj
    omega
  rw [List.getD_eq_getElem?_getD, List.getD_eq_getElem?_getD, getElem?_slice, if_pos hjn]

/-- A page with an NAA designator has a place that looks like one: its header. -/
theorem looksNaa_of_mem {tdata : Page} {ds : List Designator} (h : IdentPage tdata ds)
    {d : Designator} (hd : d ∈ ds) (hnaa : d.naa = true) :
    ∃ o, 4 ≤ o ∧ o < buffLen tdata ∧ LooksNaa tdata o := by
  obtain ⟨pre, post, rfl⟩ := List.append_of_mem hd
  rw [Designator.naa, decide_eq_true_eq] at hnaa
  have hbytes := h.holds
  rw [List.flatMap_append, List.flatMap_cons] at hbytes
  generalize hpre : pre.flatMap Designator.bytes = p at hbytes
  generalize post.flatMap Designator.bytes = q at hbytes
  have hlen := congrArg List.length hbytes
  have hslice : (slice tdata.toList 4 (buffLen tdata - 4)).length = buffLen tdata - 4 := by
    have hfits := h.fits
    rw [slice, List.length_take, List.length_drop, Vector.length_toList]
    omega
  have hd : d.bytes.length = 12 := by
    rw [Designator.bytes, List.length_append, hnaa.2]
    rfl
  rw [hslice, List.length_append, List.length_append, hd] at hlen
  have hbyte (j : Nat) (hj : j < 4) :
      tdata.toList.getD (4 + p.length + j) 0 = d.bytes.getD j 0 := by
    rw [Nat.add_assoc, getD_of_slice hbytes (by
      rw [List.length_append, List.length_append, hd]
      omega)]
    rw [List.getD_eq_getElem?_getD, List.getD_eq_getElem?_getD,
      List.getElem?_append_right (by omega), Nat.add_sub_cancel_left,
      List.getElem?_append_left (by omega)]
  refine ⟨4 + p.length, by omega, by omega, ?_, ?_⟩
  · rw [hbyte 1 (by decide)]
    exact hnaa.1
  · rw [hbyte 3 (by decide)]
    change BitVec.ofNat 8 d.payload.length = 8
    rw [hnaa.2]
    rfl

/-- Without such a place no WWN is due. -/
theorem dueWWN_of_nothing {tdata : Page} {ds : List Designator} (h : IdentPage tdata ds)
    (hno : ∀ o, 4 ≤ o → o < buffLen tdata → ¬ LooksNaa tdata o) : dueWWN ds = 0 := by
  have hnone : ds.find? Designator.naa = none := by
    refine List.find?_eq_none.mpr fun d hd hnaa => ?_
    obtain ⟨o, hlo, hhi, hlook⟩ := looksNaa_of_mem h hd hnaa
    exact hno o hlo hhi hlook
  rw [dueWWN, hnone]
  rfl

/-- **One of the loops** is right exactly when the bytes at `start` behind the first place that
looks like a header are those of the designator. -/
theorem rightWWN_iff {tdata : Page} {ds : List Designator} (h : IdentPage tdata ds)
    (start : Nat) : RightWWN tdata ds start ↔
      (∃ o, FirstLook tdata o ∧ o + start + 8 ≤ 512 ∧
        be (slice tdata.toList (o + start) 8) = dueWWN ds) ∨ NothingLooks tdata := by
  unfold RightWWN
  simp only [scanWWN_iff, getu64At_iff]
  refine ⟨?_, ?_⟩
  · rintro ⟨v, ⟨k, hk, hlook, hfirst, hfits, hv⟩ | ⟨hall, rfl⟩, hdue⟩
    · refine .inl ⟨4 + k, ⟨by omega, by omega, hlook, fun o' hlo hhi => ?_⟩, hfits,
        hv.symm.trans hdue⟩
      rw [show o' = 4 + (o' - 4) by omega]
      exact hfirst _ (by omega)
    · refine .inr fun o hlo hhi => ?_
      rw [show o = 4 + (o - 4) by omega]
      exact hall _ (by omega)
  · rintro (⟨o, hlook, hfits, hdue⟩ | hno)
    · have hge := hlook.ge
      have hlt := hlook.lt
      have hbe : be (slice tdata.toList (o + start) 8) < 2 ^ 64 := by
        refine (be_lt _).trans_le (Nat.pow_le_pow_right (n := 256) (by decide) ?_ : _ ≤ 256 ^ 8)
        exact List.length_take_le ..
      refine ⟨BitVec.ofNat 64 (be (slice tdata.toList (o + start) 8)),
        .inl ⟨o - 4, by omega, ?_⟩, ?_⟩
      · rw [show 4 + (o - 4) = o by omega]
        refine ⟨hlook.looks, fun j hj => hlook.first _ (by omega) (by omega), hfits, ?_⟩
        rw [BitVec.toNat_ofNat, Nat.mod_eq_of_lt hbe]
      · rw [BitVec.toNat_ofNat, Nat.mod_eq_of_lt hbe, hdue]
    · refine ⟨0, .inr ⟨fun k hk => hno _ (by omega) (by omega), rfl⟩, ?_⟩
      rw [dueWWN_of_nothing h fun o hlo hhi => (hno o hlo hhi).1]
      rfl

/-! ## Both loops -/

theorem FirstLook.unique {tdata : Page} {o o' : Nat} (h : FirstLook tdata o)
    (h' : FirstLook tdata o') : o = o' := by
  rcases Nat.lt_trichotomy o o' with hlt | heq | hlt
  · exact absurd h.looks (h'.first o h.ge hlt)
  · exact heq
  · exact absurd h'.looks (h.first o' h'.ge hlt)

theorem length_slice_of_le (tdata : Page) {i n : Nat} (h : i + n ≤ 512) :
    (slice tdata.toList i n).length = n := by
  rw [slice, List.length_take, List.length_drop, Vector.length_toList]
  omega

/-- A list that begins as it ends: all its elements are the first. -/
theorem dropLast_cons_eq_iff (b : Byte) (bs : List Byte) :
    (b :: bs).dropLast = bs ↔ bs = List.replicate bs.length b := by
  induction bs generalizing b with
  | nil => exact iff_of_true rfl rfl
  | cons c bs ih =>
    rw [List.dropLast_cons_cons, List.cons.injEq, List.length_cons, List.replicate_succ,
      List.cons.injEq, ih]
    refine ⟨?_, ?_⟩
    · rintro ⟨rfl, h⟩
      exact ⟨rfl, h⟩
    · rintro ⟨rfl, h⟩
      exact ⟨rfl, h⟩

/-- The same eight bytes one byte apart: nine bytes that are equal. -/
theorem slices_eq_iff (tdata : Page) {i : Nat} (h : i + 9 ≤ 512) :
    slice tdata.toList i 8 = slice tdata.toList (i + 1) 8 ↔
      ∃ x, slice tdata.toList i 9 = List.replicate 9 x := by
  have hnine := length_slice_of_le tdata h
  have hhead : slice tdata.toList i 8 = (slice tdata.toList i 9).dropLast := by
    rw [List.dropLast_eq_take, hnine, slice, slice, List.take_take]
    rfl
  have htail : slice tdata.toList (i + 1) 8 = (slice tdata.toList i 9).tail := by
    rw [← List.drop_one, slice, slice, List.drop_take, List.drop_drop]
  rw [hhead, htail]
  generalize slice tdata.toList i 9 = bs at hnine
  cases bs with
  | nil => cases hnine
  | cons b bs =>
    have height : bs.length = 8 := Nat.succ.inj hnine
    rw [List.tail_cons, dropLast_cons_eq_iff, height]
    refine ⟨fun h => ⟨b, by rw [h]; rfl⟩, ?_⟩
    rintro ⟨x, hx⟩
    obtain ⟨rfl, hbs⟩ := List.cons.inj hx
    exact hbs

/-- **The WWN of drive identify** is right exactly when the eight bytes four bytes behind the first
place that looks like a header are those of the designator; **both are** exactly when, besides,
nine bytes there are equal. Where nothing looks like a header there is no designator and both
are 0. -/
theorem identWWN_iff {tdata : Page} {ds : List Designator} (h : IdentPage tdata ds) :
    (RightWWN tdata ds 4 ↔ (∃ o, FirstLook tdata o ∧ o + 12 ≤ 512 ∧
        be (slice tdata.toList (o + 4) 8) = dueWWN ds) ∨ NothingLooks tdata) ∧
      (RightWWN tdata ds 4 ∧ RightWWN tdata ds 5 ↔
        (∃ o x, FirstLook tdata o ∧ o + 13 ≤ 512 ∧
          slice tdata.toList (o + 4) 9 = List.replicate 9 x ∧
          dueWWN ds = be (List.replicate 8 x)) ∨ NothingLooks tdata) := by
  refine ⟨rightWWN_iff h 4, ?_⟩
  rw [rightWWN_iff h, rightWWN_iff h]
  have hhead {o : Nat} {x : Byte} (hnine : slice tdata.toList (o + 4) 9 = List.replicate 9 x) :
      slice tdata.toList (o + 4) 8 = List.replicate 8 x := by
    have htake := congrArg (List.take 8) hnine
    rwa [slice, List.take_take, List.take_replicate] at htake
  refine ⟨?_, ?_⟩
  · rintro ⟨⟨o, hlook, hfits, hdue⟩ | hno, hfive⟩
    swap
    · exact .inr hno
    rcases hfive with ⟨o', hlook', hfits', hdue'⟩ | hno
    swap
    · exact .inr hno
    obtain rfl := hlook.unique hlook'
    have hslices : slice tdata.toList (o + 4) 8 = slice tdata.toList (o + 5) 8 := by
      apply List.reverse_inj.mp
      apply le_inj
      · rw [List.length_reverse, List.length_reverse, length_slice_of_le tdata hfits,
          length_slice_of_le tdata hfits']
      · exact hdue.trans hdue'.symm
    obtain ⟨x, hnine⟩ := (slices_eq_iff tdata (by omega)).mp hslices
    refine .inl ⟨o, x, hlook, by omega, hnine, ?_⟩
    rw [← hdue, hhead hnine]
  · rintro (⟨o, x, hlook, hfits, hnine, hdue⟩ | hno)
    · have hslices := (slices_eq_iff tdata (by omega : o + 4 + 9 ≤ 512)).mpr ⟨x, hnine⟩
      refine ⟨.inl ⟨o, hlook, by omega, ?_⟩, .inl ⟨o, hlook, by omega, ?_⟩⟩
      · rw [hdue, hhead hnine]
      · rw [hdue, ← hhead hnine, hslices]
    · exact ⟨.inr hno, .inr hno⟩

/-! ## The commands -/

theorem Reading.bind_ok {α β : Type} {x : Reading α} {f : α → Reading β} {b : β} :
    (x >>= f) = some (.ok b) ↔ ∃ a, x = some (.ok a) ∧ f a = some (.ok b) := by
  refine ⟨fun h => ?_, fun ⟨a, hx, hf⟩ => ?_⟩
  · match x, h with
    | some (.ok a), h => exact ⟨a, rfl, h⟩
  · subst hx
    exact hf

theorem Reading.lift_ok {α : Type} {x : Option α} {a : α} :
    (liftM x : Reading α) = some (.ok a) ↔ x = some a := by
  cases x with
  | none =>
    refine iff_of_false (fun h => ?_) (fun h => ?_)
    · cases h
    · cases h
  | some b =>
    refine ⟨fun h => ?_, fun h => ?_⟩
    · cases h
      rfl
    · cases h
      rfl

theorem Answers.ask_ok {answers : Answers} {command : CdbCommand} {parms : List U64}
    {tdata : Page} :
    answers.asks.ask command parms = some (.ok tdata) ↔ answers command parms = .ok tdata := by
  unfold Asks.ask Answers.asks
  cases answers command parms with
  | error e =>
    refine iff_of_false (fun h => ?_) (fun h => ?_)
    · cases h
    · cases h
  | ok p =>
    refine ⟨fun h => ?_, fun h => ?_⟩
    · cases h
      rfl
    · cases h
      rfl

/-- What `loadIdent` stores. -/
theorem loadIdent_ok {answers : Answers} {start : Nat} {info info' : ScsiInfo}
    (h : answers.asks.loadIdent start info = some (.ok info')) :
    info'.vpdPages = info.vpdPages ∧
      (info.vpdPages.contains SCSI_VPD_PAGE_IDENT = true →
        ∃ tdata, answers .scsiVpdPage [SCSI_VPD_PAGE_IDENT.setWidth 64] = .ok tdata ∧
          scanWWN tdata start (List.range' 4 (buffLen tdata - 4)) = some info'.WWN) := by
  unfold Asks.loadIdent at h
  split at h
  · obtain ⟨tdata, hask, h⟩ := Reading.bind_ok.mp h
    obtain ⟨wwn, hscan, h⟩ := Reading.bind_ok.mp h
    cases h
    refine ⟨rfl, fun _ => ⟨tdata, Answers.ask_ok.mp hask, ?_⟩⟩
    exact Reading.lift_ok.mp hscan
  · rename_i hno
    cases h
    exact ⟨rfl, fun hyes => absurd hyes hno⟩

/-- The WWN a command reports is what its loop finds in the page. -/
def ReportsWWN (answers : Answers) (start : Nat) (info : ScsiInfo) : Prop :=
  info.vpdPages.contains SCSI_VPD_PAGE_IDENT = true →
    ∃ tdata, answers .scsiVpdPage [SCSI_VPD_PAGE_IDENT.setWidth 64] = .ok tdata ∧
      scanWWN tdata start (List.range' 4 (buffLen tdata - 4)) = some info.WWN

/-- A later part of the command leaves the WWN and the pages alone. -/
def KeepsWWN (load : ScsiInfo → Reading ScsiInfo) : Prop :=
  ∀ info info', load info = some (.ok info') → info'.WWN = info.WWN ∧
    info'.vpdPages = info.vpdPages

theorem keepsWWN_loadLimits (answers : Answers) : KeepsWWN answers.asks.loadLimits := by
  intro info info' h
  unfold Asks.loadLimits at h
  split at h
  · obtain ⟨tdata, -, h⟩ := Reading.bind_ok.mp h
    dsimp only at h
    split at h
    · cases h
      exact ⟨rfl, rfl⟩
    · cases h
      exact ⟨rfl, rfl⟩
  · cases h
    exact ⟨rfl, rfl⟩

theorem keepsWWN_loadCharacteristics (answers : Answers) :
    KeepsWWN answers.asks.loadCharacteristics := by
  intro info info' h
  unfold Asks.loadCharacteristics at h
  split at h
  · obtain ⟨tdata, -, h⟩ := Reading.bind_ok.mp h
    obtain ⟨rpm, -, h⟩ := Reading.bind_ok.mp h
    cases h
    split
    · exact ⟨rfl, rfl⟩
    · exact ⟨rfl, rfl⟩
  · cases h
    exact ⟨rfl, rfl⟩

theorem keepsWWN_loadReadCapacity (answers : Answers) : KeepsWWN answers.asks.loadReadCapacity := by
  intro info info' h
  unfold Asks.loadReadCapacity at h
  split at h
  · obtain ⟨tdata, -, h⟩ := Reading.bind_ok.mp h
    cases h
    exact ⟨rfl, rfl⟩
  · cases h
    exact ⟨rfl, rfl⟩

/-- **Drive identify** reports the WWN its loop finds. -/
theorem scsiIdentify_WWN {answers : Answers} {info : ScsiInfo}
    (h : scsiIdentify answers = some (.ok info)) : ReportsWWN answers 4 info := by
  obtain ⟨_, -, h⟩ := Reading.bind_ok.mp h
  obtain ⟨_, -, h⟩ := Reading.bind_ok.mp h
  obtain ⟨_, -, h⟩ := Reading.bind_ok.mp h
  obtain ⟨_, -, h⟩ := Reading.bind_ok.mp h
  obtain ⟨_, -, h⟩ := Reading.bind_ok.mp h
  obtain ⟨serial, -, h⟩ := Reading.bind_ok.mp h
  obtain ⟨ident, hident, h⟩ := Reading.bind_ok.mp h
  obtain ⟨limits, hlimits, h⟩ := Reading.bind_ok.mp h
  obtain ⟨chars, hchars, h⟩ := Reading.bind_ok.mp h
  obtain ⟨hpages, hscan⟩ := loadIdent_ok hident
  have h1 := keepsWWN_loadLimits answers _ _ hlimits
  have h2 := keepsWWN_loadCharacteristics answers _ _ hchars
  have h3 := keepsWWN_loadReadCapacity answers _ _ h
  intro hyes
  rw [h3.1, h2.1, h1.1]
  apply hscan
  rwa [h3.2, h2.2, h1.2, hpages] at hyes

/-- **Enclosure identify** reports the WWN its loop finds. -/
theorem scsiIdentifyEnclosure_WWN {answers : Answers} {info : ScsiInfo}
    (h : scsiIdentifyEnclosure answers = some (.ok info)) : ReportsWWN answers 5 info := by
  obtain ⟨_, -, h⟩ := Reading.bind_ok.mp h
  obtain ⟨_, -, h⟩ := Reading.bind_ok.mp h
  obtain ⟨_, -, h⟩ := Reading.bind_ok.mp h
  obtain ⟨_, -, h⟩ := Reading.bind_ok.mp h
  obtain ⟨_, -, h⟩ := Reading.bind_ok.mp h
  obtain ⟨_, -, h⟩ := Reading.bind_ok.mp h
  obtain ⟨serial, -, h⟩ := Reading.bind_ok.mp h
  obtain ⟨hpages, hscan⟩ := loadIdent_ok h
  intro hyes
  rw [hpages] at hyes
  exact hscan hyes

/-! ## Pages -/

/-- A page with these designators. -/
def identPage (ds : List Designator) : Page :=
  let bytes := ds.flatMap Designator.bytes
  let page := [0, 0x83, 0, BitVec.ofNat 8 bytes.length] ++ bytes
  Vector.ofFn fun i => page.getD i 0

/-- An NAA designator of eight bytes. -/
def naaDesignator : Designator :=
  ⟨0x01, 0x03, 0, [0x50, 0x00, 0xc5, 0x00, 0x12, 0x34, 0x56, 0x78], by decide⟩

/-- The WWN of a drive with one NAA designator. -/
theorem identWWN_naa : RightWWN (identPage [naaDesignator]) [naaDesignator] 4 := by
  refine (identWWN_iff ⟨by decide +kernel, by decide +kernel⟩).1.mpr (.inl ⟨4, ?_, by decide, ?_⟩)
  · refine ⟨le_refl 4, by decide +kernel, by decide +kernel, ?_⟩
    intro o' hlo hhi
    omega
  · decide +kernel

/-- The WWN of an enclosure with it begins at its second byte. -/
theorem enclosure_wwn_shifted : ¬ RightWWN (identPage [naaDesignator]) [naaDesignator] 5 := by
  rintro ⟨v, hv, hdue⟩
  have hscan : scanWWN (identPage [naaDesignator]) 5
      (List.range' 4 (buffLen (identPage [naaDesignator]) - 4)) = some 0x00c5001234567800 := by
    decide +kernel
  cases hscan.symm.trans hv
  exact absurd hdue (by decide +kernel)

end Drive
