import Disks.Tool.WipeDrive
import Disks.Drive.Wire
import Disks.Drive.Proof.Wwn

/-!
# What a SCSI wipe erases

The encoder stores the count of a WRITE SAME (16) around byte 11 of the command block, so a device
reads another number of blocks (`nlbOf`, `writeSameNlb_cdb`).

* `wipe_sound`, `wipe_complete`: the ranges erased when `doSCSIWipe` returns 0: every full chunk,
  then the rest, whose count is the rest itself or, at the end of the disk, a whole chunk.
* `WipeOk`: the counts for which these ranges are the requested one.
* `doSCSIWipe_exact_iff`: **a wipe that returns 0 has erased exactly the requested range, whatever
  the device refuses, exactly when `WipeOk` holds.**
-/

namespace WipeDrive

open Bytes Loop Drive

/-! ## The command -/

/-- The number of blocks a device reads for a count of `c`. -/
def nlbOf (c : Nat) : Nat := c / 2 ^ 24 % 256 * 2 ^ 24 + c / 2 ^ 16 % 256 * 2 ^ 8 + c / 2 ^ 8 % 256

theorem writeSameLba_cdb (lba count : U64) : writeSameLba (wsCdb lba count) = lba.toNat := by
  have hs : slice (wsCdb lba count).toList 2 8 = beBytes 8 lba := rfl
  rw [writeSameLba, hs, be_beBytes_of_lt (by omega)]

theorem writeSameNlb_cdb (lba count : U64) :
    writeSameNlb (wsCdb lba count) = nlbOf count.toNat := by
  have hs : slice (wsCdb lba count).toList 10 4 =
      [byteAt count 3] ++ [0] ++ [byteAt count 2] ++ [byteAt count 1] := rfl
  rw [writeSameNlb, hs, be_append, be_append, be_append]
  have h₀ : (0 : Byte).toNat = 0 := rfl
  simp only [be_singleton, toNat_byteAt, List.length_singleton, nlbOf, h₀, Nat.reducePow]
  omega

theorem nlbOf_le (c : Nat) : nlbOf c ≤ c := by
  rw [nlbOf]
  omega

/-- The count survives exactly for a multiple of `2 ^ 24` below `2 ^ 32`. -/
theorem nlbOf_eq_self_iff (c : Nat) : nlbOf c = c ↔ c % 2 ^ 24 = 0 ∧ c < 2 ^ 32 := by
  have h₂ : c / 2 ^ 16 = c / 2 ^ 8 / 256 := by simp [Nat.div_div_eq_div_mul]
  have h₃ : c / 2 ^ 24 = c / 2 ^ 16 / 256 := by simp [Nat.div_div_eq_div_mul]
  rw [nlbOf]
  constructor
  · intro h
    constructor <;> omega
  · rintro ⟨h, h'⟩
    omega

/-- A device reads 0, all blocks to the end, exactly when only the lowest byte is set. -/
theorem nlbOf_eq_zero_iff (c : Nat) : nlbOf c = 0 ↔ c % 2 ^ 32 < 256 := by
  rw [nlbOf]
  omega

/-- The blocks of an `N`-block disk that a write of `c` blocks from `lba` on erases. -/
def wipeSpan (N lba c : Nat) : Span Nat :=
  ⟨lba, if nlbOf c = 0 then N else min (lba + nlbOf c) N⟩

theorem writeSameSpan_cdb (N : Nat) (lba count : U64) :
    writeSameSpan N (wsCdb lba count) = wipeSpan N lba.toNat count.toNat := by
  rw [writeSameSpan, wipeSpan, writeSameLba_cdb, writeSameNlb_cdb]
  split <;> rfl

/-- The request of one `writeSame`. -/
def wsRequest (lba count : U64) (value : U32) : Request Cdb :=
  ⟨.write, wsCdb lba count, some (writeSameBlock (value.setWidth 64)), 512⟩

theorem writeSame_scsi {drive : DeviceHandle} (hsup : drive.info.supportsWriteSame) (fuel : Nat)
    (d : Device Cdb) (lba count : U64) (value : U32) (log : Log Cdb) :
    writeSame drive (execCmdScsi fuel drive d.driver) lba count value log =
      some (if (d log (wsRequest lba count value)).rc ≠ 0 then -1 else 0,
        log ++ [(wsRequest lba count value, (d log (wsRequest lba count value)).rc)]) := by
  have hexec : execCmdScsi fuel drive d.driver .writeSame .none none 0
      [lba, count, value.setWidth 64] log =
      scsiWriteSame (execCmdScsiCdb d.driver) none [lba, count, value.setWidth 64] log := rfl
  have hload : loadCdbScsi .scsiWriteSame [lba, count] = some (wsCdb lba count) := rfl
  have hdrv : d.driver (wsRequest lba count value) log = _ := d.driver_write _ _ 512 log
  rw [wsRequest] at hdrv ⊢
  simp only [writeSame, hsup, Bool.not_true, Bool.false_eq_true, if_false, hexec, scsiWriteSame,
    execCmdScsiCdb, hload, hdrv, Option.bind_eq_bind, Option.bind_some]
  split <;> rfl

/-! ## Erased blocks -/

/-- The ranges of the commands that succeeded. -/
def erased (N : Nat) (log : Log Cdb) : List (Span Nat) :=
  (log.filter fun p => p.2 = 0).map fun p => writeSameSpan N p.1.cdb

theorem erased_snoc (N : Nat) (log : Log Cdb) (lba count : U64) (value : U32) (rc : Int) :
    erased N (log ++ [(wsRequest lba count value, rc)]) =
      erased N log ++ if rc = 0 then [wipeSpan N lba.toNat count.toNat] else [] := by
  rw [erased, List.filter_append, List.map_append, erased]
  congr 1
  by_cases h : rc = 0 <;> simp [h, wsRequest, writeSameSpan_cdb]

/-- The ranges of the first `i` full chunks. -/
def fulls (N S K i : Nat) : List (Span Nat) :=
  (List.range i).map fun j => wipeSpan N (S + j * K) K

theorem fulls_succ (N S K i : Nat) :
    fulls N S K (i + 1) = fulls N S K i ++ [wipeSpan N (S + i * K) K] := by
  simp [fulls, List.range_succ]

/-! ## The loop -/

/-- `q` full chunks of `K` blocks and a rest of `r` lead from `S` to `E`, and the cursor, which
may run past `E` in the last turn, stays a 64-bit number. -/
structure Grid (S E K q r : Nat) : Prop where
  total : E - S = q * K + r
  rest : r < K
  fit : S + (q + if r = 0 then 0 else 1) * K < 2 ^ 64

/-- Where the cursor of turn `i` stands. -/
theorem Grid.cursor {S E K q r i : Nat} (g : Grid S E K q r) (hi : i ≤ q) (hlt : S + i * K < E) :
    (i < q ∧ S + i * K + K ≤ E ∨ i = q ∧ 0 < r ∧ E - (S + i * K) = r ∧ E < S + i * K + K) ∧
      S + i * K + K < 2 ^ 64 := by
  obtain ⟨ht, hr, hf⟩ := g
  have hsucc : (i + 1) * K = i * K + K := Nat.succ_mul i K
  rcases Nat.lt_or_eq_of_le hi with hiq | rfl
  · have hle : (i + 1) * K ≤ q * K := Nat.mul_le_mul_right K hiq
    have hq : q * K ≤ (q + if r = 0 then 0 else 1) * K := Nat.mul_le_mul_right K (by omega)
    omega
  · have hr0 : r ≠ 0 := by omega
    rw [if_neg hr0, hsucc] at hf
    omega

/-- Behind the last turn. -/
theorem Grid.exit {S E K q r i : Nat} (g : Grid S E K q r) (hi : i ≤ q) (hge : E ≤ S + i * K) :
    i = q ∧ r = 0 := by
  obtain ⟨ht, hr, hf⟩ := g
  rcases Nat.lt_or_eq_of_le hi with hiq | rfl
  · have hle : (i + 1) * K ≤ q * K := Nat.mul_le_mul_right K hiq
    rw [Nat.succ_mul] at hle
    omega
  · omega

section loop

variable {drive : DeviceHandle} (hsup : drive.info.supportsWriteSame) (fuel : Nat) (d : Device Cdb)
  (ending chunk : U64) (value : U32)

include hsup

/-- A turn with a full chunk. -/
theorem scsiWipeTurn_full {cur : U64} (hlt : cur < ending) (hfull : ¬ cur + chunk > ending)
    (log : Log Cdb) :
    let rc := (d log (wsRequest cur chunk value)).rc
    scsiWipeTurn drive (execCmdScsi fuel drive d.driver) ending value chunk (cur, log) =
      some (if rc ≠ 0 then .stop (-1, log ++ [(wsRequest cur chunk value, rc)])
        else .next (cur + chunk, log ++ [(wsRequest cur chunk value, rc)])) := by
  intro rc
  simp only [scsiWipeTurn, hlt, hfull, if_true, if_false, writeSame_scsi hsup, Option.bind_eq_bind,
    Option.bind_some]
  by_cases h : rc = 0 <;> simp [h, rc, GENERAL_ERROR]

/-- The last turn, when the rest is written. -/
theorem scsiWipeTurn_rest {cur : U64} (hlt : cur < ending) (hlast : cur + chunk > ending)
    {log : Log Cdb} (hrc : (d log (wsRequest cur (ending - cur) value)).rc = 0) :
    scsiWipeTurn drive (execCmdScsi fuel drive d.driver) ending value chunk (cur, log) =
      some (.next (cur + chunk, log ++ [(wsRequest cur (ending - cur) value, 0)])) := by
  simp only [scsiWipeTurn, hlt, hlast, if_true, writeSame_scsi hsup, Option.bind_eq_bind,
    Option.bind_some, hrc]
  rfl

/-- The last turn, when the rest is refused: at the end of the disk a full chunk is tried. -/
theorem scsiWipeTurn_past {cur : U64} (hlt : cur < ending) (hlast : cur + chunk > ending)
    {log : Log Cdb} (hrc : (d log (wsRequest cur (ending - cur) value)).rc ≠ 0) :
    let rc₁ := (d log (wsRequest cur (ending - cur) value)).rc
    let log₁ := log ++ [(wsRequest cur (ending - cur) value, rc₁)]
    let rc₂ := (d log₁ (wsRequest cur chunk value)).rc
    scsiWipeTurn drive (execCmdScsi fuel drive d.driver) ending value chunk (cur, log) =
      some (if ending = drive.info.LBACount then
        if rc₂ ≠ 0 then .stop (-1, log₁ ++ [(wsRequest cur chunk value, rc₂)])
        else .next (cur + chunk, log₁ ++ [(wsRequest cur chunk value, rc₂)])
      else .stop (-1, log₁)) := by
  intro rc₁ log₁ rc₂
  have hne : (if rc₁ ≠ 0 then (-1 : Int) else 0) ≠ 0 := by rw [if_pos hrc]; decide
  simp only [scsiWipeTurn, hlt, hlast, if_true, writeSame_scsi hsup, Option.bind_eq_bind,
    Option.bind_some, rc₁] at hne ⊢
  rw [if_pos hne]
  by_cases he : ending = drive.info.LBACount
  · rw [if_pos he, if_pos he]
    change some (if (if rc₂ ≠ 0 then (-1 : Int) else 0) ≠ 0 then _ else _) = _
    by_cases h : rc₂ ≠ 0
    · have hin : (if rc₂ ≠ 0 then (-1 : Int) else 0) = -1 := if_pos h
      rw [hin, if_pos (by decide), if_pos h]
      rfl
    · have hin : (if rc₂ ≠ 0 then (-1 : Int) else 0) = 0 := if_neg h
      rw [hin, if_neg (by decide), if_neg h]
  · rw [if_neg he, if_neg he]
    rfl

end loop

/-- Behind the range the loop is left. -/
theorem scsiWipeTurn_stop {drive : DeviceHandle} {cmd : Cmd (Log Cdb)} {ending chunk cur : U64}
    {value : U32} {log : Log Cdb} (hge : ¬ cur < ending) :
    scsiWipeTurn drive cmd ending value chunk (cur, log) = some (.stop (0, log)) := by
  rw [scsiWipeTurn, if_neg hge]

/-! ## Every wipe, and every way it can go -/

/-- The counts the last turn can succeed with. -/
def LastCount (drive : DeviceHandle) (ending : U64) (K r c : Nat) : Prop :=
  c = r ∨ ending = drive.info.LBACount ∧ c = K

/-- What a wipe can have erased. -/
def Outcome (drive : DeviceHandle) (ending : U64) (N S K q r : Nat) (l : List (Span Nat)) : Prop :=
  r = 0 ∧ l = fulls N S K q ∨
    0 < r ∧ ∃ c, LastCount drive ending K r c ∧ l = fulls N S K q ++ [wipeSpan N (S + q * K) c]

/-- What a turn keeps: before turn `i` the first `i` chunks are erased, and behind the last one
the rest is as well. -/
def Progress (drive : DeviceHandle) (ending chunk : U64) (N S q r : Nat) (s : U64 × Log Cdb) :
    Prop :=
  (∃ i ≤ q, s.1.toNat = S + i * chunk.toNat ∧ erased N s.2 = fulls N S chunk.toNat i) ∨
  ¬ s.1 < ending ∧ Outcome drive ending N S chunk.toNat q r (erased N s.2)

section wipe

variable {drive : DeviceHandle} (hsup : drive.info.supportsWriteSame)
  {ending chunk start : U64} {q r : Nat}
  (hgrid : Grid start.toNat ending.toNat chunk.toNat q r) (N : Nat)

include hsup hgrid

/-- A turn within the range gives up or goes on. -/
theorem wipe_turn {fuel : Nat} {value : U32} (d : Device Cdb) {cur : U64} {log : Log Cdb}
    (hlt : cur < ending) (h : Progress drive ending chunk N start.toNat q r (cur, log)) :
    (∃ log', scsiWipeTurn drive (execCmdScsi fuel drive d.driver) ending value chunk (cur, log) =
      some (.stop (-1, log'))) ∨
    ∃ log', scsiWipeTurn drive (execCmdScsi fuel drive d.driver) ending value chunk (cur, log) =
      some (.next (cur + chunk, log')) ∧
      Progress drive ending chunk N start.toNat q r (cur + chunk, log') := by
  rcases h with ⟨i, hi, hcur, her⟩ | ⟨hge, -⟩
  swap
  · exact absurd hlt hge
  simp only at hcur her
  have hltN : cur.toNat < ending.toNat := hlt
  obtain ⟨hpos, hwrap⟩ := hgrid.cursor hi (hcur ▸ hltN)
  have hadd : (cur + chunk).toNat = start.toNat + i * chunk.toNat + chunk.toNat := by
    rw [BitVec.toNat_add_of_lt (by omega), hcur]
  rcases hpos with ⟨hiq, hle⟩ | ⟨rfl, hr, hrest, hgt⟩
  · have hfull : ¬ cur + chunk > ending := by
      show ¬ ending < cur + chunk
      rw [BitVec.lt_def]
      omega
    rw [scsiWipeTurn_full hsup fuel d ending chunk value hlt hfull]
    by_cases hrc : (d log (wsRequest cur chunk value)).rc = 0
    · refine .inr ⟨_, by rw [if_neg (not_not.2 hrc)], .inl ⟨i + 1, hiq, ?_, ?_⟩⟩
      · rw [hadd, Nat.succ_mul]
        omega
      · rw [erased_snoc, if_pos hrc, her, fulls_succ, hcur]
    · exact .inl ⟨_, by rw [if_pos hrc]⟩
  · have hlast : cur + chunk > ending := by
      show ending < cur + chunk
      rw [BitVec.lt_def]
      omega
    have hbehind : ¬ cur + chunk < ending := by
      rw [BitVec.lt_def]
      omega
    have hsub : (ending - cur).toNat = r := by
      rw [BitVec.toNat_sub_of_le (by rw [BitVec.le_def]; omega)]
      omega
    by_cases hrc : (d log (wsRequest cur (ending - cur) value)).rc = 0
    · rw [scsiWipeTurn_rest hsup fuel d ending chunk value hlt hlast hrc]
      refine .inr ⟨_, rfl, .inr ⟨hbehind, .inr ⟨hr, r, .inl rfl, ?_⟩⟩⟩
      rw [erased_snoc, if_pos rfl, her, hcur, hsub]
    · rw [scsiWipeTurn_past hsup fuel d ending chunk value hlt hlast hrc]
      split
      · rename_i he
        split
        · exact .inl ⟨_, rfl⟩
        · rename_i hrc₂
          refine .inr ⟨_, rfl, .inr ⟨hbehind, .inr ⟨hr, chunk.toNat, .inr ⟨he, rfl⟩, ?_⟩⟩⟩
          rw [erased_snoc, if_pos (not_not.1 hrc₂), erased_snoc, if_neg hrc, List.append_nil, her,
            hcur]
      · exact .inl ⟨_, rfl⟩

/-- **Whatever the device refuses, a wipe that returns 0 has one of the outcomes.** -/
theorem wipe_sound {fuel : Nat} {value : U32} (d : Device Cdb) {n : Nat} {log : Log Cdb}
    (h : run (scsiWipeTurn drive (execCmdScsi fuel drive d.driver) ending value chunk) n
      (start, []) = some (0, log)) :
    Outcome drive ending N start.toNat chunk.toNat q r (erased N log) := by
  refine run_inv (I := Progress drive ending chunk N start.toNat q r)
    (Q := fun r' => r'.1 = 0 → Outcome drive ending N start.toNat chunk.toNat q r (erased N r'.2))
    ?_ ?_ (.inl ⟨0, by omega, by simp, by simp [erased, fulls]⟩) h rfl
  · rintro ⟨cur, log⟩ s' hI hb
    by_cases hlt : cur < ending
    · rcases wipe_turn hsup hgrid N d hlt hI with ⟨log', hb'⟩ | ⟨log', hb', hI'⟩
      · cases hb.symm.trans hb'
      · cases hb.symm.trans hb'
        exact hI'
    · cases hb.symm.trans (scsiWipeTurn_stop hlt)
  · rintro ⟨cur, log⟩ r' hI hb hrc
    by_cases hlt : cur < ending
    · rcases wipe_turn hsup hgrid N d hlt hI with ⟨log', hb'⟩ | ⟨log', hb', hI'⟩
      · cases hb.symm.trans hb'
        exact absurd hrc (by simp)
      · cases hb.symm.trans hb'
    · cases hb.symm.trans (scsiWipeTurn_stop hlt)
      rcases hI with ⟨i, hi, hcur, her⟩ | ⟨-, ho⟩
      · have hge : ending.toNat ≤ start.toNat + i * chunk.toNat := hcur ▸ Nat.not_lt.1 hlt
        obtain ⟨rfl, hr⟩ := hgrid.exit hi hge
        exact .inl ⟨hr, her⟩
      · exact ho

/-- A device that completes every command, but for the request number `q` where `refuse` is set. -/
def refuseAt (refuse : Bool) (q : Nat) : Device Cdb := fun log req =>
  ⟨if refuse ∧ log.length = q then -1 else 0, req.cdb, []⟩

/-- **Every outcome is that of some wipe.** -/
theorem wipe_complete (fuel : Nat) (value : U32) (refuse : Bool)
    (hrefuse : refuse → ending = drive.info.LBACount) {n : Nat} (hn : 2 ^ 64 ≤ n) :
    ∃ log, run (scsiWipeTurn drive (execCmdScsi fuel drive (refuseAt refuse q).driver) ending value
        chunk) n (start, []) = some (0, log) ∧
      erased N log = fulls N start.toNat chunk.toNat q ++ if r = 0 then [] else
        [wipeSpan N (start.toNat + q * chunk.toNat) (if refuse then chunk.toNat else r)] := by
  let I (s : U64 × Log Cdb) : Prop :=
    (∃ i ≤ q, s.1.toNat = start.toNat + i * chunk.toNat ∧ s.2.length = i ∧
      erased N s.2 = fulls N start.toNat chunk.toNat i) ∨
    ¬ s.1 < ending ∧ r ≠ 0 ∧ erased N s.2 = fulls N start.toNat chunk.toNat q ++
      [wipeSpan N (start.toNat + q * chunk.toNat) (if refuse then chunk.toNat else r)]
  let Q (r' : Int × Log Cdb) : Prop := r'.1 = 0 ∧
    erased N r'.2 = fulls N start.toNat chunk.toNat q ++ if r = 0 then [] else
      [wipeSpan N (start.toNat + q * chunk.toNat) (if refuse then chunk.toNat else r)]
  have hrun : ∃ r', run (scsiWipeTurn drive (execCmdScsi fuel drive (refuseAt refuse q).driver)
      ending value chunk) n (start, []) = some r' ∧ Q r' := by
    refine run_total (I := I) (fun s => ending.toNat - s.1.toNat) ?_
      (.inl ⟨0, by omega, by simp, rfl, by simp [erased, fulls]⟩)
      (by have := ending.isLt; simp only; omega)
    rintro ⟨cur, log⟩ hI
    by_cases hlt : cur < ending
    swap
    · left
      refine ⟨(0, log), scsiWipeTurn_stop hlt, rfl, ?_⟩
      rcases hI with ⟨i, hi, hcur, -, her⟩ | ⟨-, hr, her⟩
      · have hge : ending.toNat ≤ start.toNat + i * chunk.toNat := hcur ▸ Nat.not_lt.1 hlt
        obtain ⟨rfl, hr⟩ := hgrid.exit hi hge
        rw [if_pos hr, List.append_nil]
        exact her
      · rw [if_neg hr]
        exact her
    right
    rcases hI with ⟨i, hi, hcur, hlen, her⟩ | ⟨hge, -⟩
    swap
    · exact absurd hlt hge
    simp only at hcur hlen her
    have hltN : cur.toNat < ending.toNat := hlt
    obtain ⟨hpos, hwrap⟩ := hgrid.cursor hi (hcur ▸ hltN)
    have hadd : (cur + chunk).toNat = start.toNat + i * chunk.toNat + chunk.toNat := by
      rw [BitVec.toNat_add_of_lt (by omega), hcur]
    have hK : 0 < chunk.toNat := Nat.zero_lt_of_lt hgrid.rest
    have hrc : ∀ req, (refuseAt refuse q log req).rc = if refuse ∧ i = q then -1 else 0 := by
      intro req
      rw [refuseAt, hlen]
    rcases hpos with ⟨hiq, hle⟩ | ⟨rfl, hr, hrest, hgt⟩
    · have hfull : ¬ cur + chunk > ending := by
        show ¬ ending < cur + chunk
        rw [BitVec.lt_def]
        omega
      have hrc₀ : ∀ req, (refuseAt refuse q log req).rc = 0 := fun req => by
        rw [hrc, if_neg (fun h => by omega)]
      refine ⟨_, by rw [scsiWipeTurn_full hsup fuel _ ending chunk value hlt hfull,
        if_neg (not_not.2 (hrc₀ _))], .inl ⟨i + 1, hiq, ?_, by simp [hlen], ?_⟩, by
          simp only; omega⟩
      · rw [hadd, Nat.succ_mul]
        omega
      · rw [erased_snoc, if_pos (hrc₀ _), her, fulls_succ, hcur]
    · have hlast : cur + chunk > ending := by
        show ending < cur + chunk
        rw [BitVec.lt_def]
        omega
      have hbehind : ¬ cur + chunk < ending := by
        rw [BitVec.lt_def]
        omega
      have hsub : (ending - cur).toNat = r := by
        rw [BitVec.toNat_sub_of_le (by rw [BitVec.le_def]; omega)]
        omega
      cases refuse with
      | false =>
        have hrc₁ : ∀ req, (refuseAt false i log req).rc = 0 := fun req => by rw [hrc]; rfl
        refine ⟨_, scsiWipeTurn_rest hsup fuel _ ending chunk value hlt hlast (hrc₁ _),
          .inr ⟨hbehind, by omega, ?_⟩, by simp only; omega⟩
        rw [erased_snoc, if_pos rfl, her, hcur, hsub]
        rfl
      | true =>
        have hrc₁ : ∀ req, (refuseAt true i log req).rc ≠ 0 := fun req => by
          rw [hrc, if_pos ⟨rfl, rfl⟩]
          decide
        have hrc₂ : ∀ p req, (refuseAt true i (log ++ [p]) req).rc = 0 := fun p req => by
          rw [refuseAt, List.length_append, hlen, if_neg (by simp)]
        refine ⟨_, by rw [scsiWipeTurn_past hsup fuel _ ending chunk value hlt hlast (hrc₁ _),
          if_pos (hrefuse rfl), if_neg (not_not.2 (hrc₂ _ _))], .inr ⟨hbehind, by omega, ?_⟩, by
            simp only; omega⟩
        rw [erased_snoc, if_pos (hrc₂ _ _), erased_snoc, if_neg (hrc₁ _), List.append_nil, her,
          hcur]
        rfl
  obtain ⟨⟨rc, log⟩, hrun, hrc, her⟩ := hrun
  simp only at hrc
  exact ⟨log, hrc ▸ hrun, her⟩

end wipe

/-! ## The blocks of an outcome -/

/-- Where a write of `c` blocks from `lo` on ends. -/
def hiOf (N lo c : Nat) : Nat := if nlbOf c = 0 then N else min (lo + nlbOf c) N

theorem wipeSpan_eq (N lo c : Nat) : wipeSpan N lo c = ⟨lo, hiOf N lo c⟩ := rfl

theorem hiOf_le (N lo c : Nat) : hiOf N lo c ≤ N := by
  rw [hiOf]
  split
  · exact le_refl N
  · exact min_le_right _ _

theorem hiOf_eq_iff {N lo c T : Nat} : hiOf N lo c = T ↔
    nlbOf c = 0 ∧ T = N ∨ nlbOf c ≠ 0 ∧ lo + nlbOf c ≤ N ∧ T = lo + nlbOf c ∨
      nlbOf c ≠ 0 ∧ N < lo + nlbOf c ∧ T = N := by
  rw [hiOf]
  split <;> omega

theorem Ico_eq_Ico_iff {a b c : Nat} (h : a < c) : Set.Ico a b = Set.Ico a c ↔ b = c := by
  constructor
  · intro he
    have hb : c - 1 ∈ Set.Ico a b := he ▸ ⟨by omega, by omega⟩
    by_contra hne
    have hc : b - 1 ∈ Set.Ico a c := he ▸ ⟨by have := hb.1; have := hb.2; omega, by
      have := hb.2; omega⟩
    have := hb.2
    have := hc.2
    omega
  · rintro rfl
    rfl

theorem mem_cover_fulls {N S K q x : Nat} :
    x ∈ Span.cover (fulls N S K q) ↔ ∃ j < q, S + j * K ≤ x ∧ x < hiOf N (S + j * K) K := by
  simp [Span.mem_cover, fulls, wipeSpan_eq]

/-- Chunks that a device reads as "to the end". -/
theorem cover_fulls_zero {N S K q : Nat} (hK : nlbOf K = 0) (hq : 0 < q) :
    Span.cover (fulls N S K q) = Set.Ico S N := by
  ext x
  rw [mem_cover_fulls]
  simp only [hiOf, hK, if_true]
  constructor
  · rintro ⟨j, -, hx, hxN⟩
    exact ⟨by omega, hxN⟩
  · exact fun hx => ⟨0, hq, by have := hx.1; omega, hx.2⟩

/-- Chunks that a device reads as they are. -/
theorem cover_fulls_full {N S K q : Nat} (hK : nlbOf K = K) (hK₀ : 0 < K) (hN : S + q * K ≤ N) :
    Span.cover (fulls N S K q) = Set.Ico S (S + q * K) := by
  induction q with
  | zero => simp [fulls]
  | succ q ih =>
    rw [Nat.succ_mul] at hN ⊢
    have hspan : wipeSpan N (S + q * K) K = ⟨S + q * K, S + (q * K + K)⟩ := by
      rw [wipeSpan_eq, hiOf, hK, if_neg (by omega)]
      congr 1
      omega
    rw [fulls_succ, Span.cover_append, ih (by omega), hspan, Span.cover_cons, Span.cover_nil,
      Set.union_empty, Span.points]
    exact Set.Ico_union_Ico_eq_Ico (by omega) (by simp only; omega)

/-- Chunks that a device reads shorter leave the block behind the first one out. -/
theorem not_mem_fulls {N S K q : Nat} (h₀ : nlbOf K ≠ 0) (hK : nlbOf K ≠ K) :
    S + nlbOf K ∉ Span.cover (fulls N S K q) := by
  have hle := nlbOf_le K
  rw [mem_cover_fulls]
  rintro ⟨j, -, hlo, hhi⟩
  rw [hiOf, if_neg h₀] at hhi
  cases j with
  | zero => omega
  | succ j =>
    rw [Nat.succ_mul] at hlo
    omega

/-- Full chunks and a last span that starts where they end. -/
theorem cover_fulls_snoc_iff {N S K q h T : Nat} (hq : 0 < q) (hK₀ : 0 < K) (hT : S + q * K ≤ T)
    (hTN : T ≤ N) (hh : S + q * K ≤ h) (hhN : h ≤ N) :
    Span.cover (fulls N S K q ++ [⟨S + q * K, h⟩]) = Set.Ico S T ↔
      nlbOf K = 0 ∧ T = N ∨ nlbOf K = K ∧ h = T := by
  have hKq : K ≤ q * K := Nat.le_mul_of_pos_left K hq
  rw [Span.cover_append, Span.cover_cons, Span.cover_nil, Set.union_empty, Span.points]
  simp only
  by_cases hz : nlbOf K = 0
  · rw [cover_fulls_zero hz hq,
      Set.union_eq_self_of_subset_right (Set.Ico_subset_Ico (by omega) hhN),
      Ico_eq_Ico_iff (by omega)]
    omega
  by_cases hs : nlbOf K = K
  · rw [cover_fulls_full hs hK₀ (by omega), Set.Ico_union_Ico_eq_Ico (by omega) hh,
      Ico_eq_Ico_iff (by omega)]
    omega
  · have hle := nlbOf_le K
    constructor
    · intro he
      have hmem : S + nlbOf K ∈ Set.Ico S T := ⟨by omega, by omega⟩
      rw [← he] at hmem
      rcases hmem with hmem | hmem
      · exact absurd hmem (not_mem_fulls hz hs)
      · have := hmem.1
        omega
    · omega

theorem cover_fulls_iff {N S K q T : Nat} (hq : 0 < q) (hK₀ : 0 < K) (hT : S + q * K ≤ T)
    (hTN : T ≤ N) :
    Span.cover (fulls N S K q) = Set.Ico S T ↔
      nlbOf K = 0 ∧ T = N ∨ nlbOf K = K ∧ S + q * K = T := by
  rw [← cover_fulls_snoc_iff hq hK₀ hT hTN (le_refl _) (by omega)]
  simp [Span.points]

theorem cover_singleton_iff {S h T : Nat} (hT : S < T) :
    Span.cover [(⟨S, h⟩ : Span Nat)] = Set.Ico S T ↔ h = T := by
  rw [Span.cover_cons, Span.cover_nil, Set.union_empty, Span.points]
  exact Ico_eq_Ico_iff hT

/-! ## The result -/

/-- Full chunks and rest of a wipe of `C` blocks from `S` on, in chunks of `K`. -/
def fullChunks (N S C K : Nat) : Nat := ((if C = 0 then N - 1 else S + C) - S) / K
def restBlocks (N S C K : Nat) : Nat := ((if C = 0 then N - 1 else S + C) - S) % K

/-- The wipes of an `N`-block disk that erase what was asked for. `nlbOf c = c` says that `c` is a
multiple of `2 ^ 24` below `2 ^ 32`, `nlbOf c = 0` that only its lowest byte is set. -/
def WipeOk (N S C K : Nat) : Prop :=
  let q := fullChunks N S C K
  let r := restBlocks N S C K
  if K = 0 then C = 0 ∨ nlbOf C = C ∧ S + C ≤ N ∨ nlbOf C = 0 ∧ S + C = N
  else if C = 0 then
    -- up to the last block, which the loop takes for the first one behind the range
    if N - 1 ≤ S then S ≠ N - 1
    else if q = 0 then nlbOf r = 0 ∧ (nlbOf K = 0 ∨ r < nlbOf K)
    else nlbOf K = 0 ∨ nlbOf K = K ∧ 0 < r ∧ nlbOf r = 0
  else if S + C = N then
    if q = 0 then nlbOf C = 0 ∨ nlbOf C = C
    else nlbOf K = 0 ∨ nlbOf K = K ∧ (nlbOf r = 0 ∨ nlbOf r = r)
  else S + C < N ∧
    if q = 0 then nlbOf C = C ∧ (S + C ≠ N - 1 ∨ nlbOf K = C)
    else nlbOf K = K ∧ (r = 0 ∨ nlbOf r = r ∧ S + C ≠ N - 1)

/-- `WipeOk` for a wipe in one command, in terms of the count alone. -/
theorem wipeOk_unchunked_iff (N S C : Nat) : WipeOk N S C 0 ↔
    C = 0 ∨ C % 2 ^ 24 = 0 ∧ C < 2 ^ 32 ∧ S + C ≤ N ∨ C % 2 ^ 32 < 256 ∧ S + C = N := by
  rw [WipeOk, if_pos rfl, nlbOf_eq_self_iff, nlbOf_eq_zero_iff, and_assoc]

/-- The cursor of the loop stays a 64-bit number. -/
def CursorFits (N S C K : Nat) : Prop :=
  S + (fullChunks N S C K + if restBlocks N S C K = 0 then 0 else 1) * K < 2 ^ 64

/-- READ CAPACITY (16) returns the address of the last block. -/
def diskBlocks (drive : DeviceHandle) : Nat := drive.info.LBACount.toNat + 1

/-- The blocks of a drive that was identified: one more than the address it returned. -/
theorem diskBlocks_identified {answers : Answers} {info : ScsiInfo} {drive : DeviceHandle}
    (hidentify : scsiIdentify answers = some (.ok info)) (hlba : info.supportsLBA = true)
    (hdrive : drive.info.LBACount = info.LBACount) {tdata : Page} {last : U64} {rest : List Byte}
    (hpage : answers .scsiReadCapacity [] = .ok tdata)
    (htdata : tdata.toList = beBytes 8 last ++ rest) : diskBlocks drive = last.toNat + 1 := by
  obtain ⟨_, -, h⟩ := Reading.bind_ok.mp hidentify
  obtain ⟨_, -, h⟩ := Reading.bind_ok.mp h
  obtain ⟨_, -, h⟩ := Reading.bind_ok.mp h
  obtain ⟨_, -, h⟩ := Reading.bind_ok.mp h
  obtain ⟨_, -, h⟩ := Reading.bind_ok.mp h
  obtain ⟨_, -, h⟩ := Reading.bind_ok.mp h
  obtain ⟨_, -, h⟩ := Reading.bind_ok.mp h
  obtain ⟨_, -, h⟩ := Reading.bind_ok.mp h
  obtain ⟨chars, -, h⟩ := Reading.bind_ok.mp h
  unfold Asks.loadReadCapacity at h
  split at h
  · obtain ⟨page, hask, h⟩ := Reading.bind_ok.mp h
    cases hpage.symm.trans (Answers.ask_ok.mp hask)
    cases h
    rw [diskBlocks, hdrive]
    change (getu64 tdata.toList).toNat + 1 = _
    rw [htdata, getu64_beBytes]
  · rename_i hno
    cases h
    exact absurd hlba hno

/-- Whatever the device refuses, the commands that succeeded in a wipe that returns 0 have erased
exactly the requested blocks. -/
def ScsiWipeExact (drive : DeviceHandle) (start count : U64) (value : U32) (chunk : U64) : Prop :=
  ∀ (d : Device Cdb) (fuel : Nat) (log : Log Cdb),
    doSCSIWipe drive (execCmdScsi fuel drive d.driver) fuel start count value chunk [] =
      some (0, log) →
    Span.cover (erased (diskBlocks drive) log) =
      (requested (diskBlocks drive) start.toNat count.toNat).points

/-- Without chunks: one command. -/
theorem wipe_single_iff {drive : DeviceHandle} (hsup : drive.info.supportsWriteSame)
    (start count : U64) (value : U32) :
    ScsiWipeExact drive start count value 0 ↔
      Span.cover [wipeSpan (diskBlocks drive) start.toNat count.toNat] =
        (requested (diskBlocks drive) start.toNat count.toNat).points := by
  have hrun : ∀ (d : Device Cdb) fuel, doSCSIWipe drive (execCmdScsi fuel drive d.driver) fuel
      start count value 0 [] = some (if (d [] (wsRequest start count value)).rc ≠ 0 then -1 else 0,
        [(wsRequest start count value, (d [] (wsRequest start count value)).rc)]) := by
    intro d fuel
    simp only [doSCSIWipe, ne_eq, not_true_eq_false, if_false, writeSame_scsi hsup,
      Option.bind_eq_bind, Option.bind_some]
    split <;> rfl
  have her : ∀ rc, erased (diskBlocks drive) [(wsRequest start count value, rc)] =
      if rc = 0 then [wipeSpan (diskBlocks drive) start.toNat count.toNat] else [] := fun rc => by
    simpa [erased] using erased_snoc (diskBlocks drive) [] start count value rc
  constructor
  · intro h
    have hacc := h (refuseAt false 0) 0 _ (hrun _ _)
    rwa [her, if_pos (by rfl)] at hacc
  · intro h d fuel log hw
    rw [hrun, Option.some.injEq, Prod.mk.injEq] at hw
    obtain ⟨hrc, rfl⟩ := hw
    by_cases h0 : (d [] (wsRequest start count value)).rc = 0
    · rw [her, if_pos h0]
      exact h
    · rw [if_pos h0] at hrc
      cases hrc

/-- In chunks: every outcome. -/
theorem wipe_chunks_iff {drive : DeviceHandle} (hsup : drive.info.supportsWriteSame)
    {start count chunk : U64} (value : U32) (hchunk : chunk ≠ 0) {q r : Nat}
    (hgrid : Grid start.toNat (endingLBA drive start count).toNat chunk.toNat q r) :
    ScsiWipeExact drive start count value chunk ↔
      ∀ l, Outcome drive (endingLBA drive start count) (diskBlocks drive) start.toNat chunk.toNat
        q r l → Span.cover l = (requested (diskBlocks drive) start.toNat count.toNat).points := by
  have hrun : ∀ (d : Device Cdb) fuel, doSCSIWipe drive (execCmdScsi fuel drive d.driver) fuel
      start count value chunk [] = run (scsiWipeTurn drive (execCmdScsi fuel drive d.driver)
        (endingLBA drive start count) value chunk) fuel (start, []) := fun d fuel => by
    rw [doSCSIWipe, if_pos hchunk]
  constructor
  · intro h l hl
    rcases hl with ⟨hr, rfl⟩ | ⟨hr, c, hc, rfl⟩
    · obtain ⟨log, hlog, her⟩ := wipe_complete hsup hgrid
        (diskBlocks drive) (2 ^ 64) value false (fun h => by cases h) (le_refl _)
      rw [if_pos hr, List.append_nil] at her
      exact her ▸ h _ _ log ((hrun _ _).trans hlog)
    · rcases hc with rfl | ⟨he, rfl⟩
      · obtain ⟨log, hlog, her⟩ := wipe_complete hsup hgrid
          (diskBlocks drive) (2 ^ 64) value false (fun h => by cases h) (le_refl _)
        rw [if_neg (by omega)] at her
        exact her ▸ h _ _ log ((hrun _ _).trans hlog)
      · obtain ⟨log, hlog, her⟩ := wipe_complete hsup hgrid
          (diskBlocks drive) (2 ^ 64) value true (fun _ => he) (le_refl _)
        rw [if_neg (by omega)] at her
        exact her ▸ h _ _ log ((hrun _ _).trans hlog)
  · intro h d fuel log hw
    exact h _ (wipe_sound hsup hgrid (diskBlocks drive) d ((hrun _ _).symm.trans hw))

theorem forall_outcome_iff {drive : DeviceHandle} {ending : U64} {N S K q r : Nat} {X : Set Nat} :
    (∀ l, Outcome drive ending N S K q r l → Span.cover l = X) ↔
      (r = 0 → Span.cover (fulls N S K q) = X) ∧
      (0 < r → Span.cover (fulls N S K q ++ [wipeSpan N (S + q * K) r]) = X ∧
        (ending = drive.info.LBACount →
          Span.cover (fulls N S K q ++ [wipeSpan N (S + q * K) K]) = X)) := by
  constructor
  · intro h
    exact ⟨fun hr => h _ (.inl ⟨hr, rfl⟩), fun hr => ⟨h _ (.inr ⟨hr, r, .inl rfl, rfl⟩),
      fun he => h _ (.inr ⟨hr, K, .inr ⟨he, rfl⟩, rfl⟩)⟩⟩
  · rintro ⟨h₀, h₁⟩ l (⟨hr, rfl⟩ | ⟨hr, c, rfl | ⟨he, rfl⟩, rfl⟩)
    · exact h₀ hr
    · exact (h₁ hr).1
    · exact (h₁ hr).2 he

theorem toNat_endingLBA (drive : DeviceHandle) {start count : U64} (hs : start.toNat < 2 ^ 63)
    (hc : count.toNat < 2 ^ 63) : (endingLBA drive start count).toNat =
      if count.toNat = 0 then diskBlocks drive - 1 else start.toNat + count.toNat := by
  rw [endingLBA]
  by_cases h : count = 0
  · rw [if_pos h, if_pos (by rw [h]; rfl)]
    rfl
  · have hne : count.toNat ≠ 0 := fun h' => h (BitVec.eq_of_toNat_eq h')
    rw [if_neg h, if_neg hne, BitVec.toNat_add_of_lt (by omega)]

/-- No wipe erases a block behind the disk. -/
theorem cover_fulls_lt {N S K q x : Nat} (l : List (Span Nat)) (hl : ∀ s ∈ l, s.hi ≤ N)
    (hx : x ∈ Span.cover (fulls N S K q ++ l)) : x < N := by
  rw [Span.cover_append] at hx
  rcases hx with hx | ⟨s, hs, hx⟩
  · obtain ⟨j, -, -, hx⟩ := mem_cover_fulls.1 hx
    exact hx.trans_le (hiOf_le _ _ _)
  · exact hx.2.trans_le (hl s hs)

/-- When every outcome covers `[S, T)`; `P` says that the last turn may try a whole chunk. -/
theorem outcomes_cover_iff {N S K q r T : Nat} (P : Prop) (hrK : r < K) (hpos : 0 < q * K + r)
    (hT : S + (q * K + r) ≤ T) (hTN : T ≤ N) :
    ((r = 0 → Span.cover (fulls N S K q) = Set.Ico S T) ∧
      (0 < r → Span.cover (fulls N S K q ++ [wipeSpan N (S + q * K) r]) = Set.Ico S T ∧
        (P → Span.cover (fulls N S K q ++ [wipeSpan N (S + q * K) K]) = Set.Ico S T))) ↔
    if q = 0 then hiOf N S r = T ∧ (¬ P ∨ hiOf N S K = T)
    else nlbOf K = 0 ∧ T = N ∨ nlbOf K = K ∧ (r = 0 ∧ S + q * K = T ∨
      0 < r ∧ hiOf N (S + q * K) r = T ∧ (¬ P ∨ hiOf N (S + q * K) K = T)) := by
  have hK : 0 < K := by omega
  simp only [wipeSpan_eq]
  by_cases hq : q = 0
  · subst hq
    have hr : 0 < r := by omega
    have hsingle : ∀ h, Span.cover (fulls N S K 0 ++ [⟨S + 0 * K, h⟩]) = Set.Ico S T ↔ h = T := by
      intro h
      rw [show fulls N S K 0 ++ [⟨S + 0 * K, h⟩] = [⟨S, h⟩] by simp [fulls]]
      exact cover_singleton_iff (by omega)
    rw [if_pos rfl, hsingle, hsingle, Nat.zero_mul, Nat.add_zero]
    simp only [hr, hr.ne', forall_const, false_implies, true_and]
    rw [imp_iff_not_or]
  · have hq₀ : 0 < q := by omega
    have hsnoc : ∀ c, Span.cover (fulls N S K q ++ [⟨S + q * K, hiOf N (S + q * K) c⟩]) =
        Set.Ico S T ↔ nlbOf K = 0 ∧ T = N ∨ nlbOf K = K ∧ hiOf N (S + q * K) c = T := fun c => by
      refine cover_fulls_snoc_iff hq₀ hK (by omega) hTN ?_ (hiOf_le _ _ _)
      rw [hiOf]
      split <;> omega
    have hfull : Span.cover (fulls N S K q) = Set.Ico S T ↔
        nlbOf K = 0 ∧ T = N ∨ nlbOf K = K ∧ S + q * K = T :=
      cover_fulls_iff hq₀ hK (by omega) hTN
    rw [if_neg hq, hsnoc, hsnoc, hfull]
    rcases Nat.eq_zero_or_pos r with hr | hr
    · simp only [hr, lt_self_iff_false, false_implies, forall_const, and_true, true_and, false_and,
        or_false]
    · simp only [hr, hr.ne', forall_const, false_implies, true_and, false_and, false_or]
      constructor
      · rintro ⟨h | ⟨hk, h⟩, hP⟩
        · exact .inl h
        · by_cases hz : nlbOf K = 0 ∧ T = N
          · exact .inl hz
          · exact .inr ⟨hk, h, imp_iff_not_or.1 fun hp => ((hP hp).resolve_left hz).2⟩
      · rintro (h | ⟨hk, h, hP⟩)
        · exact ⟨.inl h, fun _ => .inl h⟩
        · exact ⟨.inr ⟨hk, h⟩, fun hp => .inr ⟨hk, imp_iff_not_or.2 hP hp⟩⟩

/-- The outcomes of a wipe in chunks all cover the requested range exactly when `WipeOk` holds. -/
theorem chunks_cover_iff {N S C K : Nat} (hN : 0 < N) (hK : 0 < K) :
    let q := fullChunks N S C K
    let r := restBlocks N S C K
    ((r = 0 → Span.cover (fulls N S K q) = (requested N S C).points) ∧
      (0 < r →
        Span.cover (fulls N S K q ++ [wipeSpan N (S + q * K) r]) = (requested N S C).points ∧
        ((if C = 0 then N - 1 else S + C) = N - 1 →
          Span.cover (fulls N S K q ++ [wipeSpan N (S + q * K) K]) =
            (requested N S C).points))) ↔ WipeOk N S C K := by
  intro q r
  have hdiv : (if C = 0 then N - 1 else S + C) - S = q * K + r := (Nat.div_add_mod' _ _).symm
  have hrK : r < K := Nat.mod_lt _ hK
  rw [show (requested N S C).points = Set.Ico S (if C = 0 then N else S + C) from rfl, WipeOk,
    if_neg hK.ne', show fullChunks N S C K = q from rfl, show restBlocks N S C K = r from rfl]
  clear_value q r
  by_cases hC : C = 0
  · simp only [hC, if_true] at hdiv ⊢
    by_cases hlast : N - 1 ≤ S
    · have hr : r = 0 := by omega
      have hq : q = 0 := by
        rcases Nat.mul_eq_zero.1 (show q * K = 0 by omega) with h | h
        · exact h
        · omega
      rw [if_pos hlast, hr, hq]
      simp only [fulls, List.range_zero, List.map_nil, Span.cover_nil, lt_self_iff_false,
        false_implies, and_true, forall_const, eq_comm (a := (∅ : Set Nat)), Set.Ico_eq_empty_iff]
      omega
    · rw [if_neg hlast, outcomes_cover_iff (S := S) (q := q) _ hrK (by omega) (by omega)
        (le_refl N)]
      have hnr := nlbOf_le r
      simp only [hiOf_eq_iff, not_true_eq_false, false_or, and_true]
      generalize nlbOf K = k, nlbOf r = n at *
      by_cases hq : q = 0
      · rw [if_pos hq, if_pos hq]
        rw [hq, Nat.zero_mul] at hdiv
        omega
      · rw [if_neg hq, if_neg hq]
        generalize q * K = m at *
        omega
  · simp only [hC, if_false] at hdiv ⊢
    by_cases hend : S + C = N
    · rw [if_pos hend, outcomes_cover_iff (S := S) (q := q) _ hrK (by omega) (by omega)
        (by omega)]
      have hnr := nlbOf_le r
      have hn₀ : r = 0 → nlbOf r = 0 := fun h => by rw [h]; rfl
      by_cases hq : q = 0
      · rw [hq, Nat.zero_mul] at hdiv
        obtain rfl : C = r := by omega
        simp only [hiOf_eq_iff]
        rw [if_pos hq, if_pos hq]
        generalize nlbOf K = k, nlbOf C = n at *
        omega
      · simp only [hiOf_eq_iff]
        rw [if_neg hq, if_neg hq]
        generalize nlbOf K = k, nlbOf r = n, q * K = m at *
        omega
    by_cases hbehind : N < S + C
    · have hnot : ∀ l : List (Span Nat), (∀ s ∈ l, s.hi ≤ N) →
          Span.cover (fulls N S K q ++ l) ≠ Set.Ico S (S + C) := by
        intro l hl he
        have hlast : S + C - 1 ∈ Set.Ico S (S + C) := ⟨by omega, by omega⟩
        have hlt := cover_fulls_lt l hl (he ▸ hlast)
        omega
      refine iff_of_false ?_ (fun h => by rw [if_neg hend] at h; omega)
      rintro ⟨h₀, h₁⟩
      rcases Nat.eq_zero_or_pos r with hr | hr
      · exact hnot [] (by simp) (by rw [List.append_nil]; exact h₀ hr)
      · refine hnot _ ?_ (h₁ hr).1
        simp only [List.mem_singleton, forall_eq]
        exact hiOf_le _ _ _
    · rw [if_neg hend, outcomes_cover_iff (S := S) (q := q) _ hrK (by omega) (by omega)
        (by omega)]
      have hnr := nlbOf_le r
      simp only [hiOf_eq_iff]
      by_cases hq : q = 0
      · rw [hq, Nat.zero_mul] at hdiv
        obtain rfl : C = r := by omega
        rw [if_pos hq, if_pos hq]
        generalize nlbOf K = k, nlbOf C = n at *
        omega
      · rw [if_neg hq, if_neg hq]
        generalize nlbOf K = k, nlbOf r = n, q * K = m at *
        omega

/-- The cursor fits for every range that ends at or before block `2 ^ 63`. -/
theorem cursorFits_of_le {N S C K : Nat} (hS : S < 2 ^ 63)
    (hE : (if C = 0 then N - 1 else S + C) ≤ 2 ^ 63) (hK : K < 2 ^ 63) : CursorFits N S C K := by
  have hdiv : (if C = 0 then N - 1 else S + C) - S = fullChunks N S C K * K + restBlocks N S C K :=
    (Nat.div_add_mod' _ _).symm
  rw [CursorFits]
  split
  · rw [Nat.add_zero]
    omega
  · rw [Nat.succ_mul]
    omega

/-- **When a SCSI wipe is exact.** -/
theorem doSCSIWipe_exact_iff {drive : DeviceHandle} (hsup : drive.info.supportsWriteSame)
    {start count chunk : U64} (value : U32) (hs : start.toNat < 2 ^ 63)
    (hc : count.toNat < 2 ^ 63)
    (hfit : CursorFits (diskBlocks drive) start.toNat count.toNat chunk.toNat) :
    ScsiWipeExact drive start count value chunk ↔
      WipeOk (diskBlocks drive) start.toNat count.toNat chunk.toNat := by
  have hend := toNat_endingLBA drive hs hc
  by_cases hchunk : chunk = 0
  · subst hchunk
    rw [wipe_single_iff hsup, WipeOk, if_pos (show (0 : U64).toNat = 0 from rfl), wipeSpan_eq]
    by_cases hC : count.toNat = 0
    · simp [hC, requested, hiOf, nlbOf, Span.points]
    · have hle := nlbOf_le count.toNat
      rw [requested, if_neg hC, show (Span.mk start.toNat (start.toNat + count.toNat)).points =
        Set.Ico start.toNat (start.toNat + count.toNat) from rfl, cover_singleton_iff (by omega),
        hiOf]
      split <;> omega
  · have hK : chunk.toNat ≠ 0 := fun h => hchunk (BitVec.eq_of_toNat_eq h)
    have hlba : endingLBA drive start count = drive.info.LBACount ↔
        (if count.toNat = 0 then diskBlocks drive - 1 else start.toNat + count.toNat) =
          diskBlocks drive - 1 := by
      rw [← BitVec.toNat_inj, hend]
      rfl
    have hgrid : Grid start.toNat (endingLBA drive start count).toNat chunk.toNat
        (fullChunks (diskBlocks drive) start.toNat count.toNat chunk.toNat)
        (restBlocks (diskBlocks drive) start.toNat count.toNat chunk.toNat) := by
      refine ⟨?_, Nat.mod_lt _ (by omega), hfit⟩
      rw [hend]
      exact (Nat.div_add_mod' _ _).symm
    rw [wipe_chunks_iff hsup value hchunk hgrid, forall_outcome_iff, hlba]
    exact chunks_cover_iff (Nat.succ_pos _) (by omega)

/-- A whole-disk wipe in chunks of 255 blocks: the first command already erases to the end. -/
def wipeSample : DeviceHandle := { info := { supportsWriteSame := true, LBACount := 999 } }

theorem doSCSIWipe_exact_sample : ScsiWipeExact wipeSample 0 0 0 255 :=
  (doSCSIWipe_exact_iff (show wipeSample.info.supportsWriteSame from rfl) 0 (by decide) (by decide)
    (by rw [CursorFits]; decide)).2 (by rw [WipeOk]; decide)

/-- **A wipe of 100 blocks erases the disk to its end.** -/
theorem doSCSIWipe_not_exact : ¬ ScsiWipeExact wipeSample 0 100 0 0 := by
  rw [wipe_single_iff (show wipeSample.info.supportsWriteSame from rfl)]
  intro h
  have hmem : 500 ∈ Span.cover [wipeSpan (diskBlocks wipeSample) 0 100] :=
    ⟨_, List.mem_singleton_self _, by decide, by decide⟩
  have hreq : 500 ∈ (requested (diskBlocks wipeSample) 0 100).points := h ▸ hmem
  exact absurd hreq.2 (by decide)

end WipeDrive
