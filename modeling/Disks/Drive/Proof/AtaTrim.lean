import Disks.Drive.Disk
import Disks.Drive.Wire

/-!
# ATA TRIM covers exactly the requested range

* `dsmSpan_entry`, `dsmSpan_other`: the entry `ataTrimFill` stores denotes the blocks from the
  cursor on, and leaves the other entries of the buffer.
* `Filled`: what the buffer holds between two turns: entries of blocks already behind the cursor
  (also those left over from the previous payload), and among the ones stored since the last
  payload every block since then.
* `ataTrimFill_ends`, `ataTrimSend_ends`: the two loops, by the total rule.
* `trim_ata_exact`: **the result for `trim` on an ATA drive.**
-/

namespace Drive

open Bytes Loop

/-! ## Entries -/

@[simp] theorem length_ataTrimEntry (s : TrimBuf) : (ataTrimEntry s).length = 8 := by
  simp [ataTrimEntry]

theorem dsmSpan_entry {s : TrimBuf} {k : Nat} (hlen : s.tdata.length = 512) (hk : k < 64)
    (hpos : s.pos.toNat < 2 ^ 48) :
    dsmSpan (poke s.tdata (8 * k) (ataTrimEntry s)) k =
      blocks s.pos.toNat (min s.length.toNat 0xffff) := by
  have hlba : slice (poke s.tdata (8 * k) (ataTrimEntry s)) (8 * k) 6 = leBytes 6 s.pos := by
    rw [ataTrimEntry, poke_append, length_leBytes, slice_poke_disjoint (by omega)]
    have hfit : 8 * k + (leBytes 6 s.pos).length ≤ s.tdata.length := by simp; omega
    simpa using slice_poke_same hfit
  have hcount : slice (poke s.tdata (8 * k) (ataTrimEntry s)) (8 * k + 6) 2 =
      leBytes 2 (if s.length < 0xffff then s.length else 0xffff) := by
    rw [ataTrimEntry, poke_append, length_leBytes]
    have hfit : 8 * k + 6 + (leBytes 2 (if s.length < 0xffff then s.length else 0xffff)).length ≤
        (poke s.tdata (8 * k) (leBytes 6 s.pos)).length := by simp; omega
    simpa using slice_poke_same hfit
  rw [dsmSpan, hlba, hcount, le_leBytes_of_lt (by omega), le_leBytes_of_lt]
  · split <;> rename_i h <;> rw [BitVec.lt_def] at h <;> congr 1 <;> simp at h ⊢ <;> omega
  · split <;> rename_i h
    · rw [BitVec.lt_def] at h
      simp at h
      omega
    · decide

theorem dsmSpan_other {buf bs : List Byte} {j k : Nat} (hbs : bs.length = 8) (hjk : j ≠ k) :
    dsmSpan (poke buf (8 * k) bs) j = dsmSpan buf j := by
  rw [dsmSpan, dsmSpan, slice_poke_disjoint (by omega), slice_poke_disjoint (by omega)]

theorem mem_cover_dsmSpans {payload : List Byte} {x : Nat} :
    x ∈ Span.cover (dsmSpans payload) ↔ ∃ k < 64, x ∈ (dsmSpan payload k).points := by
  simp [Span.cover, dsmSpans]

theorem points_blocks (lba count : Nat) :
    (blocks lba count).points = Set.Ico lba (lba + count) := rfl

/-! ## The buffer -/

/-- Entries 0 to `k - 1` hold every block of `[c₀, c)`, and no entry a block outside `[a, c)`. -/
structure Filled (a c₀ c k : Nat) (buf : List Byte) : Prop where
  len : buf.length = 512
  within : ∀ j < 64, (dsmSpan buf j).points ⊆ Set.Ico a c
  fresh : ∀ x ∈ Set.Ico c₀ c, ∃ j < k, x ∈ (dsmSpan buf j).points

theorem Filled.cover {a c₀ c k : Nat} {buf : List Byte} (h : Filled a c₀ c k buf) (hk : k ≤ 64) :
    Set.Ico c₀ c ⊆ Span.cover (dsmSpans buf) ∧ Span.cover (dsmSpans buf) ⊆ Set.Ico a c := by
  constructor
  · intro x hx
    obtain ⟨j, hj, hx⟩ := h.fresh x hx
    exact mem_cover_dsmSpans.2 ⟨j, by omega, hx⟩
  · intro x hx
    obtain ⟨j, hj, hx⟩ := mem_cover_dsmSpans.1 hx
    exact h.within j hj hx

/-- A new payload starts on the old buffer. -/
theorem Filled.restart {a c₀ c k : Nat} {buf : List Byte} (h : Filled a c₀ c k buf) :
    Filled a c c 0 buf :=
  ⟨h.len, h.within, fun _ hx => absurd (hx.1.trans_lt hx.2) (lt_irrefl c)⟩

theorem Filled.zeroed (a : Nat) : Filled a a a 0 zeroed := by
  refine ⟨List.length_replicate, fun j _ => ?_, fun _ hx => absurd (hx.1.trans_lt hx.2) (by simp)⟩
  have hs : ∀ i n, le (slice Drive.zeroed i n) = 0 := by
    intro i n
    simp only [slice, Drive.zeroed, List.drop_replicate, List.take_replicate]
    induction min n (512 - i) with
    | zero => rfl
    | succ m ih => rw [List.replicate_succ, le_cons, ih]; rfl
  rw [dsmSpan, hs, hs]
  simp [points_blocks]

/-- One more entry. -/
theorem Filled.store {a c₀ k : Nat} {s : TrimBuf} (h : Filled a c₀ s.pos.toNat k s.tdata)
    (hk : k < 64) (hac : a ≤ c₀) (hc : c₀ ≤ s.pos.toNat) (hpos : s.pos.toNat < 2 ^ 48) :
    Filled a c₀ (s.pos.toNat + min s.length.toNat 0xffff) (k + 1)
      (poke s.tdata (8 * k) (ataTrimEntry s)) := by
  have hsame := dsmSpan_entry h.len hk hpos
  have hother : ∀ j, j ≠ k → dsmSpan (poke s.tdata (8 * k) (ataTrimEntry s)) j =
      dsmSpan s.tdata j := fun j hj => dsmSpan_other (length_ataTrimEntry s) hj
  refine ⟨by rw [length_poke, h.len], fun j hj => ?_, fun x hx => ?_⟩
  · by_cases hjk : j = k
    · rw [hjk, hsame, points_blocks]
      exact Set.Ico_subset_Ico_left (by omega)
    · rw [hother j hjk]
      exact (h.within j hj).trans (Set.Ico_subset_Ico_right (by omega))
  · by_cases hxc : x < s.pos.toNat
    · obtain ⟨j, hj, hx'⟩ := h.fresh x ⟨hx.1, hxc⟩
      exact ⟨j, by omega, by rw [hother j (by omega)]; exact hx'⟩
    · refine ⟨k, by omega, ?_⟩
      rw [hsame, points_blocks]
      exact ⟨by omega, hx.2⟩

/-! ## The filling loop -/

/-- Between two turns: `k` entries are filled, and `length` blocks up to `e` are left. -/
structure FillInv (a c₀ e : Nat) (s : TrimBuf) : Prop where
  index : ∃ k ≤ 63, s.i = 8 * k ∧ Filled a c₀ s.pos.toNat k s.tdata
  start : a ≤ c₀ ∧ c₀ ≤ s.pos.toNat
  rest : s.pos.toNat + s.length.toNat = e
  left : 0 < s.length.toNat

/-- What the loop leaves: a payload for `[c₀, e - length)`. -/
structure Payload (a c₀ e : Nat) (b : TrimBuf) : Prop where
  filled : Filled a c₀ (e - b.length.toNat) 64 b.tdata
  rest : b.length.toNat ≠ 0 → b.pos.toNat + b.length.toNat = e
  start : c₀ < e - b.length.toNat

theorem Filled.mono {a c₀ c k k' : Nat} {buf : List Byte} (h : Filled a c₀ c k buf)
    (hk : k ≤ k') : Filled a c₀ c k' buf :=
  ⟨h.len, h.within, fun x hx =>
    let ⟨j, hj, hx⟩ := h.fresh x hx
    ⟨j, hj.trans_le hk, hx⟩⟩

theorem ataTrimFill_ends {a e : Nat} {s : TrimBuf} (he : e ≤ 2 ^ 48)
    (hfill : Filled a s.pos.toNat s.pos.toNat 0 s.tdata) (hi : s.i = 0) (ha : a ≤ s.pos.toNat)
    (hrest : s.pos.toNat + s.length.toNat = e) (hleft : 0 < s.length.toNat) {n : Nat}
    (hn : 64 ≤ n) : ∃ b, run ataTrimFill n s = some b ∧ Payload a s.pos.toNat e b := by
  generalize hc₀ : s.pos.toNat = c₀ at *
  -- the first turn stores an entry, whatever it finds
  have hI : FillInv a c₀ e s ∧ (s.i = 0 ∨ c₀ < s.pos.toNat) :=
    ⟨⟨⟨0, by omega, hi, hc₀ ▸ hfill⟩, ⟨ha, by omega⟩, by omega, hleft⟩, .inl hi⟩
  refine run_total (I := fun s => FillInv a c₀ e s ∧ (s.i = 0 ∨ c₀ < s.pos.toNat))
    (fun s => 63 - s.i / 8) ?_ hI (by omega)
  rintro s ⟨⟨⟨k, hk, hik, hf⟩, ⟨hac, hcp⟩, hrest, hleft⟩, hprog⟩
  by_cases hroom : s.i + 8 < 512
  · have hstore := hf.store (by omega) hac hcp (by omega)
    by_cases hlast : s.length ≤ 0xffff
    · left
      refine ⟨{ s with i := s.i + 8, tdata := poke s.tdata s.i (ataTrimEntry s), length := 0 },
        by rw [ataTrimFill, if_pos hroom, if_pos hlast], ?_⟩
      have hle : s.length.toNat ≤ 0xffff := hlast
      refine ⟨?_, by simp, ?_⟩
      · rw [Nat.min_eq_left hle, hrest, ← hik] at hstore
        simpa using hstore.mono (by omega)
      · simp
        omega
    · right
      have hgt : ¬ s.length.toNat ≤ 0xffff := hlast
      have hlen : (s.length - 0xffff).toNat = s.length.toNat - 0xffff := by
        rw [BitVec.toNat_sub_of_le (by rw [BitVec.le_def]; simp; omega)]
        rfl
      have hpos : (s.pos + 0xffff).toNat = s.pos.toNat + 0xffff := by
        rw [BitVec.toNat_add_of_lt (by simp; omega)]
        rfl
      refine ⟨⟨s.i + 8, poke s.tdata s.i (ataTrimEntry s), s.pos + 0xffff, s.length - 0xffff⟩,
        by rw [ataTrimFill, if_pos hroom, if_neg hlast],
        ⟨⟨⟨k + 1, by omega, by simp; omega, ?_⟩, ?_, ?_, ?_⟩, .inr ?_⟩, by simp; omega⟩
      · simp only [hpos]
        rw [Nat.min_eq_right (by omega), ← hik] at hstore
        exact hstore
      all_goals simp only [hpos, hlen]; omega
  · left
    refine ⟨s, by rw [ataTrimFill, if_neg hroom], ?_, fun _ => hrest, by omega⟩
    rw [← hrest, Nat.add_sub_cancel]
    exact hf.mono (by omega)

/-! ## The sending loop -/

/-- The taskfile of `CMD_ATA_TRIM`. -/
def dsmTf : AtaTf where
  command := ATA_OP_DATA_SET_MANGEMENT
  lob := { nsect := 1, feat := 1 }
  dev := ATA_USING_LBA

/-- The request that carries a payload. -/
def dsmRequest (payload : List Byte) : Request Cdb :=
  ⟨.write, loadCdbAta dsmTf .write, some payload, 512⟩

/-- Sending one payload. -/
theorem execCmdAtaTf_ataTrim (drive : DeviceHandle) (d : Device Cdb) (payload : List Byte)
    (log : Log Cdb) :
    execCmdAtaTf drive d.driver .ataTrim .write (some payload) 512 [] log =
      some ⟨if (d log (dsmRequest payload)).rc ≠ 0 then -1 else 0, payload, [],
        log ++ [(dsmRequest payload, (d log (dsmRequest payload)).rc)]⟩ := by
  have hget : getTf .ataTrim drive.info.bit48LBA [] = some (some dsmTf, []) := rfl
  have hcheck : ∀ cdb, checkCdbAta drive .ataTrim dsmTf cdb [] = (0, []) := fun _ => rfl
  have hdrv : d.driver (dsmRequest payload) log = _ := d.driver_write _ payload 512 log
  rw [dsmRequest] at hdrv ⊢
  simp only [execCmdAtaTf, hget, Option.bind_eq_bind, Option.bind_some, hdrv, hcheck]
  split <;> rfl

theorem dsmTrimmed_append (l m : List (Request Cdb)) :
    dsmTrimmed (l ++ m) = dsmTrimmed l ∪ dsmTrimmed m := by
  ext x
  simp [dsmTrimmed, or_and_right, exists_or]

theorem dsmTrimmed_singleton (payload : List Byte) :
    dsmTrimmed [dsmRequest payload] = Span.cover (dsmSpans payload) := by
  have h : isDsmTrim (loadCdbAta dsmTf .write) := by decide
  have hdata : (dsmRequest payload).data = some payload := rfl
  ext x
  simp only [dsmTrimmed, List.mem_singleton, Set.mem_ofPred_eq]
  constructor
  · rintro ⟨_, rfl, -, _, hp, hx⟩
    rw [hdata, Option.some.injEq] at hp
    exact hp ▸ hx
  · exact fun hx => ⟨_, rfl, h, _, hdata, hx⟩

/-- Between two payloads: everything from `a` up to the cursor `e - length` has been sent. -/
structure SendInv (a e : Nat) (s : TrimBuf × Log Cdb) : Prop where
  filled : Filled a (e - s.1.length.toNat) (e - s.1.length.toNat) 0 s.1.tdata
  start : a ≤ e - s.1.length.toNat
  rest : s.1.length.toNat ≠ 0 → s.1.pos.toNat + s.1.length.toNat = e
  sent : dsmTrimmed s.2.sent = Set.Ico a (e - s.1.length.toNat)

/-- What the loop returns. -/
structure Trimmed (d : Device Cdb) (a e : Nat) (r : Int × Log Cdb) : Prop where
  within : dsmTrimmed r.2.sent ⊆ Set.Ico a e
  exact : r.1 = 0 → dsmTrimmed r.2.sent = Set.Ico a e
  accepted : d.Accepts → r.1 = 0

theorem ataTrimSend_ends {a e : Nat} (he : e ≤ 2 ^ 48) (drive : DeviceHandle) (d : Device Cdb)
    {s : TrimBuf × Log Cdb} (hs : SendInv a e s) {n : Nat} (hn : 64 ≤ n)
    (hlen : s.1.length.toNat < n) :
    ∃ r, run (ataTrimSend (execCmdAtaTf drive d.driver) n) n s = some r ∧ Trimmed d a e r := by
  refine run_total (fun s => s.1.length.toNat) ?_ hs hlen
  rintro ⟨s, log⟩ ⟨hfill, hstart, hrest, hsent⟩
  simp only at hfill hstart hrest hsent ⊢
  by_cases hz : s.length = 0
  · left
    have hexact : dsmTrimmed log.sent = Set.Ico a e := by rw [hsent, hz]; rfl
    exact ⟨(0, log), by rw [ataTrimSend, if_pos hz], hexact.subset, fun _ => hexact, fun _ => rfl⟩
  have hne : s.length.toNat ≠ 0 := fun h => hz (BitVec.eq_of_toNat_eq h)
  have hpos : s.pos.toNat = e - s.length.toNat := by have := hrest hne; omega
  obtain ⟨b, hrun, hb⟩ := ataTrimFill_ends (s := { s with i := 0 }) he (hpos ▸ hfill) rfl
    (hpos ▸ hstart) (hrest hne) (by simp; omega) hn
  simp only [hpos] at hb
  obtain ⟨hlow, hupp⟩ := hb.filled.cover (le_refl 64)
  -- the payload adds the blocks from the old cursor to the new one
  have hsent' : dsmTrimmed (log ++ [(dsmRequest b.tdata,
      (d log (dsmRequest b.tdata)).rc)]).sent = Set.Ico a (e - b.length.toNat) := by
    rw [Log.sent_append, Log.sent_singleton, dsmTrimmed_append, dsmTrimmed_singleton, hsent]
    refine Set.Subset.antisymm (Set.union_subset ?_ hupp) ?_
    · exact Set.Ico_subset_Ico_right hb.start.le
    · rw [← Set.Ico_union_Ico_eq_Ico hstart hb.start.le]
      exact Set.union_subset_union_right _ hlow
  have hturn : ataTrimSend (execCmdAtaTf drive d.driver) n (s, log) =
      some (if (d log (dsmRequest b.tdata)).rc ≠ 0 then
        .stop (-1, log ++ [(dsmRequest b.tdata, (d log (dsmRequest b.tdata)).rc)])
      else .next (b, log ++ [(dsmRequest b.tdata, (d log (dsmRequest b.tdata)).rc)])) := by
    rw [ataTrimSend, if_neg hz]
    simp only [hrun, Option.bind_eq_bind, Option.bind_some, execCmdAtaTf_ataTrim]
    split <;> simp
  rw [hturn]
  by_cases hrc : (d log (dsmRequest b.tdata)).rc = 0
  · right
    refine ⟨_, by rw [if_neg (not_not.2 hrc)], ⟨hb.filled.restart, ?_, hb.rest, hsent'⟩, ?_⟩
    · exact hstart.trans hb.start.le
    · have := hb.start
      simp only
      omega
  · left
    refine ⟨_, by rw [if_pos hrc], ?_, fun h => absurd h (by simp), fun h => absurd (h _ _) hrc⟩
    rw [hsent']
    exact Set.Ico_subset_Ico_right (Nat.sub_le _ _)

/-! ## The result -/

theorem execCmdAta_trim (fuel : Nat) (drive : DeviceHandle) (d : Device Cdb) (start count : U64)
    (log : Log Cdb) :
    execCmdAta fuel drive d.driver .trim .none none 0 [start, count] log =
      ataTrim (execCmdAtaTf drive d.driver) fuel drive none [start, count] log := rfl

/-- The number of blocks asked for. -/
theorem toNat_trimLength {lbaCount start : U64} (count : U64) (hstart : start ≤ lbaCount) :
    start.toNat + (if count = 0 then lbaCount - start else count).toNat =
      (requested lbaCount.toNat start.toNat count.toNat).hi := by
  have hle : start.toNat ≤ lbaCount.toNat := hstart
  by_cases h : count = 0
  · have hz : count.toNat = 0 := by rw [h]; rfl
    rw [if_pos h, BitVec.toNat_sub_of_le hstart]
    simp only [requested, if_pos hz]
    omega
  · have hne : count.toNat ≠ 0 := fun h' => h (BitVec.eq_of_toNat_eq h')
    simp only [requested, if_neg h, if_neg hne]

/-- **ATA TRIM is exact.** On a drive that supports it, for a range within the disk, `trim` comes
back; the blocks of all payloads it sent lie in the range; they are the whole range when it
returns 0; and it returns 0 when the device completes every command. -/
theorem trim_ata_exact {drive : DeviceHandle} (d : Device Cdb) (start count : U64)
    (hsup : drive.info.supportsTrim) (hcap : drive.info.LBACount.toNat ≤ 2 ^ 48)
    (hstart : start ≤ drive.info.LBACount)
    (hrange : start.toNat + count.toNat ≤ drive.info.LBACount.toNat) :
    Ends (fun fuel => trim drive (execCmdAta fuel drive d.driver) start count [])
      fun r =>
        dsmTrimmed r.2.sent ⊆
          (requested drive.info.LBACount.toNat start.toNat count.toNat).points ∧
        (r.1 = 0 → dsmTrimmed r.2.sent =
          (requested drive.info.LBACount.toNat start.toNat count.toNat).points) ∧
        (d.Accepts → r.1 = 0) := by
  have hlen := toNat_trimLength count hstart
  generalize hl : (if count = 0 then drive.info.LBACount - start else count) = length at hlen
  set e := (requested drive.info.LBACount.toNat start.toNat count.toNat).hi with he
  have hcap' : e ≤ 2 ^ 48 := by
    refine le_trans ?_ hcap
    rw [he, requested]
    split
    · exact le_refl _
    · exact hrange
  have hcur : e - length.toNat = start.toNat := by omega
  have hinit : SendInv start.toNat e (⟨0, zeroed, start, length⟩, []) := by
    refine ⟨?_, hcur.ge, fun _ => hlen, ?_⟩
    · simp only [hcur]
      exact Filled.zeroed _
    · simp [hcur, dsmTrimmed]
  refine ⟨length.toNat + 64, fun n hn => ?_⟩
  obtain ⟨⟨rc, log⟩, hrun, hr⟩ := ataTrimSend_ends hcap' drive d hinit (n := n) (by omega)
    (by simp only; omega)
  refine ⟨(if rc ≠ 0 then -1 else 0, log), ?_, hr.within, fun h => hr.exact ?_, fun h => ?_⟩
  · simp only [trim, hsup, Bool.not_true, Bool.false_eq_true, if_false, execCmdAta_trim, ataTrim,
      hl, hrun, Option.bind_eq_bind, Option.bind_some]
  · by_contra hne
    simp [hne] at h
  · have hrc : rc = 0 := hr.accepted h
    simp [hrc]

/-- A drive of 200000 blocks. -/
def trimSample : DeviceHandle := { info := { supportsTrim := true, LBACount := 200000 } }

/-- A range that starts beyond the first block, on a device that completes every command. -/
theorem trim_ata_exact_sample :
    Ends (fun fuel => trim trimSample
        (execCmdAta fuel trimSample (Device.driver fun _ req => ⟨0, req.cdb, []⟩)) 7 100000 [])
      fun r => dsmTrimmed r.2.sent ⊆ (requested 200000 7 100000).points ∧
        (r.1 = 0 → dsmTrimmed r.2.sent = (requested 200000 7 100000).points) ∧
        (Device.Accepts (fun (_ : Log Cdb) (req : Request Cdb) => ⟨0, req.cdb, []⟩) → r.1 = 0) :=
  trim_ata_exact (fun _ req => ⟨0, req.cdb, []⟩) 7 100000
    (show trimSample.info.supportsTrim from rfl) (by decide) (by decide) (by decide)

end Drive
