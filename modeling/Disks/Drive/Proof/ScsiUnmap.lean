import Disks.Drive.Proof.AtaTrim

/-!
# SCSI UNMAP covers exactly the requested range

Every parameter list holds one block descriptor (`scsiTrimFill_run`), so the lists sent stand for
consecutive ranges (`Span.Tiles`).

* `unmapList_sent`: what a device reads in the request of one turn.
* `scsiTrimSend_ends`: the loop, by the total rule.
* `trim_scsi_exact`: **the result for `trim` on a SCSI drive**, for ranges that end within the
  64-bit block addresses. `trim_scsi_wraps` shows the descriptors of one that does not.
-/

namespace Drive

open Bytes Loop

/-! ## One parameter list -/

/-- The blocks of one descriptor. -/
def chunkOf (chunkSize : U32) (length : U64) : Nat := min length.toNat chunkSize.toNat

/-- The buffer after its only descriptor. -/
def unmapBuf (chunkSize : U32) (s : TrimBuf) : TrimBuf :=
  let chunk : U64 := chunkSize.setWidth 64
  let tdata := poke s.tdata 8 (scsiTrimEntry chunkSize { s with i := 8 })
  if s.length ≤ chunk then { i := 24, tdata, pos := s.pos, length := 0 }
  else ⟨24, tdata, s.pos + chunk, s.length - chunk⟩

theorem scsiTrimFill_run (chunkSize : U32) (s : TrimBuf) {n : Nat} (hn : 2 ≤ n) :
    run (scsiTrimFill chunkSize) n ({ s with i := 8 }, 0) = some (unmapBuf chunkSize s) := by
  obtain ⟨n, rfl⟩ : ∃ k, n = k + 2 := ⟨n - 2, by omega⟩
  by_cases h : s.length ≤ chunkSize.setWidth 64
  · rw [run_stop (r := unmapBuf chunkSize s)]
    simp only [scsiTrimFill, unmapBuf, h]
    rfl
  · have hnext : scsiTrimFill chunkSize ({ s with i := 8 }, 0) =
        some (.next (unmapBuf chunkSize s, 1)) := by
      simp only [scsiTrimFill, unmapBuf, h]
      rfl
    have hstop : scsiTrimFill chunkSize (unmapBuf chunkSize s, 1) =
        some (.stop (unmapBuf chunkSize s)) := by
      simp only [scsiTrimFill, unmapBuf, h]
      rfl
    rw [run_next hnext, run_stop hstop]

@[simp] theorem unmapBuf_i (chunkSize : U32) (s : TrimBuf) : (unmapBuf chunkSize s).i = 24 := by
  rw [unmapBuf]
  split <;> rfl

theorem unmapBuf_tdata (chunkSize : U32) (s : TrimBuf) : (unmapBuf chunkSize s).tdata =
    poke s.tdata 8 (beBytes 8 s.pos ++ beBytes 4
      (if s.length < chunkSize.setWidth 64 then s.length else chunkSize.setWidth 64)) := by
  rw [unmapBuf]
  split <;> rfl

/-- What is left after a list. -/
theorem unmapBuf_length (chunkSize : U32) (s : TrimBuf) :
    (unmapBuf chunkSize s).length.toNat = s.length.toNat - chunkOf chunkSize s.length := by
  have hc : (chunkSize.setWidth 64).toNat = chunkSize.toNat := by
    rw [BitVec.toNat_setWidth]
    exact Nat.mod_eq_of_lt (by omega)
  rw [unmapBuf, chunkOf]
  split <;> rename_i h <;> rw [BitVec.le_def, hc] at h
  · simp
    omega
  · simp only
    rw [BitVec.toNat_sub_of_le (by rw [BitVec.le_def, hc]; omega), hc]
    omega

theorem unmapBuf_pos {chunkSize : U32} {s : TrimBuf}
    (hleft : (unmapBuf chunkSize s).length.toNat ≠ 0)
    (hfit : s.pos.toNat + s.length.toNat ≤ 2 ^ 64) :
    (unmapBuf chunkSize s).pos.toNat = s.pos.toNat + chunkOf chunkSize s.length := by
  have hc : (chunkSize.setWidth 64).toNat = chunkSize.toNat := by
    rw [BitVec.toNat_setWidth]
    exact Nat.mod_eq_of_lt (by omega)
  have hlen := unmapBuf_length chunkSize s
  rw [chunkOf] at hlen ⊢
  have hgt : ¬ s.length ≤ chunkSize.setWidth 64 := by
    rw [BitVec.le_def, hc]
    omega
  rw [unmapBuf, if_neg hgt]
  rw [BitVec.le_def, hc] at hgt
  simp only
  rw [BitVec.toNat_add_of_lt (by omega), hc]
  omega

/-- The UNMAP command block for a list of `i` bytes. -/
def unmapCdb (i : Nat) : Cdb :=
  #v[SCSI_OP_UNMAP, 0x00, 0, 0, 0, 0, 0x00, byteAt (BitVec.ofNat 64 i) 1,
    byteAt (BitVec.ofNat 64 i) 0, 0, 0, 0, 0, 0, 0, 0]

/-- The request that carries a parameter list. -/
def unmapRequest (b : TrimBuf) : Request Cdb :=
  ⟨.write, unmapCdb b.i, some ((scsiTrimHeader b).take b.i), b.i⟩

/-- The fields of a parameter list with one descriptor. -/
theorem slice_unmap {buf h₁ h₂ lba count : List Byte} (hbuf : buf.length = 512)
    (hh₁ : h₁.length = 2) (hh₂ : h₂.length = 2) (hlba : lba.length = 8)
    (hcount : count.length = 4) :
    let list := (poke (poke buf 8 (lba ++ count)) 0 (h₁ ++ h₂)).take 24
    slice list 0 2 = h₁ ∧ slice list 2 2 = h₂ ∧ slice list 8 8 = lba ∧ slice list 16 4 = count := by
  intro list
  simp only [list, poke_append, hh₁, hlba, Nat.zero_add]
  refine ⟨?_, ?_, ?_, ?_⟩
  · rw [slice_take (by omega), slice_poke_disjoint (by omega)]
    exact hh₁ ▸ slice_poke_same (by simp [hbuf, hh₁])
  · rw [slice_take (by omega)]
    exact hh₂ ▸ slice_poke_same (by simp [hbuf, hh₂])
  · rw [slice_take (by omega), slice_poke_disjoint (by omega), slice_poke_disjoint (by omega),
      slice_poke_disjoint (by omega)]
    exact hlba ▸ slice_poke_same (by simp [hbuf, hlba])
  · rw [slice_take (by omega), slice_poke_disjoint (by omega), slice_poke_disjoint (by omega)]
    exact hcount ▸ slice_poke_same (by simp [hbuf, hcount])

/-- **What a device reads in one list**: the length fields of one descriptor, and the blocks from
the cursor on. -/
theorem unmapList_sent (chunkSize : U32) {s : TrimBuf} (hlen : s.tdata.length = 512) :
    unmapList (unmapRequest (unmapBuf chunkSize s)) = some {
      listLength := 24, dataLength := 22, descLength := 16
      spans := [blocks s.pos.toNat (chunkOf chunkSize s.length)] } := by
  have hlba : be (beBytes 8 s.pos) = s.pos.toNat := be_beBytes_of_lt (by omega)
  have hcount : be (beBytes 4 (if s.length < chunkSize.setWidth 64 then s.length
      else chunkSize.setWidth 64)) = chunkOf chunkSize s.length := by
    have hc : (chunkSize.setWidth 64).toNat = chunkSize.toNat := by
      rw [BitVec.toNat_setWidth]
      exact Nat.mod_eq_of_lt (by omega)
    rw [chunkOf, be_beBytes_of_lt] <;> split <;> rename_i h <;> rw [BitVec.lt_def, hc] at h <;>
      omega
  obtain ⟨h₀, h₂, h₈, h₁₆⟩ := slice_unmap hlen (length_beBytes 2 (BitVec.ofNat 32 22))
    (length_beBytes 2 (BitVec.ofNat 32 16)) (length_beBytes 8 s.pos)
    (length_beBytes 4 (if s.length < chunkSize.setWidth 64 then s.length
      else chunkSize.setWidth 64))
  have hdesc : be (beBytes 2 (BitVec.ofNat 32 16)) = 16 := by decide
  have hdata : be (beBytes 2 (BitVec.ofNat 32 22)) = 22 := by decide
  have hlist : be (slice (unmapCdb 24).toList 7 2) = 24 := by decide
  have hop : (unmapCdb 24).byte 0 = 0x42 := rfl
  have hcdb : (unmapRequest (unmapBuf chunkSize s)).cdb = unmapCdb 24 := by
    rw [unmapRequest, unmapBuf_i]
  have hreq : (unmapRequest (unmapBuf chunkSize s)).data = some ((poke (poke s.tdata 8
      (beBytes 8 s.pos ++ beBytes 4 (if s.length < chunkSize.setWidth 64 then s.length
        else chunkSize.setWidth 64))) 0
      (beBytes 2 (BitVec.ofNat 32 22) ++ beBytes 2 (BitVec.ofNat 32 16))).take 24) := by
    rw [unmapRequest, scsiTrimHeader, unmapBuf_i, unmapBuf_tdata]
  rw [unmapList, hreq]
  simp only [hcdb, hop, ne_eq, not_true_eq_false, if_false, hlist, h₀, h₂, hdesc, hdata,
    Nat.reduceDiv, List.range_one, List.map_cons, List.map_nil, unmapSpan, Nat.mul_zero,
    Nat.add_zero, h₈, h₁₆, hlba, hcount]

/-! ## The sending loop -/

/-- Sending one parameter list. -/
theorem execCmdScsiCdb_scsiTrim (d : Device Cdb) (b : TrimBuf) (log : Log Cdb) :
    ∃ parms, execCmdScsiCdb d.driver .scsiTrim .write (some ((scsiTrimHeader b).take b.i)) b.i
        [BitVec.ofNat 64 b.i] log =
      some ⟨if (d log (unmapRequest b)).rc ≠ 0 then -1 else 0, (scsiTrimHeader b).take b.i, parms,
        log ++ [(unmapRequest b, (d log (unmapRequest b)).rc)]⟩ := by
  have hload : loadCdbScsi .scsiTrim [BitVec.ofNat 64 b.i] = some (unmapCdb b.i) := rfl
  have hdrv : d.driver (unmapRequest b) log = _ := d.driver_write _ _ b.i log
  rw [unmapRequest] at hdrv ⊢
  simp only [execCmdScsiCdb, hload, Option.bind_eq_bind, Option.bind_some, hdrv]
  split
  · exact ⟨_, rfl⟩
  · exact ⟨_, rfl⟩

/-- What has been sent when the cursor is at `c`. -/
structure UnmapSent (chunkSize : U32) (a c : Nat) (sent : List (Request Cdb)) : Prop where
  lists : ∀ req ∈ sent, ∃ u, unmapList req = some u ∧ u.Consistent req
  small : ∀ s ∈ unmapSpans sent, s.hi - s.lo ≤ chunkSize.toNat
  tiles : Span.Tiles (unmapSpans sent) a c

theorem UnmapSent.nil (chunkSize : U32) (a : Nat) : UnmapSent chunkSize a a [] :=
  ⟨by simp, by simp [unmapSpans], rfl⟩

/-- One more list. -/
theorem UnmapSent.snoc {chunkSize : U32} {a : Nat} {s : TrimBuf} {sent : List (Request Cdb)}
    (h : UnmapSent chunkSize a s.pos.toNat sent) (hlen : s.tdata.length = 512)
    (hchunk : 0 < chunkOf chunkSize s.length) :
    UnmapSent chunkSize a (s.pos.toNat + chunkOf chunkSize s.length)
      (sent ++ [unmapRequest (unmapBuf chunkSize s)]) := by
  have hu := unmapList_sent chunkSize hlen
  have hspans : unmapSpans (sent ++ [unmapRequest (unmapBuf chunkSize s)]) =
      unmapSpans sent ++ [blocks s.pos.toNat (chunkOf chunkSize s.length)] := by
    simp [unmapSpans, hu]
  have hi : (unmapBuf chunkSize s).i = 24 := unmapBuf_i chunkSize s
  have hbuf : ((scsiTrimHeader (unmapBuf chunkSize s)).take 24).length = 24 := by
    rw [List.length_take, scsiTrimHeader, length_poke, unmapBuf_tdata, length_poke, hlen]
    rfl
  refine ⟨?_, ?_, ?_⟩
  · intro req hreq
    rcases List.mem_append.1 hreq with hreq | hreq
    · exact h.lists req hreq
    · rw [List.mem_singleton.1 hreq]
      refine ⟨_, hu, rfl, rfl, rfl, hi, ?_⟩
      simp only [unmapRequest, hi, Option.map_some, hbuf]
  · rw [hspans]
    intro t ht
    rcases List.mem_append.1 ht with ht | ht
    · exact h.small t ht
    · rw [List.mem_singleton.1 ht, chunkOf, blocks]
      simp
  · rw [hspans]
    exact h.tiles.snoc (by omega)

/-- Between two lists. -/
structure UnmapInv (chunkSize : U32) (a e : Nat) (s : TrimBuf × Log Cdb) : Prop where
  buf : s.1.tdata.length = 512
  rest : s.1.length.toNat ≠ 0 → s.1.pos.toNat + s.1.length.toNat = e
  sent : UnmapSent chunkSize a (e - s.1.length.toNat) s.2.sent

/-- What the loop returns. -/
structure Unmapped (d : Device Cdb) (chunkSize : U32) (a e : Nat) (r : Int × Log Cdb) : Prop where
  sent : ∃ c ≤ e, UnmapSent chunkSize a c r.2.sent ∧ (r.1 = 0 → c = e)
  accepted : d.Accepts → r.1 = 0

/-- The variables after a list was sent: its head is filled in too. -/
def unmapNext (chunkSize : U32) (s : TrimBuf) : TrimBuf :=
  { unmapBuf chunkSize s with tdata := scsiTrimHeader (unmapBuf chunkSize s) }

/-- One turn with blocks left. -/
theorem scsiTrimSend_turn (chunkSize : U32) (d : Device Cdb) {s : TrimBuf} (hz : s.length ≠ 0)
    (log : Log Cdb) {n : Nat} (hn : 2 ≤ n) :
    let b := unmapBuf chunkSize s
    let log' := log ++ [(unmapRequest b, (d log (unmapRequest b)).rc)]
    scsiTrimSend (execCmdScsiCdb d.driver) n chunkSize (s, log) =
      some (if (d log (unmapRequest b)).rc ≠ 0 then .stop (-1, log')
        else .next (unmapNext chunkSize s, log')) := by
  intro b log'
  obtain ⟨parms, hexec⟩ := execCmdScsiCdb_scsiTrim d b log
  rw [scsiTrimSend, if_neg hz]
  have hrun : run (scsiTrimFill chunkSize) n ({ s with i := 8 }, 0) = some b :=
    scsiTrimFill_run chunkSize s hn
  simp only [hrun, Option.bind_eq_bind, Option.bind_some, hexec, List.take_append_drop]
  split <;> simp [log', unmapNext, b]

theorem scsiTrimSend_ends {a e : Nat} {chunkSize : U32} (he : e ≤ 2 ^ 64)
    (hchunk : 0 < chunkSize.toNat) (d : Device Cdb) {s : TrimBuf × Log Cdb}
    (hs : UnmapInv chunkSize a e s) {n : Nat} (hn : 2 ≤ n) (hlen : s.1.length.toNat < n) :
    ∃ r, run (scsiTrimSend (execCmdScsiCdb d.driver) n chunkSize) n s = some r ∧
      Unmapped d chunkSize a e r := by
  refine run_total (fun s => s.1.length.toNat) ?_ hs hlen
  rintro ⟨s, log⟩ ⟨hbuf, hrest, hsent⟩
  simp only at hbuf hrest hsent ⊢
  by_cases hz : s.length = 0
  · left
    refine ⟨(0, log), by rw [scsiTrimSend, if_pos hz], ⟨e, le_refl e, ?_, fun _ => rfl⟩,
      fun _ => rfl⟩
    rw [hz] at hsent
    exact hsent
  have hne : s.length.toNat ≠ 0 := fun h => hz (BitVec.eq_of_toNat_eq h)
  have hpos : e - s.length.toNat = s.pos.toNat := by have := hrest hne; omega
  have hstep : 0 < chunkOf chunkSize s.length := by rw [chunkOf]; omega
  have hb := unmapBuf_length chunkSize s
  rw [scsiTrimSend_turn chunkSize d hz log hn]
  set b := unmapBuf chunkSize s with hbdef
  have hsent' : UnmapSent chunkSize a (s.pos.toNat + chunkOf chunkSize s.length)
      (log ++ [(unmapRequest b, (d log (unmapRequest b)).rc)]).sent := by
    rw [Log.sent_append, Log.sent_singleton]
    exact (hpos ▸ hsent).snoc hbuf hstep
  have hcur : s.pos.toNat + chunkOf chunkSize s.length = e - b.length.toNat := by
    rw [hb, chunkOf]
    omega
  by_cases hrc : (d log (unmapRequest b)).rc = 0
  · right
    refine ⟨_, by rw [if_neg (not_not.2 hrc)], ⟨?_, fun hleft => ?_, hcur ▸ hsent'⟩, ?_⟩
    · simp only [unmapNext, scsiTrimHeader, length_poke]
      rw [unmapBuf_tdata, length_poke, hbuf]
    · have hpos' : (unmapBuf chunkSize s).pos.toNat = s.pos.toNat + chunkOf chunkSize s.length :=
        unmapBuf_pos hleft (by rw [hrest hne]; exact he)
      simp only [unmapNext] at hleft ⊢
      rw [hpos', hcur, ← hbdef]
      omega
    · simp only [unmapNext, ← hbdef]
      omega
  · left
    refine ⟨_, by rw [if_pos hrc], ⟨e - b.length.toNat, Nat.sub_le _ _, hcur ▸ hsent',
      fun h => absurd h (by simp)⟩, fun h => absurd (h _ _) hrc⟩

/-! ## The result -/

/-- `trim` comes back; every parameter list it sent is consistent; the descriptors are non-empty,
within the device's limit and pairwise disjoint; they lie in the requested range and are all of it
when `trim` returns 0; and it returns 0 when the device completes every command. -/
def UnmapExact (drive : DeviceHandle) (d : Device Cdb) (start count : U64) : Prop :=
  Ends (fun fuel => trim drive (execCmdScsi fuel drive d.driver) start count []) fun r =>
    (∀ req ∈ r.2.sent, ∃ u, unmapList req = some u ∧ u.Consistent req) ∧
    (∀ s ∈ unmapSpans r.2.sent,
      s.lo < s.hi ∧ s.hi - s.lo ≤ drive.info.maxUnmapLBACount.toNat) ∧
    (unmapSpans r.2.sent).Pairwise (fun s t => Disjoint s.points t.points) ∧
    Span.cover (unmapSpans r.2.sent) ⊆
      (requested drive.info.LBACount.toNat start.toNat count.toNat).points ∧
    (r.1 = 0 → Span.cover (unmapSpans r.2.sent) =
      (requested drive.info.LBACount.toNat start.toNat count.toNat).points) ∧
    (d.Accepts → r.1 = 0)

/-- `trim` on a SCSI drive is its sending loop. -/
theorem trim_scsi_eq {drive : DeviceHandle} (hsup : drive.info.supportsTrim) (d : Device Cdb)
    (start count : U64) (fuel : Nat) {r : Int × Log Cdb}
    (hrun : run (scsiTrimSend (execCmdScsiCdb d.driver) fuel drive.info.maxUnmapLBACount) fuel
      (⟨0, zeroed, start, if count = 0 then drive.info.LBACount - start else count⟩, []) =
        some r) :
    trim drive (execCmdScsi fuel drive d.driver) start count [] =
      some (if r.1 ≠ 0 then -1 else 0, r.2) := by
  have hexec : execCmdScsi fuel drive d.driver .trim .none none 0 [start, count] [] =
      scsiTrim (execCmdScsiCdb d.driver) fuel drive none [start, count] [] := rfl
  simp only [trim, hsup, Bool.not_true, Bool.false_eq_true, if_false, hexec, scsiTrim, hrun,
    Option.bind_eq_bind, Option.bind_some]

/-- **SCSI UNMAP is exact** for a range that ends within the 64-bit block addresses. -/
theorem trim_scsi_exact {drive : DeviceHandle} (d : Device Cdb) (start count : U64)
    (hsup : drive.info.supportsTrim) (hmax : 0 < drive.info.maxUnmapLBACount.toNat)
    (hstart : start ≤ drive.info.LBACount) (hfit : start.toNat + count.toNat ≤ 2 ^ 64) :
    UnmapExact drive d start count := by
  have hlen := toNat_trimLength count hstart
  generalize hl : (if count = 0 then drive.info.LBACount - start else count) = length at hlen
  rw [UnmapExact]
  set e := (requested drive.info.LBACount.toNat start.toNat count.toNat).hi with he
  have hpoints : (requested drive.info.LBACount.toNat start.toNat count.toNat).points =
      Set.Ico start.toNat e := rfl
  have he' : e ≤ 2 ^ 64 := by
    rw [he, requested]
    split
    · exact drive.info.LBACount.isLt.le
    · exact hfit
  have hcur : e - length.toNat = start.toNat := by omega
  have hinit : UnmapInv drive.info.maxUnmapLBACount start.toNat e
      (⟨0, zeroed, start, length⟩, []) := by
    refine ⟨List.length_replicate, fun _ => hlen, ?_⟩
    simp only [hcur]
    exact .nil _ _
  refine ⟨length.toNat + 2, fun n hn => ?_⟩
  obtain ⟨⟨rc, log⟩, hrun, ⟨c, hc, hsent, hexact⟩, hacc⟩ := scsiTrimSend_ends he' hmax d hinit
    (n := n) (by omega) (by simp only; omega)
  refine ⟨_, trim_scsi_eq hsup d start count n (hl ▸ hrun), hsent.lists, fun s hs => ?_,
    hsent.tiles.disjoint, ?_, fun h => ?_, fun h => ?_⟩
  · exact ⟨(hsent.tiles.bounds hs).2.1, hsent.small s hs⟩
  · rw [hpoints]
    exact hsent.tiles.cover_eq.subset.trans (Set.Ico_subset_Ico_right hc)
  · have hrc : rc = 0 := by
      by_contra hne
      simp [hne] at h
    rw [hpoints, hsent.tiles.cover_eq, hexact hrc]
  · have hrc : rc = 0 := hacc h
    simp [hrc]

/-- A device that completes every command. -/
def acceptAll : Device Cdb := fun _ req => ⟨0, req.cdb, []⟩

/-- A drive with a limit smaller than the range. -/
def unmapDrive (lbaCount : U64) (maxUnmap : U32) : DeviceHandle :=
  { info := { supportsTrim := true, LBACount := lbaCount, maxUnmapLBACount := maxUnmap } }

theorem trim_scsi_exact_sample : UnmapExact (unmapDrive 200000 4096) acceptAll 7 100000 :=
  trim_scsi_exact acceptAll 7 100000 (show (unmapDrive 200000 4096).info.supportsTrim from rfl)
    (by decide) (by decide) (by decide)

/-- Two turns of the sending loop on a device that completes every command. -/
theorem scsiTrimSend_two {chunkSize : U32} {s : TrimBuf} (hz : s.length ≠ 0)
    (hz₁ : (unmapNext chunkSize s).length ≠ 0)
    (hz₂ : (unmapNext chunkSize (unmapNext chunkSize s)).length = 0) (n : Nat) :
    run (scsiTrimSend (execCmdScsiCdb acceptAll.driver) (n + 3) chunkSize) (n + 3) (s, []) =
      some (0, [(unmapRequest (unmapBuf chunkSize s), 0),
        (unmapRequest (unmapBuf chunkSize (unmapNext chunkSize s)), 0)]) := by
  have t₁ := scsiTrimSend_turn chunkSize acceptAll hz [] (n := n + 3) (by omega)
  have t₂ := scsiTrimSend_turn chunkSize acceptAll hz₁
    [(unmapRequest (unmapBuf chunkSize s), 0)] (n := n + 3) (by omega)
  refine (run_next (n := n + 2) t₁).trans ((run_next (n := n + 1) t₂).trans (run_stop ?_))
  rw [scsiTrimSend, if_pos hz₂]
  rfl

/-- Two blocks from the last 64-bit address on, one at a time: the second descriptor is of
block 0. -/
theorem trim_scsi_wraps :
    (unmapDrive (-1) 1).info.supportsTrim ∧ 0 < (unmapDrive (-1) 1).info.maxUnmapLBACount.toNat ∧
      (-1 : U64) ≤ (unmapDrive (-1) 1).info.LBACount ∧
      ¬ UnmapExact (unmapDrive (-1) 1) acceptAll (-1) 2 := by
  refine ⟨rfl, by decide, by decide, ?_⟩
  rintro ⟨n, h⟩
  obtain ⟨r, hr, -, -, -, hwithin, -⟩ := h (n + 3) (by omega)
  let s : TrimBuf := ⟨0, zeroed, -1, 2⟩
  have hs₁ : (unmapNext 1 s).length = 1 ∧ (unmapNext 1 s).pos = 0 := by
    rw [unmapNext, unmapBuf, if_neg (by decide)]
    exact ⟨by decide, by decide⟩
  have hs₂ : (unmapNext 1 (unmapNext 1 s)).length = 0 := by
    rw [unmapNext, unmapBuf, if_pos (by rw [hs₁.1]; decide)]
  have hbuf : (unmapNext 1 s).tdata.length = 512 := by
    simp only [unmapNext, scsiTrimHeader, length_poke, unmapBuf_tdata]
    exact List.length_replicate
  have hrun := scsiTrimSend_two (s := s) (by decide) (by rw [hs₁.1]; decide) hs₂ n
  have hout := hr.symm.trans
    (trim_scsi_eq (show (unmapDrive (-1) 1).info.supportsTrim from rfl) acceptAll (-1) 2 (n + 3)
      hrun)
  rw [Option.some.injEq] at hout
  have hspan : blocks 0 1 ∈ unmapSpans r.2.sent := by
    have hu := unmapList_sent 1 hbuf
    rw [hs₁.1, hs₁.2] at hu
    simp only [hout, unmapSpans, Log.sent, List.map_cons, List.flatMap_cons, List.mem_append]
    exact .inr (.inl (by rw [hu]; exact List.mem_singleton.2 rfl))
  have hmem : 0 ∈ Span.cover (unmapSpans r.2.sent) := ⟨_, hspan, by simp [points_blocks]⟩
  exact absurd (hwithin hmem).1 (by decide)

end Drive
