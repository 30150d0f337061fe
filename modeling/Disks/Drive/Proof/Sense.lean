import Disks.Drive.Ata
import Disks.Drive.Transport

/-!
# The ATA registers in the sense data

What the command block is after `sgio_cmd`, and what `exec_cmd_ata` makes of it, next to what the
sense data say: a list of descriptors, of which one may be the ATA Status Return descriptor.

* `ataReturn`: the descriptor that the sense data hold.
* `holds_copySense_iff`: what a copy of the sense data leaves.
* `sgioReply_extracts_iff`: **the registers are handed on exactly when** the list begins with them
  and is no longer than the command block, or nothing is copied and there are none.
-/

namespace Drive

open Bytes

/-! ## The sense data -/

/-- Response code 72h (current) or 73h (deferred). -/
def DescriptorFormat (sb : Vector Byte 32) : Prop :=
  responseCode sb = 0x72 ∨ responseCode sb = 0x73

instance (sb : Vector Byte 32) : Decidable (DescriptorFormat sb) :=
  inferInstanceAs (Decidable (_ ∨ _))

/-- The list of descriptors, as far as the buffer goes: byte 7 is its length. -/
def senseList (sb : Vector Byte 32) : List Byte :=
  if DescriptorFormat sb then slice sb.toList 8 (additionalLength sb).toNat else []

/-- The 14 bytes of the ATA Status Return descriptor. -/
def ataReturn (sb : Vector Byte 32) : Option (List Byte) :=
  descriptor 0x09 0x0c 0 (senseList sb)

/-- A command block holds the registers of the sense data, or zeros where there are none. -/
def HoldsReturn (sb : Vector Byte 32) (cdb : Cdb) : Prop :=
  match ataReturn sb with
  | some d => cdb.toList.take 14 = d
  | none => cdb = .replicate 16 0

instance (sb : Vector Byte 32) (cdb : Cdb) : Decidable (HoldsReturn sb cdb) := by
  unfold HoldsReturn
  split <;> infer_instance

/-- **The registers are handed on**: the command block holds them, and `exec_cmd_ata` takes nothing
from a block without them. -/
structure Extracts (sb : Vector Byte 32) (reply : Reply Cdb) : Prop where
  holds : HoldsReturn sb reply.cdb
  read : reply.rc = 0 → ataReturn sb = none → ∀ drive command tf parms,
    checkCdbAta drive command tf reply.cdb parms = (0, memsetParms parms)

/-! ## What is in the list -/

theorem ataReturn_some {sb : Vector Byte 32} {d : List Byte} (h : ataReturn sb = some d) :
    DescriptorFormat sb ∧ 14 ≤ (additionalLength sb).toNat ∧
      ∃ value, d = 0x09 :: 0x0c :: value := by
  obtain ⟨hlen, value, hd, hvalue⟩ := descriptor_some h
  have hlist : 14 ≤ (senseList sb).length := by
    rw [hd, List.length_cons, List.length_cons, hvalue] at hlen
    exact hlen
  unfold senseList at hlist
  split at hlist
  · rename_i hformat
    refine ⟨hformat, ?_, value, hd⟩
    exact hlist.trans (List.length_take_le ..)
  · cases hlist

/-- The ATA Status Return descriptor is the first of the list. -/
structure HeadsList (sb : Vector Byte 32) : Prop where
  format : DescriptorFormat sb
  length : 14 ≤ (additionalLength sb).toNat
  code : sb[8] = 0x09
  additional : sb[9] = 0x0c

instance (sb : Vector Byte 32) : Decidable (HeadsList sb) :=
  decidable_of_iff (DescriptorFormat sb ∧ 14 ≤ (additionalLength sb).toNat ∧ sb[8] = 0x09 ∧
      sb[9] = 0x0c)
    ⟨fun ⟨hformat, hlength, hcode, hadditional⟩ => ⟨hformat, hlength, hcode, hadditional⟩,
      fun h => ⟨h.format, h.length, h.code, h.additional⟩⟩

theorem slice_sense (sb : Vector Byte 32) {n : Nat} (h : 2 ≤ n) :
    slice sb.toList 8 n = sb[8] :: sb[9] :: slice sb.toList 10 (n - 2) := by
  obtain ⟨m, rfl⟩ : ∃ m, n = m + 2 := ⟨n - 2, by omega⟩
  have hdrop : sb.toList.drop 8 = sb[8] :: sb[9] :: sb.toList.drop 10 := by
    rw [List.drop_eq_getElem_cons (by simp), List.drop_eq_getElem_cons (by simp)]
    simp
  rw [slice, hdrop]
  rfl

theorem HeadsList.ataReturn {sb : Vector Byte 32} (h : HeadsList sb) :
    ataReturn sb = some (slice sb.toList 8 14) := by
  have hlength := h.length
  have hrest : (0x0c : Byte).toNat ≤
      (slice sb.toList 10 ((additionalLength sb).toNat - 2)).length := by
    rw [slice, List.length_take, List.length_drop, Vector.length_toList]
    exact le_min (by omega : 12 ≤ (additionalLength sb).toNat - 2) (by decide)
  have htake : (slice sb.toList 10 ((additionalLength sb).toNat - 2)).take (0x0c : Byte).toNat =
      slice sb.toList 10 12 := by
    rw [slice, List.take_take]
    exact congrArg (sb.toList.drop 10).take
      (min_eq_left (by omega : 12 ≤ (additionalLength sb).toNat - 2))
  rw [Drive.ataReturn, senseList, if_pos h.format,
    slice_sense sb (by omega : 2 ≤ (additionalLength sb).toNat),
    slice_sense sb (by decide : 2 ≤ 14), h.code, h.additional, descriptor_head hrest, htake]

/-! ## What is copied -/

theorem holds_zeros_iff (sb : Vector Byte 32) :
    HoldsReturn sb (.replicate 16 0) ↔ ataReturn sb = none := by
  unfold HoldsReturn
  cases h : ataReturn sb with
  | none => simp
  | some d =>
    obtain ⟨-, -, value, rfl⟩ := ataReturn_some h
    simp

theorem take_copied (cdb : Cdb) (sb : Vector Byte 32) {n k : Nat} (hk : k ≤ n) (hn : n ≤ 16) :
    (copied cdb sb n).toList.take k = slice sb.toList 8 k := by
  apply List.ext_getElem
  · rw [slice, List.length_take, List.length_take, List.length_drop, Vector.length_toList,
      Vector.length_toList]
    omega
  · intro i hi _
    have hik : i < k := by
      rw [List.length_take] at hi
      omega
    simp [copied, slice, show i < n by omega]

/-- **What a copy leaves** is right when the list begins with the registers, or there are none and
only zeros are copied into zeros. -/
theorem holds_copied_iff (cdb : Cdb) (sb : Vector Byte 32) (hn : (additionalLength sb).toNat ≤ 16) :
    HoldsReturn sb (copied cdb sb (additionalLength sb).toNat) ↔
      HeadsList sb ∨ (ataReturn sb = none ∧
        copied cdb sb (additionalLength sb).toNat = .replicate 16 0) := by
  unfold HoldsReturn
  cases h : ataReturn sb with
  | none =>
    have hno : ¬ HeadsList sb := fun hheads => by
      rw [hheads.ataReturn] at h
      cases h
    simp [hno]
  | some d =>
    obtain ⟨hformat, hlength, value, rfl⟩ := ataReturn_some h
    simp only [reduceCtorEq, false_and, or_false]
    rw [take_copied cdb sb hlength hn]
    refine ⟨fun hd => ?_, fun hheads => ?_⟩
    · rw [slice_sense sb (by decide)] at hd
      obtain ⟨hcode, hd⟩ := List.cons.inj hd
      exact ⟨hformat, hlength, hcode, (List.cons.inj hd).1⟩
    · exact Option.some.inj (hheads.ataReturn.symm.trans h)

/-! ## `sgio_cmd` -/

/-- `sgio_cmd` copies: the response code is 72h, or the additional length is that of the registers
alone. -/
def Copies (sb : Vector Byte 32) : Prop := responseCode sb = 0x72 ∨ additionalLength sb = 0x0e

instance (sb : Vector Byte 32) : Decidable (Copies sb) := inferInstanceAs (Decidable (_ ∨ _))

theorem senseByte_lt (i : Fin 16) : 8 + i.val < 32 := by omega

/-- The `n` bytes of the sense data that are copied are zeros, and so is what is behind them in the
block as it was sent. -/
def ZerosLeft (cdb : Cdb) (sb : Vector Byte 32) (n : Nat) : Prop :=
  (∀ i : Fin 16, i < n → sb.get ⟨8 + i, senseByte_lt i⟩ = 0) ∧ ∀ i : Fin 16, n ≤ i → cdb.get i = 0

theorem copied_zeros_iff (cdb : Cdb) (sb : Vector Byte 32) (n : Nat) :
    copied cdb sb n = .replicate 16 0 ↔ ZerosLeft cdb sb n := by
  have hbyte (i : Nat) (hi : i < 16) : (copied cdb sb n)[i] = if i < n then sb[8 + i] else cdb[i] :=
    Vector.getElem_ofFn hi
  constructor
  · intro h
    rw [h] at hbyte
    refine ⟨fun i hi => ?_, fun i hi => ?_⟩
    · have hzero := hbyte i i.isLt
      rw [if_pos hi, Vector.getElem_replicate] at hzero
      exact hzero.symm
    · have hzero := hbyte i i.isLt
      rw [if_neg (Nat.not_lt.mpr hi), Vector.getElem_replicate] at hzero
      exact hzero.symm
  · rintro ⟨hcopied, hleft⟩
    refine Vector.ext fun i hi => ?_
    rw [hbyte i hi, Vector.getElem_replicate]
    split
    · exact hcopied ⟨i, hi⟩ ‹_›
    · exact hleft ⟨i, hi⟩ (Nat.le_of_not_lt ‹_›)

/-- The sense data that `sgio_cmd` hands on as they are: it does not look at them, and the command
block is right as it was sent; or it copies a list no longer than the block, which begins with the
registers, or has none and leaves zeros only; or it clears the block, and there are no registers. -/
def Extractable (cdb : Cdb) (io : SgIo) : Prop :=
  if io.refused then HoldsReturn io.sb cdb
  else if Copies io.sb then
    (additionalLength io.sb).toNat ≤ 16 ∧ (HeadsList io.sb ∨
      (ataReturn io.sb = none ∧ ZerosLeft cdb io.sb (additionalLength io.sb).toNat))
  else ataReturn io.sb = none

theorem sgioCdb_eq (cdb : Cdb) (sb : Vector Byte 32) :
    sgioCdb cdb sb =
      if Copies sb then
        if (additionalLength sb).toNat ≤ 16 then some (copied cdb sb (additionalLength sb).toNat)
        else none
      else some (.replicate 16 0) := rfl

/-- What `exec_cmd_ata` does with a block of zeros. -/
theorem checkCdbAta_zeros (drive : DeviceHandle) (command : CdbCommand) (tf : AtaTf)
    (parms : List U64) :
    checkCdbAta drive command tf (.replicate 16 0) parms = (0, memsetParms parms) := by
  unfold checkCdbAta
  split
  · exact if_pos (by decide)
  · rfl

/-- A block that is right is read only for registers. -/
theorem HoldsReturn.extracts {sb : Vector Byte 32} {reply : Reply Cdb}
    (h : HoldsReturn sb reply.cdb) : Extracts sb reply := by
  refine ⟨h, fun _ hnone drive command tf parms => ?_⟩
  unfold HoldsReturn at h
  rw [hnone] at h
  rw [show reply.cdb = .replicate 16 0 from h, checkCdbAta_zeros]

/-- **The registers are handed on exactly when** the sense data are `Extractable`; otherwise the
block holds something else, or the copy runs past it. -/
theorem sgioReply_extracts_iff (req : Request Cdb) (io : SgIo) :
    (∃ reply, sgioReply req io = some reply ∧ Extracts io.sb reply) ↔
      Extractable req.cdb io := by
  have hextracts {reply : Reply Cdb} : Extracts io.sb reply ↔ HoldsReturn io.sb reply.cdb :=
    ⟨Extracts.holds, HoldsReturn.extracts⟩
  unfold sgioReply Extractable
  split
  · simp [hextracts]
  rw [sgioCdb_eq]
  split
  · by_cases hn : (additionalLength io.sb).toNat ≤ 16
    · rw [if_pos hn, ← copied_zeros_iff, ← holds_copied_iff _ _ hn]
      simp [hn, hextracts]
    · simp [hn]
  · rw [← holds_zeros_iff]
    simp [hextracts]

/-- CHECK CONDITION with two descriptors: a block commands descriptor, and then the registers. -/
def twoDescriptors : SgIo where
  status := SG_CHECK_CONDITION
  driverStatus := SG_ERR_DRIVER_SENSE
  sb := #v[0x72, 0x01, 0x00, 0x1d, 0, 0, 0, 0x12, 0x05, 0x02, 0, 0, 0x09, 0x0c, 0, 0, 0, 0, 0, 0,
    0, 0x4f, 0, 0xc2, 0, 0x50, 0, 0, 0, 0, 0, 0]
  data := []

/-- The SMART RETURN STATUS command block. -/
def smartStatusCdb : Cdb :=
  loadCdbAta { smartTf SMART_OP_GET_STATUS 0 0 with checkCond := true } .none

/-- The registers behind another descriptor: the copy runs past the command block. -/
theorem registers_second :
    ¬ ∀ (req : Request Cdb) (io : SgIo), ∃ reply, sgioReply req io = some reply ∧
      Extracts io.sb reply := by
  intro h
  obtain ⟨reply, hreply, -⟩ := h ⟨.none, smartStatusCdb, none, 0⟩ twoDescriptors
  have hnone : sgioReply ⟨.none, smartStatusCdb, none, 0⟩ twoDescriptors = none := by
    decide +kernel
  rw [hnone] at hreply
  cases hreply

end Drive
