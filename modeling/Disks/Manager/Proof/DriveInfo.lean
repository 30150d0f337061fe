import Disks.Lib.Fold
import Disks.Manager.DriveInfo

/-!
# The view of a drive in Python

Both languages find the members at the same places, and what `_loadInfo` makes of them.

* `layout_eq`: one layout.
* `loadInfo_view`: no flag is ever true, and the identifier is that of the bytes read with the first
  as the most significant.
* `loadInfo_ok_iff`: what can be loaded.
* `drive_info_iff`: **the two views agree exactly where no flag is set and the identifier reads the
  same in both directions.**
* `smart_drive`: a drive with a flag and a WWN.
-/

namespace Manager

open Bytes
open Lines (strip)

/-! ## The view in C -/

def cFlag (tmp : DriveInfo) (x : Flag) : Byte := (cLayout.field tmp.toList x.member).headD 0

def cProtocol (tmp : DriveInfo) : Int :=
  (BitVec.ofNat 32 (le (cLayout.field tmp.toList .protocol))).toInt

/-- The bytes of the WWN; x86 has the least significant first. -/
def wwnBytes (tmp : DriveInfo) : List Byte := cLayout.field tmp.toList .WWN

def cWWN (tmp : DriveInfo) : Nat := le (wwnBytes tmp)

/-- A string of C: up to its first zero. -/
def cString (tmp : DriveInfo) (x : Member) : List Byte :=
  (cLayout.field tmp.toList x).takeWhile (· ≠ 0)

/-- A number of 128 bits as `WWN` or as `GUID`. -/
def identifier (n : Nat) : Text × Text :=
  if n / 2 ^ 64 = 0 then (hex 16 n, []) else ([], dashed (hex 32 n))

/-- **The view of Python is that of C**: a flag is true where the member is not zero, and the
identifier is that of the number. -/
structure Agrees (tmp : DriveInfo) (info : Info) : Prop where
  flag : ∀ x, info.flag x ↔ cFlag tmp x ≠ 0
  identifier : (info.WWN, info.GUID) = identifier (cWWN tmp)

/-! ## One layout -/

theorem layout_eq : pyLayout = cLayout := rfl

theorem length_wwnBytes (tmp : DriveInfo) : (wwnBytes tmp).length = 16 := by
  have hsize : cLayout.offset .WWN + 16 ≤ cLayout.sizeof := by decide +kernel
  have hlookup : (cLayout.lookup .WWN).getD 0 = 16 := rfl
  rw [wwnBytes, Layout.field, hlookup, slice, List.length_take, List.length_drop,
    Vector.length_toList]
  omega

/-! ## What is loaded -/

/-- No member is ever equal to a text. -/
theorem flag_ne (tmp : DriveInfo) (x : Flag) : getattr tmp x.member ≠ .str ['\x01'] := by
  cases x <;> exact PyValue.noConfusion

/-- What is seen of the information that is loaded. -/
structure View (tmp : DriveInfo) (info : Info) : Prop where
  flag : ∀ x, info.flag x = false
  identifiers : (info.WWN, info.GUID) = identifiers (wwnBytes tmp)

theorem loadInfo_view {tmp : DriveInfo} {info : Info} (h : loadInfo tmp = .ok info) :
    View tmp info := by
  obtain ⟨_, -, h⟩ := Fold.bind_ok.mp h
  obtain ⟨_, -, h⟩ := Fold.bind_ok.mp h
  obtain ⟨_, -, h⟩ := Fold.bind_ok.mp h
  obtain ⟨_, -, h⟩ := Fold.bind_ok.mp h
  obtain ⟨_, -, h⟩ := Fold.bind_ok.mp h
  obtain ⟨_, -, h⟩ := Fold.bind_ok.mp h
  obtain ⟨_, -, h⟩ := Fold.bind_ok.mp h
  obtain ⟨_, -, h⟩ := Fold.bind_ok.mp h
  rw [← Fold.pure_ok.mp h]
  exact ⟨fun x => decide_eq_false (flag_ne tmp x), rfl⟩

/-- The strings that are read, by the protocol. -/
def strings (protocol : Int) : Option (List Member) :=
  if protocol = PROTOCOL_TYPE_ATA then some [.firmware_rev, .serial, .model]
  else if protocol = PROTOCOL_TYPE_SCSI then some [.vendor_id, .version, .serial, .model]
  else if protocol = PROTOCOL_TYPE_NVME then some [.firmware_rev, .serial, .model]
  else none

/-- A drive of a known protocol whose strings are UTF-8. -/
def Loads (tmp : DriveInfo) : Prop :=
  ∃ xs, strings (cProtocol tmp) = some xs ∧ ∀ x ∈ xs, ∃ s, decode (cString tmp x) = .ok s

theorem text_ok_iff {tmp : DriveInfo} {x : Member}
    (h : text tmp x = (decode (cString tmp x)).map strip) :
    (∃ s, text tmp x = .ok s) ↔ ∃ s, decode (cString tmp x) = .ok s := by
  rw [h]
  cases decode (cString tmp x) <;> simp [Except.map]

theorem protocolInfo_ok_iff (tmp : DriveInfo) (protocol : Int) :
    (∃ start, protocolInfo tmp protocol = .ok start) ∧
        (∃ s, decode (cString tmp .serial) = .ok s) ∧ (∃ s, decode (cString tmp .model) = .ok s) ↔
      ∃ xs, strings protocol = some xs ∧ ∀ x ∈ xs, ∃ s, decode (cString tmp x) = .ok s := by
  have hfirmware := @text_ok_iff tmp .firmware_rev rfl
  have hvendor := @text_ok_iff tmp .vendor_id rfl
  have hversion := @text_ok_iff tmp .version rfl
  have hmembers (xs : List Member) : (∃ ys, some xs = some ys ∧
      ∀ x ∈ ys, ∃ s, decode (cString tmp x) = .ok s) ↔
        ∀ x ∈ xs, ∃ s, decode (cString tmp x) = .ok s := by simp
  unfold protocolInfo strings
  split
  · rw [hmembers, List.forall_mem_cons, ← hfirmware]
    cases text tmp .firmware_rev <;> simp [bind, Except.bind, pure, Except.pure]
  split
  · rw [hmembers, List.forall_mem_cons, List.forall_mem_cons, ← hvendor, ← hversion]
    cases text tmp .vendor_id <;> cases text tmp .version <;>
      simp [bind, Except.bind, pure, Except.pure]
  split
  · rw [hmembers, List.forall_mem_cons, ← hfirmware]
    cases text tmp .firmware_rev <;> simp [bind, Except.bind, pure, Except.pure]
  · simp

theorem loadInfo_ok_iff (tmp : DriveInfo) : (∃ info, loadInfo tmp = .ok info) ↔ Loads tmp := by
  have hserial := @text_ok_iff tmp .serial rfl
  have hmodel := @text_ok_iff tmp .model rfl
  have hprotocol : number tmp .protocol = .ok (cProtocol tmp) := rfl
  rw [Loads, ← protocolInfo_ok_iff, ← hserial, ← hmodel]
  constructor
  · intro h
    obtain ⟨info, h⟩ := h
    obtain ⟨protocol, hp, h⟩ := Fold.bind_ok.mp h
    obtain rfl := Except.ok.inj (hprotocol.symm.trans hp)
    obtain ⟨start, hstart, h⟩ := Fold.bind_ok.mp h
    obtain ⟨serial, hs, h⟩ := Fold.bind_ok.mp h
    obtain ⟨model, hm, -⟩ := Fold.bind_ok.mp h
    exact ⟨⟨start, hstart⟩, ⟨serial, hs⟩, model, hm⟩
  · intro h
    obtain ⟨⟨start, hstart⟩, ⟨serial, hs⟩, model, hm⟩ := h
    unfold loadInfo
    simp only [hprotocol, hstart, hs, hm, bind, Except.bind]
    exact ⟨_, rfl⟩

/-! ## The identifier -/

theorem hex_zero (w : Nat) : hex w 0 = List.replicate w '0' := by
  induction w with
  | zero => rfl
  | succ w ih =>
    rw [hex, Nat.zero_div, ih, List.replicate_succ']
    rfl

/-- `_loadInfo` reads the array with its first byte as the most significant. -/
theorem identifiers_eq {bs : List Byte} (h : bs.length = 16) :
    identifiers bs = identifier (be bs) := by
  have hlt : be bs < 16 ^ 32 := by
    have := be_lt bs
    rw [h] at this
    exact this
  have hguid : bs.flatMap (fun b => hex 2 b.toNat) = hex 32 (be bs) := by
    rw [flatMap_hex, h]
  have hsplit : hex 32 (be bs) = hex 16 (be bs / 16 ^ 16) ++ hex 16 (be bs) := hex_append 16 16 _
  have hzero : hex 16 (be bs / 16 ^ 16) = List.replicate 16 '0' ↔ be bs / 2 ^ 64 = 0 := by
    rw [← hex_zero]
    refine ⟨fun h => hex_inj (w := 16) (by omega) (by decide) h, fun h => ?_⟩
    rw [show be bs / 16 ^ 16 = 0 from h]
  have htake : (hex 32 (be bs)).take 16 = hex 16 (be bs / 16 ^ 16) := by
    rw [hsplit, List.take_left' (length_hex ..)]
  have hdrop : (hex 32 (be bs)).drop 16 = hex 16 (be bs) := by
    rw [hsplit, List.drop_left' (length_hex ..)]
  unfold identifiers identifier
  simp only [hguid, htake, hdrop, hzero]

/-- The text without the dashes. -/
theorem dashed_inj {s t : Text} (hs : s.length = 32) (ht : t.length = 32)
    (h : dashed s = dashed t) : s = t := by
  have hcut (s : Text) : s = dashed.slice s 0 8 ++ (dashed.slice s 8 4 ++ (dashed.slice s 12 4 ++
      (dashed.slice s 16 4 ++ s.drop 20))) := by
    have hstep (i n : Nat) : s.drop i = dashed.slice s i n ++ s.drop (i + n) := by
      rw [dashed.slice, ← List.drop_drop, List.take_append_drop]
    calc s = s.drop 0 := rfl
      _ = _ := by rw [hstep 0 8, hstep 8 4, hstep 12 4, hstep 16 4]
  have hlength (s : Text) (hs : s.length = 32) (i n : Nat) (hin : i + n ≤ 32) :
      (dashed.slice s i n).length = n := by
    rw [dashed.slice, List.length_take, List.length_drop]
    omega
  unfold dashed at h
  simp only [List.append_assoc, List.cons_append] at h
  obtain ⟨h₀, h⟩ := List.append_inj h (by rw [hlength s hs, hlength t ht] <;> decide)
  obtain ⟨h₁, h⟩ := List.append_inj (List.cons.inj h).2
    (by rw [hlength s hs, hlength t ht] <;> decide)
  obtain ⟨h₂, h⟩ := List.append_inj (List.cons.inj h).2
    (by rw [hlength s hs, hlength t ht] <;> decide)
  obtain ⟨h₃, h⟩ := List.append_inj (List.cons.inj h).2
    (by rw [hlength s hs, hlength t ht] <;> decide)
  rw [hcut s, hcut t, h₀, h₁, h₂, h₃, (List.cons.inj h).2]

/-- Numbers of 128 bits have different identifiers. -/
theorem identifier_inj {n m : Nat} (hn : n < 16 ^ 32) (hm : m < 16 ^ 32)
    (h : identifier n = identifier m) : n = m := by
  have hne (n : Nat) : hex 16 n ≠ [] := by
    intro hnil
    have hlength := length_hex 16 n
    rw [hnil] at hlength
    cases hlength
  unfold identifier at h
  split at h
  · rename_i hhigh
    split at h
    · rename_i hhigh'
      exact hex_inj (by omega) (by omega) (Prod.mk.inj h).1
    · exact absurd (Prod.mk.inj h).1 (hne n)
  · split at h
    · exact absurd (Prod.mk.inj h).1.symm (hne m)
    · exact hex_inj hn hm (dashed_inj (length_hex ..) (length_hex ..) (Prod.mk.inj h).2)

/-- The identifier is that of the number exactly when its bytes read the same in both directions. -/
theorem identifier_iff (tmp : DriveInfo) :
    identifiers (wwnBytes tmp) = identifier (cWWN tmp) ↔ (wwnBytes tmp).reverse = wwnBytes tmp := by
  have hlength := length_wwnBytes tmp
  have hbe := be_lt (wwnBytes tmp)
  have hle := le_lt (wwnBytes tmp)
  rw [hlength] at hbe hle
  rw [identifiers_eq hlength, cWWN, ← be_eq_le_iff]
  exact ⟨identifier_inj hbe hle, congrArg identifier⟩

/-! ## Agreement -/

/-- **The two views agree exactly where no flag is set and the identifier reads the same in both
directions.** -/
theorem drive_info_iff (tmp : DriveInfo) :
    (∃ info, loadInfo tmp = .ok info ∧ Agrees tmp info) ↔
      Loads tmp ∧ (∀ x, cFlag tmp x = 0) ∧ (wwnBytes tmp).reverse = wwnBytes tmp := by
  rw [← loadInfo_ok_iff, ← identifier_iff]
  have hagrees {info : Info} (h : loadInfo tmp = .ok info) : Agrees tmp info ↔
      (∀ x, cFlag tmp x = 0) ∧ identifiers (wwnBytes tmp) = identifier (cWWN tmp) := by
    have hview := loadInfo_view h
    constructor
    · intro hagree
      refine ⟨fun x => ?_, hview.identifiers.symm.trans hagree.identifier⟩
      by_contra hne
      have htrue := (hagree.flag x).mpr hne
      rw [hview.flag x] at htrue
      cases htrue
    · intro hsame
      refine ⟨fun x => ?_, hview.identifiers.trans hsame.2⟩
      rw [hview.flag x, hsame.1 x]
      simp
  constructor
  · intro h
    obtain ⟨info, hload, hagree⟩ := h
    exact ⟨⟨info, hload⟩, (hagrees hload).mp hagree⟩
  · intro h
    obtain ⟨⟨info, hload⟩, hsame⟩ := h
    exact ⟨info, hload, (hagrees hload).mpr hsame⟩

/-- An ATA drive with SMART support and the WWN 5000c500a1b2c3d4. -/
def smartDrive : DriveInfo :=
  .ofFn fun i => if i.val = 4 ∨ i.val = 84 then 1
    else if i.val < 111 then 0
    else [0xd4, 0xc3, 0xb2, 0xa1, 0x00, 0xc5, 0x00, 0x50].getD (i.val - 111) 0

theorem decode_nil : decode [] = .ok [] := by
  decide +kernel

theorem smartDrive_loads : Loads smartDrive := by
  have hprotocol : cProtocol smartDrive = PROTOCOL_TYPE_ATA := by decide +kernel
  have hstrings : ∀ x ∈ [Member.firmware_rev, .serial, .model], cString smartDrive x = [] := by
    decide +kernel
  refine ⟨[.firmware_rev, .serial, .model], by rw [hprotocol]; rfl, fun x hx => ⟨[], ?_⟩⟩
  rw [hstrings x hx, decode_nil]

/-- Its flag is false in Python, and its WWN is a GUID with the bytes reversed. -/
theorem smart_drive :
    (∃ info, loadInfo smartDrive = .ok info ∧ cFlag smartDrive .SMARTSupport = 1 ∧
      info.flag .SMARTSupport = false ∧ identifier (cWWN smartDrive) =
        ("5000c500a1b2c3d4".toList, []) ∧
      (info.WWN, info.GUID) = ([], "d4c3b2a1-00c5-0050-0000-000000000000".toList)) ∧
    ¬ ∃ info, loadInfo smartDrive = .ok info ∧ Agrees smartDrive info := by
  have hflag : cFlag smartDrive .SMARTSupport = 1 := by decide +kernel
  refine ⟨?_, fun h => ?_⟩
  · obtain ⟨info, hload⟩ := (loadInfo_ok_iff smartDrive).mpr smartDrive_loads
    have hview := loadInfo_view hload
    refine ⟨info, hload, hflag, hview.flag _, by decide +kernel, hview.identifiers.trans ?_⟩
    decide +kernel
  · obtain ⟨info, hload, hagree⟩ := h
    have htrue := (hagree.flag .SMARTSupport).mpr (by rw [hflag]; decide)
    rw [(loadInfo_view hload).flag] at htrue
    cases htrue

end Manager
