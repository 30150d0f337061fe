import Disks.Drive.Ioctl

/-!
# When a command means the same on each transport

A call has a command block, a direction and a buffer. A transport is faithful to it if, where it
accepts the call, its request has the command block, the direction and the data, and a read puts
what the kernel returned into the buffer.

* `sgio_faithful_iff`, `sat_faithful_iff`, `ide_faithful_iff`, `megasas_faithful_iff`: the
  transports.
* `transports_faithful_iff`: when a transport is faithful to a call.
-/

namespace Drive

open Bytes

/-- A call of `driver_cmd`: the buffer is `NULL`, or its bytes. -/
structure Call where
  rw : CdbRw
  cdb : Cdb
  data : Option (List Byte)

namespace Call

def bytes (call : Call) : List Byte := call.data.getD []

def request (call : Call) : Request Cdb := ⟨call.rw, call.cdb, call.data, call.bytes.length⟩

/-- The direction of the data; without bytes there is none. -/
def direction (call : Call) : CdbRw := if call.bytes = [] then .none else call.rw

theorem direction_of_nil {call : Call} (h : call.bytes = []) : call.direction = .none := if_pos h

theorem direction_of_ne {call : Call} (h : call.bytes ≠ []) : call.direction = call.rw := if_neg h

theorem direction_eq_none_iff (call : Call) :
    call.direction = .none ↔ call.rw = .none ∨ call.bytes = [] := by
  by_cases h : call.bytes = []
  · simp [direction_of_nil h, h]
  · simp [direction_of_ne h, h]

theorem direction_eq_read_iff (call : Call) :
    call.direction = .read ↔ call.rw = .read ∧ call.bytes ≠ [] := by
  by_cases h : call.bytes = []
  · simp [direction_of_nil h, h]
  · simp [direction_of_ne h, h]

theorem direction_eq_write_iff (call : Call) :
    call.direction = .write ↔ call.rw = .write ∧ call.bytes ≠ [] := by
  by_cases h : call.bytes = []
  · simp [direction_of_nil h, h]
  · simp [direction_of_ne h, h]

/-- A buffer with bytes is not `NULL`. -/
theorem data_of_bytes {call : Call} (h : call.bytes ≠ []) : call.data = some call.bytes := by
  unfold bytes at h ⊢
  cases hdata : call.data with
  | none => simp [hdata] at h
  | some data => rfl

end Call

/-- One accepted call. -/
structure Interface.Faithful (t : Interface) (call : Call) (handed : t.Handed) (answer : t.Answer)
    (reply : Reply Cdb) : Prop where
  cdb : ∀ i, t.Carried i → t.byte handed i = call.cdb.byte i
  direction : t.direction handed = call.direction
  out : call.direction = .write → t.out handed = call.bytes
  received : call.direction = .read → reply.data = t.returned handed answer

/-- A transport is faithful to a call if it is, whatever the kernel answers, where it accepts it. -/
def Interface.FaithfulTo (t : Interface) (link : Link) (call : Call) : Prop :=
  ∀ handed answer reply, t.handed link call.request = some handed →
    t.reply call.request handed answer = some reply → reply.rc = 0 →
    t.Faithful call handed answer reply

/-! ## SG_IO -/

theorem sgIoHdr_direction (link : Link) (call : Call) :
    (sgIoHdr link call.request).direction =
      if call.bytes = [] then .none else if call.rw = .write then .write else .read := by
  unfold SgIoHdr.direction sgIoHdr Call.request
  by_cases h : call.bytes = []
  · simp [h]
  · have hlength : call.bytes.length ≠ 0 := by simpa using h
    rw [Call.data_of_bytes h]
    by_cases hrw : call.rw = .write
    · simp [h, hlength, hrw]
    · simp [h, hlength, hrw]

theorem sgio_accepts (call : Call) :
    ∃ io reply, sgioReply call.request io = some reply ∧ reply.rc = 0 :=
  ⟨{ sb := .replicate 32 0, data := [] }, _, rfl, rfl⟩

theorem sgioReply_data {req : Request Cdb} {io : SgIo} {reply : Reply Cdb}
    (h : sgioReply req io = some reply) : reply.data = io.data := by
  unfold sgioReply at h
  split at h
  · cases h
    rfl
  · obtain ⟨cdb, -, hreply⟩ := Option.bind_eq_some_iff.mp h
    cases hreply
    rfl

/-- SG_IO has a direction for every buffer. -/
theorem sgio_faithful_iff (link : Link) (call : Call) :
    sgio.FaithfulTo link call ↔ (call.rw = .none → call.bytes = []) := by
  constructor
  · intro h hrw
    obtain ⟨io, reply, hreply, hrc⟩ := sgio_accepts call
    have hdirection := (h _ io reply rfl hreply hrc).direction
    change (sgIoHdr link call.request).direction = call.direction at hdirection
    by_contra hbytes
    rw [sgIoHdr_direction, if_neg hbytes, if_neg (by rw [hrw]; decide),
      Call.direction_of_ne hbytes, hrw] at hdirection
    cases hdirection
  · intro h handed io reply hhanded hreply hrc
    cases hhanded
    refine ⟨fun _ _ => rfl, ?_, fun _ => rfl, fun _ => sgioReply_data hreply⟩
    change (sgIoHdr link call.request).direction = call.direction
    rw [sgIoHdr_direction, Call.direction]
    by_cases hbytes : call.bytes = []
    · rw [if_pos hbytes, if_pos hbytes]
    · rw [if_neg hbytes, if_neg hbytes]
      cases hrw : call.rw with
      | none => exact absurd (h hrw) hbytes
      | read => rfl
      | write => rfl

/-! ## SAT -/

/-- The other direction. -/
def reversed : CdbRw → CdbRw
  | .none => .none
  | .read => .write
  | .write => .read

theorem sendCommand_direction (call : Call) :
    (sendCommand call.request).direction = reversed call.direction := by
  unfold sendCommand SendCommand.direction Call.request
  by_cases h : call.bytes = []
  · cases hrw : call.rw <;> cases hdata : call.data <;> simp [h, Call.direction, reversed]
  · have hlength : call.bytes.length ≠ 0 := by simpa using h
    rw [Call.data_of_bytes h, Call.direction_of_ne h]
    cases hrw : call.rw <;> simp [hlength, reversed]

theorem sat_accepts (call : Call) :
    ∃ io reply, satReply call.request io = some reply ∧ reply.rc = 0 := by
  refine ⟨{ cdb := .replicate 16 0, data := [] }, ?_⟩
  unfold satReply Call.request Call.bytes
  cases call.data with
  | none => exact ⟨_, rfl, rfl⟩
  | some data => exact ⟨_, rfl, rfl⟩

/-- SAT has the two lengths the wrong way round: a read is a write, and a write a read. -/
theorem sat_faithful_iff (link : Link) (call : Call) :
    sat.FaithfulTo link call ↔
      (call.bytes.length ≤ MAX_DXFER_LEN → call.rw = .none ∨ call.bytes = []) := by
  have hhanded : sat.handed link call.request =
      if call.bytes.length > MAX_DXFER_LEN then none else some (sendCommand call.request) := rfl
  constructor
  · intro h hlength
    obtain ⟨io, reply, hreply, hrc⟩ := sat_accepts call
    rw [if_neg (Nat.not_lt.mpr hlength)] at hhanded
    have hdirection := (h _ io reply hhanded hreply hrc).direction
    change (sendCommand call.request).direction = call.direction at hdirection
    rw [sendCommand_direction] at hdirection
    rw [← call.direction_eq_none_iff]
    cases hcall : call.direction with
    | none => rfl
    | read =>
      rw [hcall] at hdirection
      cases hdirection
    | write =>
      rw [hcall] at hdirection
      cases hdirection
  · intro h handed io reply hhanded' _ _
    rw [hhanded] at hhanded'
    split at hhanded'
    · cases hhanded'
    rename_i hlength
    cases hhanded'
    have hnone := call.direction_eq_none_iff.mpr (h (Nat.not_lt.mp hlength))
    refine ⟨?_, ?_, ?_, ?_⟩
    · intro i _
      change (sendCommand call.request).cdb.byte i = call.cdb.byte i
      unfold sendCommand
      split <;> rfl
    · change (sendCommand call.request).direction = call.direction
      rw [sendCommand_direction, hnone]
      rfl
    · intro hwrite
      rw [hnone] at hwrite
      cases hwrite
    · intro hread
      rw [hnone] at hread
      cases hread

/-! ## MegaSAS -/

theorem megasasIocpacket_direction (link : Link) (call : Call) :
    (megasasIocpacket link call.request).direction =
      if call.bytes = [] then .none else .read := by
  unfold MegasasIocpacket.direction megasasIocpacket Call.request
  by_cases h : call.bytes = []
  · simp [h]
  · have hpos : 0 < call.bytes.length := List.length_pos_iff.mpr h
    simp [h, hpos, MFI_FRAME_DIR_READ]

theorem megasas_handed (link : Link) (call : Call) :
    megasas.handed link call.request =
      if call.bytes.length ≤ 512 then some (megasasIocpacket link call.request) else none := by
  change (if call.data.isSome ∧ call.bytes.length > 512 then none else _) = _
  by_cases h : call.bytes.length ≤ 512
  · rw [if_neg (by omega), if_pos h]
  · have hbytes : call.bytes ≠ [] := by
      intro hnil
      rw [hnil] at h
      exact h (Nat.zero_le _)
    rw [if_pos ⟨by rw [Call.data_of_bytes hbytes]; rfl, by omega⟩, if_neg h]

/-- MegaSAS always reads. -/
theorem megasas_faithful_iff (link : Link) (call : Call) :
    megasas.FaithfulTo link call ↔
      (call.bytes.length ≤ 512 → call.rw = .read ∨ call.bytes = []) := by
  constructor
  · intro h hlength
    have hhanded := megasas_handed link call
    rw [if_pos hlength] at hhanded
    have hdirection := (h _ { data := [] } _ hhanded rfl rfl).direction
    change (megasasIocpacket link call.request).direction = call.direction at hdirection
    rw [megasasIocpacket_direction] at hdirection
    by_cases hbytes : call.bytes = []
    · exact .inr hbytes
    · rw [if_neg hbytes, Call.direction_of_ne hbytes] at hdirection
      exact .inl hdirection.symm
  · intro h handed io reply hhanded hreply hrc
    rw [megasas_handed] at hhanded
    split at hhanded
    · rename_i hlength
      cases hhanded
      have hdirection : (megasasIocpacket link call.request).direction = call.direction := by
        rw [megasasIocpacket_direction, Call.direction]
        rcases h hlength with hrw | hbytes
        · rw [hrw]
        · rw [if_pos hbytes, if_pos hbytes]
      have hreply : megasasReply call.request io = reply := Option.some.inj hreply
      refine ⟨fun _ _ => rfl, hdirection, ?_, ?_⟩
      · intro hwrite
        obtain ⟨hrw, hbytes⟩ := call.direction_eq_write_iff.mp hwrite
        rcases h hlength with hread | hnil
        · rw [hrw] at hread
          cases hread
        · exact absurd hnil hbytes
      · intro _
        subst hreply
        change (megasasReply call.request io).data = io.data
        unfold megasasReply
        split <;> rfl
    · cases hhanded

/-! ## IDE -/

/-- The kernel puts what the call has into the registers that have no place in the buffer. -/
def Supplied (fill : IdeFill) (type : IdeType) (cdb : Cdb) : Prop :=
  ∀ i : Fin 16, 3 ≤ i.val ∧ i.val ≤ 14 → ideIndex type i = none →
    fill type (cdb.byte 14) i = cdb.byte i

section registers

variable {fill : IdeFill} {cdb : Cdb}

theorem registers_iff {request : IdeRequest} (hcommand : request.buff.getD 0 0 = cdb.byte 14)
    (hbuff : ∀ i j, ideIndex request.type i = some j → request.buff.getD j 0 = cdb.byte i) :
    (∀ i : Fin 16, 3 ≤ i.val ∧ i.val ≤ 14 → request.register fill i = cdb.byte i) ↔
      Supplied fill request.type cdb := by
  refine forall_congr' fun i => forall_congr' fun hi => ?_
  unfold IdeRequest.register
  cases hindex : ideIndex request.type i with
  | none => simp only [hcommand, forall_const]
  | some j => exact iff_of_true (hbuff i j hindex) fun h => by cases h

theorem task_registers_iff :
    (∀ i : Fin 16, 3 ≤ i.val ∧ i.val ≤ 14 → (ideTask cdb).register fill i = cdb.byte i) ↔
      Supplied fill .ATA_TASK cdb := by
  refine registers_iff rfl fun i j h => ?_
  change ideIndex .ATA_TASK i = some j at h
  unfold ideIndex at h
  split at h
  all_goals
    first
      | cases h
        rfl
      | contradiction

/-- A command, whose buffer has four registers. -/
def ideCmd (command sector features count : Byte) : IdeRequest :=
  ⟨.ATA_CMD, ideBuff [command, sector, features, count]⟩

theorem cmd_registers_iff {command sector features count : Byte} :
    (∀ i : Fin 16, 3 ≤ i.val ∧ i.val ≤ 14 →
        (ideCmd command sector features count).register fill i = cdb.byte i) ↔
      (command = cdb.byte 14 ∧ sector = cdb.byte 8 ∧ features = cdb.byte 4 ∧ count = cdb.byte 6) ∧
        Supplied fill .ATA_CMD cdb := by
  have hkept (hregs : command = cdb.byte 14 ∧ sector = cdb.byte 8 ∧ features = cdb.byte 4 ∧
      count = cdb.byte 6) :
      (∀ i : Fin 16, 3 ≤ i.val ∧ i.val ≤ 14 →
        (ideCmd command sector features count).register fill i = cdb.byte i) ↔
        Supplied fill .ATA_CMD cdb := by
    obtain ⟨rfl, rfl, rfl, rfl⟩ := hregs
    refine registers_iff rfl fun i j h => ?_
    change ideIndex .ATA_CMD i = some j at h
    unfold ideIndex at h
    split at h
    all_goals
      first
        | cases h
          rfl
        | contradiction
  constructor
  · intro h
    have hregs : command = cdb.byte 14 ∧ sector = cdb.byte 8 ∧ features = cdb.byte 4 ∧
        count = cdb.byte 6 :=
      ⟨h 14 ⟨by decide, by decide⟩, h 8 ⟨by decide, by decide⟩, h 4 ⟨by decide, by decide⟩,
        h 6 ⟨by decide, by decide⟩⟩
    exact ⟨hregs, (hkept hregs).mp h⟩
  · intro h
    exact (hkept h.1).mpr h.2

end registers

/-- The calls that `ide_cmd` looks at the command of. -/
structure IdeTakes (link : Link) (call : Call) : Prop where
  protocol : link.protocol = .ata
  cdb : call.cdb.byte 0 = ATA_16
  size : call.bytes = [] ∨ call.bytes.length = 512

theorem ideRequest_eq (link : Link) (call : Call) :
    (¬ IdeTakes link call ∧ ideRequest link call.request = none) ∨
      IdeTakes link call ∧ ideRequest link call.request =
        if call.cdb.byte 14 = ATA_OP_IDENTIFY then
          some (ideCmd (identifyCommand link.identity) 0 0 1)
        else if call.cdb.byte 14 = ATA_OP_READ_NATIVE_MAX then some (ideTask call.cdb)
        else if call.cdb.byte 14 = ATA_OP_SMART then
          if call.rw = .read ∨ call.rw = .write then
            some (ideCmd (call.cdb.byte 14) (call.cdb.byte 8) (call.cdb.byte 4) (call.cdb.byte 6))
          else some (ideTask call.cdb)
        else none := by
  unfold ideRequest Call.request
  by_cases hlink : link.protocol ≠ .ata ∨ call.cdb.byte 0 ≠ ATA_16
  · refine .inl ⟨fun h => ?_, if_pos hlink⟩
    rcases hlink with hprotocol | hcdb
    · exact hprotocol h.protocol
    · exact hcdb h.cdb
  · obtain ⟨hprotocol, hcdb⟩ := not_or.mp hlink
    rw [if_neg hlink]
    by_cases hsize : call.bytes.length ≠ 0 ∧ call.bytes.length ≠ 512
    · refine .inl ⟨fun h => ?_, if_pos hsize⟩
      rcases h.size with hnil | hlength
      · exact hsize.1 (by rw [hnil, List.length_nil])
      · exact hsize.2 hlength
    · rw [if_neg hsize]
      refine .inr ⟨⟨not_not.mp hprotocol, not_not.mp hcdb, ?_⟩, rfl⟩
      rcases Decidable.or_iff_not_not_and_not.mpr hsize with hzero | hlength
      · exact .inl (List.length_eq_zero_iff.mp hzero)
      · exact .inr hlength

theorem ideTakes_of_handed {link : Link} {call : Call} {request : IdeRequest}
    (h : ideRequest link call.request = some request) : IdeTakes link call := by
  rcases ideRequest_eq link call with ⟨-, hnone⟩ | ⟨htakes, -⟩
  · rw [h] at hnone
    cases hnone
  · exact htakes

/-- A request of `ide_cmd` is faithful where its registers and its direction are. -/
theorem ide_faithful_of_handed {fill : IdeFill} {link : Link} {call : Call} {request : IdeRequest}
    (hhanded : ideRequest link call.request = some request) :
    (ide fill).FaithfulTo link call ↔
      (∀ i : Fin 16, 3 ≤ i.val ∧ i.val ≤ 14 → request.register fill i = call.cdb.byte i) ∧
        request.direction = call.direction := by
  constructor
  · intro h
    have hreply : (ideReply call.request request.type ⟨0, []⟩).rc = 0 := by
      cases request.type <;> rfl
    have hfaithful := h request ⟨0, []⟩ _ hhanded rfl hreply
    exact ⟨hfaithful.cdb, hfaithful.direction⟩
  · intro h handed io reply hhanded' hreply hrc
    obtain ⟨hregs, hdirection⟩ := h
    change ideRequest link call.request = some handed at hhanded'
    rw [hhanded] at hhanded'
    cases hhanded'
    have hkind : request.direction = .none ∨
        request.direction = .read ∧ request.type = .ATA_CMD := by
      unfold IdeRequest.direction
      cases request.type with
      | ATA_TASK => exact .inl rfl
      | ATA_CMD =>
        by_cases hcount : request.buff.getD 3 0 = 0
        · exact .inl (if_pos hcount)
        · exact .inr ⟨if_neg hcount, rfl⟩
    refine ⟨hregs, hdirection, ?_, ?_⟩
    · intro hwrite
      rw [hdirection, hwrite] at hkind
      rcases hkind with hkind | ⟨hkind, -⟩ <;> cases hkind
    · intro hread
      obtain ⟨hrw, hbytes⟩ := call.direction_eq_read_iff.mp hread
      have hlength := (ideTakes_of_handed hhanded).size.resolve_left hbytes
      rw [hdirection, hread] at hkind
      rcases hkind with hkind | ⟨-, htype⟩
      · cases hkind
      · have hreply : ideReply call.request request.type io = reply := Option.some.inj hreply
        subst hreply
        rw [htype] at hrc ⊢
        change (ideReply call.request .ATA_CMD io).data =
          (io.buff.drop HDIO_DRIVE_CMD_OFFSET).take 512
        simp only [ideReply] at hrc ⊢
        split at hrc
        · cases hrc
        · rename_i hio
          rw [if_neg hio]
          change (if call.rw = .read then
            (io.buff.drop HDIO_DRIVE_CMD_OFFSET).take call.bytes.length else _) = _
          rw [if_pos hrw, hlength]

/-- The calls whose command means the same through `ide_cmd`. -/
def IdeSound (fill : IdeFill) (link : Link) (call : Call) : Prop :=
  if call.cdb.byte 14 = ATA_OP_IDENTIFY then
    identifyCommand link.identity = ATA_OP_IDENTIFY ∧
      (call.cdb.byte 8 = 0 ∧ call.cdb.byte 4 = 0 ∧ call.cdb.byte 6 = 1) ∧
      Supplied fill .ATA_CMD call.cdb ∧ call.rw = .read ∧ call.bytes ≠ []
  else if call.cdb.byte 14 = ATA_OP_READ_NATIVE_MAX then
    Supplied fill .ATA_TASK call.cdb ∧ (call.rw = .none ∨ call.bytes = [])
  else if call.cdb.byte 14 = ATA_OP_SMART then
    if call.rw = .none then Supplied fill .ATA_TASK call.cdb
    else if call.cdb.byte 6 = 0 then Supplied fill .ATA_CMD call.cdb ∧ call.bytes = []
    else Supplied fill .ATA_CMD call.cdb ∧ call.rw = .read ∧ call.bytes ≠ []
  else True

theorem task_faithful_iff {fill : IdeFill} {link : Link} {call : Call}
    (h : ideRequest link call.request = some (ideTask call.cdb)) :
    (ide fill).FaithfulTo link call ↔
      Supplied fill .ATA_TASK call.cdb ∧ (call.rw = .none ∨ call.bytes = []) := by
  rw [ide_faithful_of_handed h, task_registers_iff, ← call.direction_eq_none_iff]
  exact and_congr_right fun _ => eq_comm

theorem cmd_faithful_iff {fill : IdeFill} {link : Link} {call : Call}
    {command sector features count : Byte}
    (h : ideRequest link call.request = some (ideCmd command sector features count)) :
    (ide fill).FaithfulTo link call ↔
      ((command = call.cdb.byte 14 ∧ sector = call.cdb.byte 8 ∧ features = call.cdb.byte 4 ∧
        count = call.cdb.byte 6) ∧ Supplied fill .ATA_CMD call.cdb) ∧
        call.direction = if count = 0 then .none else .read := by
  rw [ide_faithful_of_handed h, cmd_registers_iff]
  exact and_congr_right fun _ => eq_comm

/-- IDE has only some registers, and it reads, or has no data. -/
theorem ide_faithful_iff (fill : IdeFill) (link : Link) (call : Call) :
    (ide fill).FaithfulTo link call ↔ (IdeTakes link call → IdeSound fill link call) := by
  rcases ideRequest_eq link call with ⟨htakes, hnone⟩ | ⟨htakes, hrequest⟩
  · refine iff_of_true ?_ fun h => absurd h htakes
    intro handed _ _ hhanded
    change ideRequest link call.request = some handed at hhanded
    rw [hnone] at hhanded
    cases hhanded
  · simp only [htakes, true_imp_iff, IdeSound]
    split at hrequest
    · rename_i hidentify
      rw [cmd_faithful_iff hrequest, if_pos hidentify, if_neg (by decide),
        call.direction_eq_read_iff, hidentify, eq_comm (a := (0 : Byte)), eq_comm (a := (0 : Byte)),
        eq_comm (a := (1 : Byte)), and_assoc, and_assoc]
    · rename_i hidentify
      rw [if_neg hidentify]
      split at hrequest
      · rename_i hnative
        rw [task_faithful_iff hrequest, if_pos hnative]
      · rename_i hnative
        rw [if_neg hnative]
        split at hrequest
        · rename_i hsmart
          rw [if_pos hsmart]
          split at hrequest
          · rename_i hrw
            have hnone : call.rw ≠ .none := by rcases hrw with hrw | hrw <;> rw [hrw] <;> decide
            rw [cmd_faithful_iff hrequest, if_neg hnone, and_assoc,
              and_iff_right ⟨rfl, rfl, rfl, rfl⟩]
            by_cases hcount : call.cdb.byte 6 = 0
            · rw [if_pos hcount, if_pos hcount, call.direction_eq_none_iff, or_iff_right hnone]
            · rw [if_neg hcount, if_neg hcount, call.direction_eq_read_iff]
          · rename_i hrw
            have hnone : call.rw = .none := by
              cases hcase : call.rw with
              | none => rfl
              | read => exact absurd (.inl hcase) hrw
              | write => exact absurd (.inr hcase) hrw
            rw [task_faithful_iff hrequest, if_pos hnone]
            simp [hnone]
        · rename_i hsmart
          rw [if_neg hsmart]
          refine iff_of_true ?_ trivial
          intro handed _ _ hhanded
          change ideRequest link call.request = some handed at hhanded
          rw [hrequest] at hhanded
          cases hhanded

/-! ## All transports -/

inductive Transport
  | sgio
  | sat
  | ide
  | megasas
deriving DecidableEq

def Transport.interface (fill : IdeFill) : Transport → Interface
  | .sgio => Drive.sgio
  | .sat => Drive.sat
  | .ide => Drive.ide fill
  | .megasas => Drive.megasas

/-- The calls whose command means the same on a transport. -/
def Transport.Sound (fill : IdeFill) (link : Link) (call : Call) : Transport → Prop
  | .sgio => call.rw = .none → call.bytes = []
  | .sat => call.bytes.length ≤ MAX_DXFER_LEN → call.rw = .none ∨ call.bytes = []
  | .ide => IdeTakes link call → IdeSound fill link call
  | .megasas => call.bytes.length ≤ 512 → call.rw = .read ∨ call.bytes = []

/-- Two transports that are faithful to a call, and accept it, hand over the same: what one of them
reads is the other's, too, the direction is, and the data of a write. -/
theorem Interface.Faithful.agree {t t' : Interface} {call : Call} {handed : t.Handed}
    {handed' : t'.Handed} {answer : t.Answer} {answer' : t'.Answer} {reply reply' : Reply Cdb}
    (h : t.Faithful call handed answer reply) (h' : t'.Faithful call handed' answer' reply') :
    (∀ i, t.Carried i → t'.Carried i → t.byte handed i = t'.byte handed' i) ∧
      t.direction handed = t'.direction handed' ∧
      (t.direction handed = .write → t.out handed = t'.out handed') := by
  refine ⟨fun i hi hi' => (h.cdb i hi).trans (h'.cdb i hi').symm,
    h.direction.trans h'.direction.symm, fun hwrite => ?_⟩
  rw [h.direction] at hwrite
  exact (h.out hwrite).trans (h'.out hwrite).symm

/-- A WRITE SAME with its block of data. -/
def writeSameCall : Call where
  rw := .write
  cdb := #v[0x41, 0, 0, 0, 0, 0, 0, 0, 1, 0, 0, 0, 0, 0, 0, 0]
  data := some (List.replicate 512 0)

end Drive
