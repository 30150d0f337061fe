import Disks.Drive.Open

/-!
# A disk that is open is usable

When a handle has the functions of its driver and of its protocol after `openDisk`, and when a
failure leaves nothing open.

* `Driven`: the functions of a driver; each transport sets them (`openDriver_driven`).
* `openDriver_fds`: what a transport that fails leaves open.
* `openDisk_iff`: **a call ends well exactly when the protocol is probed, or the handle has its
  function already, and nothing fails behind the opening.**
* `forced_protocol`: a protocol that the caller chooses.
-/

namespace Drive

/-- The functions of a driver. -/
def driverCmdOf : DriverType → Option DriverFn
  | .unknown => none
  | .ide => some .ide_cmd
  | .sgio => some .sgio_cmd
  | .sat => some .sat_cmd
  | .nvme => some .nvme_cmd
  | .megadev => some .lsi_megadev_cmd
  | .megasas => some .lsi_megasas_cmd

def closeOf : DriverType → Option CloseFn
  | .unknown => none
  | .ide => some .ide_close
  | .sgio => some .sgio_close
  | .sat => some .sat_close
  | .nvme => some .nvme_close
  | .megadev => some .lsi_close
  | .megasas => some .lsi_close

/-- The handle has the functions of its driver. -/
def Driven (drive : OpenHandle) : Prop :=
  ∃ d f, drive.driver = some d ∧ driverCmdOf d = some f ∧ drive.driver_cmd = some f ∧
    drive.close = closeOf d

/-- The handle has the function of its protocol. -/
def Spoken (drive : OpenHandle) : Prop :=
  ∃ p f, drive.protocol = some p ∧ execOf p = some f ∧ drive.cmd = some f

/-- **A call ends well**: the handle is usable, or nothing is left open. -/
structure EndsWell (o : Opened) : Prop where
  usable : o.rc = 0 → Spoken o.drive ∧ Driven o.drive
  closed : o.rc = -1 → o.fds = []

/-! ## The transports -/

/-- What a transport does: it succeeds with the functions of a driver and something open, or fails
and leaves `left` open; it does not touch the protocol. -/
structure Transported (drive : OpenHandle) (left : List Nat) (o : Opened) : Prop where
  rc : o.rc = 0 ∨ o.rc = -1
  driven : o.rc = 0 → Driven o.drive
  opened : o.rc = 0 → o.fds ≠ []
  fds : o.rc = -1 → o.fds = left
  cmd : o.drive.cmd = drive.cmd
  protocol : o.drive.protocol = drive.protocol

variable {sys : Outcomes}

theorem failed_transported {drive drive' : OpenHandle} (left : List Nat)
    (hcmd : drive'.cmd = drive.cmd) (hprotocol : drive'.protocol = drive.protocol) :
    Transported drive left ⟨-1, drive', left⟩ where
  rc := .inr rfl
  driven h := absurd h (show (-1 : Int) ≠ 0 by decide)
  opened h := absurd h (show (-1 : Int) ≠ 0 by decide)
  fds _ := rfl
  cmd := hcmd
  protocol := hprotocol

theorem openNode_transported {drive : OpenHandle} {device : CString} {accepts : FileType → Bool}
    {fill : OpenHandle → OpenHandle} (hdriven : ∀ d, Driven (fill d))
    (hcmd : ∀ d, (fill d).cmd = d.cmd) (hprotocol : ∀ d, (fill d).protocol = d.protocol) :
    Transported drive [] (openNode sys drive device accepts fill) := by
  unfold openNode
  split
  · exact failed_transported _ rfl rfl
  split
  · exact failed_transported _ rfl rfl
  split
  · exact failed_transported _ rfl rfl
  · exact {
      rc := .inl rfl
      driven := fun _ => hdriven _
      opened := fun _ => List.cons_ne_nil _ _
      fds := fun h => absurd h (show (0 : Int) ≠ -1 by decide)
      cmd := hcmd _
      protocol := hprotocol _ }

/-- `/proc/devices` is opened to look for the major number, and there is nothing to be read. -/
def DevicesEmpty (sys : Outcomes) : Prop :=
  sys.megasas_loaded ∧ sys.stat megaraidSasIoctlNode = none ∧
    (sys.open_ procDevices).isSome ∧ sys.proc_devices = some []

/-- `check_megasas` fails where it leaves something open. -/
theorem checkMegasas_fds (sys : Outcomes) :
    ((checkMegasas sys).2 ≠ [] ↔ DevicesEmpty sys) ∧
      ((checkMegasas sys).2 ≠ [] → (checkMegasas sys).1 = -1) := by
  unfold checkMegasas DevicesEmpty
  split
  · rename_i h
    simp_all
  rename_i hloaded
  split
  · rename_i st_mode hstat
    split <;> simp [hstat]
  rename_i hstat
  split
  · rename_i hopen
    simp [hopen]
  rename_i fd hopen
  split
  · rename_i hdevices
    simp_all
  · rename_i hdevices
    simp [hdevices]
  · rename_i buff hne hdevices
    have hbuff : buff ≠ [] := fun hnil => hne hnil
    split
    · simp [hdevices, hbuff]
    · split <;> simp [hdevices, hbuff]

theorem lsiDriver_fields (device : CString) (dev_len : Nat) (has_megasas has_megadev : Int)
    (drive : OpenHandle) :
    let drive' := lsiDriver device dev_len has_megasas has_megadev drive
    drive'.cmd = drive.cmd ∧ drive'.protocol = drive.protocol ∧
      (drive'.driver = drive.driver ∨
        ∃ d f, drive'.driver = some d ∧ driverCmdOf d = some f ∧ drive'.driver_cmd = some f ∧
          closeOf d = some .lsi_close) := by
  unfold lsiDriver
  dsimp only
  split
  · exact ⟨rfl, rfl, .inr ⟨.megasas, .lsi_megasas_cmd, rfl, rfl, rfl, rfl⟩⟩
  split
  · exact ⟨rfl, rfl, .inr ⟨.megasas, .lsi_megasas_cmd, rfl, rfl, rfl, rfl⟩⟩
  split
  · exact ⟨rfl, rfl, .inr ⟨.megadev, .lsi_megadev_cmd, rfl, rfl, rfl, rfl⟩⟩
  split
  · exact ⟨rfl, rfl, .inr ⟨.megadev, .lsi_megadev_cmd, rfl, rfl, rfl, rfl⟩⟩
  · exact ⟨rfl, rfl, .inl rfl⟩

theorem lsiHost_error {dev_name : CString} {drive drive' : OpenHandle}
    (h : lsiHost sys dev_name drive = .error drive') :
    drive'.cmd = drive.cmd ∧ drive'.protocol = drive.protocol := by
  unfold lsiHost at h
  repeat' split at h
  all_goals
    cases h
    try exact ⟨rfl, rfl⟩

theorem lsiHost_ok {dev_name : CString} {drive drive' : OpenHandle}
    (h : lsiHost sys dev_name drive = .ok drive') :
    drive'.cmd = drive.cmd ∧ drive'.protocol = drive.protocol ∧ drive'.driver = drive.driver ∧
      drive'.driver_cmd = drive.driver_cmd := by
  unfold lsiHost at h
  repeat' split at h
  all_goals
    cases h
    try exact ⟨rfl, rfl, rfl, rfl⟩

theorem lsiOpen_transported {device : CString} {drive : OpenHandle} {o : Opened}
    (h : lsiOpen sys device drive = some o) :
    Transported drive (if ':' ∈ device then (checkMegasas sys).2 else []) o := by
  unfold lsiOpen at h
  dsimp only at h
  split at h
  · rename_i hcolon
    rw [if_neg hcolon, ← Option.some.inj h]
    exact failed_transported _ rfl rfl
  rename_i hcolon
  rw [if_pos (not_not.mp hcolon)]
  split at h
  · cases h
  split at h
  · rw [← Option.some.inj h]
    exact failed_transported _ rfl rfl
  obtain ⟨hcmd, hprotocol, hdriver⟩ := lsiDriver_fields device
    (device.takeWhile (· ≠ ':')).length (checkMegasas sys).1 (checkMegadev sys)
    { drive with driver := some .unknown }
  generalize lsiDriver device (device.takeWhile (· ≠ ':')).length (checkMegasas sys).1
    (checkMegadev sys) { drive with driver := some .unknown } = drive' at *
  dsimp only at hcmd hprotocol hdriver
  split at h
  · rw [← Option.some.inj h]
    exact failed_transported _ hcmd hprotocol
  rename_i hknown
  split at h
  · rw [← Option.some.inj h]
    exact failed_transported _ hcmd hprotocol
  split at h
  · rename_i drive'' heq
    have hhost : drive''.cmd = drive'.cmd ∧ drive''.protocol = drive'.protocol := by
      split at heq
      · exact lsiHost_error heq
      · cases heq
    rw [← Option.some.inj h]
    exact failed_transported _ (hhost.1.trans hcmd) (hhost.2.trans hprotocol)
  rename_i drive'' heq
  have hhost : drive''.cmd = drive'.cmd ∧ drive''.protocol = drive'.protocol ∧
      drive''.driver = drive'.driver ∧ drive''.driver_cmd = drive'.driver_cmd := by
    split at heq
    · exact lsiHost_ok heq
    · cases heq
      exact ⟨rfl, rfl, rfl, rfl⟩
  obtain ⟨hcmd', hprotocol', hdriver', hdriver_cmd'⟩ := hhost
  split at h
  · rw [← Option.some.inj h]
    exact failed_transported _ (hcmd'.trans hcmd) (hprotocol'.trans hprotocol)
  rw [← Option.some.inj h]
  exact {
    rc := .inl rfl
    driven := fun _ => by
      rcases hdriver with hdriver | ⟨d, f, hd, hf, hfn, hclose⟩
      · exact absurd hdriver hknown
      · exact ⟨d, f, hdriver'.trans hd, hf, hdriver_cmd'.trans hfn, hclose.symm⟩
    opened := fun _ => List.cons_ne_nil _ _
    fds := fun h => absurd h (show (0 : Int) ≠ -1 by decide)
    cmd := hcmd'.trans hcmd
    protocol := hprotocol'.trans hprotocol }

/-- The transport of LSI is taken. -/
def Lsi (device : CString) (driver : Option DriverType) : Prop :=
  driver = some .megadev ∨ driver = some .megasas ∨
    (driver = some .unknown ∧ lsiIsvalidname device)

/-- What a transport that fails leaves open. -/
def LeavesOpen (sys : Outcomes) (device : CString) (driver : Option DriverType) : Prop :=
  Lsi device driver ∧ ':' ∈ device ∧ DevicesEmpty sys

theorem openDriver_transported {device : CString} {drive : OpenHandle} {o : Opened}
    (h : openDriver sys device drive = some o) :
    ∃ left, Transported drive left o ∧ (left ≠ [] ↔ LeavesOpen sys device drive.driver) := by
  have hlsi (hl : Lsi device drive.driver) (h : lsiOpen sys device drive = some o) :
      ∃ left, Transported drive left o ∧ (left ≠ [] ↔ LeavesOpen sys device drive.driver) := by
    refine ⟨_, lsiOpen_transported h, ?_⟩
    rw [LeavesOpen, ← (checkMegasas_fds sys).1]
    split <;> simp_all
  have hnode (hl : ¬ Lsi device drive.driver) {o' : Opened} (ht : Transported drive [] o')
      (h : some o' = some o) :
      ∃ left, Transported drive left o ∧ (left ≠ [] ↔ LeavesOpen sys device drive.driver) := by
    refine ⟨[], Option.some.inj h ▸ ht, ?_⟩
    simp [LeavesOpen, hl]
  have hide : Transported drive [] (ideOpen sys device drive) :=
    openNode_transported (fun _ => ⟨_, _, rfl, rfl, rfl, rfl⟩) (fun _ => rfl) fun _ => rfl
  have hsgio : Transported drive [] (sgioOpen sys device drive) :=
    openNode_transported (fun _ => ⟨_, _, rfl, rfl, rfl, rfl⟩) (fun _ => rfl) fun _ => rfl
  have hsat : Transported drive [] (satOpen sys device drive) :=
    openNode_transported (fun _ => ⟨_, _, rfl, rfl, rfl, rfl⟩) (fun _ => rfl) fun _ => rfl
  have hnvme : Transported drive [] (nvmeOpen sys device drive) := by
    unfold nvmeOpen
    exact openNode_transported (fun _ => ⟨_, _, rfl, rfl, rfl, rfl⟩) (fun _ => rfl) fun _ => rfl
  have hnone : Transported drive [] ⟨-1, drive, []⟩ := failed_transported _ rfl rfl
  unfold openDriver at h
  split at h
  · rename_i hdriver
    split at h
    · rename_i hname
      exact hlsi (.inr (.inr ⟨hdriver, hname⟩)) h
    rename_i hname
    have hl : ¬ Lsi device drive.driver := by simp [Lsi, hdriver, hname]
    split at h
    · exact hnode hl hsgio h
    split at h
    · exact hnode hl hnvme h
    split at h
    · exact hnode hl hsat h
    split at h
    · exact hnode hl hide h
    · exact hnode hl hnone h
  · rename_i hdriver
    exact hnode (by simp [Lsi, hdriver]) hide h
  · rename_i hdriver
    exact hnode (by simp [Lsi, hdriver]) hsgio h
  · rename_i hdriver
    exact hnode (by simp [Lsi, hdriver]) hsat h
  · rename_i hdriver
    exact hnode (by simp [Lsi, hdriver]) hnvme h
  · rename_i hdriver
    exact hlsi (.inl hdriver) h
  · rename_i hdriver
    exact hlsi (.inr (.inl hdriver)) h
  · rename_i hdriver
    exact hnode (by simp [Lsi, hdriver]) hnone h

/-! ## `openDisk` -/

/-- The protocol of an open drive: ATA behind IDE, the one that is probed, or the caller's. -/
def protocolOf (sys : Outcomes) (driver : Option DriverType) (protocol : Option ProtocolType) :
    Option ProtocolType :=
  if driver = some .ide then some .ata
  else if protocol = some .unknown then some (probe sys) else protocol

/-- The function of the protocol is set by the probing, or it is there already. -/
def CmdReady (driver : Option DriverType) (protocol : Option ProtocolType) (cmd : Option ExecFn) :
    Prop :=
  (driver ≠ some .ide ∧ protocol = some .unknown) ∨
    ∃ f, cmd = some f ∧
      (if driver = some .ide then some .ata else protocol).bind execOf = some f

/-- What `openDisk` makes of the handle of a transport before it identifies. -/
def probed (sys : Outcomes) (drive : OpenHandle) : OpenHandle :=
  let drive :=
    if drive.driver = some .ide then { drive with protocol := some .ata } else drive
  if drive.protocol = some .unknown then
    { drive with protocol := some (probe sys), cmd := execOf (probe sys) }
  else drive

theorem probe_exec (sys : Outcomes) : ∃ f, execOf (probe sys) = some f := by
  unfold probe
  repeat' split
  · exact ⟨_, rfl⟩
  · exact ⟨_, rfl⟩
  · exact ⟨_, rfl⟩
  · exact ⟨_, rfl⟩

theorem probed_protocol (drive : OpenHandle) :
    (probed sys drive).protocol = protocolOf sys drive.driver drive.protocol := by
  unfold probed protocolOf
  by_cases hide : drive.driver = some .ide
  · simp [hide]
  · by_cases hp : drive.protocol = some .unknown <;> simp [hide, hp]

theorem driven_probed_iff (drive : OpenHandle) : Driven (probed sys drive) ↔ Driven drive := by
  have h : (probed sys drive).driver = drive.driver ∧
      (probed sys drive).driver_cmd = drive.driver_cmd ∧
      (probed sys drive).close = drive.close := by
    unfold probed
    by_cases hide : drive.driver = some .ide
    · simp [hide]
    · by_cases hp : drive.protocol = some .unknown <;> simp [hide, hp]
  rw [Driven, Driven, h.1, h.2.1, h.2.2]

theorem probed_spoken (drive : OpenHandle) :
    Spoken (probed sys drive) ↔ CmdReady drive.driver drive.protocol drive.cmd := by
  unfold probed CmdReady Spoken
  by_cases hide : drive.driver = some .ide
  · simp [hide, execOf]
  by_cases hp : drive.protocol = some .unknown
  · simpa [hide, hp] using probe_exec sys
  · simp only [hide, hp, if_false, and_false, false_or]
    rcases hq : drive.protocol with _ | p
    · simp
    · simp [and_comm]

/-- What an identification returns, of a handle with a protocol. -/
def identified (sys : Outcomes) : Option ProtocolType → Int
  | some .ata => sys.identify .ata
  | some .scsi => sys.identify .scsi
  | some .nvme => sys.identify .nvme
  | _ => -1

theorem openDisk_eq {device : CString} {drive : OpenHandle} {driver : Option DriverType}
    {protocol : Option ProtocolType} {ident : Bool} {o : Opened}
    (ho : openDriver sys device { drive with
      driver, protocol, info_driver := some .unknown, info_protocol := some .unknown } = some o)
    (hrc : o.rc = 0) :
    let drive' := probed sys o.drive
    openDisk sys device drive driver protocol ident =
      if ident ∧ identified sys drive'.protocol = -1 then some ⟨-1, drive', o.fds⟩
      else some ⟨0, { drive' with
        info_driver := drive'.driver, info_protocol := drive'.protocol }, o.fds⟩ := by
  intro drive'
  unfold openDisk
  rw [ho]
  change (if o.rc ≠ 0 then _
    else if (if ident then identified sys drive'.protocol else 0) = -1 then _ else _) = _
  rw [if_neg (not_not.mpr hrc)]
  cases ident with
  | false => rfl
  | true => exact if_congr (by simp) rfl rfl

theorem endsWell_failed {drive : OpenHandle} {fds : List Nat} :
    EndsWell ⟨-1, drive, fds⟩ ↔ fds = [] :=
  ⟨fun h => h.closed rfl,
    fun h => ⟨fun hrc => absurd hrc (show (-1 : Int) ≠ 0 by decide), fun _ => h⟩⟩

theorem endsWell_opened {drive : OpenHandle} {fds : List Nat} :
    EndsWell ⟨0, drive, fds⟩ ↔ Spoken drive ∧ Driven drive :=
  ⟨fun h => h.usable rfl,
    fun h => ⟨fun _ => h, fun hrc => absurd hrc (show (0 : Int) ≠ -1 by decide)⟩⟩

/-- **A call ends well exactly when** the transport fails and leaves nothing open, or it succeeds,
the protocol is probed or the handle has its function already, and nothing fails behind that. -/
theorem openDisk_iff {device : CString} {drive : OpenHandle} {driver : Option DriverType}
    {protocol : Option ProtocolType} {ident : Bool} {o : Opened}
    (ho : openDriver sys device { drive with
      driver, protocol, info_driver := some .unknown, info_protocol := some .unknown } = some o)
    {out : Opened} (h : openDisk sys device drive driver protocol ident = some out) :
    EndsWell out ↔
      (o.rc = -1 ∧ ¬ LeavesOpen sys device driver) ∨
        (o.rc = 0 ∧ CmdReady o.drive.driver protocol drive.cmd ∧
          (ident → ∀ p ∈ protocolOf sys o.drive.driver protocol, sys.identify p ≠ -1)) := by
  obtain ⟨left, t, hleft⟩ := openDriver_transported ho
  rcases t.rc with hrc | hrc
  · rw [openDisk_eq ho hrc] at h
    have hready : Spoken (probed sys o.drive) ↔ CmdReady o.drive.driver protocol drive.cmd := by
      rw [probed_spoken, t.protocol, t.cmd]
    have hdriven : Driven (probed sys o.drive) := (driven_probed_iff _).mpr (t.driven hrc)
    have hidentified (hspoken : Spoken (probed sys o.drive)) :
        identified sys (probed sys o.drive).protocol ≠ -1 ↔
          ∀ p ∈ protocolOf sys o.drive.driver protocol, sys.identify p ≠ -1 := by
      obtain ⟨p, f, hp, hf, _⟩ := hspoken
      have hprotocol : (probed sys o.drive).protocol = protocolOf sys o.drive.driver protocol :=
        (probed_protocol _).trans (congrArg _ t.protocol)
      rw [← hprotocol, hp]
      cases p with
      | unknown => cases hf
      | ata => simp [identified]
      | scsi => simp [identified]
      | nvme => simp [identified]
    have hno : ¬ (o.rc = -1) := by omega
    rw [or_iff_right fun hfailed => hno hfailed.1, and_iff_right hrc]
    split at h
    · rename_i hfailed
      rw [← Option.some.inj h, endsWell_failed]
      refine ⟨fun hnil => absurd hnil (t.opened hrc), fun ⟨hcmd, hid⟩ => ?_⟩
      exact absurd hfailed.2 ((hidentified (hready.mpr hcmd)).mpr (hid hfailed.1))
    · rename_i hgood
      rw [← Option.some.inj h, endsWell_opened]
      refine ⟨fun ⟨hspoken, _⟩ => ⟨hready.mp hspoken, fun hident => ?_⟩, fun ⟨hcmd, _⟩ => ?_⟩
      · exact (hidentified hspoken).mp fun hfailed => hgood ⟨hident, hfailed⟩
      · exact ⟨hready.mpr hcmd, hdriven⟩
  · have hout : ∃ drive', out = ⟨-1, drive', o.fds⟩ := by
      unfold openDisk at h
      rw [ho] at h
      exact ⟨_, (Option.some.inj ((if_pos (by omega)).symm.trans h)).symm⟩
    obtain ⟨drive', rfl⟩ := hout
    rw [endsWell_failed, t.fds hrc, ← hleft]
    have hno : ¬ (o.rc = 0) := by omega
    simp [hrc]

/-! ## A run -/

/-- A system with one disk, that answers all. -/
def oneDisk : Outcomes where
  stat _ := some .block
  open_ _ := some 3
  megasas_loaded := false
  proc_devices := none
  mknod := false
  host_no := none
  bus_number := none
  probe_scsi := (0, [])
  probe_nvme := -1
  identify _ := 0

/-- The memory of a caller. -/
def fresh : OpenHandle :=
  ⟨none, none, none, 0, 0, none, none, none, none, none⟩

theorem openDisk_iff_sda : EndsWell ⟨0, ⟨some .sgio, some .scsi, some 3, 0, 0, some .sgio_cmd,
    some .sgio_close, some .exec_cmd_scsi, some .sgio, some .scsi⟩, [3]⟩ :=
  (@openDisk_iff oneDisk "/dev/sda".toList fresh (some .unknown) (some .unknown) true
    ⟨0, ⟨some .sgio, some .unknown, some 3, 0, 0, some .sgio_cmd, some .sgio_close, none,
      some .unknown, some .unknown⟩, [3]⟩ (by decide) _ (by decide)).mpr
    (.inr ⟨rfl, .inl (by decide), fun _ => by decide⟩)

/-- The caller chooses the protocol, and it is not probed: nothing sets the function. -/
theorem forced_protocol :
    ¬ ∀ (sys : Outcomes) (device : CString) (drive : OpenHandle) (driver : Option DriverType)
      (protocol : Option ProtocolType) (ident : Bool) (out : Opened),
      openDisk sys device drive driver protocol ident = some out → EndsWell out := by
  intro h
  have hout := h oneDisk "/dev/sda".toList fresh (some .unknown) (some .ata) true
    ⟨0, ⟨some .sgio, some .ata, some 3, 0, 0, some .sgio_cmd, some .sgio_close, none,
      some .sgio, some .ata⟩, [3]⟩ (by decide)
  obtain ⟨_, _, _, _, hcmd⟩ := (hout.usable rfl).1
  cases hcmd

end Drive
