import Disks.Drive.Device

/-!
# Opening a disk (`disk.c`, `ide.c`, `sgio.c`, `sat.c`, `nvme.c`, `lsi.c`)

`openDisk` finds the transport (`..._open`), and then the protocol: it probes and identifies. What
the calls of the system and of the devices answer is a record (`Outcomes`); the descriptors that are
open at the end are part of the result (`Opened`).

A handle starts with what the caller's memory holds. `none` is a call that runs past a buffer.
-/

namespace Drive

/-- A string of C, without its zero. -/
abbrev CString := List Char

/-- `enum driver_type`; `none` is any other value. -/
inductive DriverType
  | unknown | ide | sgio | sat | nvme | megadev | megasas
deriving DecidableEq, Repr

/-- The functions that a handle points to. -/
inductive DriverFn
  | ide_cmd | sgio_cmd | sat_cmd | nvme_cmd | lsi_megadev_cmd | lsi_megasas_cmd
deriving DecidableEq, Repr

inductive CloseFn
  | ide_close | sgio_close | sat_close | nvme_close | lsi_close
deriving DecidableEq, Repr

inductive ExecFn
  | exec_cmd_ata | exec_cmd_scsi | exec_cmd_nvme
deriving DecidableEq, Repr

/-- `struct device_handle`. -/
structure OpenHandle where
  driver : Option DriverType
  protocol : Option ProtocolType
  fd : Option Nat
  port : Int
  hba : Int
  driver_cmd : Option DriverFn
  close : Option CloseFn
  cmd : Option ExecFn
  info_driver : Option DriverType
  info_protocol : Option ProtocolType
deriving DecidableEq, Repr

/-- What a function returns, leaves in the handle, and leaves open. -/
structure Opened where
  rc : Int
  drive : OpenHandle
  fds : List Nat
deriving DecidableEq, Repr

inductive FileType
  | block | character | other
deriving DecidableEq, Repr

/-- What the system and the device answer. -/
structure Outcomes where
  stat : CString → Option FileType
  open_ : CString → Option Nat
  /-- `check_megasas_loaded` -/
  megasas_loaded : Bool
  /-- What is read of `/proc/devices`. -/
  proc_devices : Option CString
  mknod : Bool
  /-- `SG_GET_SCSI_ID` and `SCSI_IOCTL_GET_BUS_NUMBER` -/
  host_no : Option Int
  bus_number : Option Int
  /-- `CMD_PROBE`: the return code and the data, and the return code over NVMe. -/
  probe_scsi : Int × List Char
  probe_nvme : Int
  /-- `CMD_IDENTIFY` -/
  identify : ProtocolType → Int

/-! ## Strings -/

/-- `!strncmp( s, t, n )` -/
def strncmp (s t : CString) (n : Nat) : Bool := s.take n = t.take n

/-- A length as `size_t`. -/
def sizeT (n : Int) : Nat := (n % 2 ^ 64).toNat

/-- `atoi` -/
def atoi (s : CString) : Int :=
  let digits (s : CString) : Int :=
    (s.takeWhile Char.isDigit).foldl (fun n c => 10 * n + (c.toNat - 48 : Nat)) 0
  match s.dropWhile Char.isWhitespace with
  | '-' :: s => - digits s
  | '+' :: s => digits s
  | s => digits s

def lsiIsvalidname (device : CString) : Bool :=
  (strncmp device "/dev/sd".toList 7 ∧ device.length > 8 ∧
      (device[8]? = some ':' ∨ device[9]? = some ':')) ∨
    (strncmp device "host".toList 4 ∧ device.length > 5 ∧
      (device[5]? = some ':' ∨ device[6]? = some ':' ∨ device[7]? = some ':'))

def sgioIsvalidname (device : CString) : Bool :=
  strncmp device "/dev/sg".toList 7 ∨ strncmp device "/dev/sd".toList 7

def satIsvalidname (device : CString) : Bool :=
  strncmp device "/dev/sg".toList 7 ∨ strncmp device "/dev/sd".toList 7

def nvmeIsvalidname (device : CString) : Bool := strncmp device "/dev/nvme".toList 9

def ideIsvalidname (device : CString) : Bool := strncmp device "/dev/hd".toList 7

/-! ## The transports -/

section transports

variable (sys : Outcomes)

/-- The part that the transports share: a node of a type that is accepted is opened, and then the
handle is filled in. -/
def openNode (drive : OpenHandle) (device : CString) (accepts : FileType → Bool)
    (fill : OpenHandle → OpenHandle) : Opened :=
  match sys.stat device with
  | none => ⟨-1, drive, []⟩
  | some st_mode =>
    if !accepts st_mode then ⟨-1, drive, []⟩
    else match sys.open_ device with
      | none => ⟨-1, { drive with fd := none }, []⟩
      | some fd => ⟨0, fill { drive with fd := some fd }, [fd]⟩

def ideOpen (device : CString) (drive : OpenHandle) : Opened :=
  openNode sys drive device (· = .block) fun drive =>
    { drive with
      driver_cmd := some .ide_cmd, close := some .ide_close, driver := some .ide }

/-- `/dev/sd..` has to be a block device, and `/dev/sg..` a character device. -/
def diskOrGeneric (device : CString) (st_mode : FileType) : Bool :=
  ¬ (device[6]? = some 'd' ∧ st_mode ≠ .block) ∧ ¬ (device[6]? = some 'g' ∧ st_mode ≠ .character)

def sgioOpen (device : CString) (drive : OpenHandle) : Opened :=
  openNode sys drive device (diskOrGeneric device) fun drive =>
    { drive with
      driver_cmd := some .sgio_cmd, close := some .sgio_close, driver := some .sgio }

def satOpen (device : CString) (drive : OpenHandle) : Opened :=
  openNode sys drive device (diskOrGeneric device) fun drive =>
    { drive with
      driver_cmd := some .sat_cmd, close := some .sat_close, driver := some .sat }

/-- `nvme_open`: what is behind a colon is the namespace. -/
def nvmeOpen (device : CString) (drive : OpenHandle) : Opened :=
  let name := device.takeWhile (· ≠ ':')
  let nsid := if ':' ∈ device then atoi (device.drop (name.length + 1)) else 0
  openNode sys drive name (· = .character) fun drive =>
    { drive with
      driver_cmd := some .nvme_cmd, close := some .nvme_close, driver := some .nvme, port := nsid }

def megaraidSasIoctlNode : CString := "/dev/megaraid_sas_ioctl_node".toList

def procDevices : CString := "/proc/devices".toList

/-- `check_megasas`: 1, 0 or -1, and what it leaves open. -/
def checkMegasas : Int × List Nat :=
  if !sys.megasas_loaded then (0, [])
  else match sys.stat megaraidSasIoctlNode with
  | some st_mode => if st_mode ≠ .character then (-1, []) else (1, [])
  | none =>
    match sys.open_ procDevices with
    -- `read` fails, and the buffer stays empty
    | none => (-1, [])
    | some fd =>
      match sys.proc_devices with
      -- the one path without a `close`
      | some [] => (-1, [fd])
      | none => (-1, [])
      | some buff =>
        if !buff.tails.any "megaraid_sas_ioctl".toList.isPrefixOf then (-1, [])
        else if !sys.mknod then (-1, []) else (1, [])

def checkMegadev : Int := if sys.stat "/dev/megadev0".toList = some .character then 1 else 0

/-- The comparisons of `lsi_open` with `/dev/sd` and `host`, to one or two, and to up to three
characters before the colon. -/
def namesDisk (device : CString) (dev_len : Nat) : Bool :=
  strncmp device "/dev/sd".toList (sizeT (dev_len - 1)) ∨
    strncmp device "/dev/sd".toList (sizeT (dev_len - 2))

def namesHost (device : CString) (dev_len : Nat) : Bool :=
  strncmp device "host".toList (sizeT (dev_len - 1)) ∨
    strncmp device "host".toList (sizeT (dev_len - 2)) ∨
    strncmp device "host".toList (sizeT (dev_len - 3))

/-- The first part of `lsi_open`: the driver of a name, and its port and host. -/
def lsiDriver (device : CString) (dev_len : Nat) (has_megasas has_megadev : Int)
    (drive : OpenHandle) : OpenHandle :=
  let port := atoi (device.drop (dev_len + 1))
  let hba := atoi (device.drop 4)
  if namesDisk device dev_len ∧ has_megasas ≠ 0 then
    { drive with port, driver := some .megasas, driver_cmd := some .lsi_megasas_cmd }
  else if namesHost device dev_len ∧ has_megasas ≠ 0 then
    { drive with port, driver := some .megasas, driver_cmd := some .lsi_megasas_cmd, hba }
  else if namesDisk device dev_len ∧ has_megadev ≠ 0 then
    { drive with port, driver := some .megadev, driver_cmd := some .lsi_megadev_cmd }
  else if namesHost device dev_len ∧ has_megadev ≠ 0 then
    { drive with port, driver := some .megadev, driver_cmd := some .lsi_megadev_cmd, hba }
  else drive

/-- The host of a disk, from its node, which is closed again; an error is with the handle it
leaves. -/
def lsiHost (dev_name : CString) (drive : OpenHandle) : Except OpenHandle OpenHandle :=
  match sys.stat dev_name with
  | none => .error drive
  | some st_mode =>
    if st_mode ≠ .block then .error drive
    else match sys.open_ dev_name with
      | none => .error { drive with fd := none }
      | some fd =>
        match sys.host_no, sys.bus_number with
        | some hba, _ => .ok { drive with fd := some fd, hba }
        | none, some hba => .ok { drive with fd := some fd, hba }
        | none, none => .error { drive with fd := none }

/-- The control file of a driver. -/
def lsiControl (drive : OpenHandle) : Option Nat :=
  if drive.driver = some .megadev then sys.open_ "/dev/megadev0".toList
  else (sys.open_ megaraidSasIoctlNode).or (sys.open_ "/dev/megaraid_sas_ioctl".toList)

def lsiOpen (device : CString) (drive : OpenHandle) : Option Opened :=
  let drive := { drive with driver := some .unknown }
  let dev_name := device.takeWhile (· ≠ ':')
  if ':' ∉ device then some ⟨-1, drive, []⟩
  -- `strncpy` into 50 characters
  else if dev_name.length > 50 then none
  else
    let (has_megasas, fds) := checkMegasas sys
    let has_megadev := checkMegadev sys
    if has_megadev = -1 ∨ has_megasas = -1 then some ⟨-1, drive, fds⟩
    else
      let drive := lsiDriver device dev_name.length has_megasas has_megadev drive
      if drive.driver = some .unknown then some ⟨-1, drive, fds⟩
      else if drive.port % 2 ^ 32 > 255 then some ⟨-1, drive, fds⟩
      else
        let hosted :=
          if !strncmp device "host".toList 4 then lsiHost sys dev_name drive else .ok drive
        match hosted with
        | .error drive => some ⟨-1, drive, fds⟩
        | .ok drive =>
          match lsiControl sys drive with
          | none => some ⟨-1, { drive with fd := none }, fds⟩
          | some fd => some ⟨0, { drive with fd := some fd, close := some .lsi_close }, fd :: fds⟩

/-! ## `openDisk` -/

/-- The transport of a name, or of the caller's choice. -/
def openDriver (device : CString) (drive : OpenHandle) : Option Opened :=
  match drive.driver with
  | some .unknown =>
    if lsiIsvalidname device then lsiOpen sys device drive
    else if sgioIsvalidname device then some (sgioOpen sys device drive)
    else if nvmeIsvalidname device then some (nvmeOpen sys device drive)
    else if satIsvalidname device then some (satOpen sys device drive)
    else if ideIsvalidname device then some (ideOpen sys device drive)
    else some ⟨-1, drive, []⟩
  | some .ide => some (ideOpen sys device drive)
  | some .sgio => some (sgioOpen sys device drive)
  | some .sat => some (satOpen sys device drive)
  | some .nvme => some (nvmeOpen sys device drive)
  | some .megadev => lsiOpen sys device drive
  | some .megasas => lsiOpen sys device drive
  | none => some ⟨-1, drive, []⟩

/-- The protocol that the probes find. -/
def probe : ProtocolType :=
  if sys.probe_scsi.1 = 0 then
    if strncmp (sys.probe_scsi.2.drop 8) "ATA".toList 3 then .ata else .scsi
  else if sys.probe_nvme = 0 then .nvme else .ata

/-- The function of a protocol. -/
def execOf : ProtocolType → Option ExecFn
  | .ata => some .exec_cmd_ata
  | .scsi => some .exec_cmd_scsi
  | .nvme => some .exec_cmd_nvme
  | .unknown => none

/-- `openDisk`; the calls that are made once the transport is there leave the descriptors alone. -/
def openDisk (device : CString) (drive : OpenHandle) (driver : Option DriverType)
    (protocol : Option ProtocolType) (ident : Bool) : Option Opened := do
  let o ← openDriver sys device { drive with
    driver, protocol, info_driver := some .unknown, info_protocol := some .unknown }
  let drive :=
    if o.drive.driver = some .ide then { o.drive with protocol := some .ata } else o.drive
  if o.rc ≠ 0 then some ⟨-1, drive, o.fds⟩
  else
    let drive :=
      if drive.protocol = some .unknown then
        { drive with protocol := some (probe sys), cmd := execOf (probe sys) }
      else drive
    let identified :=
      if ident then
        match drive.protocol with
        | some .ata => sys.identify .ata
        | some .scsi => sys.identify .scsi
        | some .nvme => sys.identify .nvme
        | _ => -1
      else 0
    if identified = -1 then some ⟨-1, drive, o.fds⟩
    else
      let drive := { drive with info_driver := drive.driver, info_protocol := drive.protocol }
      some ⟨0, drive, o.fds⟩

end transports

end Drive
