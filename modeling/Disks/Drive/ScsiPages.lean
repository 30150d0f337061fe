import Disks.Lib.CString
import Disks.Drive.Scsi
import Disks.Drive.Transport

/-!
# SCSI pages (`scsi.c`)

The commands of `exec_cmd_scsi` that parse what a device answers: `CMD_IDENTIFY`,
`CMD_IDENTIFY_ENCLOSURE`, `CMD_SMART_STATUS` and `CMD_SMART_ATTRIBS`. Each asks for pages, one into
the same 512-byte buffer after the other, and no page twice.

How a page is asked for is a parameter (`Asks`), and its commands may have effects; `Answers` is the
one without: what each command is answered. A read outside the buffer has no result (`none`), and an
error of a command is an exception inside.
-/

namespace Drive

open Bytes

/-! ## The buffer -/

/-- `unsigned char tdata[512]`. -/
abbrev Page := Vector Byte 512

/-- `tdata[i]`. -/
def Page.at? (tdata : Page) (i : Nat) : Option Byte := tdata.toList[i]?

/-- A function that reads pages and may fail. -/
abbrev Reading (α : Type) := ExceptT Int Option α

/-- How a command asks for a page: the page, or `errno`. -/
abbrev Asks (M : Type → Type) := CdbCommand → List U64 → M (Except Int Page)

/-- What the commands that ask for a page are answered. -/
abbrev Answers := CdbCommand → List U64 → Except Int Page

def Answers.asks (answers : Answers) : Asks Option := fun command parms =>
  some (answers command parms)

/-- `parse_scsi_number( &tdata[i], len )`. -/
def parseScsiNumber (tdata : Page) (i len : Nat) : Option U64 :=
  (List.range len).foldlM
    (fun value j => do
      let b ← tdata.at? (i + j)
      some ((value <<< 8) + b.setWidth 64)) 0

/-- `parse_scsi_number( &tdata[2], 2 ) + offset`, with offset 4. -/
def buffLen (tdata : Page) : Nat :=
  (tdata.toList.getD 2 0).toNat * 256 + (tdata.toList.getD 3 0).toNat + 4

/-- What `parse_scsi_field` stores; `data` is the index of the first byte. -/
structure ScsiField where
  code : Nat
  flags : Byte
  len : Nat
  data : Nat
deriving DecidableEq, Repr

/-- The parameter header at `offset`. -/
def fieldAt (tdata : Page) (offset : Nat) : Option ScsiField := do
  let b0 ← tdata.at? offset
  let b1 ← tdata.at? (offset + 1)
  let flags ← tdata.at? (offset + 2)
  let len ← tdata.at? (offset + 3)
  some ⟨b0.toNat * 256 + b1.toNat, flags, len.toNat, offset + 4⟩

/-- `while( parse_scsi_field( … ) )`: `body` goes on with a new state or leaves the loop. -/
def walk {σ ρ : Type} (tdata : Page) (body : ScsiField → σ → Option (Loop.Turn σ ρ))
    (done : σ → ρ) (offset : Nat) (s : σ) : Option ρ :=
  if offset + 4 ≥ buffLen tdata then some (done s)
  else do
    let f ← fieldAt tdata offset
    match ← body f s with
    | .stop r => some r
    | .next s => walk tdata body done (offset + 4 + f.len) s
termination_by buffLen tdata - offset

/-- `for( ; offset < buff_len; offset++ ) switch( tdata[offset] )`: the bytes that are looked at. -/
def scanPages (tdata : Page) : Option (List Byte) :=
  (List.range' 4 (buffLen tdata - 4)).mapM tdata.at?

/-- `getu64( &tdata[i] )`. -/
def getu64At (tdata : Page) (i : Nat) : Option U64 := do
  let bytes ← (List.range' i 8).mapM tdata.at?
  some (getu64 bytes)

/-- The loop over the device identification page; `start` is where the WWN is read. -/
def scanWWN (tdata : Page) (start : Nat) : List Nat → Option U64
  | [] => some 0
  | offset :: rest => do
    let code ← tdata.at? (offset + 1)
    if code &&& 0x0f = 3 then do
      let len ← tdata.at? (offset + 3)
      if len = 8 then getu64At tdata (offset + start) else scanWWN tdata start rest
    else scanWWN tdata start rest

/-! ## `CMD_IDENTIFY` -/

/-- `enum SCSI_LOG_SENCE_PAGES`. -/
def SCSI_LOG_SENCE_PAGE_LIST : Byte := 0x00
def SCSI_LOG_SENCE_PAGE_ERROR_WRITE : Byte := 0x02
def SCSI_LOG_SENCE_PAGE_ERROR_READ : Byte := 0x03
def SCSI_LOG_SENCE_PAGE_ERROR_VERIFY : Byte := 0x05
def SCSI_LOG_SENCE_PAGE_ERROR_NON_MEDIUM : Byte := 0x06
def SCSI_LOG_SENCE_PAGE_TEMPERATURE : Byte := 0x0d
def SCSI_LOG_SENCE_PAGE_SSD : Byte := 0x11
def SCSI_LOG_SENCE_PAGE_BACKGROUND_SCAN : Byte := 0x15
def SCSI_LOG_SENCE_PAGE_INFO_EXCEPT : Byte := 0x2f
def SCSI_LOG_SENCE_PAGE_FACTORY_LOG : Byte := 0x3e

/-- `enum SCSI_VPD_PAGES`. -/
def SCSI_VPD_PAGE_LIST : Byte := 0x00
def SCSI_VPD_PAGE_SERIAL : Byte := 0x80
def SCSI_VPD_PAGE_IDENT : Byte := 0x83
def SCSI_VPD_PAGE_BLOCK_LIMITS : Byte := 0xb0
def SCSI_VPD_PAGE_BLOCK_DEV_CHRSTCS : Byte := 0xb1

def SCSI_VENDOR_ID_RAW_LEN : Nat := 8
def SCSI_MODEL_NUMBER_RAW_LEN : Nat := 16
def SCSI_VERSION_RAW_LEN : Nat := 4

/-- What `CMD_IDENTIFY` and `CMD_IDENTIFY_ENCLOSURE` store. The `has…` flags of pages are the lists
of pages that were looked at. -/
structure ScsiInfo where
  vendor_id : List Byte := List.replicate VENDOR_ID_LEN 0
  model : List Byte := List.replicate MODEL_NUMBER_LEN 0
  version : List Byte := List.replicate VERSION_LEN 0
  serial : List Byte := List.replicate SERIAL_NUMBER_LEN 0
  supportsLBA : Bool := false
  SCSI_version : Nat := 0
  supportsWriteSame : Bool := false
  SMARTSupport : Bool := false
  SMARTEnabled : Bool := false
  isSSD : Bool := false
  logPages : List Byte := []
  diagnosticPages : List Byte := []
  vpdPages : List Byte := []
  WWN : U64 := 0
  supportsTrim : Bool := false
  maxUnmapLBACount : U32 := 0
  maxUnmapDescriptorCount : U32 := 0
  maxWriteSameLength : U64 := 0
  RPM : U64 := 0
  LBACount : U64 := 0
  LogicalSectorSize : U32 := 0
  PhysicalSectorSize : Nat := 0
deriving Repr

/-- A field of `size` bytes with `n` bytes from `i` on, the last of them a terminator:
`strncpy( info->field, …, n )` and `info->field[n - 1] = '\0'`. -/
def scsiString (tdata : Page) (size n i : Nat) : List Byte :=
  (strncpy (List.replicate size 0) (tdata.toList.drop i) n).set (n - 1) 0

/-- The INQUIRY part, for the peripheral type that is asked for. -/
def loadInquiry (tdata : Page) (type : Byte) : Reading ScsiInfo :=
  let b (i : Nat) : Byte := tdata.toList.getD i 0
  if b 0 &&& 0xe0 ≠ 0 ∨ b 0 &&& 0x1f ≠ type then throw (-1)
  else pure {
    vendor_id := scsiString tdata VENDOR_ID_LEN SCSI_VENDOR_ID_RAW_LEN 8
    model := scsiString tdata MODEL_NUMBER_LEN SCSI_MODEL_NUMBER_RAW_LEN 16
    version := scsiString tdata VERSION_LEN SCSI_VERSION_RAW_LEN 32
    supportsLBA := b 0 = 0x00
    SCSI_version := (b 58).toNat * 256 + (b 59).toNat }

/-- `"<Unknown>"`. -/
def unknownSerial : List Byte := "<Unknown>".toList.map fun c => BitVec.ofNat 8 c.toNat

/-- A part of a command that asks for nothing. -/
def Reading.lift {M : Type → Type} [MonadLiftT Option M] {α : Type} (x : Reading α) :
    ExceptT Int M α :=
  ExceptT.mk (liftM (ExceptT.run x))

namespace Asks

variable {M : Type → Type} [Monad M] [MonadLiftT Option M] (asks : Asks M)

/-- A page that has to be there. -/
def ask (command : CdbCommand) (parms : List U64) : ExceptT Int M Page := do
  match ← ExceptT.lift (asks command parms) with
  | .ok tdata => pure tdata
  | .error _ => throw (-1)

/-- The serial number page, or `<Unknown>`. -/
def loadSerial (info : ScsiInfo) : ExceptT Int M ScsiInfo :=
  if info.vpdPages.contains SCSI_VPD_PAGE_SERIAL then do
    let tdata ← asks.ask .scsiVpdPage [SCSI_VPD_PAGE_SERIAL.setWidth 64]
    let len := min SERIAL_NUMBER_LEN (tdata.toList.getD 3 0).toNat
    pure { info with
      serial := (strncpy info.serial (tdata.toList.drop 4) len).set (SERIAL_NUMBER_LEN - 1) 0 }
  else pure { info with serial := strncpy info.serial unknownSerial SERIAL_NUMBER_LEN }

/-- The device identification page; `start` is where the WWN is read. -/
def loadIdent (start : Nat) (info : ScsiInfo) : ExceptT Int M ScsiInfo :=
  if info.vpdPages.contains SCSI_VPD_PAGE_IDENT then do
    let tdata ← asks.ask .scsiVpdPage [SCSI_VPD_PAGE_IDENT.setWidth 64]
    let wwn ← (scanWWN tdata start (List.range' 4 (buffLen tdata - 4)) : Option U64)
    pure { info with WWN := wwn }
  else pure info

/-- The supported log pages. A drive without them is let through: a failure with errno 52,
whichever it is. -/
def loadLogPages (info : ScsiInfo) : ExceptT Int M ScsiInfo := do
  match ← ExceptT.lift (asks .scsiLogPage [SCSI_LOG_SENCE_PAGE_LIST.setWidth 64]) with
  | .error errno => if errno ≠ EBADE then throw (-1) else pure info
  | .ok tdata => do
    let pages ← (scanPages tdata : Option (List Byte))
    pure { info with
      supportsWriteSame := true
      SMARTSupport := true
      SMARTEnabled := true
      logPages := pages
      isSSD := pages.contains SCSI_LOG_SENCE_PAGE_SSD }

/-- The block limits page. -/
def loadLimits (info : ScsiInfo) : ExceptT Int M ScsiInfo :=
  if info.vpdPages.contains SCSI_VPD_PAGE_BLOCK_LIMITS then do
    let tdata ← asks.ask .scsiVpdPage [SCSI_VPD_PAGE_BLOCK_LIMITS.setWidth 64]
    let b (i : Nat) : Byte := tdata.toList.getD i 0
    if b 3 > 0x10 ∧ b 20 ||| b 21 ||| b 22 ||| b 23 ≠ 0 then
      pure { info with
        supportsTrim := true
        maxUnmapLBACount := getu32 (tdata.toList.drop 20)
        maxUnmapDescriptorCount := getu32 (tdata.toList.drop 24)
        maxWriteSameLength := getu64 (tdata.toList.drop 36) }
    else pure info
  else pure info

/-- The block device characteristics page. -/
def loadCharacteristics (info : ScsiInfo) : ExceptT Int M ScsiInfo :=
  if info.vpdPages.contains SCSI_VPD_PAGE_BLOCK_DEV_CHRSTCS then do
    let tdata ← asks.ask .scsiVpdPage [SCSI_VPD_PAGE_BLOCK_DEV_CHRSTCS.setWidth 64]
    let rpm ← (parseScsiNumber tdata 4 2 : Option U64)
    pure (if rpm = 1 then { info with isSSD := true, RPM := 0 } else { info with RPM := rpm })
  else pure info

/-- READ CAPACITY (16). -/
def loadReadCapacity (info : ScsiInfo) : ExceptT Int M ScsiInfo :=
  if info.supportsLBA then do
    let tdata ← asks.ask .scsiReadCapacity []
    let size := getu32 (tdata.toList.drop 8)
    pure { info with
      LBACount := getu64 tdata.toList
      LogicalSectorSize := size
      PhysicalSectorSize := 2 ^ (tdata.toList.getD 13 0 &&& 0x0f).toNat * size.toNat }
  else pure info

/-- `CMD_IDENTIFY`. -/
def scsiIdentify : ExceptT Int M ScsiInfo := do
  let tdata ← asks.ask .scsiInquiry []
  let info ← (loadInquiry tdata 0x00).lift
  let info ← asks.loadLogPages info
  let tdata ← asks.ask .scsiVpdPage [SCSI_VPD_PAGE_LIST.setWidth 64]
  let vpdPages ← (scanPages tdata : Option (List Byte))
  let info ← asks.loadSerial { info with vpdPages }
  let info ← asks.loadIdent 4 info
  let info ← asks.loadLimits info
  let info ← asks.loadCharacteristics info
  asks.loadReadCapacity info

/-- `CMD_IDENTIFY_ENCLOSURE`: the WWN is read one byte further on. -/
def scsiIdentifyEnclosure : ExceptT Int M ScsiInfo := do
  let tdata ← asks.ask .scsiInquiry []
  let info ← (loadInquiry tdata 0x0d).lift
  let tdata ← asks.ask .scsiReceiveDiagnostic [0, 512]
  let diagnosticPages ← (scanPages tdata : Option (List Byte))
  let tdata ← asks.ask .scsiVpdPage [SCSI_VPD_PAGE_LIST.setWidth 64]
  let vpdPages ← (scanPages tdata : Option (List Byte))
  let info ← asks.loadSerial { info with diagnosticPages, vpdPages }
  asks.loadIdent 5 info

end Asks

/-! ## `CMD_SMART_STATUS` -/

/-- The body of the loop over the informational exceptions page: the additional sense code of the
last parameter 0 with two bytes. -/
def exceptionsTurn (tdata : Page) (f : ScsiField) (sense : Byte × Byte) :
    Option (Loop.Turn (Byte × Byte) (Byte × Byte)) :=
  if f.code = 0 ∧ f.len ≥ 2 then do
    let asc ← tdata.at? f.data
    let ascq ← tdata.at? (f.data + 1)
    some (.next (asc, ascq))
  else some (.next sense)

/-- `while( parse_scsi_field( … ) )` over the informational exceptions page. -/
def scanExceptions (tdata : Page) : Option (Byte × Byte) :=
  walk tdata (exceptionsTurn tdata) id 4 (0, 0)

def SCSI_ASC_WARNING : Byte := 0x0b
def SCSI_ASC_IMPENDING_FAILURE : Byte := 0x5d

/-- `CMD_SMART_STATUS`. -/
def Asks.scsiSmartStatus {M : Type → Type} [Monad M] [MonadLiftT Option M] (asks : Asks M)
    (hasLogPageInfoExcept : Bool) : ExceptT Int M U64 := do
  let sense ← if hasLogPageInfoExcept then do
      let tdata ← asks.ask .scsiLogPage [SCSI_LOG_SENCE_PAGE_INFO_EXCEPT.setWidth 64]
      (scanExceptions tdata : Option (Byte × Byte))
    else pure (0, 0)
  let (asc, ascq) ← if sense.1 = 0 then do
      let tdata ← asks.ask .scsiSense []
      let b (i : Nat) : Byte := tdata.toList.getD i 0
      if b 0 ≠ 0x70 ∧ b 0 ≠ 0x71 then throw (-1) else pure (b 12, b 13)
    else pure sense
  let status := if asc = SCSI_ASC_IMPENDING_FAILURE then STATUS_DRIVE_GOOD |||
    STATUS_THRESHOLD_EXCEEDED else STATUS_DRIVE_GOOD
  pure (if asc = SCSI_ASC_WARNING ∧ (ascq = 0x03 ∨ ascq = 0x04 ∨ ascq = 0x05) then
    status ||| STATUS_DRIVE_FAULT else status)

/-! ## `CMD_SMART_ATTRIBS` -/

def MAX_SCSI_ATTRIBS : Nat := 50

/-- `struct smart_attrib_scsi`: one byte for each code. -/
structure SmartAttribScsi where
  page_code : Byte
  parm_code : Byte
  value : U64
deriving DecidableEq, Repr

/-- One attribute stored and `INC_I_CHECK_MAX_SCSI_ATTRIBS`: `none` is the error. -/
def store (attribs : List SmartAttribScsi) (page : Byte) (code : Nat) (value : U64) :
    Option (List SmartAttribScsi) :=
  if attribs.length + 1 ≥ MAX_SCSI_ATTRIBS then none
  else some (attribs ++ [⟨page, BitVec.ofNat 8 code, value⟩])

/-- The body of the loop over an error counter page: every parameter. -/
def counterTurn (tdata : Page) (page : Byte) (f : ScsiField) (attribs : List SmartAttribScsi) :
    Option (Loop.Turn (List SmartAttribScsi) (Option (List SmartAttribScsi))) := do
  let value ← parseScsiNumber tdata f.data f.len
  match store attribs page f.code value with
  | none => some (.stop none)
  | some attribs => some (.next attribs)

/-- The body of a loop that looks for parameter 0; `read` is its value. -/
def singleTurn (read : ScsiField → Option U64) (page : Byte) (f : ScsiField)
    (attribs : List SmartAttribScsi) :
    Option (Loop.Turn (List SmartAttribScsi) (Option (List SmartAttribScsi))) :=
  if f.code = 0 then do
    let value ← read f
    some (.stop (store attribs page f.code value))
  else some (.next attribs)

/-- The value of the background scan parameter: four bytes as an `int`, which is negative from
2^31 on, made 64 bits wide. -/
def powerOnMinutes (tdata : Page) (f : ScsiField) : Option U64 := do
  let b0 ← tdata.at? f.data
  let b1 ← tdata.at? (f.data + 1)
  let b2 ← tdata.at? (f.data + 2)
  let b3 ← tdata.at? (f.data + 3)
  let minutes : U32 := (b0.setWidth 32 <<< 24) + (b1.setWidth 32 <<< 16) +
    (b2.setWidth 32 <<< 8) + b3.setWidth 32
  some (minutes.signExtend 64)

/-- One of the seven loops. -/
def attribLoop (tdata : Page) (page : Byte) (attribs : List SmartAttribScsi) :
    Option (Option (List SmartAttribScsi)) :=
  if page = SCSI_LOG_SENCE_PAGE_TEMPERATURE ∨ page = SCSI_LOG_SENCE_PAGE_FACTORY_LOG then
    walk tdata (singleTurn (fun f => parseScsiNumber tdata f.data f.len) page) some 4 attribs
  else if page = SCSI_LOG_SENCE_PAGE_BACKGROUND_SCAN then
    walk tdata (singleTurn (powerOnMinutes tdata) page) some 4 attribs
  else walk tdata (counterTurn tdata page) some 4 attribs

/-- The pages with attributes, in the order they are asked for. -/
def attribPages : List Byte :=
  [SCSI_LOG_SENCE_PAGE_ERROR_WRITE, SCSI_LOG_SENCE_PAGE_ERROR_READ,
    SCSI_LOG_SENCE_PAGE_ERROR_VERIFY, SCSI_LOG_SENCE_PAGE_ERROR_NON_MEDIUM,
    SCSI_LOG_SENCE_PAGE_TEMPERATURE, SCSI_LOG_SENCE_PAGE_BACKGROUND_SCAN,
    SCSI_LOG_SENCE_PAGE_FACTORY_LOG]

section attribs

variable {M : Type → Type} [Monad M] [MonadLiftT Option M] (asks : Asks M) (logPages : List Byte)

/-- A page of the attributes, if the drive has it. -/
def Asks.loadAttribs (attribs : List SmartAttribScsi) (page : Byte) :
    ExceptT Int M (List SmartAttribScsi) :=
  if logPages.contains page then do
    let tdata ← asks.ask .scsiLogPage [page.setWidth 64]
    match ← (attribLoop tdata page attribs : Option (Option (List SmartAttribScsi))) with
    | none => throw (-1)
    | some attribs => pure attribs
  else pure attribs

/-- `CMD_SMART_ATTRIBS` for a drive with these log pages. -/
def Asks.scsiSmartAttribs : ExceptT Int M (List SmartAttribScsi) :=
  attribPages.foldlM (asks.loadAttribs logPages) []

end attribs

/-! ## What they answer -/

section answers

variable (answers : Answers)

def scsiIdentify : Reading ScsiInfo := answers.asks.scsiIdentify

def scsiIdentifyEnclosure : Reading ScsiInfo := answers.asks.scsiIdentifyEnclosure

def scsiSmartStatus (hasLogPageInfoExcept : Bool) : Reading U64 :=
  answers.asks.scsiSmartStatus hasLogPageInfoExcept

def scsiSmartAttribs (logPages : List Byte) : Reading (List SmartAttribScsi) :=
  answers.asks.scsiSmartAttribs logPages

end answers

end Drive
