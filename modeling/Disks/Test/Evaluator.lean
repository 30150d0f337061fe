import Disks.Drive.SmartAttrs
import Disks.Test.DriveManager

/-!
# The SMART limits of a test (`disk-test/root/pylib/Evaluator.py`)

`LocalEvaluator.evaluate` compares the attributes of a drive with the limits for its type, and with
those of the first time that it was called for the drive. `Evaluator` has the methods that a test
calls: of `LocalEvaluator`, or of `ReportEvaluator`, which asks a server.
-/

namespace DiskTest

open Drive

/-- What `getType` may return. -/
inductive DriveType
  | Seagate
  | «Western Digitial»
  | Samsung
  | Hitachi
  | «Intel SSD»
  | SATADOM
  | Unknown
deriving DecidableEq, Repr

def getType (model : Manager.Text) : DriveType :=
  let startswith (front : String) : Bool := front.toList <+: lower model
  if startswith "st" then .Seagate
  else if startswith "wd" then .«Western Digitial»
  else if startswith "hd" || startswith "samsung" then .Samsung
  else if startswith "hu" || startswith "hitachi" then .Hitachi
  else if startswith "intel ssd" then .«Intel SSD»
  else if startswith "satadom" then .SATADOM
  else .Unknown

/-- The description, the greatest value and the greatest rate of an attribute. -/
structure Limit where
  desc : String
  max : Int
  rate : Int
deriving DecidableEq, Repr

abbrev Limits := List (Nat × Limit)

/-- `SMART_ATTRIBS[ drive_type ]`, which not all types have. -/
def SMART_ATTRIBS : DriveType → Option Limits
  | .Seagate => some
    [(10, ⟨"Spin Retry Count", 5, 1⟩),
      (184, ⟨"End-to-End error Count", 2, 1⟩),
      (193, ⟨"Load Cycle Count", 400000, 60⟩),
      (194, ⟨"Temperature", 45, 30⟩),
      (197, ⟨"Current Pending Sector Count", 2, 2⟩),
      (198, ⟨"Uncorrectable Sctor Count", 15, 10⟩)]
  | .«Western Digitial» => some
    [(1, ⟨"Read Error Rate", 1000, 500⟩),
      (5, ⟨"Relocated Sector Count", 10, 5⟩),
      (7, ⟨"Seek Error Rate", 1000, 500⟩),
      (10, ⟨"Spin Retry Count", 1, 1⟩),
      (11, ⟨"Calibration Retry Count", 1, 1⟩),
      (193, ⟨"Load Cycle Count", 400000, 60⟩),
      (194, ⟨"Temperature", 45, 30⟩),
      (196, ⟨"Relocate Event Count", 10, 5⟩),
      (197, ⟨"Current Pending Sector Count", 2, 2⟩),
      (198, ⟨"Uncorrectable Sctor Count", 10, 5⟩),
      (200, ⟨"Multi Zone Error Rate", 15, 10⟩)]
  | .Hitachi => some
    [(5, ⟨"Relocated Sector Count", 10, 5⟩),
      (10, ⟨"Spin Retry Count", 1, 1⟩),
      (193, ⟨"Load Cycle Count", 400000, 60⟩),
      (194, ⟨"Temperature", 45, 30⟩),
      (196, ⟨"Relocate Event Count", 10, 5⟩),
      (197, ⟨"Current Pending Sector Count", 2, 2⟩),
      (198, ⟨"Uncorrectable Sctor Count", 10, 5⟩)]
  | .SATADOM => some [(198, ⟨"Program Fail Count Chip", 20, 0⟩)]
  | .Unknown => some
    [(1, ⟨"Read Error Rate", 2000, 1000⟩),
      (5, ⟨"Relocated Sector Count", 10, 5⟩),
      (7, ⟨"Seek Error Rate", 2000, 1000⟩),
      (10, ⟨"Spin Retry Count", 1, 1⟩),
      (11, ⟨"Calibration Retry Count", 1, 1⟩),
      (184, ⟨"End-to-End error Count", 2, 1⟩),
      (188, ⟨"Command Timeout Cont (Potential power/Comm problems)", 2, 1⟩),
      (193, ⟨"Load Cycle Count", 400000, 60⟩),
      (194, ⟨"Temperature", 45, 30⟩),
      (195, ⟨"Hardware ECC Recovered", 2000, 1000⟩),
      (196, ⟨"Relocate Event Count", 10, 5⟩),
      (197, ⟨"Current Pending Sector Count", 2, 2⟩),
      (198, ⟨"Uncorrectable Sctor Count", 10, 5⟩),
      (200, ⟨"Multi Zone / Write Error Rate", 15, 10⟩),
      (201, ⟨"Soft Read Error Rate", 2000, 1000⟩),
      (221, ⟨"G-Sense Error Rate", 10, 5⟩),
      (223, ⟨"Load/Unload Retry Count", 10, 5⟩),
      (225, ⟨"Load/Unload Cycle Count", 300000, 40⟩)]
  | .Samsung => none
  | .«Intel SSD» => none

/-- The raw values of the attributes. -/
abbrev AttribList := Assoc.Dict AttrKey Int

/-- `tmp_list[attr][3]`; an attribute of SCSI is a number, which has no items. -/
def rawValue : AttrValue → Option Int
  | .ata _ _ _ raw => some raw.toNat
  | .scsi _ => none

/-- The body of the `try`: what was raised, or the raw values. -/
def attribList (attribs : SmartAttribs) : Except String AttribList :=
  match smartAttrs attribs with
  | .error e => .error (String.ofList e)
  | .ok tmp_list =>
    match tmp_list.mapM fun attr => (rawValue attr.2).map (attr.1, ·) with
    | none => .error "'int' object has no attribute '__getitem__'"
    | some attrib_list => .ok attrib_list

/-- What `evaluate` comes to. -/
inductive Verdict
  | kept
  | pruned (reason : String) (report : Bool)
  | keyError (drive_type : DriveType)
deriving DecidableEq, Repr

/-- The limit of an attribute, which only ids have. -/
def limitOf (limits : Limits) : AttrKey → Option (Nat × Limit)
  | .id id => (limits.find? fun x => x.1 = id.toNat)
  | .name _ => none

def aboveThreshold (operation : String) (id : Nat) (limit : Limit) (value : Int) : String :=
  operation ++ ": smart Attrib (" ++ toString id ++ ")\"" ++ limit.desc ++ "\" value \"" ++
    toString value ++ "\" above threshold of \"" ++ toString limit.max ++ "\""

def aboveRate (operation : String) (id : Nat) (limit : Limit) (rate : Int) : String :=
  operation ++ ": smart Attrib (" ++ toString id ++ ")\"" ++ limit.desc ++ "\" rate \"" ++
    toString rate ++ "\" above rate of \"" ++ toString limit.rate ++ "\""

/-- The loop over the attributes, where `initial` are those of the first time. -/
def checkAttribs (operation : String) (drive_type : DriveType) (initial : AttribList) :
    AttribList → Verdict
  | [] => .kept
  | (attrib, value) :: attrib_list =>
    match SMART_ATTRIBS drive_type with
    | none => .keyError drive_type
    | some limits =>
      match limitOf limits attrib with
      | none => checkAttribs operation drive_type initial attrib_list
      | some (id, limit) =>
        if value > limit.max then
          .pruned (aboveThreshold operation id limit value) false
        else
          match initial.lookup attrib with
          | none => checkAttribs operation drive_type initial attrib_list
          | some first =>
            if value - first > limit.rate then
              .pruned (aboveRate operation id limit (value - first)) false
            else checkAttribs operation drive_type initial attrib_list

/-- `LocalEvaluator`: the attributes of the first time, for each drive. -/
structure LocalEvaluator where
  initial : Assoc.Dict TestDrive AttribList := []

/-- `LocalEvaluator.evaluate`, with what `smartAttrs` of the drive finds. -/
def LocalEvaluator.evaluate (self : LocalEvaluator) (drive : TestDrive) (attribs : SmartAttribs)
    (operation : String) : LocalEvaluator × Verdict :=
  match attribList attribs with
  | .error e =>
    (self, .pruned ("Exception \"" ++ e ++ "\" while getting SMART attrs for \"" ++
      String.ofList drive.drive.name ++ "\"") true)
  | .ok attrib_list =>
    let self := if drive ∈ Assoc.keys self.initial then self
      else { self with initial := Assoc.set self.initial drive attrib_list }
    (self, checkAttribs operation (getType drive.model)
      ((self.initial.lookup drive).getD []) attrib_list)

/-- What the verdict does to the drives. -/
def DriveManager.judge (m : DriveManager) (drive : TestDrive) : Verdict → DriveManager
  | .pruned reason report => m.prune drive reason report false
  | .kept => m
  | .keyError _ => m

/-! ## The evaluators -/

/-- `Evaluator`, with the methods that it has of its own, on a world that they may change. -/
structure Evaluator (σ : Type) where
  /-- `__init__` -/
  init : EStateM Unit σ Unit := pure ()
  reportFail : TestDrive → String → EStateM Unit σ Unit := fun _ _ => pure ()
  allreadyDead : TestDrive → EStateM Unit σ Bool := fun _ => pure false
  allreadyThrashed : TestDrive → EStateM Unit σ Bool := fun _ => pure false
  mark_thrashed : TestDrive → EStateM Unit σ Unit := fun _ => pure ()
  /-- `false` where `Plato404Exception` is raised. -/
  store : TestDrive → EStateM Unit σ Bool := fun _ => pure true
  evaluate : TestDrive → String → EStateM Unit σ Verdict

/-- `LocalEvaluator`, with what `smartAttrs` of a drive finds. -/
def LocalEvaluator.evaluator {σ : Type} (smartAttrs : TestDrive → σ → SmartAttribs × σ) :
    Evaluator (LocalEvaluator × σ) where
  evaluate drive operation := fun s =>
    let attribs := smartAttrs drive s.2
    let result := s.1.evaluate drive attribs.1 operation
    .ok result.2 (result.1, attribs.2)

/-- What `PlatoDriveTest` and the drives answer; a status of type `δ`, or only the text of
`host_flag_bad`. -/
structure Plato (σ δ : Type) where
  getConfig : EStateM Unit σ Unit
  driveReportingStatus : TestDrive → EStateM String σ δ
  /-- The drive is good, and its health. -/
  reportDriveStatus : TestDrive → String → String ⊕ δ → EStateM Unit σ (Bool × String)
  checkDriveStatus : TestDrive → EStateM Unit σ (Option Bool)
  checkDriveThrashed : TestDrive → EStateM Unit σ (Option Bool)
  /-- The answer to `removedrive`, of all drives or one; `none` where it is not found. -/
  postRemoveDrive : Option TestDrive → Bool → EStateM Unit σ (Option String)
  getMarkThrashed : TestDrive → EStateM Unit σ String

namespace Plato

variable {σ δ : Type} (plato : Plato σ δ)

def removeDrive (drive : Option TestDrive) (store : Bool) : EStateM Unit σ Bool := do
  match ← plato.postRemoveDrive drive store with
  | none => pure false
  | some result => if result = "Saved" then pure true else throw ()

def markThrashed (drive : TestDrive) : EStateM Unit σ Unit := do
  if (← plato.getMarkThrashed drive) = "Saved" then pure () else throw ()

/-- What comes of the report after an operation. -/
def reported (drive : TestDrive) (operation : String) :
    EStateM.Result String σ δ → EStateM.Result Unit σ Verdict
  | .error e world =>
    .ok (.pruned ("Exception \"" ++ e ++ "\" getting Disk info after \"" ++ operation ++ "\"") true)
      world
  | .ok drive_status world =>
    match plato.reportDriveStatus drive ("Drive Test: \"" ++ operation ++ "\"")
      (.inr drive_status) world with
    | .error e world => .error e world
    | .ok status world =>
      if status.1 then .ok .kept world
      else .ok (.pruned ("Plato Reports as bad, Health: " ++ status.2) false) world

/-- `ReportEvaluator` -/
def evaluator : Evaluator σ where
  init := do
    plato.getConfig
    if ← plato.removeDrive none false then pure () else throw ()
  reportFail drive reason := do
    let _ ← plato.reportDriveStatus drive ("Drive Test Fail: \"" ++ reason ++ "\"")
      (.inl (reason ++ ": \"" ++ String.ofList drive.drive.name ++ "\""))
  allreadyDead drive := do pure ((← plato.checkDriveStatus drive) = some false)
  allreadyThrashed drive := do pure ((← plato.checkDriveThrashed drive) = some true)
  mark_thrashed := plato.markThrashed
  store drive := plato.removeDrive (some drive) true
  evaluate drive operation := fun world =>
    plato.reported drive operation (plato.driveReportingStatus drive world)

end Plato

end DiskTest
