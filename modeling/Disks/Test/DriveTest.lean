import Disks.Test.Procutils

/-!
# The test of the drives (`disk-test/root/drivetest`)

The drives that are not to be tested are skipped; the tests then take drives off the working list
that they fail on, and those that remain are good. What is printed is left out.

* `doThrash`, `doMunch`, ..: the commands (`pylib/testutils.py`).
* `doSaveResults`, `doLightupDrives`: `pylib/miscutils.py`.
* `main`: the program.
-/

namespace DriveTest

open DiskTest
open Manager (Text Name)

/-! ## Options -/

structure Options where
  destructive : Bool := false
  thrash : Bool := false
  muncher_dma : Bool := false
  round1 : Int := 15000000
  round1_time : Int := 4320
  rdelay : Int := 30
  round2 : Int := 5000000
  round2_time : Int := 1440
  pdelay : Int := 30
  bonnie : String := "-s 10000 -n 20:2000000:1000:100 -x 10"
  bonnie_time : Int := 2880
  bdelay : Int := 30
  no_wipe : Bool := false
  wdelay : Int := 30
  fdelay : Int := 30
  no_conveyancetest : Bool := false
  no_selftest : Bool := false
  short_selftest : Bool := false
  no_saveresults : Bool := false
  no_lightup : Bool := false
  no_partition_check : Bool := false
  re_thrash : Bool := false

def maxFormatTime : Int := 100
def maxFsckTime : Int := 100
def maxWipeTime : Int := 1200
def maxConveyanceTestTime : Int := 540
def maxSelfTestTime : Int := 1200

/-! ## Commands -/

def POST_WAKE_DELAY : Nat := 120

def FDISK_CMD : Command := [.text "/sbin/sfdisk ", .block_path]
def MKFS_CMD : Command := [.text "/sbin/mke2fs -q -m 0 -t ext3 ", .block_path, .text "1"]
def FSCK_CMD : Command := [.text "/sbin/fsck.ext3 -p -f ", .block_path, .text "1"]
def MK_MOUNT_POINT_CMD : Command := [.text "/bin/mkdir /mnt/", .block_name]
def MOUNT_CMD : Command := [.text "/bin/mount ", .block_path, .text "1 /mnt/", .block_name]
def UNMOUNT_CMD : Command := [.text "/bin/umount /mnt/", .block_name]
def CLRPARTTABLE_CMD : Command := [.text "/sbin/clrparttable ", .block_path]
def SUSPEND_CMD : Command := [.text "/bin/drivepower -i ", .libdrive_name]
def WAKE_CMD : Command := [.text "/bin/drivepower -a ", .libdrive_name]
def WIPE_CMD : Command := [.text "/sbin/wipedrive -k 61440 -z -i 120 ", .libdrive_name]
def SELFTEST_CMD : Command := [.text "/sbin/selftest -k -i 120 --long-or-short ", .libdrive_name]
def SHORTSELFTEST_CMD : Command := [.text "/sbin/selftest -k -i 120 --short ", .libdrive_name]
def CONVEYANCETEST_CMD : Command :=
  [.text "/sbin/selftest -k -i 120 --conveyance-or-short ", .libdrive_name]

/-- `THRASH_CMD` of `setTestParms`, with its count. -/
def THRASH_CMD (destructive : Bool) (count : Int) : Command :=
  [.text ("/sbin/thrash -v -c" ++ toString count ++ " "), .block_path] ++
    if destructive then [.text " -w"] else []

/-- `MUNCH_CMD` of `setTestParms`, with its counts. -/
def MUNCH_CMD (destructive muncher_dma : Bool) (rand sweep full count : Int) : Command :=
  [.text ((if destructive then "/sbin/muncher -b -a" else "/sbin/muncher     -a") ++
      toString rand ++ " -p" ++ toString sweep ++ " -f" ++ toString full ++ " -c" ++
      toString count ++ " -toff"),
    .text (if muncher_dma then " -d" else ""), .text " ", .libdrive_name]

def BONNIE_CMD (bonnie : String) : Command :=
  [.text "/sbin/bonnie -r 0 -d /mnt/", .block_name, .text " -u root ", .text bonnie]

/-- The command of `doMunch`. -/
def munch (options : Options) (count : Int) : Command :=
  let rounds := 2
  let tmp := count / (100 * rounds)
  MUNCH_CMD options.destructive options.muncher_dma (tmp * 58) (tmp * 10) tmp rounds

/-- The command of a round. -/
def round (options : Options) (count : Int) : Command :=
  if options.thrash then THRASH_CMD options.destructive count else munch options count

variable {σ : Type}

/-- `len( manager.working_list ) < 1` -/
def noDrives : Test σ Bool := do pure (← get).manager.working_list.isEmpty

/-- `if delay > 0 and len( manager.working_list ) > 0` -/
def cooldown (delay : Int) (m : Test σ Unit) : Test σ Unit := do
  whenever (delay > 0 && !(← noDrives)) m

/-- Something outside that may fail, with the text of what it raises. -/
def attempt (m : EStateM String σ Unit) : Test σ (Option String) := fun s =>
  match m s.world with
  | .ok _ world => .ok none { s with world }
  | .error e world => .ok (some e) { s with world }

/-! ## Results on the drives -/

def failMessage (date : Text) (reason : String) : Text :=
  ("FAIL\n".toList ++ date ++ '\n' :: reason.toList).take 510

/-- The message, with as many times eight zeros as it takes. -/
def passMessage (date : Text) : Text :=
  let msg := "PASS\n".toList ++ date ++ ['\n']
  (msg ++ List.replicate (8 * ((510 - msg.length + 7) / 8)) '\x00').take 510

def LIGHTUP_CMD (drive : Text) : Text :=
  "/bin/dd if=".toList ++ drive ++ " of=/dev/null bs=512".toList

namespace Host

variable (host : Host σ)

/-! ## What the tests run (`testutils.py`) -/

/-- A command on all drives at the same time; the last lines are printed or not. -/
def runTest (cmd : Command) (maxTime : Int) : Test σ Unit := do
  let _ ← host.runOnEachDriveWait cmd maxTime

def doSpinDownSleep (delay : Int) : Test σ Unit := do
  host.runOnEachDrive SUSPEND_CMD none
  if ← noDrives then pure ()
  else
    host.sleep (delay.toNat * 60)
    host.runOnEachDrive WAKE_CMD none
    host.sleep POST_WAKE_DELAY

def doPartitionFormatMount (maxTime : Int) : Test σ Unit := do
  host.runOnEachDrive FDISK_CMD (some "0,,L\n\n".toList)
  if ← noDrives then pure ()
  else
    host.sleep 120
    host.runTest MKFS_CMD maxTime
    host.runOnEachDrive MK_MOUNT_POINT_CMD none
    host.runOnEachDrive MOUNT_CMD none

def doUnmountCheckFilesystem (maxTime : Int) : Test σ Unit := do
  host.runOnEachDrive UNMOUNT_CMD none
  host.runTest FSCK_CMD maxTime

/-! ## What the evaluator says -/

/-- What `evaluate` does with its verdict. -/
def judge (drive : TestDrive) : Verdict → Test σ Unit
  | .kept => pure ()
  | .pruned reason report => host.prune drive reason report false
  | .keyError _ => throw (.exit 1)

def evaluateAll (operation : String) : Test σ Unit := do
  (← get).manager.working_list.forM fun drive => do
    let verdict ← call (host.evaluate drive operation)
    host.judge drive verdict

/-- `evaluator.mark_thrashed( drive )` -/
def mark (drive : TestDrive) : Test σ Unit := do
  call (host.mark_thrashed drive)
  modify fun s =>
    { s with
      manager := { s.manager with thrashed := s.manager.thrashed ++ [drive] }
      trace := s.trace ++ [.thrashed drive] }

def markGoodThrashed : Test σ Unit := do (← get).manager.working_list.forM host.mark

def storeGood : Test σ Unit := do
  (← get).manager.working_list.forM fun drive => do
    if ← call (host.store drive) then note (.stored drive) else throw (.exit 1)

def storeSkipped : Test σ Unit := do
  (Assoc.keys (← get).manager.skip_reasons).forM fun drive => do
    whenever (← call (host.store drive)) (note (.stored drive))

/-! ## The drives that are not tested (`DriveManager.py`) -/

def pruneAllreadyDead : Test σ Unit := do
  (← get).manager.good_list.forM fun drive => do
    whenever (← call (host.allreadyDead drive)) (host.prune drive "Allready Dead" false false)

def skipAllreadyThrashed : Test σ Unit := do
  (← get).manager.good_list.forM fun drive => do
    whenever (← call (host.allreadyThrashed drive))
      (host.prune drive "Allready Thrashed" false true)

/-- A turn of the loop of `skipUnThrashable`. -/
def unThrashable (machine : Machine) (mount_list : List Text) (drive : TestDrive) : Test σ Unit :=
  if drive.block_name.any machine.isRemovable then host.prune drive "Is Removable" false true
  else if drive.block_path.any mount_list.contains then host.prune drive "Is Mounted" false true
  else if NO_THRASH_MODELS.contains drive.model then do
    host.prune drive "No Thrash Disk" false true
    host.mark drive
  else if drive.isVirtualDisk then host.prune drive "Is Virtual Disk" false true
  else pure ()

def skipUnThrashable (machine : Machine) : Test σ Unit := do
  match mountList machine.mtab with
  | none => throw (.exit 1)
  | some mount_list => (← get).manager.good_list.forM (host.unThrashable machine mount_list)

def skipWithFilesystems (machine : Machine) : Test σ Unit := do
  (← get).manager.good_list.forM fun drive =>
    whenever (drive.block_name.any ((partitioned machine.partitions).contains ·.text))
      (host.prune drive "Has Partitions" false true)

/-! ## At the end (`miscutils.py`) -/

def saveBad (drive : TestDrive) (reason : String) : Test σ Unit := do
  match drive.block_path with
  | none => pure ()
  | some path =>
    let date := host.gmtime (← get).clock
    match ← attempt (host.writeStatus path (failMessage date reason)) with
    | none => note (.saved drive false)
    | some _ => pure ()

def saveGood (drive : TestDrive) : Test σ Unit := do
  match drive.block_path with
  | none => pure ()
  | some path =>
    let date := host.gmtime (← get).clock
    match ← attempt (host.writeStatus path (passMessage date)) with
    | none => note (.saved drive true)
    | some e => host.prune drive ("Exception when saving results to drive: " ++ e ++ " ") true false

def doSaveResults : Test σ Unit := do
  (← get).manager.bad_reasons.forM fun item => host.saveBad item.1 item.2
  (← get).manager.working_list.forM host.saveGood

/-- `while tmpBuff != text: tmpBuff = sys.stdin.readline().strip()` -/
def prompt (text : Text) : Nat → Test σ Unit
  | 0 => throw .waiting
  | fuel + 1 => do
    let tmpBuff ← call host.readline
    if strip tmpBuff = text then pure () else prompt text fuel

/-- The loop over the good drives; `lightuper_list`. -/
def lightup : List TestDrive → Test σ (List TestDrive)
  | [] => pure []
  | drive :: rest =>
    match drive.block_path with
    | none => lightup rest
    | some path => do
      note (.lit drive)
      let _ ← call (host.Popen (LIGHTUP_CMD path))
      let lightuper_list ← lightup rest
      pure (drive :: lightuper_list)

def doLightupDrives : Test σ Unit := do
  if ← noDrives then host.prompt "Opps".toList host.fuel
  else
    host.prompt "Lights".toList host.fuel
    let lightuper_list ← host.lightup (← get).manager.working_list
    host.prompt "All Done".toList host.fuel
    lightuper_list.forM fun drive => note (.dark drive)

/-! ## The program (`drivetest`) -/

/-- A test, with the message in front and the evaluation behind. -/
def phase (msg : String) (test : Test σ Unit) (operation : String) : Test σ Unit := do
  call (host.postMessage msg)
  test
  host.evaluateAll operation

variable (options : Options) (machine : Machine)

/-- The drives are sorted out. -/
def choose : Test σ Unit := do
  host.pruneAllreadyDead
  whenever (!options.re_thrash) host.skipAllreadyThrashed
  call (host.postMessage "Inital Scan...")
  host.evaluateAll "Initial"
  host.skipUnThrashable machine
  whenever (!options.no_partition_check) (host.skipWithFilesystems machine)

def rounds : Test σ Unit := do
  whenever (!options.no_conveyancetest)
    (host.phase "Conveyance Test...." (host.runTest CONVEYANCETEST_CMD maxConveyanceTestTime)
      "Conveyance Test")
  whenever (options.round1 > 0)
    (host.phase "Round One...." (host.runTest (round options options.round1) options.round1_time)
      "Round One")
  cooldown options.rdelay
    (host.phase "Mid-Round Cooldown...." (host.doSpinDownSleep options.rdelay) "Mid-Round Cooldown")
  whenever (options.round2 > 0)
    (host.phase "Round Two...." (host.runTest (round options options.round2) options.round2_time)
      "Round Two")
  cooldown options.pdelay
    (host.phase "Post Round Cooldown...." (host.doSpinDownSleep options.pdelay)
      "Post Round Cooldown")

def filesystems : Test σ Unit := do
  host.phase "Partitioning, Formatting, and Mounting...."
    (host.doPartitionFormatMount maxFormatTime)
    "Partition/Format/Mount"
  host.phase "Filesystem Test...." (host.runTest (BONNIE_CMD options.bonnie) options.bonnie_time)
    "Filesystem Test"
  host.phase "Unmount and Check Filesystem...." (host.doUnmountCheckFilesystem maxFsckTime)
    "Unmount/Check FileSystem Test"
  whenever (options.bdelay > 0)
    (host.phase "Post Filesystem Check Cooldown...." (host.doSpinDownSleep options.bdelay)
      "Post Filesystem Check Cooldown")

def wipe : Test σ Unit := do
  host.phase "Wiping...." (host.runTest WIPE_CMD maxWipeTime) "Wipe Drive"
  cooldown options.wdelay
    (host.phase "Post Wipe Cooldown...." (host.doSpinDownSleep options.wdelay) "Post Wipe Cooldown")

def selfTest : Test σ Unit :=
  host.phase "Self Test...."
    (host.runTest (if options.short_selftest then SHORTSELFTEST_CMD else SELFTEST_CMD)
      maxSelfTestTime)
    "Self Test"

def coolAtEnd : Test σ Unit := do
  call (host.postMessage "Final Cooldown....")
  host.doSpinDownSleep options.fdelay

/-- The tests, from the first to the last cooldown. -/
def tests : Test σ Unit := do
  host.rounds options
  whenever (options.destructive && options.bonnie ≠ "0") (host.filesystems options)
  whenever (options.destructive && !options.no_wipe) (host.wipe options)
  whenever (options.destructive && options.no_wipe)
    (host.phase "Clearning Partition Table...." (host.runTest CLRPARTTABLE_CMD 10)
      "Clear Partition Table")
  whenever (!options.no_selftest) (host.selfTest options)
  cooldown options.fdelay (host.coolAtEnd options)

/-- From the last scan on. -/
def finish : Test σ Unit := do
  call (host.postMessage "Final Scan....")
  host.evaluateAll "Final"
  whenever (options.destructive && !options.no_saveresults) (do
    call (host.postMessage "Saving Results....")
    host.doSaveResults)
  whenever (!options.no_lightup) host.doLightupDrives
  host.markGoodThrashed
  host.storeGood
  host.storeSkipped

/-- The program, from the list of the drives on; what it gives to `sys.exit`. -/
def main : Test σ Int := do
  call host.init
  if ← noDrives then throw (.exit 1)
  else
    host.choose options machine
    host.tests options
    host.finish options
    pure 0

/-- A test of these drives. -/
def run (drives : List TestDrive) (world : σ) : EStateM.Result Halt (State σ) Int :=
  host.main options machine { manager := { good_list := drives }, world }

end Host

end DriveTest
