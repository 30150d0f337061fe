import Disks.Install.Mounting

/-!
# The values for the boot loader (`linux-installer/root/installer/filesystem.py`)

`_getFirstMDMember` and `grubConfigValues`, over the `filesystem_list` that `partition` leaves.
`files` is what `glob.glob` finds under `boot`.
-/

namespace Filesystem

/-- `partition_map`, as `partition` fills it. -/
def partitionMap (filesystem_list : List Entry) : MountPoints String :=
  filesystem_list.foldl (fun d fs =>
    match fs.mount_point with
    | some (some mount_point) => d.set mount_point fs.block_device
    | _ => d) []

/-- `_getFirstMDMember`: the first member of the first entry that is mounted there. -/
def getFirstMDMember (filesystem_list : List Entry) (mount_point : String) : Option String :=
  (filesystem_list.find? fun fs => fs.mount_point = some (some mount_point)).map fun fs =>
    match fs.members with
    | some (member :: _) => member
    | _ => fs.block_device

inductive GrubError
  | typeError
  | indexError
  | valueError
deriving DecidableEq, Repr

/-- `int( name[-1] )` -/
def lastDigit : Option String → Except GrubError Nat
  | none => .error .typeError
  | some name =>
    match name.toList.getLast? with
    | none => .error .indexError
    | some c => if c.isDigit then .ok (c.toNat - '0'.toNat) else .error .valueError

structure GrubValues where
  grub_root : String
  kernel_path : Option String
  initrd_path : Option String
deriving DecidableEq, Repr

/-- The last file whose name begins with `stem`, under `boot_path`. -/
def bootFile (boot_path stem : String) (files : List String) : Option String :=
  let names := files.filterMap fun filename => (filename.splitOn "/").getLast?
  (names.filter (·.startsWith stem)).getLast?.map (boot_path ++ ·)

/-- `'hd0,{0}'.format( index )` -/
def grubRoot (index : Int) : String := "hd0," ++ toString index

def grubConfigValues (filesystem_list : List Entry) (files : List String) :
    Except GrubError GrubValues := do
  let boot := (partitionMap filesystem_list).any (·.1 = "/boot")
  let boot_path := if boot then "/" else "/boot/"
  let digit ← lastDigit (getFirstMDMember filesystem_list (if boot then "/boot" else "/"))
  pure {
    grub_root := grubRoot ((digit : Int) - 1)
    kernel_path := bootFile boot_path "vmlinuz" files
    initrd_path := bootFile boot_path "initramfs" files }

end Filesystem
