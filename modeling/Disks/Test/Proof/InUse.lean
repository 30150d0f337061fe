import Disks.Test.DriveManager

/-!
# The drives that are in use

A drive is skipped when its block path is among the mounted devices, but these have lost their
`/dev/`; and when it has a partition, but only one of an `sd` name with one digit.

* `mem_working_list_iff`: the drives that remain.
* `mem_partitioned_iff`: the partitions that are seen.
* `working_list_safe_iff`: **when no drive remains that is in use.**
* `mounted_remains`: a drive with a mounted file system, and one with a partition of NVMe.
-/

namespace DiskTest

open Manager Regex Regex.Pattern

/-! ## What is in use -/

/-- The name of a partition: behind a digit, its number follows a `p`. -/
def partition (name : Name) (n : Nat) : Text :=
  if name.text.getLast?.any Char.isDigit then name.text ++ 'p' :: decimal n
  else name.text ++ decimal n

/-- The device or one of its partitions is mounted. -/
def Mounted (machine : Machine) (name : Name) : Prop :=
  ∃ line ∈ machine.mtab, firstField line = dev name.text ∨
    ∃ n, firstField line = dev (partition name n)

/-- The device has a partition. -/
def HasPartition (machine : Machine) (name : Name) : Prop :=
  ∃ line ∈ machine.partitions, ∃ n, lastField line = partition name n

def InUse (machine : Machine) (drive : TestDrive) : Prop :=
  ∃ name, drive.block_name = some name ∧ (Mounted machine name ∨ HasPartition machine name)

/-! ## The drives that remain -/

/-- What `skipUnThrashable` skips a drive for. -/
def UnThrashable (machine : Machine) (mount_list : List Text) (drive : TestDrive) : Bool :=
  drive.block_name.any machine.isRemovable || drive.block_path.any mount_list.contains ||
    NO_THRASH_MODELS.contains drive.model || drive.isVirtualDisk

/-- What `skipWithFilesystems` skips a drive for. -/
def Partitioned (machine : Machine) (drive : TestDrive) : Bool :=
  drive.block_name.any ((partitioned machine.partitions).contains ·.text)

theorem prune_good_list (m : DriveManager) (drive : TestDrive) (reason : String)
    (report skip : Bool) :
    (m.prune drive reason report skip).good_list = m.good_list.erase drive := by
  unfold DriveManager.prune
  cases skip <;> cases report <;> rfl

theorem unThrashable_good_list (machine : Machine) (mount_list : List Text) (m : DriveManager)
    (drive : TestDrive) :
    (unThrashable machine mount_list m drive).good_list =
      if UnThrashable machine mount_list drive then m.good_list.erase drive else m.good_list := by
  unfold unThrashable UnThrashable
  by_cases hremovable : drive.block_name.any machine.isRemovable
  · simp only [hremovable, if_true, Bool.true_or, prune_good_list]
  by_cases hmounted : drive.block_path.any mount_list.contains
  · simp only [hremovable, hmounted, Bool.false_eq_true, if_true, if_false, Bool.or_true,
      Bool.true_or, prune_good_list]
  by_cases hmodel : NO_THRASH_MODELS.contains drive.model
  · simp only [hremovable, hmounted, hmodel, Bool.false_eq_true, if_true, if_false, Bool.or_true,
      Bool.true_or]
    exact prune_good_list ..
  by_cases hvirtual : drive.isVirtualDisk
  · simp only [hremovable, hmounted, hmodel, hvirtual, Bool.false_eq_true, if_true, if_false,
      Bool.or_true, prune_good_list]
  · simp only [hremovable, hmounted, hmodel, hvirtual, Bool.false_eq_true, if_false, Bool.or_self]

theorem withFilesystems_good_list (machine : Machine) (m : DriveManager) (drive : TestDrive) :
    (withFilesystems (partitioned machine.partitions) m drive).good_list =
      if Partitioned machine drive then m.good_list.erase drive else m.good_list := by
  unfold withFilesystems Partitioned
  by_cases h : drive.block_name.any ((partitioned machine.partitions).contains ·.text)
  · rw [if_pos h, if_pos h, prune_good_list]
  · rw [if_neg h, if_neg h]

section

variable {turn : DriveManager → TestDrive → DriveManager} {skipped : TestDrive → Bool}

/-- Each drive is taken off as often as the loop comes to it. -/
theorem count_foldl (hturn : ∀ m drive, (turn m drive).good_list =
      if skipped drive then m.good_list.erase drive else m.good_list)
    (drives : List TestDrive) (m : DriveManager) (drive : TestDrive) :
    (drives.foldl turn m).good_list.count drive =
      if skipped drive then m.good_list.count drive - drives.count drive
      else m.good_list.count drive := by
  induction drives generalizing m with
  | nil => simp
  | cons other drives ih =>
    rw [List.foldl_cons, ih, hturn]
    by_cases hother : other = drive
    · subst hother
      by_cases h : skipped other
      · rw [if_pos h, if_pos h, if_pos h, List.count_erase_self, List.count_cons_self]
        omega
      · rw [if_neg h, if_neg h, if_neg h]
    · have hcount : (if skipped other then m.good_list.erase other else m.good_list).count drive =
          m.good_list.count drive := by
        by_cases h : skipped other
        · rw [if_pos h, List.count_erase_of_ne (Ne.symm hother)]
        · rw [if_neg h]
      rw [hcount, List.count_cons_of_ne hother]

/-- A loop over a copy of the list takes the drives off that it skips. -/
theorem mem_foldl_iff (hturn : ∀ m drive, (turn m drive).good_list =
      if skipped drive then m.good_list.erase drive else m.good_list)
    (m : DriveManager) (drive : TestDrive) :
    drive ∈ (m.good_list.foldl turn m).good_list ↔ drive ∈ m.good_list ∧ skipped drive = false := by
  rw [← List.count_pos_iff, ← List.count_pos_iff, count_foldl hturn]
  by_cases h : skipped drive
  · simp [h]
  · simp [h]

end

/-- **The drives that remain.** -/
theorem mem_working_list_iff {m m' : DriveManager} {machine : Machine}
    (hrun : m.skipUnThrashable machine = some m') :
    ∃ mount_list, mountList machine.mtab = some mount_list ∧ ∀ drive,
      drive ∈ (m'.skipWithFilesystems machine).working_list ↔ drive ∈ m.good_list ∧
        UnThrashable machine mount_list drive = false ∧ Partitioned machine drive = false := by
  obtain ⟨mount_list, hmount, rfl⟩ := Option.map_eq_some_iff.mp hrun
  refine ⟨mount_list, hmount, fun drive => ?_⟩
  rw [DriveManager.working_list, DriveManager.skipWithFilesystems,
    mem_foldl_iff (withFilesystems_good_list machine),
    mem_foldl_iff (unThrashable_good_list machine mount_list), and_assoc]

/-! ## The partitions that are seen -/

/-- `sd` and letters. -/
def SdName (name : Text) : Prop :=
  ∃ letters, name = "sd".toList ++ letters ∧ letters ≠ [] ∧ ∀ c ∈ letters, c.isLower

theorem partitionName_begins_iff {item : Text} :
    partitionName.begins item ↔ ∃ name c, item = name ++ [c] ∧ SdName name ∧ c.isDigit := by
  rw [begins_iff]
  simp only [partitionName, matches_seq, matches_text, matches_plus_one, matches_one,
    matches_ahead]
  constructor
  · intro h
    obtain ⟨t, d, rest, rfl, _, _, _, _, rfl, -, ⟨rfl, -⟩, letters, _, _, _, rfl, -,
      ⟨hne, hall, -⟩, _, _, _, _, rfl, -, ⟨c, hc, rfl, -⟩, hrest, rfl, -⟩ := h
    rw [decide_eq_true_eq] at hrest
    rw [hrest]
    exact ⟨"sd".toList ++ letters, c, by simp, ⟨letters, rfl, hne, hall⟩, hc⟩
  · intro h
    obtain ⟨name, c, rfl, ⟨letters, rfl, hne, hall⟩, hc⟩ := h
    refine ⟨"sd".toList ++ letters ++ [c], [], [], (List.append_nil _).symm, "sd".toList,
      letters ++ [c], [], [], List.append_assoc .., rfl, ⟨rfl, rfl⟩, letters, [c], [], [], rfl, rfl,
      ⟨hne, hall, rfl⟩, [c], [], [], [], rfl, rfl, ⟨c, hc, rfl, rfl⟩, rfl, rfl, rfl⟩

theorem subDigit_snoc {name : Text} {c : Char} (hc : c.isDigit) :
    subDigit (name ++ [c]) = name := by
  rw [subDigit, List.getLast?_concat, Option.any_some, if_pos hc, List.dropLast_concat]

/-- **The partitions that are seen** are those of an `sd` name with one digit. -/
theorem mem_partitioned_iff {lines : List Text} {name : Text} :
    name ∈ partitioned lines ↔
      SdName name ∧ ∃ line ∈ lines, ∃ c, c.isDigit ∧ lastField line = name ++ [c] := by
  unfold partitioned
  simp only [List.mem_map, List.mem_filter]
  constructor
  · intro h
    obtain ⟨item, ⟨⟨line, hline, hfield⟩, hbegins⟩, rfl⟩ := h
    obtain ⟨name, c, rfl, hname, hc⟩ := partitionName_begins_iff.mp hbegins
    rw [subDigit_snoc hc]
    exact ⟨hname, line, hline, c, hc, hfield⟩
  · intro h
    obtain ⟨hname, line, hline, c, hc, hfield⟩ := h
    exact ⟨name ++ [c],
      ⟨⟨line, hline, hfield⟩, partitionName_begins_iff.mpr ⟨name, c, rfl, hname, hc⟩⟩,
      subDigit_snoc hc⟩

/-! ## The mounted devices -/

theorem mem_of_mapM {α β : Type} {f : α → Option β} {xs : List α} {ys : List β}
    (h : xs.mapM f = some ys) (y : β) : y ∈ ys ↔ ∃ x ∈ xs, f x = some y := by
  induction xs generalizing ys with
  | nil =>
    cases h
    simp
  | cons x xs ih =>
    rw [List.mapM_cons, Option.bind_eq_bind, Option.bind_eq_some_iff] at h
    obtain ⟨z, hz, h⟩ := h
    rw [Option.bind_eq_bind, Option.bind_eq_some_iff] at h
    obtain ⟨zs, hzs, h⟩ := h
    cases h
    rw [List.mem_cons, ih hzs, List.exists_mem_cons_iff, hz, Option.some.injEq]
    exact or_congr_left eq_comm

/-- A mount entry that still is the block path once its `/dev/` and its digits are gone. -/
def MountSeen (machine : Machine) (path : Text) : Prop :=
  ∃ line ∈ machine.mtab, "/dev/".toList <+: line ∧
    stripDigits (replaceDev line.length (firstField line)) = some path

theorem mem_mountList_iff {machine : Machine} {mount_list : List Text}
    (h : mountList machine.mtab = some mount_list) (path : Text) :
    path ∈ mount_list ↔ MountSeen machine path := by
  rw [mem_of_mapM h, MountSeen]
  simp only [List.mem_filter, decide_eq_true_eq, and_assoc]

/-! ## When no drive remains that is in use -/

/-- What a drive is skipped for: it is removable, a mount entry gives its block path, it is of a
model that is not thrashed, it is a virtual disk, or it has an `sd` name and a partition of one
digit. -/
def Skipped (machine : Machine) (drive : TestDrive) : Prop :=
  (∃ name, drive.block_name = some name ∧ machine.isRemovable name) ∨
    (∃ path, drive.block_path = some path ∧ MountSeen machine path) ∨
    drive.model ∈ NO_THRASH_MODELS ∨ drive.isVirtualDisk ∨
    ∃ name, drive.block_name = some name ∧ SdName name.text ∧
      ∃ line ∈ machine.partitions, ∃ c, c.isDigit ∧ lastField line = name.text ++ [c]

theorem skipped_iff {machine : Machine} {mount_list : List Text}
    (h : mountList machine.mtab = some mount_list) (drive : TestDrive) :
    Skipped machine drive ↔
      ¬ (UnThrashable machine mount_list drive = false ∧ Partitioned machine drive = false) := by
  simp only [Skipped, UnThrashable, Partitioned, ← Bool.not_eq_true, ← not_or, not_not,
    Bool.or_eq_true, Option.any_eq_true, List.contains_iff_mem, mem_mountList_iff h,
    mem_partitioned_iff, or_assoc]

/-- **When no drive remains that is in use**: all drives in use are skipped for another reason than
being mounted, or for a partition of one digit. -/
theorem working_list_safe_iff {m m' : DriveManager} {machine : Machine}
    (hrun : m.skipUnThrashable machine = some m') :
    (∀ drive ∈ (m'.skipWithFilesystems machine).working_list, ¬ InUse machine drive) ↔
      ∀ drive ∈ m.good_list, InUse machine drive → Skipped machine drive := by
  obtain ⟨mount_list, hmount, hremain⟩ := mem_working_list_iff hrun
  constructor
  · intro hsafe drive hdrive huse
    rw [skipped_iff hmount]
    exact fun hkept => hsafe drive ((hremain drive).mpr ⟨hdrive, hkept⟩) huse
  · intro hskipped drive hdrive huse
    obtain ⟨hgood, hkept⟩ := (hremain drive).mp hdrive
    exact (skipped_iff hmount drive).mp (hskipped drive hgood huse) hkept

theorem sda_ne_nil : "sda".toList ≠ [] := by decide

theorem sda_clean : '/' ∉ "sda".toList := by decide

theorem nvme_ne_nil : "nvme0n1".toList ≠ [] := by decide

theorem nvme_clean : '/' ∉ "nvme0n1".toList := by decide

/-- `/dev/sda` is mounted as a whole. -/
def sda : TestDrive where
  drive := ⟨.ATA 0, "sda".toList, some ⟨"sda".toList, sda_ne_nil, sda_clean⟩,
    "/dev/sda".toList, none⟩
  model := "ST2000".toList

/-- `/dev/nvme0n1` has a partition. -/
def nvme0n1 : TestDrive where
  drive := ⟨.NVME "0".toList 1, "nvme0n1".toList,
    some ⟨"nvme0n1".toList, nvme_ne_nil, nvme_clean⟩, "/dev/nvme0:1".toList, none⟩
  model := "MZVLB512".toList

def twoDrives : Machine where
  mtab := ["/dev/sda /data ext4 rw 0 0\n".toList, "/dev/nvme0n1p1 / ext4 rw 0 0\n".toList]
  partitions := ["   8        0 1953514584 sda".toList, " 259        0  500107608 nvme0n1".toList,
    " 259        1  500106584 nvme0n1p1".toList]
  removable := fun _ => some "0\n".toList

/-- A run with two drives that returns, and that leaves both. -/
theorem twoDrives_run :
    (DriveManager.skipUnThrashable { good_list := [sda, nvme0n1] } twoDrives).map
        (fun m => (m.good_list, (m.skipWithFilesystems twoDrives).working_list)) =
      some ([sda, nvme0n1], [sda, nvme0n1]) := by
  decide

/-- The run with the drive that has a partition. -/
theorem working_list_safe_nvme :
    (∀ drive ∈ (DriveManager.skipWithFilesystems { good_list := [nvme0n1] } twoDrives).working_list,
        ¬ InUse twoDrives drive) ↔
      ∀ drive ∈ [nvme0n1], InUse twoDrives drive → Skipped twoDrives drive :=
  working_list_safe_iff (m := { good_list := [nvme0n1] }) rfl

/-- The mounted drive, and the one with a partition. -/
theorem mounted_remains :
    (∃ m', DriveManager.skipUnThrashable { good_list := [sda, nvme0n1] } twoDrives = some m' ∧
      sda ∈ (m'.skipWithFilesystems twoDrives).working_list ∧
      nvme0n1 ∈ (m'.skipWithFilesystems twoDrives).working_list) ∧
      InUse twoDrives sda ∧ InUse twoDrives nvme0n1 := by
  obtain ⟨m', hrun, hlists⟩ := Option.map_eq_some_iff.mp twoDrives_run
  have hworking := (Prod.mk.inj hlists).2
  refine ⟨⟨m', hrun, ?_, ?_⟩, ?_, ?_⟩
  · rw [hworking]
    exact List.mem_cons_self ..
  · rw [hworking]
    exact List.mem_cons_of_mem _ (List.mem_cons_self ..)
  · refine ⟨_, rfl, .inl ⟨_, List.mem_cons_self .., .inl ?_⟩⟩
    decide
  · refine ⟨_, rfl, .inr ⟨" 259        1  500106584 nvme0n1p1".toList, by decide, 1, ?_⟩⟩
    decide

end DiskTest
