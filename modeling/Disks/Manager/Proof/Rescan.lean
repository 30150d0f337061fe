import Disks.Manager.DriveManager
import Mathlib.Data.List.Infix

/-!
# Each disk is accounted for once

What the loops of `rescan` add, and when `drive_list` and `unknown_list` together have each whole
disk once.

* `Adds`, `foldl_adds`: a loop that leaves out the blocks seen before.
* `foldl_megaraid`: the loop that does not.
* `known_iff`: the whole disks that are known by the names that the library has for the drives.
* `rescan_iff`: **each block device has one drive and the unknown are the others exactly when the
  blocks of MegaRAID are new and each whole disk is known by its own name.**
* `unclaimed_disk`: a disk that no probe finds.
-/

namespace Manager

/-- The block devices and the library names of the drives. -/
def Scan.blocks (s : Scan) : List Name := s.drive_list.filterMap (·.block_name)

def Scan.libdrives (s : Scan) : List Text := s.drive_list.map (·.libdrive_name)

/-! ## Loops that leave out what was seen -/

/-- Loops have added drives for the blocks among `found` that were new, under library names as
`named` has them. -/
structure Adds (named : Name → Text → Prop) (s s' : Scan) (found : List Name)
    (fresh : List (Name × Text)) : Prop where
  seen : s'.block_list = s.block_list ++ fresh.map (·.1)
  blocks : s'.blocks = s.blocks ++ fresh.map (·.1)
  libdrives : s'.libdrives = s.libdrives ++ fresh.map (·.2)
  nodup : (fresh.map (·.1)).Nodup
  mem : ∀ b, b ∈ fresh.map (·.1) ↔ b ∈ found ∧ b ∉ s.block_list
  named : ∀ x ∈ fresh, named x.1 x.2

variable {named : Name → Text → Prop} {s s' s'' : Scan}

theorem Adds.refl (s : Scan) : Adds named s s [] [] := by
  constructor <;> simp

theorem Adds.trans {found found' : List Name} {fresh fresh' : List (Name × Text)}
    (h : Adds named s s' found fresh) (h' : Adds named s' s'' found' fresh') :
    Adds named s s'' (found ++ found') (fresh ++ fresh') := by
  have hnew : ∀ b, b ∈ fresh'.map (·.1) ↔
      b ∈ found' ∧ b ∉ s.block_list ∧ b ∉ fresh.map (·.1) := by
    intro b
    rw [h'.mem, h.seen, List.mem_append, not_or]
  constructor
  · rw [h'.seen, h.seen, List.map_append, List.append_assoc]
  · rw [h'.blocks, h.blocks, List.map_append, List.append_assoc]
  · rw [h'.libdrives, h.libdrives, List.map_append, List.append_assoc]
  · rw [List.map_append, List.nodup_append']
    exact ⟨h.nodup, h'.nodup, fun b hb hb' => ((hnew b).mp hb').2.2 hb⟩
  · intro b
    rw [List.map_append, List.mem_append, hnew, h.mem, List.mem_append]
    tauto
  · intro x hx
    rcases List.mem_append.mp hx with hx | hx
    · exact h.named x hx
    · exact h'.named x hx

theorem foldl_adds {ι : Type} {f : Scan → ι → Scan} {found : ι → List Name}
    (h : ∀ s x, ∃ fresh, Adds named s (f s x) (found x) fresh) (xs : List ι) (s : Scan) :
    ∃ fresh, Adds named s (xs.foldl f s) (xs.flatMap found) fresh := by
  induction xs generalizing s with
  | nil => exact ⟨[], Adds.refl s⟩
  | cons x xs ih =>
    obtain ⟨fresh, hfirst⟩ := h s x
    obtain ⟨fresh', hrest⟩ := ih (f s x)
    exact ⟨fresh ++ fresh', hfirst.trans hrest⟩

/-- A port without a drive. -/
theorem Adds.skip {port : Port} {found : List Name} (h : ∀ b ∈ found, b ∈ s.block_list)
    (hport : ∀ d ∈ (none : Option Drive), d.port = port) :
    Adds named s (s.add port none hport) found [] := by
  constructor
  · simp [Scan.add]
  · simp [Scan.add, Scan.blocks]
  · simp [Scan.add, Scan.libdrives]
  · exact List.nodup_nil
  · simpa using h
  · simp

theorem probe_adds (sys : Sysfs) (s : Scan) (port : Port) (block : Option Name)
    (libdrive : Name → Text) (h : ∀ b ∈ block, named b (libdrive b)) :
    ∃ fresh, Adds named s (s.probe sys port block libdrive) block.toList fresh := by
  cases block with
  | none => exact ⟨[], Adds.skip (by simp) (by simp)⟩
  | some block =>
    unfold Scan.probe
    dsimp only
    split
    · rename_i hseen
      exact ⟨[], Adds.skip (by simpa using hseen) (by simp)⟩
    · rename_i hnew
      refine ⟨[(block, libdrive block)], ?_⟩
      constructor
      · simp [Scan.addDrive, Scan.add, Scan.seen]
      · simp [Scan.addDrive, Scan.add, Scan.seen, Scan.blocks, Drive.make]
      · simp [Scan.addDrive, Scan.add, Scan.seen, Scan.libdrives, Drive.make]
      · exact List.nodup_singleton _
      · intro b
        simp only [List.map_cons, List.map_nil, List.mem_singleton, Option.toList_some]
        exact ⟨fun hb => ⟨hb, hb ▸ hnew⟩, fun hb => hb.1⟩
      · simpa using h block rfl

/-- A drive is known to the library by the name of its block device. -/
def PlainName (b : Name) (libdrive : Text) : Prop := libdrive = dev b.text

/-- The blocks of ports. -/
def blocksOf (port_list : List (Port × Option Name)) : List Name := port_list.filterMap (·.2)

theorem ports_adds (sys : Sysfs) (s : Scan) (port_list : List (Port × Option Name)) :
    ∃ fresh, Adds PlainName s (s.ports sys port_list) (blocksOf port_list) fresh := by
  have hturn (s : Scan) (x : Port × Option Name) : ∃ fresh, Adds PlainName s
      (s.probe sys x.1 x.2 fun block => dev block.text) x.2.toList fresh :=
    probe_adds sys s x.1 x.2 _ fun _ _ => rfl
  have hloop := foldl_adds hturn port_list s
  rwa [← List.filterMap_eq_flatMap_toList] at hloop

/-- Two loops over ports, one after the other. -/
theorem Adds.ports {found : List Name} {fresh : List (Name × Text)}
    (h : Adds PlainName s s' found fresh) (sys : Sysfs) (port_list : List (Port × Option Name)) :
    ∃ fresh, Adds PlainName s (s'.ports sys port_list) (found ++ blocksOf port_list) fresh := by
  obtain ⟨fresh', h'⟩ := ports_adds sys s' port_list
  exact ⟨fresh ++ fresh', h.trans h'⟩

theorem enclosures_adds (sys : Sysfs) (s : Scan) :
    ∃ fresh, Adds PlainName s (sys.enclosures.foldl (Scan.ports sys) s)
      (sys.enclosures.flatMap blocksOf) fresh :=
  foldl_adds (ports_adds sys) sys.enclosures s

/-- A drive is known to the library by the name of its controller. -/
def NVMEName (_ : Name) (libdrive : Text) : Prop := ∃ x : NVMEDisk, libdrive = x.libdrive

theorem nvme_adds (sys : Sysfs) (s : Scan) :
    ∃ fresh, Adds NVMEName s (s.nvme sys) (sys.nvme.map (·.block)) fresh := by
  have hturn (s : Scan) (x : NVMEDisk) : ∃ fresh, Adds NVMEName s
      (s.probe sys x.port x.block fun _ => x.libdrive) [x.block] fresh :=
    probe_adds sys s x.port x.block _ fun _ _ => ⟨x, rfl⟩
  have hloop := foldl_adds hturn sys.nvme s
  rwa [← List.map_eq_flatMap] at hloop

/-! ## The loop over MegaRAID's ports -/

theorem probeMegaRAID_turn (sys : Sysfs) (s : Scan) (x : MegaRAIDDisk) :
    (s.probeMegaRAID sys x).blocks = s.blocks ++ x.block.toList ∧
      (s.probeMegaRAID sys x).libdrives = s.libdrives ++ [x.libdrive] ∧
      ∀ b, b ∈ (s.probeMegaRAID sys x).block_list ↔ b ∈ s.block_list ∨ b ∈ x.block := by
  unfold Scan.probeMegaRAID
  cases hblock : x.block with
  | none => simp [Scan.addDrive, Scan.add, Scan.blocks, Scan.libdrives, Drive.make]
  | some block =>
    dsimp only
    split
    · rename_i hseen
      refine ⟨?_, ?_, ?_⟩
      · simp [Scan.addDrive, Scan.add, Scan.blocks, Drive.make]
      · simp [Scan.addDrive, Scan.add, Scan.libdrives, Drive.make]
      · intro b
        refine ⟨.inl, fun h => ?_⟩
        rcases h with h | h
        · exact h
        · exact Option.some.inj h ▸ hseen
    · refine ⟨?_, ?_, ?_⟩
      · simp [Scan.addDrive, Scan.add, Scan.seen, Scan.blocks, Drive.make]
      · simp [Scan.addDrive, Scan.add, Scan.seen, Scan.libdrives, Drive.make]
      · simp [Scan.addDrive, Scan.add, Scan.seen, eq_comm]

theorem foldl_megaraid (sys : Sysfs) (disks : List MegaRAIDDisk) (s : Scan) :
    (disks.foldl (Scan.probeMegaRAID sys) s).blocks = s.blocks ++ disks.filterMap (·.block) ∧
      (disks.foldl (Scan.probeMegaRAID sys) s).libdrives =
        s.libdrives ++ disks.map (·.libdrive) ∧
      ∀ b, b ∈ (disks.foldl (Scan.probeMegaRAID sys) s).block_list ↔
        b ∈ s.block_list ∨ b ∈ disks.filterMap (·.block) := by
  induction disks generalizing s with
  | nil => simp
  | cons x disks ih =>
    obtain ⟨hblocks, hlibdrives, hseen⟩ := ih (s.probeMegaRAID sys x)
    obtain ⟨hblock, hlibdrive, hnew⟩ := probeMegaRAID_turn sys s x
    have hcons : (x :: disks).filterMap (·.block) =
        x.block.toList ++ disks.filterMap (·.block) := by
      cases hx : x.block <;> simp [hx]
    refine ⟨?_, ?_, fun b => ?_⟩
    · rw [List.foldl_cons, hblocks, hblock, hcons, List.append_assoc]
    · rw [List.foldl_cons, hlibdrives, hlibdrive, List.map_cons, List.append_assoc]
      rfl
    · rw [List.foldl_cons, hseen, hnew, hcons, List.mem_append, Option.mem_toList, or_assoc]
      rfl

/-! ## All loops -/

/-- The blocks of the probes, in the order of the loops. -/
def Sysfs.ataBlocks (sys : Sysfs) : List Name := blocksOf sys.ide ++ blocksOf sys.ata

def Sysfs.nvmeBlocks (sys : Sysfs) : List Name := sys.nvme.map (·.block)

def Sysfs.megaraidBlocks (sys : Sysfs) : List Name := sys.megaraid.filterMap (·.block)

def Sysfs.scsiBlocks (sys : Sysfs) : List Name :=
  sys.enclosures.flatMap blocksOf ++ blocksOf sys.direct ++ blocksOf sys.scsi

/-- **The drives after the loops**, in four groups. -/
structure Enumerated (sys : Sysfs) (ata nvme scsi : List (Name × Text)) : Prop where
  blocks : (Scan.linux sys).blocks =
    ata.map (·.1) ++ nvme.map (·.1) ++ sys.megaraidBlocks ++ scsi.map (·.1)
  libdrives : (Scan.linux sys).libdrives =
    ata.map (·.2) ++ nvme.map (·.2) ++ sys.megaraid.map (·.libdrive) ++ scsi.map (·.2)
  nodup : (ata.map (·.1)).Nodup ∧ (nvme.map (·.1)).Nodup ∧ (scsi.map (·.1)).Nodup
  mem_ata : ∀ b, b ∈ ata.map (·.1) ↔ b ∈ sys.ataBlocks
  mem_nvme : ∀ b, b ∈ nvme.map (·.1) ↔ b ∈ sys.nvmeBlocks ∧ b ∉ sys.ataBlocks
  mem_scsi : ∀ b, b ∈ scsi.map (·.1) ↔ b ∈ sys.scsiBlocks ∧
    b ∉ sys.ataBlocks ∧ b ∉ sys.nvmeBlocks ∧ b ∉ sys.megaraidBlocks
  named_ata : ∀ x ∈ ata, PlainName x.1 x.2
  named_nvme : ∀ x ∈ nvme, NVMEName x.1 x.2
  named_scsi : ∀ x ∈ scsi, PlainName x.1 x.2

theorem linux_enumerated (sys : Sysfs) : ∃ ata nvme scsi, Enumerated sys ata nvme scsi := by
  let s₁ := (Scan.start.ports sys sys.ide).ports sys sys.ata
  let s₂ := s₁.nvme sys
  let s₃ := sys.megaraid.foldl (Scan.probeMegaRAID sys) s₂
  obtain ⟨_, hide⟩ := ports_adds sys Scan.start sys.ide
  obtain ⟨ata, hata⟩ : ∃ fresh, Adds PlainName Scan.start s₁ sys.ataBlocks fresh :=
    hide.ports sys sys.ata
  obtain ⟨nvme, hnvme⟩ : ∃ fresh, Adds NVMEName s₁ s₂ sys.nvmeBlocks fresh := nvme_adds sys s₁
  obtain ⟨hblocks, hlibdrives, hseen⟩ := foldl_megaraid sys sys.megaraid s₂
  obtain ⟨_, henclosures⟩ := enclosures_adds sys s₃
  obtain ⟨_, hdirect⟩ := henclosures.ports sys sys.direct
  obtain ⟨scsi, hscsi⟩ : ∃ fresh, Adds PlainName s₃ (Scan.linux sys) sys.scsiBlocks fresh :=
    hdirect.ports sys sys.scsi
  have hmem_ata : ∀ b, b ∈ ata.map (·.1) ↔ b ∈ sys.ataBlocks := by
    intro b
    rw [hata.mem]
    simp [Scan.start]
  have hseen₁ : ∀ b, b ∈ s₁.block_list ↔ b ∈ sys.ataBlocks := by
    intro b
    rw [hata.seen, List.mem_append, hmem_ata]
    simp [Scan.start]
  have hmem_nvme : ∀ b, b ∈ nvme.map (·.1) ↔ b ∈ sys.nvmeBlocks ∧ b ∉ sys.ataBlocks := by
    intro b
    rw [hnvme.mem, hseen₁]
  have hseen₃ : ∀ b, b ∈ s₃.block_list ↔
      b ∈ sys.ataBlocks ∨ b ∈ sys.nvmeBlocks ∨ b ∈ sys.megaraidBlocks := by
    intro b
    rw [hseen, hnvme.seen, List.mem_append, hseen₁, hmem_nvme, Sysfs.megaraidBlocks]
    tauto
  refine ⟨ata, nvme, scsi, ?_⟩
  constructor
  · rw [hscsi.blocks, hblocks, hnvme.blocks, hata.blocks]
    simp [Scan.blocks, Scan.start, Sysfs.megaraidBlocks]
  · rw [hscsi.libdrives, hlibdrives, hnvme.libdrives, hata.libdrives]
    simp [Scan.libdrives, Scan.start]
  · exact ⟨hata.nodup, hnvme.nodup, hscsi.nodup⟩
  · exact hmem_ata
  · exact hmem_nvme
  · intro b
    rw [hscsi.mem, hseen₃, not_or, not_or]
  · exact hata.named
  · exact hnvme.named
  · exact hscsi.named

/-! ## The names that are known -/

theorem lastPiece_dev {text : Text} (h : '/' ∉ text) : lastPiece (dev text) = text := by
  have hdev : dev text = "/dev".toList ++ '/' :: text := rfl
  rw [lastPiece, hdev, Path.split_append, Path.split_of_notMem h]
  simp [List.getLastD_eq_getLast?]

theorem lastPiece_of_notMem {text : Text} (h : '/' ∉ text) : lastPiece text = text := by
  rw [lastPiece, Path.split_of_notMem h]
  rfl

theorem slash_notMem_decimal (n : Nat) : '/' ∉ decimal n := by
  intro h
  have hdigit := Nat.isDigit_of_mem_toDigits (by decide) (by decide) h
  revert hdigit
  decide

/-- A name that ends in a number is not one of a whole disk. -/
theorem not_wholeDisk {name : Name} {front : Text} {n : Nat} (h : name.text = front ++ decimal n) :
    ¬ wholeDisk name := by
  have hne : decimal n ≠ [] := Nat.toDigits_ne_nil
  have hdigit : ((decimal n).getLast hne).isDigit :=
    Nat.isDigit_of_mem_toDigits (by decide) (by decide) (List.getLast_mem hne)
  have hbegins : numbered.begins [(decimal n).getLast hne] := by
    simp [Regex.Pattern.begins, numbered, Regex.Pattern.successes, hdigit]
  have hoccurs : numbered.occurs name.text := by
    refine List.any_eq_true.mpr ⟨_, (List.mem_tails _ _).mpr ?_, hbegins⟩
    refine ⟨front ++ (decimal n).dropLast, ?_⟩
    rw [List.append_assoc, List.dropLast_append_getLast, h]
  simp [wholeDisk, hoccurs]

theorem lastPiece_nvme (x : NVMEDisk) :
    lastPiece x.libdrive = x.name.text ++ [':'] ++ decimal x.nsid := by
  have hclean : '/' ∉ x.name.text ++ ':' :: decimal x.nsid := by
    simp [x.name.clean, slash_notMem_decimal]
  rw [NVMEDisk.libdrive, lastPiece_dev hclean, List.append_assoc, List.singleton_append]

theorem lastPiece_megaraid (x : MegaRAIDDisk) :
    lastPiece x.libdrive = ("host".toList ++ decimal x.host ++ [':']) ++ decimal x.device := by
  have hclean : '/' ∉ x.libdrive := by
    simp [MegaRAIDDisk.libdrive, slash_notMem_decimal]
  rw [lastPiece_of_notMem hclean, MegaRAIDDisk.libdrive]
  simp

theorem Name.ext_text {x y : Name} (h : x.text = y.text) : x = y := by
  cases x
  cases y
  cases h
  rfl

/-- **The whole disks that are known.** -/
theorem known_iff {sys : Sysfs} {ata nvme scsi : List (Name × Text)}
    (h : Enumerated sys ata nvme scsi) {x : Name} (hx : wholeDisk x) :
    x.text ∈ (Scan.linux sys).libdrives.map lastPiece ↔
      x ∈ sys.ataBlocks ∨
        (x ∈ sys.scsiBlocks ∧ x ∉ sys.nvmeBlocks ∧ x ∉ sys.megaraidBlocks) := by
  have hplain {fresh : List (Name × Text)} (hnamed : ∀ y ∈ fresh, PlainName y.1 y.2) :
      x.text ∈ (fresh.map (·.2)).map lastPiece ↔ x ∈ fresh.map (·.1) := by
    rw [List.map_map, List.mem_map, List.mem_map]
    constructor
    · intro h
      obtain ⟨y, hy, htext⟩ := h
      rw [Function.comp, hnamed y hy, lastPiece_dev y.1.clean] at htext
      exact ⟨y, hy, Name.ext_text htext⟩
    · intro h
      obtain ⟨y, hy, rfl⟩ := h
      refine ⟨y, hy, ?_⟩
      rw [Function.comp, hnamed y hy, lastPiece_dev y.1.clean]
  have hnvme : x.text ∉ (nvme.map (·.2)).map lastPiece := by
    intro hmem
    rw [List.map_map] at hmem
    obtain ⟨y, hy, htext⟩ := List.mem_map.mp hmem
    obtain ⟨disk, hdisk⟩ := h.named_nvme y hy
    rw [Function.comp, hdisk, lastPiece_nvme] at htext
    exact not_wholeDisk htext.symm hx
  have hmegaraid : x.text ∉ (sys.megaraid.map (·.libdrive)).map lastPiece := by
    intro hmem
    rw [List.map_map] at hmem
    obtain ⟨disk, _, htext⟩ := List.mem_map.mp hmem
    rw [Function.comp, lastPiece_megaraid] at htext
    exact not_wholeDisk htext.symm hx
  rw [h.libdrives]
  simp only [List.map_append, List.mem_append, hplain h.named_ata, hplain h.named_scsi, hnvme,
    hmegaraid, or_false, h.mem_ata, h.mem_scsi]
  tauto

/-- The libdrive names by which `rescan` knows drives. -/
theorem mem_known (s : Scan) (unknown : List Name) (text : Text) :
    text ∈ (Assoc.keys (s.manager unknown).drive_map).map lastPiece ↔
      text ∈ s.libdrives.map lastPiece := by
  simp only [List.mem_map, DriveManager.drive_map, Assoc.mem_keys_ofPairs,
    DriveManager.drive_list, List.mem_insertionSort, Scan.manager, Scan.libdrives, List.map_map]
  simp

/-! ## Once -/

/-- **Each block device has one drive at most, and `unknown_list` gives the whole disks that have
none.** -/
structure Accounted (sys : Sysfs) : Prop where
  once : ((rescan sys).drive_list.filterMap (·.block_name)).Nodup
  others : ∃ unknown, (rescan sys).unknown_list = .ok unknown ∧ ∀ x, x ∈ unknown ↔
    (x ∈ sys.block ∧ wholeDisk x) ∧ ∀ d ∈ (rescan sys).drive_list, d.block_name ≠ some x

/-- The blocks of MegaRAID are new, and each whole disk is known: by an IDE or ATA port, or by a
SAS or SCSI port and neither by NVMe nor by MegaRAID. -/
def Covered (sys : Sysfs) : Prop :=
  match sys.vmfs with
  | some ports => (ports.filterMap (·.block)).Nodup ∧
      ∀ x ∈ sys.block, wholeDisk x → x ∈ ports.filterMap (·.block)
  | none =>
    (sys.megaraidBlocks.Nodup ∧
      ∀ b ∈ sys.megaraidBlocks, b ∉ sys.ataBlocks ∧ b ∉ sys.nvmeBlocks) ∧
    ∀ x ∈ sys.block, wholeDisk x → x ∈ sys.ataBlocks ∨
      (x ∈ sys.scsiBlocks ∧ x ∉ sys.nvmeBlocks ∧ x ∉ sys.megaraidBlocks)

/-- A manager accounts for the disks when nothing is unknown and they are all there. -/
theorem accounted_iff {sys : Sysfs} {s : Scan} {unknown : List Name}
    (h : rescan sys = s.manager unknown) :
    Accounted sys ↔
      s.blocks.Nodup ∧ unknown = [] ∧ ∀ x ∈ sys.block, wholeDisk x → x ∈ s.blocks := by
  have hblocks : ((rescan sys).drive_list.filterMap (·.block_name)).Perm s.blocks := by
    rw [h]
    exact (List.perm_insertionSort _ _).filterMap _
  have hmem (x : Name) :
      x ∈ s.blocks ↔ ∃ d ∈ (rescan sys).drive_list, d.block_name = some x := by
    rw [← hblocks.mem_iff, List.mem_filterMap]
  have hunknown : (rescan sys).unknown = unknown := by rw [h]; rfl
  constructor
  · intro hacc
    obtain ⟨xs, hxs, hmember⟩ := hacc.others
    rw [DriveManager.unknown_list, hunknown] at hxs
    split at hxs
    · rename_i hnil
      obtain rfl : [] = xs := Except.ok.inj hxs
      refine ⟨hblocks.nodup_iff.mp hacc.once, hnil, fun x hx hwhole => ?_⟩
      rw [hmem]
      by_contra hno
      have habsent := (hmember x).mpr ⟨⟨hx, hwhole⟩, fun d hd he => hno ⟨d, hd, he⟩⟩
      exact absurd habsent List.not_mem_nil
    · exact absurd hxs (by simp)
  · intro hcov
    obtain ⟨hnodup, hnil, hall⟩ := hcov
    refine ⟨hblocks.nodup_iff.mpr hnodup, [], ?_, fun x => ?_⟩
    · rw [DriveManager.unknown_list, hunknown, if_pos hnil]
    · refine ⟨fun hx => absurd hx List.not_mem_nil, fun hx => ?_⟩
      obtain ⟨d, hd, hblock⟩ := (hmem x).mp (hall x hx.1.1 hx.1.2)
      exact absurd hblock (hx.2 d hd)

/-- The drives' blocks are distinct exactly when MegaRAID's are new. -/
theorem linux_nodup_iff (sys : Sysfs) : (Scan.linux sys).blocks.Nodup ↔
    sys.megaraidBlocks.Nodup ∧
      ∀ b ∈ sys.megaraidBlocks, b ∉ sys.ataBlocks ∧ b ∉ sys.nvmeBlocks := by
  obtain ⟨ata, nvme, scsi, h⟩ := linux_enumerated sys
  obtain ⟨hata, hnvme, hscsi⟩ := h.nodup
  rw [h.blocks, List.nodup_append', List.nodup_append', List.nodup_append']
  simp only [List.Disjoint, List.mem_append, h.mem_ata, h.mem_nvme, h.mem_scsi]
  constructor
  · intro hnodup
    obtain ⟨⟨-, hmega, hapart⟩, -, -⟩ := hnodup
    refine ⟨hmega, fun b hb => ?_⟩
    have hb' := fun h => hapart h hb
    tauto
  · intro hnew
    obtain ⟨hmega, hapart⟩ := hnew
    refine ⟨⟨⟨hata, hnvme, fun b hb hb' => hb'.2 hb⟩, hmega, fun b hb hb' => ?_⟩, hscsi,
      fun b hb hb' => ?_⟩
    · have := hapart b hb'
      tauto
    · tauto

theorem vmfs_blocks (sys : Sysfs) (ports : List MegaRAIDDisk) :
    (Scan.vmfs sys ports).blocks = ports.filterMap (·.block) := by
  have hloop (s : Scan) : (ports.foldl (Scan.probeVmfs sys) s).blocks =
      s.blocks ++ ports.filterMap (·.block) := by
    induction ports generalizing s with
    | nil => simp
    | cons x ports ih =>
      rw [List.foldl_cons, ih, Scan.probeVmfs]
      cases hblock : x.block <;>
        simp [hblock, Scan.addDrive, Scan.add, Scan.blocks, Drive.make]
  rw [Scan.vmfs, hloop]
  rfl

/-- **Each disk is accounted for once exactly when the blocks of MegaRAID are new and each whole
disk is known by its own name.** -/
theorem rescan_iff (sys : Sysfs) : Accounted sys ↔ Covered sys := by
  unfold Covered
  cases hvmfs : sys.vmfs with
  | some ports =>
    have hscan : rescan sys = (Scan.vmfs sys ports).manager [] := by simp [rescan, hvmfs]
    rw [accounted_iff hscan, vmfs_blocks]
    simp only [true_and]
  | none =>
    obtain ⟨ata, nvme, scsi, h⟩ := linux_enumerated sys
    have hscan : rescan sys = (Scan.linux sys).manager ((sys.block.filter wholeDisk).filter
        (!((Assoc.keys ((Scan.linux sys).manager []).drive_map).map lastPiece).contains
          ·.text)) := by
      simp [rescan, hvmfs]
    have hblocks (x : Name) : x ∈ (Scan.linux sys).blocks ↔ x ∈ sys.ataBlocks ∨
        x ∈ sys.nvmeBlocks ∨ x ∈ sys.megaraidBlocks ∨ x ∈ sys.scsiBlocks := by
      rw [h.blocks]
      simp only [List.mem_append, h.mem_ata, h.mem_nvme, h.mem_scsi]
      tauto
    rw [accounted_iff hscan, linux_nodup_iff, List.filter_eq_nil_iff]
    simp only [Bool.not_eq_true', Bool.not_eq_false, List.contains_iff_mem, mem_known,
      List.mem_filter, and_imp, hblocks]
    constructor
    · intro hacc
      exact ⟨hacc.1, fun x hx hwhole => (known_iff h hwhole).mp (hacc.2.1 x hx hwhole)⟩
    · intro hcov
      refine ⟨hcov.1, fun x hx hwhole => (known_iff h hwhole).mpr (hcov.2 x hx hwhole),
        fun x hx hwhole => ?_⟩
      have := hcov.2 x hx hwhole
      tauto

/-- A disk that no probe finds: `unknown_list` raises. -/
theorem unclaimed_disk :
    (rescan { block := [⟨['v', 'd', 'a'], by decide, by decide⟩] }).unknown_list =
        .error (.attributeError "'str' object has no attribute 'name'") ∧
      ¬ Accounted { block := [⟨['v', 'd', 'a'], by decide, by decide⟩] } := by
  have hraises : (rescan { block := [⟨['v', 'd', 'a'], by decide, by decide⟩] }).unknown_list =
      .error (.attributeError "'str' object has no attribute 'name'") := by decide +kernel
  refine ⟨hraises, fun h => ?_⟩
  obtain ⟨unknown, hok, -⟩ := h.others
  rw [hraises] at hok
  cases hok

end Manager
