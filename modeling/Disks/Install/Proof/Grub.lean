import Disks.Install.Grub
import Disks.Install.Proof.Layout
import Disks.Install.Proof.Turns
import Disks.Lib.Numeral
import Mathlib.Data.List.Induction

/-!
# The root of the boot loader (`linux-installer/root/installer/filesystem.py`)

* `Numbered`, `add_named`: the number that `_addPartition` gives, which the name ends in.
* `Named`, `partition_named`: **what is mounted is a partition or an array of partitions, or else on
  a `bcache` device or a volume.**
* `lastDigit_devName`: of the number, its last digit is read.
* `grub_root_iff`: **the root is right if and only if the number has one digit.**
  `tenth_partition`: a recipe with nine partitions before that of `/boot`.
-/

namespace Filesystem

open Fold

/-! ## Numbers -/

/-- How many partitions a drive gets. -/
def partitionsOn (calls : List Call) (drive : String) : Nat :=
  (calls.filter fun call => call.block_device = drive ∧ call.part_type ≠ .blank).length

/-- The partition that `_addPartition` gave this number on a drive. -/
def Numbered (calls : List Call) (name drive : String) (number : Nat) : Prop :=
  name = devName drive number ∧ 0 < number ∧ number ≤ partitionsOn calls drive

def OnPartition (calls : List Call) (name : String) : Prop :=
  ∃ drive number, Numbered calls name drive number

/-- The partition that is mounted, or the first member of the array. -/
def partitionOf (e : Entry) : String := (e.members.bind List.head?).getD e.block_device

/-- A `bcache` device, or a volume. -/
def Elsewhere (e : Entry) : Prop :=
  (∃ id : Int, e.block_device = "/dev/bcache" ++ toString id) ∨
    ∃ vg_name name, e.block_device = volumeDevice vg_name name

/-- The partitions of a run have their numbers. -/
structure Named (s : Locals) : Prop where
  numbers : ∀ d, counted d s.globals = partitionsOn s.calls d
  entries : ∀ e ∈ s.filesystem_list, e.mount_point.isSome →
    OnPartition s.calls (partitionOf e) ∨ Elsewhere e
  members : ∀ p ∈ s.md_list, p.2 ≠ [] ∧ ∀ x ∈ p.2, OnPartition s.calls x.1

theorem partitionsOn_append (calls calls' : List Call) (d : String) :
    partitionsOn (calls ++ calls') d = partitionsOn calls d + partitionsOn calls' d := by
  simp [partitionsOn]

theorem OnPartition.append {calls : List Call} {name : String} (h : OnPartition calls name)
    (calls' : List Call) : OnPartition (calls ++ calls') name := by
  obtain ⟨d, n, hname, hpos, hle⟩ := h
  exact ⟨d, n, hname, hpos, partitionsOn_append calls calls' d ▸ Nat.le_add_right_of_le hle⟩

theorem Named.append {s : Locals} (h : Named s) {globals : Globals} {call : Call}
    (hnumbers : ∀ d, counted d globals = partitionsOn (s.calls ++ [call]) d) :
    Named { s with globals := globals, calls := s.calls ++ [call] } where
  numbers := hnumbers
  entries e he hmount := (h.entries e he hmount).imp_left fun hon => hon.append _
  members p hp := ⟨(h.members p hp).1, fun x hx => ((h.members p hp).2 x hx).append _⟩

theorem counted_of_ne {d d' : String} {g g' : Globals} {pos : Option Int} (hne : d ≠ d')
    (hpos : g'.partition_pos = Function.update g.partition_pos d' pos)
    (hcounter : g'.partition_counter d = g.partition_counter d) : counted d g' = counted d g := by
  rw [counted, counted, hpos, Function.update_of_ne hne, hcounter]

/-- A call gives the next number of its drive. -/
theorem add_named {d name : String} {t : PartType} {size : Rat} {s s' : Locals}
    (h : add d t size s = .ok (name, s')) (hs : Named s) :
    Named s' ∧ (t ≠ .blank → OnPartition s'.calls name) := by
  unfold add at h
  cases hadd : addPartition d t size s.globals with
  | error e =>
    rw [hadd] at h
    cases h
  | ok result =>
    obtain ⟨given, globals⟩ := result
    rw [hadd] at h
    cases h
    obtain ⟨-, hpos, hcounter, hcases⟩ := addPartition_cases hadd
    have hother (d' : String) (hd' : d' ≠ d) :
        counted d' globals = partitionsOn (s.calls ++ [⟨d, t, size⟩]) d' := by
      rw [counted_of_ne hd' hpos (hcounter d' hd'), hs.numbers, partitionsOn_append]
      simp [partitionsOn, Ne.symm hd']
    obtain ⟨rfl, rfl, -, hcount⟩ | ⟨ht, rfl, hcount, -⟩ := hcases
    · refine ⟨hs.append fun d' => ?_, fun hne => absurd rfl hne⟩
      by_cases hd' : d' = d
      · rw [hd', hcount, hs.numbers, partitionsOn_append]
        simp [partitionsOn]
      · exact hother d' hd'
    · have hnext : partitionsOn (s.calls ++ [⟨d, t, size⟩]) d = counted d s.globals + 1 := by
        rw [partitionsOn_append, hs.numbers]
        simp [partitionsOn, ht]
      refine ⟨hs.append fun d' => ?_,
        fun _ => ⟨d, counted d s.globals + 1, rfl, Nat.succ_pos _, ?_⟩⟩
      · by_cases hd' : d' = d
        · rw [hd', hcount, hnext]
        · exact hother d' hd'
      · exact Nat.le_of_eq hnext.symm

theorem Named.withStore {s : Locals} (h : Named s) (store : Shared.Store String) :
    Named (s.withStore store) := ⟨h.numbers, h.entries, h.members⟩

theorem Named.execute {s : Locals} (h : Named s) (commands : List Command) :
    Named (s.execute commands) := ⟨h.numbers, h.entries, h.members⟩

/-! ## Entries and members -/

theorem Named.addEntry {s : Locals} (h : Named s) {e : Entry}
    (he : e.mount_point.isSome → OnPartition s.calls (partitionOf e) ∨ Elsewhere e) :
    Named (s.addEntry e) where
  numbers := h.numbers
  entries x hx hmount := by
    rcases List.mem_append.mp hx with hx | hx
    · exact h.entries x hx hmount
    · rw [List.mem_singleton.mp hx] at hmount ⊢
      exact he hmount
  members := h.members

theorem Dict.mem_set {α : Type} {d : Dict α} {k : Int} {a : α} {p : Int × α} (h : p ∈ d.set k a) :
    p = (k, a) ∨ p ∈ d := by
  unfold Dict.set at h
  split at h
  · obtain ⟨q, hq, rfl⟩ := List.mem_map.mp h
    by_cases hk : q.1 = k
    · exact .inl (if_pos hk)
    · rw [if_neg hk]
      exact .inr hq
  · exact (List.mem_append.mp h).symm.imp_left List.mem_singleton.mp

theorem Dict.mem_of_get {α : Type} {d : Dict α} {k : Int} {a : α} (h : d.get k = some a) :
    (k, a) ∈ d := by
  obtain ⟨l₁, l₂, rfl, -⟩ := List.lookup_eq_some_iff.mp h
  simp

theorem Named.push {s : Locals} (h : Named s) {group : Int} {name : String} {drive : Drive}
    (hname : OnPartition s.calls name) :
    Named { s with md_list := s.md_list.push group (name, drive) } where
  numbers := h.numbers
  entries := h.entries
  members p hp := by
    rcases Dict.mem_set hp with rfl | hp
    · refine ⟨by simp, fun x hx => ?_⟩
      rcases List.mem_append.mp hx with hx | hx
      · cases hget : s.md_list.get group with
        | none =>
          rw [hget] at hx
          cases hx
        | some members =>
          rw [hget] at hx
          exact (h.members _ (Dict.mem_of_get hget)).2 x hx
      · rw [List.mem_singleton.mp hx]
        exact hname
    · exact h.members p hp

/-! ## The loops -/

theorem reserveBoot_named {m : Machine} {c : Settings} {s s' : Locals} {drive : String}
    (h : reserveBoot m c s drive = .ok s') (hs : Named s) : Named s' := by
  unfold reserveBoot at h
  by_cases hgpt : c.partition_type = "gpt"
  · simp only [hgpt, if_true, bind_ok, pure_ok] at h
    obtain ⟨⟨name, s₁⟩, hadd, rfl⟩ := h
    obtain ⟨hs₁, hname⟩ := add_named hadd hs
    refine hs₁.addEntry fun _ => .inl ?_
    cases m.efi <;> exact hname (by decide)
  · simp only [hgpt, if_false, bind_ok, pure_ok] at h
    obtain ⟨⟨name, s₁⟩, hadd, rfl⟩ := h
    exact (add_named hadd hs).1

theorem placePartition_named {m : Machine} {drive name part_type mkfs_options : String}
    {item : Item} {s s' : Locals}
    (h : placePartition m drive name part_type mkfs_options item s = .ok s') (hs : Named s)
    (hname : OnPartition s.calls name) : Named s' := by
  obtain ⟨-, _, _, -, -, rfl⟩ | ⟨-, _, _, rfl⟩ | ⟨-, _, _, -, -, rfl⟩ |
    ⟨-, _, _, _, -, -, -, rfl⟩ := placePartition_ok h
  · exact hs.push hname
  · exact ⟨hs.numbers, hs.entries, hs.members⟩
  · exact ⟨hs.numbers, hs.entries, hs.members⟩
  · exact (hs.withStore _).addEntry fun _ => .inl hname

theorem targetItem_named {m : Machine} {c : Settings} {r : RefSizes} {s s' : Locals} {item : Item}
    (h : targetItem m c r s item = .ok s') (hs : Named s) : Named s' := by
  unfold targetItem at h
  simp only [bind_ok, key_ok] at h
  obtain ⟨target, -, drive, -, size', -, size, -, part_type, -, h⟩ := h
  rw [setMountOptions_eq] at h
  by_cases hswap : part_type = "swap"
  · simp only [hswap, if_true, bind_ok, pure_ok] at h
    obtain ⟨⟨name, s₁⟩, hadd, rfl⟩ := h
    obtain ⟨hs₁, -⟩ := add_named hadd ⟨hs.numbers, hs.entries, hs.members⟩
    exact hs₁.addEntry fun hmount => by cases hmount
  by_cases hblank : part_type = "blank" ∨ part_type = "empty"
  · simp only [hswap, hblank, if_false, if_true, bind_ok, pure_ok] at h
    obtain ⟨⟨name, s₁⟩, hadd, rfl⟩ := h
    exact (add_named hadd ⟨hs.numbers, hs.entries, hs.members⟩).1
  · simp only [hswap, hblank, if_false, bind_ok] at h
    obtain ⟨⟨name, s₁⟩, hadd, hplace⟩ := h
    obtain ⟨hs₁, hname⟩ := add_named hadd ⟨hs.numbers, hs.entries, hs.members⟩
    exact placePartition_named hplace hs₁ (hname (by decide))

theorem mdItem_named {c : Settings} {s s' : Locals} {item : Item} (h : mdItem c s item = .ok s')
    (hs : Named s) : Named s' := by
  obtain ⟨md, members, level, meta_version, block_device, -, hmembers, h⟩ := mdItem_ok h
  have hs₁ : Named ((assigned c .md item s).execute
      [.mdadm ("/dev/md" ++ toString md) meta_version level (members.map (·.1))]) :=
    ⟨hs.numbers, hs.entries, hs.members⟩
  obtain ⟨-, _, -, rfl⟩ | ⟨-, _, _, rfl⟩ | ⟨-, -, -, rfl⟩ | ⟨-, -, _, _, -, -, rfl⟩ := h
  · exact hs₁.addEntry fun hmount => by cases hmount
  · exact ⟨hs₁.numbers, hs₁.entries, hs₁.members⟩
  · exact hs₁
  · refine (hs₁.withStore _).addEntry fun _ => .inl ?_
    -- an array has a first member
    obtain ⟨hne, hon⟩ := hs.members _ (Dict.mem_of_get hmembers)
    cases members with
    | nil => exact absurd rfl hne
    | cons x members => exact hon x (List.mem_cons_self ..)

theorem bcacheItem_named {m : Machine} {c : Settings} {s s' : Locals} {item : Item}
    (h : bcacheItem m c s item = .ok s') (hs : Named s) : Named s' := by
  unfold bcacheItem at h
  simp only [bind_ok, key_ok, setMountOptions_eq] at h
  obtain ⟨id, -, backing, -, cache, -, h⟩ := h
  have hs₁ : Named (addBCache m id backing cache item.mode
      { s.withStore (s.store.assign (own c item)) with
        item := some item, part_type := some (item.type.getD c.fs_type) }).2 :=
    ⟨hs.numbers, hs.entries, hs.members⟩
  split at h
  · obtain ⟨_, -, rfl⟩ := addSwap_ok h
    exact hs₁.addEntry fun hmount => by cases hmount
  · split at h
    · cases h
      exact hs₁
    · simp only [bind_ok, bound_ok, pure_ok] at h
      obtain ⟨r, -, rfl⟩ := h
      exact hs₁.addEntry fun _ => .inr (.inl ⟨id, rfl⟩)

theorem addVolume_named {c : Settings} {s s' : Locals} (h : addVolume c s = .ok s')
    (hs : Named s) : Named s' := by
  obtain ⟨_, _, -, -, ⟨-, rfl⟩ | ⟨-, _, vg_name, name, _, _, -, -, -, -, -, ⟨-, _, -, rfl⟩ |
    ⟨-, _, _, -, -, rfl⟩⟩⟩ := addVolume_ok h
  · exact hs
  · exact (hs.execute _).addEntry fun hmount => by cases hmount
  · exact ((hs.execute _).withStore _).addEntry fun _ => .inr (.inr ⟨vg_name, name, rfl⟩)

theorem volumes_named {m : Machine} {c : Settings} {r : RefSizes} {s s' : Locals}
    (h : volumes m c r s = .ok s') (hs : Named s) : Named s' := by
  obtain ⟨-, rfl⟩ | ⟨-, commands, s₁, s₂, -, hvg, hlv, hadd⟩ := volumes_ok h
  · exact hs
  · have h₁ : Named s₁ := by
      refine foldlM_inv (I := Named) (fun t _ _ t' hstep ht => ?_) hvg
        ⟨hs.numbers, hs.entries, hs.members⟩
      obtain ⟨_, _, _, _, _, -, -, -, rfl⟩ := vgItem_ok hstep
      exact ⟨ht.numbers, ht.entries, ht.members⟩
    have h₂ : Named s₂ := by
      refine foldlM_inv (I := Named) (fun t _ _ t' hstep ht => ?_) hlv h₁
      obtain ⟨_, _, _, -, -, -, rfl⟩ := lvItem_ok hstep
      exact ⟨ht.numbers, ht.entries, ht.members⟩
    exact addVolume_named hadd h₂

/-- **What is mounted is a partition or an array of partitions, or else on a `bcache` device or a
volume.** -/
theorem partition_named {p : Profile} {v : ValueMap} {m : Machine} {s : Locals}
    {boot_drives : List String} (h : partition p v m = .ok (s, boot_drives)) : Named s := by
  obtain ⟨c, s₁, r, -, hlayout, hvolumes⟩ := partition_ok h
  obtain ⟨globals, t₁, t₂, drives, t₃, -, hlabel, hreserve, htarget, hmd, hbcache⟩ :=
    layout_ok hlayout
  have hpos : ∀ d, globals.partition_pos d = none := by
    refine foldlM_inv (I := fun g => ∀ d, g.partition_pos d = none) (fun g _ _ g' hstep hg => ?_)
      hlabel fun _ => rfl
    unfold label at hstep
    simp only [bind_ok, pure_ok] at hstep
    obtain ⟨drive, -, rfl⟩ := hstep
    exact hg
  have hstart : Named { start c with globals := globals } := by
    refine ⟨fun d => ?_, fun _ he => absurd he List.not_mem_nil,
      fun _ hp => absurd hp List.not_mem_nil⟩
    rw [counted, hpos]
    rfl
  have h₁ : Named t₁ := foldlM_inv (fun _ _ _ _ hstep ht => reserveBoot_named hstep ht) hreserve
    hstart
  have h₂ : Named t₂ := foldlM_inv (fun _ _ _ _ hstep ht => targetItem_named hstep ht) htarget h₁
  have hparted : Named (runParted drives t₂) := ⟨h₂.numbers, h₂.entries, h₂.members⟩
  have h₃ : Named t₃ := foldlM_inv (fun _ _ _ _ hstep ht => mdItem_named hstep ht) hmd hparted
  have h₄ : Named s₁ := foldlM_inv (fun _ _ _ _ hstep ht => bcacheItem_named hstep ht) hbcache h₃
  exact volumes_named hvolumes h₄

/-! ## The root -/

/-- What is mounted at `/boot`, or at `/` when there is no `/boot`. -/
def bootEntry (filesystem_list : List Entry) : Option Entry :=
  (filesystem_list.find? fun fs => fs.mount_point = some (some "/boot")).or
    (filesystem_list.find? fun fs => fs.mount_point = some (some "/"))

/-- The index is one less than the number of the partition. -/
def RightRoot (s : Locals) (root : String) : Prop :=
  ∃ e drive number, bootEntry s.filesystem_list = some e ∧
    Numbered s.calls (partitionOf e) drive number ∧ root = grubRoot ((number : Int) - 1)

theorem any_set {α : Type} (d : MountPoints α) (point q : String) (a : α) :
    (d.set point a).any (·.1 = q) = (d.any (·.1 = q) || point = q) := by
  have hset (l : MountPoints α) : (l.map fun p => if p.1 = point then (point, a) else p).any
      (·.1 = q) = l.any (·.1 = q) := by
    rw [List.any_map]
    congr 1
    funext p
    by_cases hp : p.1 = point <;> simp [hp]
  unfold MountPoints.set
  split
  · next hpoint =>
    obtain ⟨x, hx, rfl⟩ := List.mem_map.mp hpoint
    rw [hset]
    by_cases hq : x.1 = q
    · rw [List.any_eq_true.mpr ⟨x, hx, decide_eq_true hq⟩, Bool.true_or]
    · rw [decide_eq_false hq, Bool.or_false]
  · simp

theorem any_partitionMap (filesystem_list : List Entry) (point : String) :
    (partitionMap filesystem_list).any (·.1 = point) =
      filesystem_list.any fun fs => fs.mount_point = some (some point) := by
  induction filesystem_list using List.reverseRecOn with
  | nil => rfl
  | append_singleton filesystem_list fs ih =>
    rw [partitionMap, List.foldl_concat, ← partitionMap, List.any_append, ← ih]
    split
    · next mount_point hmount => simp [any_set, hmount]
    · next hno =>
      have hne : fs.mount_point ≠ some (some point) := fun hmount => hno point hmount
      simp [hne]

/-- The first member, or else the device itself. -/
theorem getFirstMDMember_eq (filesystem_list : List Entry) (point : String) :
    getFirstMDMember filesystem_list point =
      (filesystem_list.find? fun fs => fs.mount_point = some (some point)).map partitionOf := by
  unfold getFirstMDMember
  congr 1
  funext fs
  unfold partitionOf
  rcases fs.members with _ | _ | ⟨member, members⟩ <;> rfl

theorem getFirstMDMember_boot (filesystem_list : List Entry) :
    getFirstMDMember filesystem_list
        (if (partitionMap filesystem_list).any (·.1 = "/boot") then "/boot" else "/") =
      (bootEntry filesystem_list).map partitionOf := by
  rw [any_partitionMap, getFirstMDMember_eq, bootEntry]
  cases hfind : filesystem_list.find? fun fs => fs.mount_point = some (some "/boot") with
  | none =>
    have hany : (filesystem_list.any fun fs => fs.mount_point = some (some "/boot")) = false := by
      rw [List.any_eq_false]
      exact List.find?_eq_none.mp hfind
    rw [hany, Option.none_or]
    rfl
  | some fs =>
    have hany : (filesystem_list.any fun fs => fs.mount_point = some (some "/boot")) = true :=
      by
      have hmount := List.find?_some hfind
      exact List.any_eq_true.mpr ⟨fs, List.mem_of_find?_eq_some hfind, hmount⟩
    rw [hany, if_pos rfl, hfind, Option.some_or]

theorem toList_toString (number : Nat) :
    (toString number).toList = Nat.toDigits 10 number := by
  rw [Nat.toString_eq_repr, Nat.toList_repr]

/-- Of the number of a partition, its last digit is read. -/
theorem lastDigit_devName (drive : String) (number : Nat) :
    lastDigit (some (devName drive number)) = .ok (number % 10) := by
  have hlt : number % 10 < 10 := Nat.mod_lt _ (by decide)
  have hlast : (devName drive number).toList.getLast? = some (number % 10).digitChar := by
    unfold devName
    split <;> simp [String.toList_append, List.getLast?_append,
      List.getLast?_cons, Numeral.getLast?_toDigits]
  have hdigit : (number % 10).digitChar.isDigit = true := by
    rw [Nat.isDigit_digitChar, decide_eq_true hlt]
  have hvalue : (number % 10).digitChar.toNat - '0'.toNat = number % 10 :=
    Nat.toNat_digitChar_sub_48_of_lt_ten hlt
  rw [lastDigit]
  simp only [hlast, hdigit, if_true, hvalue]

theorem toString_inj {m n : Nat} (h : toString m = toString n) : m = n := by
  have hdigits := congrArg (fun s : String => Nat.ofDigitChars 10 s.toList 0) h
  simpa only [toList_toString, Nat.ofDigitChars_ten_toDigits] using hdigits

/-- The index tells the number. -/
theorem grubRoot_eq_iff (digit : Nat) {number : Nat} (hpos : 0 < number) :
    grubRoot ((digit : Int) - 1) = grubRoot ((number : Int) - 1) ↔ digit = number := by
  obtain ⟨n, rfl⟩ : ∃ n, number = n + 1 := ⟨number - 1, (Nat.succ_pred_eq_of_pos hpos).symm⟩
  refine ⟨fun h => ?_, fun h => by rw [h]⟩
  have htext : toString ((digit : Int) - 1) = toString (((n + 1 : Nat) : Int) - 1) :=
    (String.append_right_inj _).mp h
  have hn : (((n + 1 : Nat) : Int) - 1) = (n : Int) := by omega
  rw [hn] at htext
  cases digit with
  | zero =>
    -- the text of a negative number begins with a sign
    have hsign : '-' ∈ Nat.toDigits 10 n := by
      rw [← toList_toString]
      have hzero : toString (((0 : Nat) : Int) - 1) = "-1" := rfl
      have hnat : toString (n : Int) = toString n := rfl
      rw [← hnat, ← htext, hzero]
      decide
    exact absurd (Nat.isDigit_of_mem_toDigits (by decide) (by decide) hsign) (by decide)
  | succ d =>
    have hd : (((d + 1 : Nat) : Int) - 1) = (d : Int) := by omega
    rw [hd] at htext
    rw [toString_inj htext]

/-- **The root is right if and only if the partition's number has one digit.** -/
theorem grub_root_iff {p : Profile} {v : ValueMap} {m : Machine} {s : Locals}
    {boot_drives : List String} (h : partition p v m = .ok (s, boot_drives))
    (files : List String) :
    ((∃ values, grubConfigValues s.filesystem_list files = .ok values ∧
        RightRoot s values.grub_root) ↔
      ∃ e drive number, bootEntry s.filesystem_list = some e ∧
        Numbered s.calls (partitionOf e) drive number ∧ number < 10) ∧
    ∀ e, bootEntry s.filesystem_list = some e →
      OnPartition s.calls (partitionOf e) ∨ Elsewhere e := by
  have hread {e : Entry} {drive : String} {number : Nat} (he : bootEntry s.filesystem_list = some e)
      (hnumber : Numbered s.calls (partitionOf e) drive number) :
      lastDigit ((bootEntry s.filesystem_list).map partitionOf) = .ok (number % 10) := by
    rw [he, Option.map_some, hnumber.1, lastDigit_devName]
  refine ⟨⟨?_, ?_⟩, fun e he => ?_⟩
  · rintro ⟨values, hvalues, e, drive, number, he, hnumber, hroot⟩
    refine ⟨e, drive, number, he, hnumber, ?_⟩
    simp only [grubConfigValues, getFirstMDMember_boot, hread he hnumber] at hvalues
    cases hvalues
    have hlast := (grubRoot_eq_iff (number % 10) hnumber.2.1).mp hroot
    exact hlast ▸ Nat.mod_lt _ (by decide)
  · rintro ⟨e, drive, number, he, hnumber, hlt⟩
    have hvalues : ∃ values, grubConfigValues s.filesystem_list files = .ok values ∧
        values.grub_root = grubRoot ((number : Int) - 1) := by
      simp only [grubConfigValues, getFirstMDMember_boot, hread he hnumber, Nat.mod_eq_of_lt hlt]
      exact ⟨_, rfl, rfl⟩
    obtain ⟨values, hok, hroot⟩ := hvalues
    exact ⟨values, hok, e, drive, number, he, hnumber, hroot⟩
  · have hmount : e.mount_point.isSome := by
      rcases Option.or_eq_some_iff.mp he with hfind | ⟨-, hfind⟩
      all_goals
        have hpoint := List.find?_some hfind
        rw [of_decide_eq_true hpoint]
        rfl
    have hmem : e ∈ s.filesystem_list := by
      rcases Option.or_eq_some_iff.mp he with hfind | ⟨-, hfind⟩
      all_goals exact List.mem_of_find?_eq_some hfind
    exact (partition_named h).entries e hmem hmount

/-- The root in the recipe for one drive, where `/boot` is the second partition. -/
theorem second_partition_root : ∃ s boot_drives,
    partition plainProfile {} (plainMachine ["/dev/sda"]) = .ok (s, boot_drives) ∧
      ∀ files, ∃ values, grubConfigValues s.filesystem_list files = .ok values ∧
        RightRoot s values.grub_root := by
  have hrun : (partition plainProfile {} (plainMachine ["/dev/sda"])).toOption.map (fun result =>
      ((bootEntry result.1.filesystem_list).map partitionOf,
        partitionsOn result.1.calls "/dev/sda")) = some (some "/dev/sda2", 4) := by
    decide +kernel
  obtain ⟨⟨s, boot_drives⟩, hok, hseen⟩ := toOption_map hrun
  obtain ⟨hboot, hcount⟩ := Prod.mk.inj hseen
  obtain ⟨e, he, hname⟩ := Option.map_eq_some_iff.mp hboot
  have hnumber : Numbered s.calls (partitionOf e) "/dev/sda" 2 :=
    ⟨hname.trans (by decide +kernel), by decide, hcount.symm ▸ by decide⟩
  exact ⟨s, boot_drives, hok, fun files =>
    (grub_root_iff hok files).1.mpr ⟨e, "/dev/sda", 2, he, hnumber, by decide⟩⟩

/-- A recipe with eight reserved partitions before that of `/boot`. -/
def reservedRecipe : ValueMap where
  partition_scheme := some "custom"
  partition_recipe := some (List.replicate 8
      { target := some 0, type := some "empty", size := some (.megabytes 100) } ++ [
    { target := some 0, mount_point := some (some "/boot"), size := some (.megabytes 512) },
    { target := some 0, mount_point := some (some "/"), size := some .rest }])

/-- The root of the tenth partition is read from its last digit. -/
theorem tenth_partition : ∃ s boot_drives,
    partition plainProfile reservedRecipe (plainMachine ["/dev/sda"]) = .ok (s, boot_drives) ∧
      (grubConfigValues s.filesystem_list []).toOption.map (·.grub_root) = some "hd0,-1" ∧
      ¬ ∃ values, grubConfigValues s.filesystem_list [] = .ok values ∧
        RightRoot s values.grub_root := by
  have hrun : (partition plainProfile reservedRecipe (plainMachine ["/dev/sda"])).toOption.map
      (fun result => (grubConfigValues result.1.filesystem_list []).toOption.map (·.grub_root)) =
      some (some "hd0,-1") := by
    decide +kernel
  obtain ⟨⟨s, boot_drives⟩, hok, hroot⟩ := toOption_map hrun
  refine ⟨s, boot_drives, hok, hroot, ?_⟩
  rintro ⟨values, hvalues, e, drive, number, -, hnumber, hright⟩
  rw [hvalues] at hroot
  have hgiven : values.grub_root = grubRoot (((0 : Nat) : Int) - 1) := Option.some.inj hroot
  have hzero := (grubRoot_eq_iff 0 hnumber.2.1).mp (hgiven.symm.trans hright)
  exact absurd hnumber.2.1 (Nat.not_lt.mpr (Nat.le_of_eq hzero.symm))

end Filesystem
