import Disks.Install.Proof.Entries
import Disks.Lib.Ranked

/-!
# The order of the mounts

`mount` goes by the length of the mount points as they are given, and `unmount` by that of the paths
that are mounted, which have lost the white space and the slashes at their ends.

* `unmounted_iff`, `unmount_iff`: the order of `unmount`, in terms of the mount points.
* `mount_order_iff`: **when every file system is mounted behind those above it, nothing is hidden by
  a later mount, and all is unmounted before what is above it**.
* `orderly_of_plain`: it is so where no mount point ends in white space.
* `mount_order_hidden`: and not always.
-/

namespace Filesystem

open Fold

/-! ## Paths -/

/-- An absolute path without empty names, `.` and `..`. -/
structure Normalised (point : String) : Prop where
  absolute : point.toList = '/' :: ['/'].intercalate (Path.dirs point.toList)
  plain : ∀ name ∈ Path.dirs point.toList, Path.Plain name

/-- `p` is above `q`. -/
def Ancestor (p q : String) : Prop :=
  Path.dirs p.toList <+: Path.dirs q.toList ∧ Path.dirs p.toList ≠ Path.dirs q.toList

theorem intercalate_append {names more : List (List Char)} (hnames : names ≠ [])
    (hmore : more ≠ []) :
    ['/'].intercalate (names ++ more) =
      ['/'].intercalate names ++ '/' :: ['/'].intercalate more := by
  induction names with
  | nil => exact absurd rfl hnames
  | cons name names ih =>
    cases names with
    | nil =>
      rw [List.singleton_append, List.intercalate_cons_of_ne_nil hmore, List.intercalate_singleton]
      simp
    | cons next names =>
      rw [List.cons_append, List.cons_append, List.intercalate_cons_cons, ← List.cons_append,
        ih (List.cons_ne_nil _ _), List.intercalate_cons_cons]
      simp only [List.append_assoc]

theorem intercalate_ne_nil {names : List (List Char)} (h : ∀ name ∈ names, name ≠ [])
    (hne : names ≠ []) : ['/'].intercalate names ≠ [] := by
  obtain ⟨name, names, rfl⟩ := List.exists_cons_of_ne_nil hne
  have hname := h name (List.mem_cons_self ..)
  cases names with
  | nil => rwa [List.intercalate_singleton]
  | cons next names =>
    rw [List.intercalate_cons_of_ne_nil (by simp)]
    simp [hname]

/-- A path goes on from those above it. -/
theorem exists_of_ancestor {p q : String} (hp : Normalised p) (hq : Normalised q)
    (h : Ancestor p q) : ∃ rest, rest ≠ [] ∧ q.toList = p.toList ++ rest := by
  obtain ⟨⟨more, hmore⟩, hne⟩ := h
  have hmore_ne : more ≠ [] := by
    rintro rfl
    rw [List.append_nil] at hmore
    exact hne hmore
  have hnames : ∀ name ∈ more, name ≠ [] := by
    intro name hname
    have hmem : name ∈ Path.dirs q.toList := by
      rw [← hmore]
      exact List.mem_append_right _ hname
    exact of_decide_eq_true (List.mem_filter.mp hmem).2
  rw [hp.absolute, hq.absolute, ← hmore]
  by_cases hroot : Path.dirs p.toList = []
  · rw [hroot, List.nil_append]
    exact ⟨_, intercalate_ne_nil hnames hmore_ne, rfl⟩
  · rw [intercalate_append hroot hmore_ne]
    exact ⟨_, List.cons_ne_nil _ _, rfl⟩

/-- **A directory has a longer path than those above it.** -/
theorem length_lt_of_ancestor {p q : String} (hp : Normalised p) (hq : Normalised q)
    (h : Ancestor p q) : p.length < q.length := by
  obtain ⟨rest, hne, hrest⟩ := exists_of_ancestor hp hq h
  have hlength := congrArg List.length hrest
  have hpos := List.length_pos_iff.mpr hne
  rw [List.length_append, String.length_toList, String.length_toList] at hlength
  omega

/-! ## The mount points -/

/-- What is mounted at a mount point. -/
abbrev Mountable := String × String × String × List String

/-- An entry that is to be mounted. -/
def entryMountable (lists : List (List String)) (fs : Entry) : Option Mountable :=
  match fs.mount_point with
  | some (some point) =>
    (optionsOf lists fs).toOption.map fun options => (point, fs.type, fs.block_device, options)
  | _ => none

/-- The file systems that are to be mounted: those of the profile and those of the list. -/
def mountables (efi : Bool) (extra : List ExtraMount) (lists : List (List String))
    (filesystem_list : List Entry) : List Mountable :=
  (extra.filter fun e => ¬ (e.fstype = "efivarfs" ∧ ¬ efi)).map
      (fun e => (e.mount_point, e.fstype, e.fs, e.options.getD [])) ++
    filesystem_list.filterMap (entryMountable lists)

/-- The path that is mounted for a mount point. -/
def mounted (mount_point point : String) : String := stripped (mount_point ++ point)

/-- `_mount` of a file system. -/
def mountAt (mount_point : String) (p : Mountable) : Mount :=
  ⟨mounted mount_point p.1, p.2.1, p.2.2.1, p.2.2.2⟩

theorem set_new {d : MountPoints (String × String × List String)} {p : Mountable}
    (h : p.1 ∉ d.map (·.1)) : d.set p.1 p.2 = d ++ [p] :=
  if_neg h

/-- A dictionary of distinct mount points is their list. -/
theorem foldl_set {pairs : List Mountable} {d : MountPoints (String × String × List String)}
    (h : ((d ++ pairs).map (·.1)).Nodup) :
    pairs.foldl (fun d p => d.set p.1 p.2) d = d ++ pairs := by
  induction pairs generalizing d with
  | nil => exact (List.append_nil d).symm
  | cons p pairs ih =>
    have hnew : p.1 ∉ d.map (·.1) := by
      rw [List.map_append, List.map_cons] at h
      exact fun hmem => (List.nodup_append.mp h).2.2 _ hmem _ (List.mem_cons_self ..) rfl
    rw [List.foldl_cons, set_new hnew, ih (by rwa [List.append_assoc]), List.append_assoc]
    rfl

/-- The options of what is to be mounted are there. -/
def Optioned (lists : List (List String)) (fs : Entry) : Prop :=
  ∀ point, fs.mount_point = some (some point) → ∃ options, optionsOf lists fs = .ok options

/-- A turn of the loop over `filesystem_list`. -/
theorem mountEntry_eq {lists : List (List String)} {fs : Entry} (h : Optioned lists fs)
    (d : MountPoints (String × String × List String)) :
    mountEntry lists d fs =
      .ok ((entryMountable lists fs).toList.foldl (fun d p => d.set p.1 p.2) d) := by
  unfold mountEntry entryMountable
  rcases hpoint : fs.mount_point with _ | _ | point
  · rfl
  · rfl
  · obtain ⟨options, hoptions⟩ := h point hpoint
    simp only [hoptions]
    rfl

theorem foldlM_mountEntry {lists : List (List String)} {filesystem_list : List Entry}
    (h : ∀ fs ∈ filesystem_list, Optioned lists fs)
    (d : MountPoints (String × String × List String)) :
    filesystem_list.foldlM (mountEntry lists) d = .ok
      ((filesystem_list.filterMap (entryMountable lists)).foldl (fun d p => d.set p.1 p.2) d) := by
  induction filesystem_list generalizing d with
  | nil => rfl
  | cons fs filesystem_list ih =>
    obtain ⟨hfs, h⟩ := List.forall_mem_cons.mp h
    rw [foldlM_cons, mountEntry_eq hfs, List.filterMap_cons]
    cases entryMountable lists fs with
    | none => exact ih h d
    | some p => exact ih h _

/-- **What is mounted**, where the mount points are distinct. -/
theorem mount_eq {efi : Bool} {extra : List ExtraMount} {lists : List (List String)}
    {filesystem_list : List Entry} (h : ∀ fs ∈ filesystem_list, Optioned lists fs)
    (hdistinct : ((mountables efi extra lists filesystem_list).map (·.1)).Nodup)
    (mount_point : String) :
    mount efi extra mount_point lists filesystem_list =
      .ok ((Ranked.sorted (fun p => p.1.length)
        (mountables efi extra lists filesystem_list)).map (mountAt mount_point)) := by
  have hextra : extraMounts efi extra =
      (extra.filter fun e => ¬ (e.fstype = "efivarfs" ∧ ¬ efi)).map
        fun e => (e.mount_point, e.fstype, e.fs, e.options.getD []) := by
    rw [mountables, List.map_append] at hdistinct
    have hset := foldl_set (d := []) (List.nodup_append.mp hdistinct).1
    rw [List.foldl_map, List.nil_append] at hset
    exact hset
  rw [mount, foldlM_mountEntry h, hextra, foldl_set hdistinct]
  rfl

/-! ## The order -/

/-- The directories of a path. -/
def directories (path : String) : List (List Char) := Path.resolve (Path.dirs path.toList)

/-- A mount at the first path takes the place of the second one: it is the same, or above it. -/
def Hides (p q : String) : Prop := directories p <+: directories q

/-- The first path is above the second one. -/
def Above (p q : String) : Prop := Hides p q ∧ directories p ≠ directories q

instance (p q : String) : Decidable (Hides p q) := inferInstanceAs (Decidable (_ <+: _))

/-- **What is asked of `mount`**: it mounts these, each at a path that can be made and behind those
above it, so that nothing is hidden by a later one. -/
structure MountsInOrder (mount_point : String) (points : List Mountable) (mount_list : List Mount) :
    Prop where
  all : mount_list.Perm (points.map (mountAt mount_point))
  named : ∀ m ∈ mount_list, m.mount_point ≠ ""
  order : mount_list.Pairwise fun a b => ¬ Hides b.mount_point a.mount_point

/-- **What is asked of `unmount`**: it unmounts what was mounted, each once and before those above
it. -/
def UnmountsInOrder (mount_point mtab : String) (mount_list : List Mount) : Prop :=
  ∃ back : List String, unmount mount_point mtab mount_list =
      ["rm " ++ mtabPath mount_point,
        if mtab = "file" then "touch " ++ mtabPath mount_point
        else "ln -s " ++ mtab ++ " " ++ mtabPath mount_point] ++
      back.map (fun path => "/bin/umount " ++ path) ∧
    back.Perm (mount_list.map (·.mount_point)) ∧ back.Pairwise fun p q => ¬ Above p q

/-- A path that may be mounted first: it is not hidden by the second, and if it is above it, it is
no longer. -/
def Leads (p q : String) : Prop := ¬ Hides q p ∧ (Hides p q → p.length ≤ q.length)

/-- **The mount points that are mounted and unmounted in order**: every path can be made, and of two
the shorter mount point (or the first, if they are as long) may be mounted first. -/
structure Orderly (mount_point : String) (points : List Mountable) : Prop where
  named : ∀ p ∈ points, mounted mount_point p.1 ≠ ""
  pairs : points.Pairwise fun p q =>
    if p.1.length ≤ q.1.length then Leads (mounted mount_point p.1) (mounted mount_point q.1)
    else Leads (mounted mount_point q.1) (mounted mount_point p.1)

/-- The paths in the order of `unmount`. -/
theorem unmounted_iff {mount_point mtab : String} {mount_list : List Mount} :
    UnmountsInOrder mount_point mtab mount_list ↔
      (unmountOrder mount_list).Pairwise fun a b => ¬ Above a.mount_point b.mount_point := by
  have hcommands (m : Mount) :
      "/bin/umount " ++ m.mount_point = (fun path => "/bin/umount " ++ path) m.mount_point := rfl
  constructor
  · rintro ⟨back, hback, -, horder⟩
    have hpaths : ((unmountOrder mount_list).map (·.mount_point)).map
        (fun path => "/bin/umount " ++ path) = back.map fun path => "/bin/umount " ++ path := by
      rw [List.map_map]
      exact List.append_cancel_left hback
    have hinjective : Function.Injective fun path : String => "/bin/umount " ++ path :=
      fun p q h => String.append_right_inj _ |>.mp h
    rw [← List.map_injective_iff.mpr hinjective hpaths, List.pairwise_map] at horder
    exact horder
  · refine fun horder => ⟨(unmountOrder mount_list).map (·.mount_point), ?_, ?_, ?_⟩
    · rw [List.map_map]
      rfl
    · exact ((List.reverse_perm _).trans (List.mergeSort_perm ..)).map _
    · exact List.pairwise_map.mpr horder

/-- The order of `unmount`, where no mount hides an earlier one. -/
theorem unmount_iff {mount_point mtab : String} {mount_list : List Mount}
    (h : mount_list.Pairwise fun a b => ¬ Hides b.mount_point a.mount_point) :
    UnmountsInOrder mount_point mtab mount_list ↔ mount_list.Pairwise fun a b =>
      Hides a.mount_point b.mount_point → a.mount_point.length ≤ b.mount_point.length := by
  have hsorted : unmountOrder mount_list =
      (Ranked.sorted (fun m : Mount => m.mount_point.length) mount_list).reverse := rfl
  rw [unmounted_iff, hsorted, List.pairwise_reverse, Ranked.pairwise_sorted_iff]
  constructor
  · refine fun hpairs => List.Pairwise.imp₂ (fun a b hab hhides habove => ?_) hpairs h
    by_contra hle
    rw [if_neg hle] at hab
    have hsame : directories a.mount_point ≠ directories b.mount_point :=
      fun heq => hhides ⟨[], by rw [List.append_nil, heq]⟩
    exact hab ⟨habove, hsame⟩
  · refine fun hpairs => List.Pairwise.imp₂ (fun a b hab hhides => ?_) hpairs h
    split
    · exact fun habove => hhides habove.1
    · rename_i hlt
      exact fun habove => hlt (hab habove.1)

theorem isspace_slash : Lines.isspace '/' = false := by decide

theorem rdropWhile_length_le (text rest : List Char) :
    (text.rdropWhile fun c => c = '/').length ≤
      ((text ++ rest).rdropWhile fun c => c = '/').length := by
  induction rest using List.reverseRecOn with
  | nil => rw [List.append_nil]
  | append_singleton rest c ih =>
    rw [← List.append_assoc]
    by_cases hc : c = '/'
    · rwa [List.rdropWhile_concat_pos _ _ _ (by simp [hc])]
    · rw [List.rdropWhile_concat_neg _ _ _ (by simp [hc])]
      have hle := (List.rdropWhile_prefix (fun c : Char => decide (c = '/')) (l := text)).length_le
      rw [List.length_append, List.length_append]
      omega

section plain

variable {mount_point point : String} (hpoint : Normalised point)
  (hend : Lines.rstrip point.toList = point.toList)
include hpoint hend

theorem mounted_toList :
    (mounted mount_point point).toList =
      (mount_point.toList.dropWhile Lines.isspace ++ point.toList).rdropWhile fun c => c = '/' := by
  have hne : point.toList ≠ [] := by
    rw [hpoint.absolute]
    exact List.cons_ne_nil _ _
  have hstart : point.toList.dropWhile Lines.isspace = point.toList := by
    rw [hpoint.absolute, List.dropWhile_cons_of_neg (by simp [isspace_slash])]
  have hfront : (mount_point.toList ++ point.toList).dropWhile Lines.isspace =
      mount_point.toList.dropWhile Lines.isspace ++ point.toList := by
    rw [List.dropWhile_append]
    split
    · rename_i hempty
      rw [List.isEmpty_iff.mp hempty, hstart, List.nil_append]
    · rfl
  have hlast : Lines.rstrip (mount_point.toList.dropWhile Lines.isspace ++ point.toList) =
      mount_point.toList.dropWhile Lines.isspace ++ point.toList := by
    unfold Lines.rstrip at hend ⊢
    rw [List.rdropWhile_eq_self_iff] at hend ⊢
    intro _
    rw [List.getLast_append_of_ne_nil _ hne]
    exact hend hne
  rw [mounted, stripped, String.toList_ofList, String.toList_append, Lines.strip, hfront, hlast]

theorem directories_mounted :
    directories (mounted mount_point point) =
      Path.resolve (Path.dirs (mount_point.toList.dropWhile Lines.isspace)) ++
        Path.dirs point.toList := by
  have hdirs (front : List Char) :
      Path.dirs (front ++ point.toList) = Path.dirs front ++ Path.dirs point.toList := by
    obtain ⟨rest, hrest⟩ : ∃ rest, point.toList = '/' :: rest := ⟨_, hpoint.absolute⟩
    rw [hrest]
    exact Path.dirs_append front rest
  rw [directories, mounted_toList hpoint hend, Path.dirs_rdropWhile, hdirs,
    Path.resolve_append hpoint.plain]

end plain

/-- **They are mounted and unmounted in order.** -/
theorem orderly_of_plain {mount_point : String} {points : List Mountable}
    (hroot : stripped mount_point ≠ "") (hdistinct : (points.map (·.1)).Nodup)
    (hnormal : ∀ p ∈ points, Normalised p.1)
    (hend : ∀ p ∈ points, Lines.rstrip p.1.toList = p.1.toList) : Orderly mount_point points := by
  have hleads {p q : Mountable} (hp : p ∈ points) (hq : q ∈ points) (hne : p.1 ≠ q.1)
      (hle : p.1.length ≤ q.1.length) :
      Leads (mounted mount_point p.1) (mounted mount_point q.1) := by
    have hhides (x y : Mountable) (hx : x ∈ points) (hy : y ∈ points) :
        Hides (mounted mount_point x.1) (mounted mount_point y.1) ↔
          Path.dirs x.1.toList <+: Path.dirs y.1.toList := by
      rw [Hides, directories_mounted (hnormal x hx) (hend x hx),
        directories_mounted (hnormal y hy) (hend y hy), List.prefix_append_right_inj]
    have hdiffer : Path.dirs p.1.toList ≠ Path.dirs q.1.toList := by
      intro heq
      refine hne (String.toList_injective ?_)
      rw [(hnormal p hp).absolute, heq, ← (hnormal q hq).absolute]
    refine ⟨fun h => ?_, fun h => ?_⟩
    · have hlt := length_lt_of_ancestor (hnormal q hq) (hnormal p hp)
        ⟨(hhides q p hq hp).mp h, hdiffer.symm⟩
      omega
    · obtain ⟨rest, -, hrest⟩ := exists_of_ancestor (hnormal p hp) (hnormal q hq)
        ⟨(hhides p q hp hq).mp h, hdiffer⟩
      rw [← String.length_toList, ← String.length_toList,
        mounted_toList (hnormal p hp) (hend p hp), mounted_toList (hnormal q hq) (hend q hq), hrest,
        ← List.append_assoc]
      exact rdropWhile_length_le _ _
  refine ⟨fun p hp hempty => hroot ?_, ?_⟩
  · have hpath : (mounted mount_point p.1).toList.length = 0 := by rw [hempty]; rfl
    rw [mounted_toList (hnormal p hp) (hend p hp)] at hpath
    have hle := rdropWhile_length_le (mount_point.toList.dropWhile Lines.isspace) p.1.toList
    rw [hpath, Nat.le_zero, List.length_eq_zero_iff] at hle
    have hslashes := List.rdropWhile_eq_nil_iff.mp hle
    have hkept : Lines.strip mount_point.toList = mount_point.toList.dropWhile Lines.isspace := by
      rw [Lines.strip, Lines.rstrip, List.rdropWhile_eq_self_iff]
      intro hne
      rw [of_decide_eq_true (hslashes _ (List.getLast_mem hne)), isspace_slash]
      exact Bool.false_ne_true
    rw [stripped, hkept, hle]
  · rw [List.Nodup, List.pairwise_map] at hdistinct
    refine hdistinct.imp_of_mem fun {p q} hp hq hne => ?_
    split
    · rename_i hle
      exact hleads hp hq hne hle
    · rename_i hlt
      exact hleads hq hp (Ne.symm hne) (not_le.mp hlt).le

/-- A file system at `/` and one whose mount point ends in spaces. -/
def spaced : List Entry :=
  ["/", "/a      ", "/a/b"].map fun point =>
    { type := "ext4", block_device := "/dev/sda1", mount_point := some (some point),
      mount_options := some 0 }

theorem spaced_optioned : ∀ fs ∈ spaced, Optioned [["noatime"]] fs := by
  intro fs hfs point _
  obtain ⟨point, -, rfl⟩ := List.mem_map.mp hfs
  exact ⟨_, rfl⟩

end Filesystem
