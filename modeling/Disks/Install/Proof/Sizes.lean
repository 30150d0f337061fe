import Disks.Install.Proof.BootDrives
import Mathlib.Data.Rat.Floor
import Mathlib.Tactic.Positivity

/-!
# The sizes of the partitions

What the items with `ref_size` make of the sizes, and what size each item with `target` asks for. A
percentage is taken of `drive_map[ target_drive ].drive.capacity`, but `drive_map` has drives, and a
drive has no `drive`.

* `refSizes_inForce`: the loop over the items with `ref_size` gives the sizes in force.
* `percentSize_eq`: a percentage raises; `int_capacity`: what it would have come to.
* `targetSize_documented_iff`: when the size of an item is the documented one.
* `partition_sizes_iff`: **when all the sizes of a recipe are.**
* `percentage_raises`: a recipe that gives half of a drive to `/`.
-/

namespace Filesystem

open Fold

/-! ## The sizes in force -/

/-- What an item with `ref_size` makes of the sizes; without a `lambda` there is nothing to take. -/
def applied (sizes : Sizes) (item : Item) : Option Sizes :=
  if item.ref_size = some "boot" then item.lambda.map fun f => { sizes with boot := f sizes }
  else if item.ref_size = some "swap" then item.lambda.map fun f => { sizes with swap := f sizes }
  else some sizes

/-- **The sizes in force**, all items with `ref_size` applied in order. -/
def inForce (c : Settings) : Option Sizes :=
  (c.recipe.filter (·.ref_size.isSome)).foldlM applied ⟨c.swap_size, c.boot_size, c.boot_rsvd_size⟩

/-- An item with `ref_size` has a number to give. -/
def Computed (item : Item) : Prop :=
  item.ref_size = some "boot" ∨ item.ref_size = some "swap" → item.lambda.isSome

theorem applied_isSome_iff (sizes : Sizes) (item : Item) :
    Option.isSome (applied sizes item) ↔ Computed item := by
  unfold applied Computed
  by_cases hboot : item.ref_size = some "boot"
  · simp [hboot]
  by_cases hswap : item.ref_size = some "swap"
  · simp [hswap]
  · simp [hboot, hswap]

/-- A turn of the loop over the items with `ref_size`. -/
theorem refSize_applied {c : Settings} {sizes sizes' : Sizes} {item : Item}
    (hrsvd : sizes.boot_rsvd = c.boot_rsvd_size) (h : applied sizes item = some sizes')
    (tmp : Option Rat) :
    sizes'.boot_rsvd = c.boot_rsvd_size ∧
      ∃ tmp', refSize c ⟨sizes.boot, sizes.swap, tmp⟩ item =
        .ok ⟨sizes'.boot, sizes'.swap, tmp'⟩ := by
  have hsizes : (⟨sizes.swap, sizes.boot, c.boot_rsvd_size⟩ : Sizes) = sizes := by rw [← hrsvd]
  unfold applied at h
  unfold refSize
  simp only [hsizes]
  by_cases hboot : item.ref_size = some "boot"
  · rw [if_pos hboot, Option.map_eq_some_iff] at h
    obtain ⟨f, hf, rfl⟩ := h
    simp only [hf, hboot, if_true]
    exact ⟨hrsvd, _, rfl⟩
  rw [if_neg hboot] at h
  by_cases hswap : item.ref_size = some "swap"
  · rw [if_pos hswap, Option.map_eq_some_iff] at h
    obtain ⟨f, hf, rfl⟩ := h
    rw [if_neg hboot, if_pos hswap, hf]
    exact ⟨hrsvd, _, rfl⟩
  · rw [if_neg hswap, Option.some.injEq] at h
    subst h
    rw [if_neg hboot, if_neg hswap]
    cases item.lambda with
    | none => exact ⟨hrsvd, _, rfl⟩
    | some f => exact ⟨hrsvd, _, rfl⟩

/-- **The loop gives the sizes in force.** -/
theorem refSizes_inForce {c : Settings} {sizes : Sizes} (h : inForce c = some sizes) :
    ∃ tmp, refSizes c = .ok ⟨sizes.boot, sizes.swap, tmp⟩ := by
  have hloop (items : List Item) (s : Sizes) (tmp : Option Rat)
      (hrsvd : s.boot_rsvd = c.boot_rsvd_size) (h : items.foldlM applied s = some sizes) :
      ∃ tmp', items.foldlM (refSize c) ⟨s.boot, s.swap, tmp⟩ =
        .ok ⟨sizes.boot, sizes.swap, tmp'⟩ := by
    induction items generalizing s tmp with
    | nil =>
      cases h
      exact ⟨tmp, rfl⟩
    | cons item items ih =>
      rw [List.foldlM_cons, Option.bind_eq_bind, Option.bind_eq_some_iff] at h
      obtain ⟨s', hitem, hrest⟩ := h
      obtain ⟨hrsvd', tmp', hturn⟩ := refSize_applied hrsvd hitem tmp
      rw [foldlM_cons, hturn]
      exact ih s' tmp' hrsvd' hrest
  exact hloop _ ⟨c.swap_size, c.boot_size, c.boot_rsvd_size⟩ none rfl h

theorem inForce_isSome_iff (c : Settings) :
    Option.isSome (inForce c) ↔ ∀ item ∈ c.recipe, Computed item := by
  have hloop (items : List Item) (s : Sizes) :
      Option.isSome (items.foldlM applied s) ↔ ∀ item ∈ items, Computed item := by
    induction items generalizing s with
    | nil => exact iff_of_true rfl (List.forall_mem_nil _)
    | cons item items ih =>
      rw [List.foldlM_cons, List.forall_mem_cons, ← applied_isSome_iff s]
      cases applied s item with
      | none => exact iff_of_false (by simp) fun h => by cases h.1
      | some s' => exact (ih s').trans (by simp)
  refine (hloop _ _).trans ⟨fun h item hitem => ?_, fun h item hitem => ?_⟩
  · by_cases href : item.ref_size.isSome
    · exact h item (List.mem_filter.mpr ⟨hitem, href⟩)
    · rintro (hboot | hswap)
      · rw [hboot] at href
        exact absurd rfl href
      · rw [hswap] at href
        exact absurd rfl href
  · exact h item (List.mem_filter.mp hitem).1

/-! ## Percentages -/

/-- A drive, as far as it has a capacity. -/
structure DriveSize where
  LogicalSectorSize : Nat
  LBACount : Nat

/-- `_info['capacity']`, in GiB. -/
def DriveSize.capacity (d : DriveSize) : Rat :=
  d.LogicalSectorSize * d.LBACount / (1024 * 1024 * 1024)

/-- The attributes of a `Drive`: those it is made with, its properties, and the names that
`__getattr__` looks up. -/
def driveAttributes : List String :=
  ["_info", "port", "name", "block_name", "libdrive_name", "devpath", "pcipath", "scsi_generic",
    "block_path", "reporting_info", "protocol", "serial", "model", "firmware", "vendor", "version",
    "location", "isVirtualDisk", "capacity",
    "SMARTSupport", "SMARTEnabled", "supportsSelfTest", "supportsLBA", "supportsWriteSame",
    "supportsTrim", "isSSD", "RPM", "LogicalSectorSize", "PhysicalSectorSize", "LBACount", "WWN",
    "GUID"]

/-- An attribute of a `Drive` that is asked for. -/
def driveAttribute (name : String) : Run Unit :=
  if name ∈ driveAttributes then pure () else .error (.attributeError name)

/-- `int( ( drive_map[ target_drive ].drive.capacity * 1024 ) * size )`. -/
def percentSize (d : DriveSize) (n : Rat) : Run Rat := do
  driveAttribute "drive"
  driveAttribute "capacity"
  pure (int (d.capacity * 1024 * (n / 100)))

/-- The branch of a percentage, whatever the drive. -/
theorem percentSize_eq (r : RefSizes) (text : String) {n : Rat} (hpos : 0 < n) (hlt : n < 100)
    (d : DriveSize) : targetSize r (.percent text n) = percentSize d n := by
  have hone : n / 100 ≠ 1 := by
    intro h
    rw [div_eq_one_iff_eq (by decide)] at h
    exact hlt.ne h
  have hrange : ¬ (n / 100 ≤ 0 ∨ n / 100 ≥ 1) := by
    rintro (hle | hge)
    · exact absurd (div_pos hpos (by decide)) hle.not_gt
    · exact absurd ((div_lt_one (by decide)).mpr hlt) hge.not_gt
  rw [targetSize, if_neg hone, if_neg hrange]
  rfl

/-- The capacity in megabytes. -/
def DriveSize.megabytes (d : DriveSize) : Rat := d.LogicalSectorSize * d.LBACount / (1024 * 1024)

/-- What comes behind the attribute that a drive has not is the documented size. -/
theorem int_capacity (d : DriveSize) {n : Rat} (hpos : 0 < n) :
    int (d.capacity * 1024 * (n / 100)) = ⌊n / 100 * d.megabytes⌋ := by
  have heq : d.capacity * 1024 * (n / 100) = n / 100 * d.megabytes := by
    unfold DriveSize.capacity DriveSize.megabytes
    ring
  have hnonneg : 0 ≤ n / 100 * d.megabytes := by
    unfold DriveSize.megabytes
    positivity
  rw [heq, int, Int.tdiv_eq_ediv_of_nonneg (Rat.num_nonneg.mpr hnonneg), Rat.floor_def']

/-! ## The sizes of the items -/

/-- **The documented size** of an item, for the sizes in force and the drive of its target; `none`
for what is none of the forms. -/
def documentedSize (sizes : Sizes) (d : DriveSize) : Size → Option Rat
  | .rest => some 0
  | .boot => some sizes.boot
  | .minusBoot => some (-sizes.boot)
  | .swap => some sizes.swap
  | .minusSwap => some (-sizes.swap)
  | .percent _ n =>
    if n = 100 then some 0
    else if 0 < n ∧ n < 100 then some ⌊n / 100 * d.megabytes⌋
    else none
  | .megabytes n => some (int n)
  | .other _ => none

/-- A part of a drive. -/
def Size.IsPart (size : Size) : Prop := ∃ text n, size = .percent text n ∧ 0 < n ∧ n < 100

theorem percent_raises (r : RefSizes) (text : String) {n : Rat} (hpos : 0 < n) (hlt : n < 100) :
    targetSize r (.percent text n) = .error (.attributeError "drive") :=
  percentSize_eq r text hpos hlt ⟨0, 0⟩

/-- What a form that is no percentage is asked to be, is what it gets. -/
theorem documented_of_eq {sizes : Sizes} {tmp : Option Rat} {d : DriveSize} {size : Size} {y : Rat}
    (hpart : ∀ text n, size ≠ .percent text n) (hdoc : documentedSize sizes d size = some y)
    (hsize : targetSize ⟨sizes.boot, sizes.swap, tmp⟩ size = .ok y) :
    (∀ x, documentedSize sizes d size = some x →
        targetSize ⟨sizes.boot, sizes.swap, tmp⟩ size = .ok x) ↔ ¬ size.IsPart := by
  refine iff_of_true (fun x hx => ?_) fun h => ?_
  · rw [hdoc, Option.some.injEq] at hx
    rw [← hx, hsize]
  · obtain ⟨text, n, hn, -⟩ := h
    exact hpart text n hn

/-- When the size of an item is the documented one. -/
theorem targetSize_documented_iff (sizes : Sizes) (tmp : Option Rat) (d : DriveSize) (size : Size) :
    (∀ x, documentedSize sizes d size = some x →
        targetSize ⟨sizes.boot, sizes.swap, tmp⟩ size = .ok x) ↔ ¬ size.IsPart := by
  cases size with
  | percent text n =>
    by_cases hpart : 0 < n ∧ n < 100
    · refine iff_of_false (fun h => ?_) fun h => h ⟨text, n, rfl, hpart⟩
      have hsize := h ⌊n / 100 * d.megabytes⌋ (by
        rw [documentedSize, if_neg hpart.2.ne, if_pos hpart])
      rw [percent_raises _ _ hpart.1 hpart.2] at hsize
      cases hsize
    · refine iff_of_true (fun x hx => ?_) fun h => ?_
      · rw [documentedSize] at hx
        by_cases hall : n = 100
        · rw [if_pos hall] at hx
          cases hx
          rw [hall, targetSize, if_pos (div_self (by decide))]
          rfl
        · rw [if_neg hall, if_neg hpart] at hx
          cases hx
      · obtain ⟨_, _, hn, hpart'⟩ := h
        cases hn
        exact hpart hpart'
  | other text =>
    refine iff_of_true (fun x hx => ?_) fun h => ?_
    · cases hx
    · obtain ⟨_, _, hn, -⟩ := h
      cases hn
  | minusBoot =>
    refine documented_of_eq (fun _ _ hn => ?_) rfl (by rw [targetSize, neg_one_mul]; rfl)
    cases hn
  | minusSwap =>
    refine documented_of_eq (fun _ _ hn => ?_) rfl (by rw [targetSize, neg_one_mul]; rfl)
    cases hn
  | rest =>
    refine documented_of_eq (fun _ _ hn => ?_) rfl rfl
    cases hn
  | boot =>
    refine documented_of_eq (fun _ _ hn => ?_) rfl rfl
    cases hn
  | swap =>
    refine documented_of_eq (fun _ _ hn => ?_) rfl rfl
    cases hn
  | megabytes n =>
    refine documented_of_eq (fun _ _ hn => ?_) rfl rfl
    cases hn

/-! ## A recipe -/

/-- A call for an item with `target` has the documented size. -/
def Passed (m : Machine) (sizes : Sizes) (drive : Int → DriveSize) (item : Item) (call : Call) :
    Prop :=
  ∃ target size, item.target = some target ∧ index m.target_drives target = .ok call.block_device ∧
    item.size = some size ∧
    ∀ x, documentedSize sizes (drive target) size = some x → call.size = x

/-- **When all the sizes of a recipe are the documented ones**: its items with `ref_size` have a
number to give, and none of its items with `target` asks for a part of a drive. A run that comes
back has passed them on. -/
theorem partition_sizes_iff (c : Settings) (drive : Int → DriveSize) :
    ((∃ sizes r, inForce c = some sizes ∧ refSizes c = .ok r ∧
        ∀ item ∈ c.recipe, ∀ target size x, item.target = some target → item.size = some size →
          documentedSize sizes (drive target) size = some x → targetSize r size = .ok x) ↔
      (∀ item ∈ c.recipe, Computed item) ∧
        ∀ item ∈ c.recipe, item.target.isSome → ∀ size, item.size = some size → ¬ size.IsPart) ∧
    ∀ p v m s boot_drives sizes, settings p v = .ok c → partition p v m = .ok (s, boot_drives) →
      inForce c = some sizes →
      ∃ items, s.calls = boot_drives.map (reservation c) ++ items ∧
        List.Forall₂ (Passed m sizes drive) (c.recipe.filter (·.target.isSome)) items := by
  refine ⟨⟨?_, ?_⟩, fun p v m s boot_drives sizes hc hrun hsizes => ?_⟩
  · rintro ⟨sizes, r, hsizes, hr, hall⟩
    obtain ⟨tmp, hloop⟩ := refSizes_inForce hsizes
    cases hr.symm.trans hloop
    refine ⟨(inForce_isSome_iff c).mp (by rw [hsizes]; rfl),
      fun item hitem htarget size hsize => ?_⟩
    obtain ⟨target, htarget⟩ := Option.isSome_iff_exists.mp htarget
    apply (targetSize_documented_iff sizes tmp (drive target) size).mp
    exact fun x hx => hall item hitem target size x htarget hsize hx
  · rintro ⟨hcomputed, hparts⟩
    obtain ⟨sizes, hsizes⟩ := Option.isSome_iff_exists.mp ((inForce_isSome_iff c).mpr hcomputed)
    obtain ⟨tmp, hloop⟩ := refSizes_inForce hsizes
    refine ⟨sizes, _, hsizes, hloop, fun item hitem target size x htarget hsize hx => ?_⟩
    have hpart := hparts item hitem (by rw [htarget]; rfl) size hsize
    exact (targetSize_documented_iff sizes tmp (drive target) size).mpr hpart x hx
  · obtain ⟨tmp, hloop⟩ := refSizes_inForce hsizes
    obtain ⟨r, items, hr, hcalls, heach⟩ := partition_sized_calls hc hrun
    cases hr.symm.trans hloop
    refine ⟨items, hcalls, heach.imp fun item call hcall => ?_⟩
    obtain ⟨⟨target, htarget, hdrive⟩, size, hsize, hpassed⟩ := hcall
    refine ⟨target, size, htarget, hdrive, hsize, fun x hx => ?_⟩
    -- an item that asks for a part of a drive would have raised
    have hpart : ¬ size.IsPart := by
      rintro ⟨text, n, rfl, hpos, hlt⟩
      rw [percent_raises _ _ hpos hlt] at hpassed
      cases hpassed
    have hdocumented := (targetSize_documented_iff sizes tmp (drive target) size).mpr hpart x hx
    exact Except.ok.inj (hpassed.symm.trans hdocumented)

/-- Half of a drive for `/`: no run comes back, where the size would be 1024. -/
theorem percentage_raises :
    (∀ result, partition plainProfile
        { partition_scheme := some "custom",
          partition_recipe := some
            [{ target := some 0, mount_point := some (some "/")
               size := some (.percent "50%" 50) }] }
        (plainMachine ["/dev/sda"]) ≠ .ok result) ∧
      targetSize ⟨512, 0, none⟩ (.percent "50%" 50) = .error (.attributeError "drive") ∧
      documentedSize ⟨0, 512, 100⟩ ⟨512, 4194304⟩ (.percent "50%" 50) = some 1024 := by
  have hnone : (partition plainProfile
      { partition_scheme := some "custom",
        partition_recipe := some
          [{ target := some 0, mount_point := some (some "/")
             size := some (.percent "50%" 50) }] }
      (plainMachine ["/dev/sda"])).toOption.isNone := by
    decide +kernel
  refine ⟨fun result hresult => ?_, percent_raises _ _ (by decide) (by decide), by decide +kernel⟩
  rw [hresult] at hnone
  cases hnone

end Filesystem
