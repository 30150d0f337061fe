import Disks.Enclosure.Proof.Walk

/-!
# The walk in its buffers

* `foldlM_putValue`: the values that are put in a control page, or an access outside of it.
* `enclosure_pages_in_bounds_iff`: **when the enclosure pages are walked through and made within
  the buffers**.
* `text_past_buffer`: a configuration page that leads out of its buffer.
-/

namespace Enclosure

open Bytes Drive

/-! ## The control page -/

/-- A value is put in the page. -/
def ValueFits (d : DescriptorElement) : Prop := d.value_offset.toNat + 4 ≤ MAX_DIAG_PAGE_SIZE

instance (d : DescriptorElement) : Decidable (ValueFits d) := inferInstanceAs (Decidable (_ ≤ _))

/-- Where a value is put, and what is put there. -/
def stored (d : DescriptorElement) : Nat × List Byte :=
  (d.value_offset.toNat, strncpyBytes d.value 4)

/-- The first bytes of a control page, and what stands behind them at first. -/
def controlHeader (d : Descriptors) : List Byte :=
  poke (poke (List.replicate MAX_DIAG_PAGE_SIZE 0) 0 [0x02]) 2
    (beBytes 2 d.page_size ++ beBytes 4 d.generation)

theorem foldlM_putValue (ds : List DescriptorElement) (diag_buff : List Byte) :
    ds.foldlM putValue diag_buff =
      if ∀ d ∈ ds, ValueFits d then some (pokes diag_buff (ds.map stored)) else none := by
  induction ds generalizing diag_buff with
  | nil => rfl
  | cons d ds ih =>
    rw [List.foldlM_cons, putValue]
    simp only [List.forall_mem_cons]
    by_cases hd : ValueFits d
    · have hput : d.value_offset.toNat + 4 ≤ MAX_DIAG_PAGE_SIZE := hd
      rw [if_pos hput]
      simp only [hd, true_and]
      exact ih _
    · have hput : ¬ d.value_offset.toNat + 4 ≤ MAX_DIAG_PAGE_SIZE := hd
      rw [if_neg hput, if_neg fun h => hd h.1]
      rfl

theorem controlPage_eq (d : Descriptors) :
    controlPage d =
      if ∀ e ∈ d.descriptors, ValueFits e then
        some (pokes (controlHeader d) (d.descriptors.map stored))
      else none := foldlM_putValue _ _

/-- When the writes, and the read of the bytes that are sent, stay in the page. -/
theorem setSubencDescriptors_isSome_iff (d : Descriptors) :
    Option.isSome (setSubencDescriptors d) ↔
      d.descriptors = [] ∨ (∀ e ∈ d.descriptors, ValueFits e) ∧
        (d.page_size + 4).toNat ≤ MAX_DIAG_PAGE_SIZE := by
  rw [setSubencDescriptors, controlPage_eq]
  by_cases hempty : d.descriptors = []
  · rw [if_pos hempty]
    exact iff_of_true rfl (Or.inl hempty)
  rw [if_neg hempty]
  by_cases hfits : ∀ e ∈ d.descriptors, ValueFits e
  swap
  · rw [if_neg hfits]
    exact iff_of_false (by simp) fun h => h.elim hempty fun h => hfits h.1
  rw [if_pos hfits, Option.bind_eq_bind, Option.bind_some]
  by_cases hsize : (d.page_size + 4).toNat ≤ MAX_DIAG_PAGE_SIZE
  · rw [if_pos hsize]
    exact iff_of_true rfl (Or.inr ⟨hfits, hsize⟩)
  · rw [if_neg hsize]
    exact iff_of_false (by simp) fun h => h.elim hempty fun h => hsize h.2

/-! ## Both directions -/

/-- **When no access is outside the buffers**, the counts and the table: every page that the
enclosure answers with fits the walk, up to the descriptor that is refused, and every value that is
set is in the page. The loops end on every page. -/
theorem enclosure_pages_in_bounds_iff (config status : Option Buffer) (d : Descriptors) :
    (Option.isSome (getSubencDescriptors config status) ↔
      ∀ desc_buff diag_buff, config = some desc_buff → status = some diag_buff →
        Accepted desc_buff diag_buff → WalkFits desc_buff diag_buff) ∧
    (Option.isSome (setSubencDescriptors d) ↔
      d.descriptors = [] ∨ (∀ e ∈ d.descriptors, ValueFits e) ∧
        (d.page_size + 4).toNat ≤ MAX_DIAG_PAGE_SIZE) := by
  refine ⟨?_, setSubencDescriptors_isSome_iff d⟩
  cases config with
  | none => exact iff_of_true rfl fun _ _ h => by cases h
  | some desc_buff =>
    cases status with
    | none => exact iff_of_true rfl fun _ _ _ h => by cases h
    | some diag_buff =>
      rw [getSubencDescriptors_isSome_iff]
      refine ⟨fun h desc diag hdesc hdiag => ?_, fun h => h desc_buff diag_buff rfl rfl⟩
      cases hdesc
      cases hdiag
      exact h

/-- An empty status page. -/
theorem pageSize_empty : pageSize (bufferOf []) = 0 := by
  simp only [pageSize]
  rw [getD_bufferOf _ (by decide), getD_bufferOf _ (by decide)]
  rfl

/-- A page with 255 version descriptors leads to the byte 4590. -/
theorem text_past_buffer :
    ¬ ((∀ config status : Option Buffer, Option.isSome (getSubencDescriptors config status)) ∧
      ∀ d : Descriptors, Option.isSome (setSubencDescriptors d)) := by
  rintro ⟨hget, -⟩
  have hsome := hget (some (bufferOf (List.replicate 71 0 ++ [255]))) (some (bufferOf []))
  rw [getSubencDescriptors_isSome_iff] at hsome
  have hcount : subCount (bufferOf (List.replicate 71 0 ++ [255])) = 1 := by
    rw [subCount, getD_bufferOf _ (by decide)]
    decide
  have haccepted : Accepted (bufferOf (List.replicate 71 0 ++ [255])) (bufferOf []) := by
    refine ⟨?_, by rw [hcount]; decide⟩
    rw [pageSize_empty]
    decide
  have hfits := (hsome haccepted).subs 0 (by rw [hcount]; decide)
  have hbuffers := hfits.buffers
  rw [subPos, buffersAt, num_bufferOf _ (by decide)] at hbuffers
  exact absurd hbuffers (by decide)

end Enclosure
