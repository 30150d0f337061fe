import Mathlib.Data.List.Basic

/-!
# Loops over a range that may fail

A loop `for( k = 0; k < m; k++ )` whose turn may have no result (`none`: an access outside of
memory), may be left with an error, or goes on. `Staged` says what each turn does from the state
that the turns before it lead to; from that follows what the loop does.

* `Staged.isSome_iff`: the loop has a result when each turn that is reached has one.
* `Staged.ok_iff`: it comes back, in the last state, when every turn goes on.
-/

namespace Stages

variable {ε σ α : Type}

theorem foldlM_range_succ (f : σ → Nat → ExceptT ε Option σ) (s : σ) (k : Nat) :
    (List.range (k + 1)).foldlM f s = (List.range k).foldlM f s >>= fun s => f s k := by
  rw [List.range_succ, List.foldlM_append]
  simp only [List.foldlM_cons, List.foldlM_nil, bind_pure]

/-- A loop over a list is one over its indexes. -/
theorem foldlM_eq_range (f : σ → α → ExceptT ε Option σ) (s : σ) (xs : List α) (d : α) :
    xs.foldlM f s = (List.range xs.length).foldlM (fun s k => f s (xs.getD k d)) s := by
  have hxs : xs = (List.range xs.length).map fun k => xs.getD k d := by
    apply List.ext_getElem
    · rw [List.length_map, List.length_range]
    · intro k hk _
      rw [List.getElem_map, List.getElem_range, List.getD_eq_getElem?_getD,
        List.getElem?_eq_getElem hk]
      rfl
  conv_lhs => rw [hxs]
  rw [List.foldlM_map]

/-- Turn `k` from `st k`: it has a result if `fits k`, and goes on to `st (k + 1)` if `room k`. -/
structure Staged (f : σ → Nat → ExceptT ε Option σ) (st : Nat → σ) (fits room : Nat → Prop)
    (m : Nat) : Prop where
  out : ∀ k < m, (∀ i < k, room i) → ¬ fits k → f (st k) k = none
  full : ∀ k < m, (∀ i < k, room i) → fits k → ¬ room k → ∃ e, f (st k) k = some (.error e)
  next : ∀ k < m, (∀ i < k, room i) → fits k → room k → f (st k) k = some (.ok (st (k + 1)))

section staged

variable {f : σ → Nat → ExceptT ε Option σ} {st : Nat → σ} {fits room : Nat → Prop} {m : Nat}
  (h : Staged f st fits room m)

include h

theorem Staged.mono {j : Nat} (hj : j ≤ m) : Staged f st fits room j :=
  ⟨fun k hk => h.out k (by omega), fun k hk => h.full k (by omega),
    fun k hk => h.next k (by omega)⟩

/-- The turns go on. -/
theorem Staged.of_all (hall : ∀ k < m, fits k ∧ room k) :
    (List.range m).foldlM f (st 0) = some (.ok (st m)) := by
  have hreach (j : Nat) (hj : j ≤ m) : (List.range j).foldlM f (st 0) = some (.ok (st j)) := by
    induction j with
    | zero => rfl
    | succ j ih =>
      have hturn := h.next j hj (fun i hi => (hall i (by omega)).2) (hall j hj).1 (hall j hj).2
      rw [foldlM_range_succ, ih (by omega)]
      exact hturn
  exact hreach m (Nat.le_refl m)

/-- A turn leaves the loop. -/
theorem Staged.of_full (hfits : ∀ k < m, (∀ i < k, room i) → fits k) (hfull : ∃ k < m, ¬ room k) :
    ∃ e, (List.range m).foldlM f (st 0) = some (.error e) := by
  have hreach (j : Nat) (hj : j ≤ m) : (∃ k < j, ¬ room k) →
      ∃ e, (List.range j).foldlM f (st 0) = some (.error e) := by
    induction j with
    | zero =>
      rintro ⟨k, hk, -⟩
      omega
    | succ j ih =>
      rintro ⟨k, hk, hroom⟩
      rw [foldlM_range_succ]
      by_cases hbefore : ∃ i < j, ¬ room i
      · obtain ⟨e, he⟩ := ih (by omega) hbefore
        exact ⟨e, by rw [he]; rfl⟩
      · have hrooms : ∀ i < j, room i := fun i hi => by_contra fun hno => hbefore ⟨i, hi, hno⟩
        obtain rfl : k = j := by
          by_contra hne
          exact hroom (hrooms k (by omega))
        rw [(h.mono (by omega)).of_all fun i hi =>
          ⟨hfits i (by omega) fun i' hi' => hrooms i' (by omega),
          hrooms i hi⟩]
        exact h.full k hj hrooms (hfits k hj hrooms) hroom
  exact hreach m (Nat.le_refl m) hfull

/-- A turn has no result. -/
theorem Staged.of_out (hout : ∃ k < m, (∀ i < k, room i) ∧ ¬ fits k) :
    (List.range m).foldlM f (st 0) = none := by
  have hreach (j : Nat) (hj : j ≤ m) : (∃ k < j, (∀ i < k, room i) ∧ ¬ fits k) →
      (List.range j).foldlM f (st 0) = none := by
    induction j with
    | zero =>
      rintro ⟨k, hk, -⟩
      omega
    | succ j ih =>
      rintro ⟨k, hk, hrooms, hno⟩
      rw [foldlM_range_succ]
      by_cases hbefore : ∃ i < j, (∀ i' < i, room i') ∧ ¬ fits i
      · rw [ih (by omega) hbefore]
        rfl
      · have hfits : ∀ i < j, (∀ i' < i, room i') → fits i := fun i hi hrooms' =>
          by_contra fun hno' => hbefore ⟨i, hi, hrooms', hno'⟩
        obtain rfl : k = j := by
          by_contra hne
          exact hno (hfits k (by omega) hrooms)
        rw [(h.mono (by omega)).of_all fun i hi =>
          ⟨hfits i hi fun i' hi' => hrooms i' (by omega), hrooms i hi⟩]
        exact h.out k hj hrooms hno
  exact hreach m (Nat.le_refl m) hout

/-- **The loop has a result** when each turn that is reached has one. -/
theorem Staged.isSome_iff :
    Option.isSome ((List.range m).foldlM f (st 0) : ExceptT ε Option σ) ↔
      ∀ k < m, (∀ i < k, room i) → fits k := by
  refine ⟨fun hsome k hk hrooms => ?_, fun hfits => ?_⟩
  · by_contra hno
    rw [h.of_out ⟨k, hk, hrooms, hno⟩] at hsome
    cases hsome
  · by_cases hall : ∃ k < m, ¬ room k
    · obtain ⟨e, he⟩ := h.of_full hfits hall
      rw [he]
      rfl
    · have hrooms : ∀ k < m, room k := fun k hk => by_contra fun hno => hall ⟨k, hk, hno⟩
      rw [h.of_all fun k hk => ⟨hfits k hk fun i hi => hrooms i (by omega), hrooms k hk⟩]
      rfl

/-- **The loop comes back** when every turn goes on. -/
theorem Staged.ok_iff {s : σ} : (List.range m).foldlM f (st 0) = some (.ok s) ↔
    (∀ k < m, fits k ∧ room k) ∧ s = st m := by
  refine ⟨fun hok => ?_, ?_⟩
  · have hfits : ∀ k < m, (∀ i < k, room i) → fits k := by
      apply h.isSome_iff.mp
      rw [hok]
      rfl
    have hrooms : ∀ k < m, room k := fun k hk => by
      by_contra hno
      obtain ⟨e, he⟩ := h.of_full hfits ⟨k, hk, hno⟩
      rw [hok] at he
      cases he
    have hall : ∀ k < m, fits k ∧ room k := fun k hk =>
      ⟨hfits k hk fun i hi => hrooms i (by omega), hrooms k hk⟩
    rw [h.of_all hall] at hok
    cases hok
    exact ⟨hall, rfl⟩
  · rintro ⟨hall, rfl⟩
    exact h.of_all hall

end staged

end Stages
