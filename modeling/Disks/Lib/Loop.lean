import Mathlib.Data.Option.Basic

/-!
# Loops with an exit

`run body fuel s` takes at most `fuel` turns of `body` from `s`. A turn goes on from a new state
(`next`), leaves the loop with a result (`stop`), or has no result (`none`: an inner loop ran out
of fuel, or the body is undefined there). The rules a proof about a loop uses:

* `run_inv`: an invariant kept by every `next` gives a postcondition of every `stop`.
* `run_total`: with a variant that every `next` decreases, the loop is left, within the variant's
  number of turns. `Ends` says it of a function of the fuel.
* `run_spins`: an invariant under which every turn is a `next`: the loop is never left.
* `run_mono`: more fuel gives the same result. `Steps`, `Steps.head`: the turns taken so far.
* `steps_ranked`: their number, with a rank of the states that every `next` decreases; `steps_exact`
  with one that it decreases by one, `steps_total` with a variant.
-/

namespace Loop

variable {σ ρ : Type}

/-- One turn of a loop. -/
inductive Turn (σ ρ : Type)
  | next (s : σ)
  | stop (r : ρ)

/-- At most `fuel` turns from `s`; `none` when the loop has not been left by then. -/
def run (body : σ → Option (Turn σ ρ)) : Nat → σ → Option ρ
  | 0, _ => none
  | n + 1, s =>
    match body s with
    | none => none
    | some (.stop r) => some r
    | some (.next s') => run body n s'

variable {body : σ → Option (Turn σ ρ)}

theorem run_next {n : Nat} {s s' : σ} (h : body s = some (.next s')) :
    run body (n + 1) s = run body n s' := by
  simp [run, h]

theorem run_stop {n : Nat} {s : σ} {r : ρ} (h : body s = some (.stop r)) :
    run body (n + 1) s = some r := by
  simp [run, h]

/-- What a run that has come back did first. -/
theorem run_succ_cases {n : Nat} {s : σ} {r : ρ} (h : run body (n + 1) s = some r) :
    body s = some (.stop r) ∨ ∃ s', body s = some (.next s') ∧ run body n s' = some r := by
  unfold run at h
  split at h
  · cases h
  · rename_i hb
    cases h
    exact .inl hb
  · rename_i s' hb
    exact .inr ⟨s', hb, h⟩

theorem run_mono {n m : Nat} {s : σ} {r : ρ} (h : run body n s = some r) (hnm : n ≤ m) :
    run body m s = some r := by
  induction n generalizing m s with
  | zero => cases h
  | succ n ih =>
    obtain ⟨m, rfl⟩ : ∃ k, m = k + 1 := ⟨m - 1, by omega⟩
    rcases run_succ_cases h with hb | ⟨s', hb, hr⟩
    · exact run_stop hb
    · rw [run_next hb]
      exact ih hr (by omega)

/-- **The invariant rule.** -/
theorem run_inv {I : σ → Prop} {Q : ρ → Prop}
    (step : ∀ s s', I s → body s = some (.next s') → I s')
    (exit : ∀ s r, I s → body s = some (.stop r) → Q r)
    {n : Nat} {s : σ} {r : ρ} (hs : I s) (h : run body n s = some r) : Q r := by
  induction n generalizing s with
  | zero => cases h
  | succ n ih =>
    rcases run_succ_cases h with hb | ⟨s', hb, hr⟩
    · exact exit s r hs hb
    · exact ih (step s s' hs hb) hr

/-- **The total rule**: under the invariant every turn either leaves with the postcondition or
goes on and decreases the variant `m`. -/
theorem run_total {I : σ → Prop} {Q : ρ → Prop} (m : σ → Nat)
    (turn : ∀ s, I s → (∃ r, body s = some (.stop r) ∧ Q r) ∨
      ∃ s', body s = some (.next s') ∧ I s' ∧ m s' < m s)
    {n : Nat} {s : σ} (hs : I s) (hn : m s < n) : ∃ r, run body n s = some r ∧ Q r := by
  induction n generalizing s with
  | zero => omega
  | succ n ih =>
    rcases turn s hs with ⟨r, hb, hq⟩ | ⟨s', hb, hs', hm⟩
    · exact ⟨r, run_stop hb, hq⟩
    · rw [run_next hb]
      exact ih hs' (by omega)

/-- Under the invariant every turn goes on: the loop is never left. -/
theorem run_spins {I : σ → Prop} (turn : ∀ s, I s → ∃ s', body s = some (.next s') ∧ I s')
    {s : σ} (hs : I s) (n : Nat) : run body n s = none := by
  induction n generalizing s with
  | zero => rfl
  | succ n ih =>
    obtain ⟨s', hb, hs'⟩ := turn s hs
    rw [run_next hb]
    exact ih hs'

/-- With enough fuel `f` has a result, and it satisfies `Q`. -/
def Ends {α : Type} (f : Nat → Option α) (Q : α → Prop) : Prop :=
  ∃ n, ∀ m, n ≤ m → ∃ r, f m = some r ∧ Q r

theorem Ends.mono {α : Type} {f : Nat → Option α} {P Q : α → Prop} (h : Ends f P)
    (hpq : ∀ r, P r → Q r) : Ends f Q := by
  obtain ⟨n, hn⟩ := h
  refine ⟨n, fun m hm => ?_⟩
  obtain ⟨r, hr, hp⟩ := hn m hm
  exact ⟨r, hr, hpq r hp⟩

/-! ## The turns taken so far -/

/-- `n` turns lead from the first state to the second. -/
inductive Steps (body : σ → Option (Turn σ ρ)) : Nat → σ → σ → Prop
  | refl (s : σ) : Steps body 0 s s
  | tail {n : Nat} {s s' s'' : σ} : Steps body n s s' → body s' = some (.next s'') →
      Steps body (n + 1) s s''

/-- A turn, and then others. -/
theorem Steps.head {n : Nat} {s s' s'' : σ} (h : body s = some (.next s'))
    (hs : Steps body n s' s'') : Steps body (n + 1) s s'' := by
  induction hs with
  | refl => exact .tail (.refl s) h
  | tail _ hb ih => exact .tail (ih h) hb

/-- **The turns of a loop with a rank**: every turn from a state with a rank leaves with the
postcondition, or goes on to a state with a smaller one. -/
theorem steps_ranked {R : Nat → σ → Prop} {Q : σ → ρ → Prop}
    (turn : ∀ k s, R k s → (∃ r, body s = some (.stop r) ∧ Q s r) ∨
      ∃ k' s', body s = some (.next s') ∧ R k' s' ∧ k' < k) {k : Nat} {s : σ} (hs : R k s) :
    ∃ n k' last r, Steps body n s last ∧ body last = some (.stop r) ∧ R k' last ∧ Q last r ∧
      n + k' ≤ k := by
  induction k using Nat.strongRecOn generalizing s with
  | ind k ih =>
    rcases turn k s hs with ⟨r, hb, hq⟩ | ⟨k', s', hb, hs', hless⟩
    · exact ⟨0, k, s, r, .refl s, hb, hs, hq, by omega⟩
    · obtain ⟨n, k'', last, r, hsteps, hstop, hlast, hq, hle⟩ := ih k' hless hs'
      exact ⟨n + 1, k'', last, r, hsteps.head hb, hstop, hlast, hq, by omega⟩

/-- A loop is left after as many turns as the rank says that each turn decreases by one. -/
theorem steps_exact {R : Nat → σ → Prop} {Q : σ → ρ → Prop}
    (stop : ∀ s, R 0 s → ∃ r, body s = some (.stop r) ∧ Q s r)
    (next : ∀ k s, R (k + 1) s → ∃ s', body s = some (.next s') ∧ R k s') {k : Nat} {s : σ}
    (hs : R k s) : ∃ last r, Steps body k s last ∧ body last = some (.stop r) ∧ Q last r := by
  induction k generalizing s with
  | zero =>
    obtain ⟨r, hb, hq⟩ := stop s hs
    exact ⟨s, r, .refl s, hb, hq⟩
  | succ k ih =>
    obtain ⟨s', hb, hs'⟩ := next k s hs
    obtain ⟨last, r, hsteps, hstop, hq⟩ := ih hs'
    exact ⟨last, r, hsteps.head hb, hstop, hq⟩

/-- **The turns of a loop with a variant**: under the invariant every turn leaves with the
postcondition or goes on and decreases the variant, which bounds the turns. -/
theorem steps_total {I : σ → Prop} {Q : σ → ρ → Prop} (m : σ → Nat)
    (turn : ∀ s, I s → (∃ r, body s = some (.stop r) ∧ Q s r) ∨
      ∃ s', body s = some (.next s') ∧ I s' ∧ m s' < m s) {s : σ} (hs : I s) :
    ∃ n last r, Steps body n s last ∧ body last = some (.stop r) ∧ Q last r ∧ n + m last ≤ m s := by
  obtain ⟨n, k, last, r, hsteps, hstop, ⟨-, rfl⟩, hq, hle⟩ :=
    steps_ranked (R := fun k s => I s ∧ m s = k) (Q := Q) (fun k s h => by
      obtain ⟨hs, rfl⟩ := h
      refine (turn s hs).imp_right ?_
      rintro ⟨s', hb, hs', hless⟩
      exact ⟨m s', s', hb, ⟨hs', rfl⟩, hless⟩) ⟨hs, rfl⟩
  exact ⟨n, last, r, hsteps, hstop, hq, hle⟩

end Loop
