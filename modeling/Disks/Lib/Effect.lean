import Mathlib.Logic.Function.Iterate

/-!
# Programs with a state that may raise

Loops of `EStateM`, and four things to know of a program.

* `Keeps I m Q`: an invariant of the states, kept also where `m` raises, and what `m` gives.
  `Keeps.bind`, `Keeps.forM`, `Keeps.times`, `Keeps.forLoop`: the rules.
* `Raises E m`: `m` raises only what satisfies `E`, with the rules of a loop over a list.
* `Costs size c m`: `m` comes back where a supply of `c` is left, and uses no more of it.
  `Costs.bind`, `Costs.times`, `Costs.forLoop`: the rules.
* `Leads p m`: `m` passes a point for which `p` holds, now or later. `Leads.of_ok`, `Leads.bind`.
* `within`: a program on a part of the state. `within_eq_ok`, `within_returns`, `Keeps.within`.
* `forLoop_spins`: a loop whose condition never fails does not come back.
* `forM_ok`, `forM_returns`: a loop over a list that has come back, and one that does.
-/

namespace Effect

variable {ε σ α β : Type}

/-- The state a program leaves. -/
def final : EStateM.Result ε σ α → σ
  | .ok _ s => s
  | .error _ s => s

theorem bind_ok {m : EStateM ε σ α} {f : α → EStateM ε σ β} {s s' : σ} {a : α}
    (h : m s = .ok a s') : (m >>= f) s = f a s' := by
  change EStateM.bind m f s = _
  rw [EStateM.bind, h]

theorem bind_error {m : EStateM ε σ α} {f : α → EStateM ε σ β} {s s' : σ} {e : ε}
    (h : m s = .error e s') : (m >>= f) s = .error e s' := by
  change EStateM.bind m f s = _
  rw [EStateM.bind, h]

/-- What a program that has come back did first. -/
theorem bind_eq_ok {m : EStateM ε σ α} {f : α → EStateM ε σ β} {s s' : σ} {b : β} :
    (m >>= f) s = .ok b s' ↔ ∃ a t, m s = .ok a t ∧ f a t = .ok b s' := by
  cases hm : m s with
  | error e t =>
    rw [bind_error hm]
    exact iff_of_false (fun h => by cases h) fun ⟨_, _, h, _⟩ => by cases h
  | ok a t =>
    rw [bind_ok hm]
    refine ⟨fun h => ⟨a, t, rfl, h⟩, fun ⟨_, _, h, hf⟩ => ?_⟩
    cases h
    exact hf

/-! ## Programs on a part of the state -/

section within

variable {S ε' : Type} {view : S → σ} {put : S → σ → S} {code : ε'} {m : EStateM ε σ α} {s s' : S}
  {a : α}

/-- A program on a part of the state; where it raises, `code` is raised. -/
def within (view : S → σ) (put : S → σ → S) (code : ε') (m : EStateM ε σ α) : EStateM ε' S α :=
  fun s =>
    match m (view s) with
    | .ok a t => .ok a (put s t)
    | .error _ t => .error code (put s t)

theorem within_eq_ok (h : within view put code m s = .ok a s') :
    ∃ t, m (view s) = .ok a t ∧ s' = put s t := by
  unfold within at h
  cases hm : m (view s) with
  | error e t =>
    rw [hm] at h
    cases h
  | ok b t =>
    rw [hm] at h
    cases h
    exact ⟨t, rfl, rfl⟩

theorem within_of_ok {t : σ} (h : m (view s) = .ok a t) :
    within view put code m s = .ok a (put s t) := by
  rw [within, h]

theorem within_returns (h : ∃ a t, m (view s) = .ok a t) :
    ∃ a s', within view put code m s = .ok a s' := by
  obtain ⟨a, t, hm⟩ := h
  exact ⟨a, put s t, within_of_ok hm⟩

end within

/-! ## Loops -/

/-- `for( i = 0; i < n; i++ ) m` -/
def times (m : EStateM ε σ Unit) : Nat → EStateM ε σ Unit
  | 0 => pure ()
  | n + 1 => m >>= fun _ => times m n

/-- `for( a = ..; cond( a ); a = next( a ) ) turn( a )`, with at most `fuel` turns. -/
def forLoop (cond : α → Bool) (next : α → α) (turn : α → EStateM ε σ Unit) (stuck : ε) :
    Nat → α → EStateM ε σ Unit
  | 0, _ => throw stuck
  | fuel + 1, a =>
    if cond a then turn a >>= fun _ => forLoop cond next turn stuck fuel (next a) else pure ()

/-- A loop over a list that has come back, with an invariant of how far it has come. -/
theorem forM_ok {I : List β → σ → Prop} {f : β → EStateM ε σ PUnit} {l : List β}
    (turn : ∀ front b rest, l = front ++ b :: rest → ∀ s a s', I front s → f b s = .ok a s' →
      I (front ++ [b]) s') {s s' : σ} {a : PUnit} (hs : I [] s) (hok : l.forM f s = .ok a s') :
    I l s' := by
  have hrest (rest front : List β) (hl : l = front ++ rest) (s : σ) (hs : I front s)
      (hok : rest.forM f s = .ok a s') : I l s' := by
    induction rest generalizing front s with
    | nil =>
      cases hok
      simpa [hl] using hs
    | cons b rest ih =>
      obtain ⟨_, t, hstep, hrest⟩ := bind_eq_ok.mp hok
      exact ih (front ++ [b]) (by simp [hl]) t (turn front b rest hl s _ t hs hstep) hrest
  exact hrest l [] rfl s hs hok

/-- A loop over a list whose turns come back under an invariant of how far it has come. -/
theorem forM_returns {I : List β → σ → Prop} {f : β → EStateM ε σ PUnit} {l : List β}
    (turn : ∀ front b rest, l = front ++ b :: rest → ∀ s, I front s →
      ∃ a s', f b s = .ok a s' ∧ I (front ++ [b]) s') {s : σ} (hs : I [] s) :
    ∃ a s', l.forM f s = .ok a s' ∧ I l s' := by
  have hrest (rest front : List β) (hl : l = front ++ rest) (s : σ) (hs : I front s) :
      ∃ a s', rest.forM f s = .ok a s' ∧ I l s' := by
    induction rest generalizing front s with
    | nil => exact ⟨⟨⟩, s, rfl, by simpa [hl] using hs⟩
    | cons b rest ih =>
      obtain ⟨_, t, hstep, ht⟩ := turn front b rest hl s hs
      obtain ⟨a, s', hok, hs'⟩ := ih (front ++ [b]) (by simp [hl]) t ht
      exact ⟨a, s', (bind_ok hstep).trans hok, hs'⟩
  exact hrest l [] rfl s hs

/-! ## Invariants -/

/-- `m` keeps an invariant, and gives what satisfies `Q`. -/
def Keeps (I : σ → Prop) (m : EStateM ε σ α) (Q : α → Prop) : Prop :=
  ∀ s, I s → I (final (m s)) ∧ ∀ a s', m s = .ok a s' → Q a

variable {I : σ → Prop} {m : EStateM ε σ α} {f : α → EStateM ε σ β} {P Q : α → Prop}
  {R : β → Prop} {P' : σ → Prop}

theorem Keeps.pure {a : α} (h : Q a) : Keeps I (Pure.pure a : EStateM ε σ α) Q :=
  fun s hs => ⟨hs, fun _ _ hok => by cases hok; exact h⟩

theorem Keeps.throw {e : ε} : Keeps I (MonadExcept.throw e : EStateM ε σ α) Q :=
  fun s hs => ⟨hs, fun _ _ hok => by cases hok⟩

theorem Keeps.mono (h : Keeps I m P) (hPQ : ∀ a, P a → Q a) : Keeps I m Q :=
  fun s hs => ⟨(h s hs).1, fun a s' hok => hPQ a ((h s hs).2 a s' hok)⟩

theorem Keeps.bind (hm : Keeps I m Q) (hf : ∀ a, Q a → Keeps I (f a) R) : Keeps I (m >>= f) R := by
  intro s hs
  obtain ⟨hfinal, hgives⟩ := hm s hs
  cases hok : m s with
  | error e s' =>
    rw [hok] at hfinal
    rw [bind_error hok]
    exact ⟨hfinal, fun _ _ h => by cases h⟩
  | ok a s' =>
    rw [hok] at hfinal
    rw [bind_ok hok]
    exact hf a (hgives a s' hok) s' hfinal

theorem Keeps.ite {c : Prop} [Decidable c] {m₁ m₂ : EStateM ε σ α} (h₁ : c → Keeps I m₁ Q)
    (h₂ : ¬ c → Keeps I m₂ Q) : Keeps I (if c then m₁ else m₂) Q := by
  by_cases hc : c
  · rw [if_pos hc]
    exact h₁ hc
  · rw [if_neg hc]
    exact h₂ hc

theorem Keeps.get (h : ∀ s, I s → P' s) : Keeps I (MonadState.get : EStateM ε σ σ) P' :=
  fun s hs => ⟨hs, fun _ _ hok => by cases hok; exact h s hs⟩

theorem Keeps.modify {f : σ → σ} (h : ∀ s, I s → I (f s)) :
    Keeps I (modify f : EStateM ε σ PUnit) fun _ => True :=
  fun s hs => ⟨h s hs, fun _ _ _ => trivial⟩

theorem Keeps.within {S ε' : Type} {view : S → σ} {put : S → σ → S} {code : ε'} {I : S → Prop}
    (m : EStateM ε σ α) (h : ∀ s t, I s → I (put s t)) :
    Keeps I (within view put code m) fun _ => True := by
  intro s hs
  refine ⟨?_, fun _ _ _ => trivial⟩
  unfold Effect.within
  cases m (view s) <;> exact h s _ hs

theorem Keeps.forM {f : β → EStateM ε σ PUnit} {l : List β}
    (h : ∀ b ∈ l, Keeps I (f b) fun _ => True) : Keeps I (l.forM f) fun _ => True := by
  induction l with
  | nil => exact Keeps.pure trivial
  | cons b l ih =>
    rw [List.forall_mem_cons] at h
    exact h.1.bind fun _ _ => ih h.2

theorem Keeps.times {m : EStateM ε σ Unit} {n : Nat} (h : n ≠ 0 → Keeps I m fun _ => True) :
    Keeps I (times m n) fun _ => True := by
  induction n with
  | zero => exact Keeps.pure trivial
  | succ n ih => exact (h (Nat.succ_ne_zero n)).bind fun _ _ => ih fun _ => h (Nat.succ_ne_zero n)

/-- A loop over a cursor, with an invariant of the cursor. -/
theorem Keeps.forLoop {cond : α → Bool} {next : α → α} {turn : α → EStateM ε σ Unit} {stuck : ε}
    {J : α → Prop} (hnext : ∀ a, J a → cond a → J (next a))
    (hturn : ∀ a, J a → cond a → Keeps I (turn a) fun _ => True) (fuel : Nat) {a : α} (ha : J a) :
    Keeps I (forLoop cond next turn stuck fuel a) fun _ => True := by
  induction fuel generalizing a with
  | zero => exact Keeps.throw
  | succ fuel ih =>
    exact Keeps.ite (fun hcond => (hturn a ha hcond).bind fun _ _ => ih (hnext a ha hcond))
      fun _ => Keeps.pure trivial

/-! ## What is raised -/

/-- `m` raises only what satisfies `P`. -/
def Raises (P : ε → Prop) (m : EStateM ε σ α) : Prop := ∀ s e s', m s = .error e s' → P e

section raises

variable {E : ε → Prop}

theorem Raises.pure (a : α) : Raises E (Pure.pure a : EStateM ε σ α) := fun _ _ _ h => by cases h

theorem Raises.get : Raises E (MonadState.get : EStateM ε σ σ) := fun _ _ _ h => by cases h

theorem Raises.modify (f : σ → σ) : Raises E (modify f : EStateM ε σ PUnit) :=
  fun _ _ _ h => by cases h

theorem Raises.throw {e : ε} (h : E e) : Raises E (MonadExcept.throw e : EStateM ε σ α) :=
  fun _ _ _ he => by cases he; exact h

theorem Raises.within {S ε' : Type} {view : S → σ} {put : S → σ → S} {code : ε'} {E : ε' → Prop}
    (m : EStateM ε σ α) (h : E code) : Raises E (within view put code m) := by
  intro s e s' he
  unfold Effect.within at he
  cases hm : m (view s) with
  | ok a t =>
    rw [hm] at he
    cases he
  | error _ t =>
    rw [hm] at he
    cases he
    exact h

theorem Raises.bind (hm : Raises E m) (hf : ∀ a, Raises E (f a)) : Raises E (m >>= f) := by
  intro s e s' he
  cases hok : m s with
  | error e' t =>
    rw [bind_error hok] at he
    cases he
    exact hm s _ _ hok
  | ok a t =>
    rw [bind_ok hok] at he
    exact hf a t _ _ he

theorem Raises.ite {c : Prop} [Decidable c] {m₁ m₂ : EStateM ε σ α} (h₁ : Raises E m₁)
    (h₂ : Raises E m₂) : Raises E (if c then m₁ else m₂) := by
  by_cases hc : c
  · rw [if_pos hc]
    exact h₁
  · rw [if_neg hc]
    exact h₂

theorem Raises.forM {f : β → EStateM ε σ PUnit} (h : ∀ b, Raises E (f b)) (l : List β) :
    Raises E (l.forM f) := by
  induction l with
  | nil => exact Raises.pure _
  | cons b l ih => exact (h b).bind fun _ => ih

end raises

/-! ## Supplies -/

/-- `m` comes back with a supply of `c`, and takes at most that. -/
def Costs (size : σ → Nat) (c : Nat) (m : EStateM ε σ α) : Prop :=
  ∀ s, c ≤ size s → ∃ a s', m s = .ok a s' ∧ size s ≤ size s' + c

variable {size : σ → Nat} {c d : Nat}

theorem Costs.pure (a : α) : Costs size 0 (Pure.pure a : EStateM ε σ α) :=
  fun s _ => ⟨a, s, rfl, Nat.le_refl _⟩

theorem Costs.bind (hm : Costs size c m) (hf : ∀ a, Costs size d (f a)) :
    Costs size (c + d) (m >>= f) := by
  intro s hs
  obtain ⟨a, s', hok, hsize⟩ := hm s (by omega)
  obtain ⟨b, s'', hok', hsize'⟩ := hf a s' (by omega)
  exact ⟨b, s'', (bind_ok hok).trans hok', by omega⟩

theorem Costs.times {m : EStateM ε σ Unit} (h : Costs size c m) (n : Nat) :
    Costs size (n * c) (times m n) := by
  induction n with
  | zero =>
    rw [Nat.zero_mul]
    exact Costs.pure ()
  | succ n ih =>
    rw [Nat.succ_mul, Nat.add_comm]
    exact h.bind fun _ => ih

/-- A loop that is left after `k` turns. -/
theorem Costs.forLoop {cond : α → Bool} {next : α → α} {turn : α → EStateM ε σ Unit} {stuck : ε}
    (hturn : ∀ a, Costs size c (turn a)) {k fuel : Nat} {a : α} (hk : cond (next^[k] a) = false)
    (hfuel : k < fuel) : Costs size (k * c) (forLoop cond next turn stuck fuel a) := by
  induction k generalizing a fuel with
  | zero =>
    obtain ⟨fuel, rfl⟩ := Nat.exists_eq_succ_of_ne_zero (show fuel ≠ 0 by omega)
    have hcond : ¬ cond a = true := by
      rw [Function.iterate_zero, id] at hk
      rw [hk]
      exact Bool.false_ne_true
    rw [Nat.zero_mul, Effect.forLoop, if_neg hcond]
    exact Costs.pure ()
  | succ k ih =>
    obtain ⟨fuel, rfl⟩ := Nat.exists_eq_succ_of_ne_zero (show fuel ≠ 0 by omega)
    rw [Effect.forLoop]
    by_cases hcond : cond a
    · rw [if_pos hcond, Nat.succ_mul, Nat.add_comm]
      exact (hturn a).bind fun _ => ih hk (by omega)
    · rw [if_neg hcond]
      exact fun s _ => ⟨(), s, rfl, by omega⟩

/-- A loop whose condition never fails does not come back. -/
theorem forLoop_spins {cond : α → Bool} {next : α → α} {turn : α → EStateM ε σ Unit} {stuck : ε}
    {a : α} (h : ∀ k, cond (next^[k] a)) (fuel : Nat) (s s' : σ) :
    forLoop cond next turn stuck fuel a s ≠ .ok () s' := by
  induction fuel generalizing a s with
  | zero => exact fun hok => by cases hok
  | succ fuel ih =>
    have hcond : cond a = true := h 0
    rw [forLoop, if_pos hcond]
    cases hturn : turn a s with
    | error e t =>
      rw [bind_error hturn]
      exact fun hok => by cases hok
    | ok _ t =>
      rw [bind_ok hturn]
      exact ih (fun k => h (k + 1)) t

/-! ## Points that are passed -/

/-- From the state, `m` leaves one for which `p` holds. -/
def Leads (p : σ → Prop) (m : EStateM ε σ α) (s : σ) : Prop := p (final (m s))

variable {p : σ → Prop} {s s' : σ}

/-- A point that was passed before. -/
theorem Leads.of_keeps (h : Keeps p m Q) (hs : p s) : Leads p m s := (h s hs).1

/-- A step that comes back, and then a point that is passed. -/
theorem Leads.of_ok {a : α} (hm : m s = .ok a s') (hf : Leads p (f a) s') :
    Leads p (m >>= f) s := by
  unfold Leads
  rw [bind_ok hm]
  exact hf

/-- A point that is passed in a step, and kept. -/
theorem Leads.bind (hm : Leads p m s) (hf : ∀ a, Keeps p (f a) R) : Leads p (m >>= f) s := by
  unfold Leads at *
  cases hok : m s with
  | error e t =>
    rw [hok] at hm
    rw [bind_error hok]
    exact hm
  | ok a t =>
    rw [hok] at hm
    rw [bind_ok hok]
    exact (hf a t hm).1

end Effect
