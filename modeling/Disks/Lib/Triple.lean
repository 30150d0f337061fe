import Disks.Lib.Effect

/-!
# Triples for programs that may raise

`Triple P m Q E`: from a state that satisfies `P`, a program `m` of `EStateM` comes back with `Q`,
or raises with `E`.

* `Triple.pure`, `Triple.throw`, `Triple.modify`, `Triple.get`, `Triple.within`: the steps.
* `Triple.bind`, `Triple.ite`, `Triple.mono`, `Triple.pre`: the rules of a program.
* `Triple.forM`: a loop over a list, with an invariant of how far it has come. `Triple.forM_keeps`:
  with one of all its turns.
-/

namespace Effect

variable {ε σ α β : Type}

/-- What holds behind `m`, run from a state with `P`. -/
def Triple (P : σ → Prop) (m : EStateM ε σ α) (Q : α → σ → Prop) (E : ε → σ → Prop) : Prop :=
  ∀ s, P s → (∀ a s', m s = .ok a s' → Q a s') ∧ ∀ e s', m s = .error e s' → E e s'

variable {m : EStateM ε σ α} {f : α → EStateM ε σ β} {P P' : σ → Prop} {Q Q' : α → σ → Prop}
  {R : β → σ → Prop} {E E' : ε → σ → Prop}

theorem Triple.ok (h : Triple P m Q E) {s s' : σ} {a : α} (hs : P s) (hok : m s = .ok a s') :
    Q a s' :=
  (h s hs).1 a s' hok

theorem Triple.error (h : Triple P m Q E) {s s' : σ} {e : ε} (hs : P s)
    (herror : m s = .error e s') : E e s' :=
  (h s hs).2 e s' herror

theorem Triple.pure {a : α} (h : ∀ s, P s → Q a s) : Triple P (Pure.pure a) Q E :=
  fun s hs => ⟨fun _ _ hok => by cases hok; exact h s hs, fun _ _ herror => by cases herror⟩

theorem Triple.throw {e : ε} (h : ∀ s, P s → E e s) :
    Triple P (MonadExcept.throw e : EStateM ε σ α) Q E :=
  fun s hs => ⟨fun _ _ hok => (by cases hok), fun _ _ herror => by cases herror; exact h s hs⟩

theorem Triple.modify {g : σ → σ} {Q : PUnit → σ → Prop} (h : ∀ s, P s → Q ⟨⟩ (g s)) :
    Triple P (modify g) Q E :=
  fun s hs => ⟨fun _ _ hok => by cases hok; exact h s hs, fun _ _ herror => by cases herror⟩

theorem Triple.mono (h : Triple P m Q E) (hQ : ∀ a s, Q a s → Q' a s)
    (hE : ∀ e s, E e s → E' e s) : Triple P m Q' E' :=
  fun _ hs => ⟨fun a s' hok => hQ a s' (h.ok hs hok), fun e s' he => hE e s' (h.error hs he)⟩

theorem Triple.pre (h : Triple P m Q E) (hP : ∀ s, P' s → P s) : Triple P' m Q E :=
  fun s hs => h s (hP s hs)

theorem Triple.bind (hm : Triple P m Q E) (hf : ∀ a, Triple (Q a) (f a) R E) :
    Triple P (m >>= f) R E := by
  intro s hs
  cases hok : m s with
  | ok a t =>
    rw [bind_ok hok]
    exact hf a t (hm.ok hs hok)
  | error e t =>
    rw [bind_error hok]
    refine ⟨fun _ _ h => (by cases h), fun _ _ h => ?_⟩
    cases h
    exact hm.error hs hok

/-- A program that looks at the state first. -/
theorem Triple.get {f : σ → EStateM ε σ β}
    (h : ∀ s₀, Triple (fun s => P s ∧ s = s₀) (f s₀) R E) :
    Triple P (MonadState.get >>= f) R E :=
  fun s hs => h s s ⟨hs, rfl⟩

theorem Triple.ite {c : Prop} [Decidable c] {m₁ m₂ : EStateM ε σ α} (h₁ : c → Triple P m₁ Q E)
    (h₂ : ¬ c → Triple P m₂ Q E) : Triple P (if c then m₁ else m₂) Q E := by
  by_cases hc : c
  · rw [if_pos hc]
    exact h₁ hc
  · rw [if_neg hc]
    exact h₂ hc

/-- A program on a part of the state that the assertions do not speak of. -/
theorem Triple.within {S ε' : Type} {view : S → σ} {put : S → σ → S} {code : ε'} {P Q : S → Prop}
    {E : ε' → S → Prop} (m : EStateM ε σ α) (hQ : ∀ s t, P s → Q (put s t))
    (hE : ∀ s t, P s → E code (put s t)) :
    Triple P (within view put code m) (fun _ => Q) E := by
  intro s hs
  unfold Effect.within
  cases m (view s) with
  | ok a t => exact ⟨fun _ _ h => by cases h; exact hQ s t hs, fun _ _ h => by cases h⟩
  | error e t => exact ⟨fun _ _ h => (by cases h), fun _ _ h => by cases h; exact hE s t hs⟩

/-- A loop over a list, with an invariant of how far it has come. -/
theorem Triple.forM {I : List β → σ → Prop} {f : β → EStateM ε σ PUnit} {l : List β}
    (turn : ∀ front b rest, l = front ++ b :: rest →
      Triple (I front) (f b) (fun _ => I (front ++ [b])) E) :
    Triple (I []) (l.forM f) (fun _ => I l) E := by
  have hrest (rest front : List β) (hl : l = front ++ rest) :
      Triple (I front) (rest.forM f) (fun _ => I l) E := by
    induction rest generalizing front with
    | nil =>
      rw [List.append_nil] at hl
      exact Triple.pure fun s hs => hl ▸ hs
    | cons b rest ih =>
      exact (turn front b rest hl).bind fun _ => ih (front ++ [b]) (by simpa using hl)
  exact hrest l [] rfl

/-- A loop over a list whose turns keep an invariant. -/
theorem Triple.forM_keeps {I : σ → Prop} {f : β → EStateM ε σ PUnit} {l : List β}
    (turn : ∀ b ∈ l, Triple I (f b) (fun _ => I) E) : Triple I (l.forM f) (fun _ => I) E :=
  Triple.forM (I := fun _ => I) fun front b rest hl => turn b (by simp [hl])

end Effect
