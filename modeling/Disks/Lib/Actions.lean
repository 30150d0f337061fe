import Mathlib.Data.List.Basic

/-!
# Systems that go on by actions

A system whose state changes by one action after the other, of its parties and of what is around
them; an action that cannot happen in a state has no result there.

* `run_inv`: what each action keeps, every run keeps. `run_seen`: the same of what is seen of the
  actions so far.
* `run_bound`: **a number that no action raises and that each action of a kind lowers bounds how
  many of that kind a run has.**
-/

namespace Actions

variable {σ α β : Type} {step : σ → α → Option σ}

/-- A run, where each of its actions can happen. -/
def run (step : σ → α → Option σ) (s : σ) : List α → Option σ
  | [] => some s
  | a :: rest => (step s a).bind fun s' => run step s' rest

theorem run_cons {s s' : σ} {a : α} {rest : List α} :
    run step s (a :: rest) = some s' ↔ ∃ t, step s a = some t ∧ run step t rest = some s' := by
  simp [run, Option.bind_eq_some_iff]

theorem run_inv {I : σ → Prop} {acts : List α}
    (hstep : ∀ s a s', a ∈ acts → I s → step s a = some s' → I s') {s s' : σ} (hs : I s)
    (hrun : run step s acts = some s') : I s' := by
  induction acts generalizing s with
  | nil =>
    cases hrun
    exact hs
  | cons a rest ih =>
    obtain ⟨t, ht, hrest⟩ := run_cons.mp hrun
    have hturn := hstep s a t (List.mem_cons_self ..) hs ht
    exact ih (fun s b s' hb => hstep s b s' (List.mem_cons_of_mem a hb)) hturn hrest

/-- What is seen of the actions of a run, each in the state in which it happens. -/
def seen (step : σ → α → Option σ) (see : σ → α → List β) (s : σ) : List α → List β
  | [] => []
  | a :: rest => see s a ++ ((step s a).map fun s' => seen step see s' rest).getD []

theorem run_seen {see : σ → α → List β} {I : List β → σ → Prop}
    (hstep : ∀ l s a s', I l s → step s a = some s' → I (l ++ see s a) s') {l : List β} {s s' : σ}
    {acts : List α} (hs : I l s) (hrun : run step s acts = some s') :
    I (l ++ seen step see s acts) s' := by
  induction acts generalizing l s with
  | nil =>
    cases hrun
    rw [seen, List.append_nil]
    exact hs
  | cons a rest ih =>
    obtain ⟨t, ht, hrest⟩ := run_cons.mp hrun
    rw [seen, ht, Option.map_some, Option.getD_some, ← List.append_assoc]
    exact ih (hstep l s a t hs ht) hrest

theorem run_bound {I : σ → Prop} {m : σ → Nat} {own : α → Bool}
    (hstep : ∀ s a s', I s → step s a = some s' →
      I s' ∧ m s' + (if own a then 1 else 0) ≤ m s) {s s' : σ} {acts : List α} (hs : I s)
    (hrun : run step s acts = some s') : m s' + acts.countP own ≤ m s := by
  induction acts generalizing s with
  | nil =>
    cases hrun
    simp
  | cons a rest ih =>
    obtain ⟨t, ht, hrest⟩ := run_cons.mp hrun
    obtain ⟨hI, hm⟩ := hstep s a t hs ht
    have hbound := ih hI hrest
    rw [List.countP_cons]
    omega

end Actions
