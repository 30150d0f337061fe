import Mathlib.Data.List.Basic

/-!
# Loops over a list

`foldl` and, where a turn may raise, `foldlM` of `Except`, as the loops of a program over a list.

* `foldl_keeps`: what every turn leaves as it is. `foldl_inv`, `foldl_prefix`: an invariant.
  `foldl_last`: what the last turn gives.
* `bind_ok`, `toOption_map`: a step that comes back, and the next one; what is seen of it.
* `foldlM_cons`: the first turn. `foldlM_ok`, `foldlM_prefix`: a loop whose turns come back, with
  its invariant. `foldlM_ok_iff`: a loop whose turns come back or not whatever the state is.
* `foldlM_inv`, `foldlM_view`, `foldlM_iff`, `foldlM_log`: what is true of a loop that has come
  back, what is seen of it, what it asks for, and what its turns have noted.
* `foldlM_keeps`: what every turn leaves as it is, also where the loop raises.
* `mem_mapM`, `mapM_ok_iff`, `mapM_view`, `mapM_eq_ok`: the results of the turns.
-/

namespace Fold

variable {σ ε α β γ : Type}

/-- What a fold leaves as it is. -/
theorem foldl_keeps {f : σ → α → σ} (view : σ → β) (h : ∀ s x, view (f s x) = view s)
    (xs : List α) (s : σ) : view (xs.foldl f s) = view s := by
  induction xs generalizing s with
  | nil => rfl
  | cons x xs ih => rw [List.foldl_cons, ih, h]

/-- An invariant of a fold. -/
theorem foldl_inv {I : σ → Prop} {f : σ → α → σ} {xs : List α} (h : ∀ s, ∀ x ∈ xs, I s → I (f s x))
    {s : σ} (hs : I s) : I (xs.foldl f s) := by
  induction xs generalizing s with
  | nil => exact hs
  | cons x xs ih =>
    exact ih (fun s y hy => h s y (List.mem_cons_of_mem _ hy)) (h s x (List.mem_cons_self ..) hs)

/-- An invariant of a fold that follows how far it has come. -/
theorem foldl_prefix {I : List α → σ → Prop} {f : σ → α → σ} {xs : List α}
    (h : ∀ front x rest, xs = front ++ x :: rest → ∀ s, I front s → I (front ++ [x]) (f s x))
    {s : σ} (hs : I [] s) : I xs (xs.foldl f s) := by
  have hrest (rest front : List α) (hxs : xs = front ++ rest) (s : σ) (hs : I front s) :
      I xs (rest.foldl f s) := by
    induction rest generalizing front s with
    | nil => simpa [hxs] using hs
    | cons x rest ih => exact ih (front ++ [x]) (by simp [hxs]) (f s x) (h front x rest hxs s hs)
  exact hrest xs [] rfl s hs

/-- What each turn assigns is as the last turn leaves it. -/
theorem foldl_last (view : σ → β) {f : σ → α → σ} {g : α → β} (h : ∀ s x, view (f s x) = g x)
    (xs : List α) (s : σ) : view (xs.foldl f s) = (xs.getLast?.map g).getD (view s) := by
  induction xs generalizing s with
  | nil => rfl
  | cons x xs ih =>
    rw [List.foldl_cons, ih, h, List.getLast?_cons]
    cases xs.getLast? <;> rfl

/-! ## Turns that may raise -/

/-- A step that comes back, and the next one. -/
theorem bind_ok {x : Except ε α} {f : α → Except ε β} {b : β} :
    (x >>= f) = .ok b ↔ ∃ a, x = .ok a ∧ f a = .ok b := by
  cases x with
  | error e => simp [bind, Except.bind]
  | ok a => simp [bind, Except.bind]

/-- A step that raises, or the next one. -/
theorem bind_error {x : Except ε α} {f : α → Except ε β} {e : ε} :
    (x >>= f) = .error e ↔ x = .error e ∨ ∃ a, x = .ok a ∧ f a = .error e := by
  cases x with
  | error e => simp [bind, Except.bind]
  | ok a => simp [bind, Except.bind]

theorem pure_ok {a b : α} : (pure a : Except ε α) = .ok b ↔ a = b := by
  simp [pure, Except.pure]

/-- What is seen of a step that is known to come back. -/
theorem toOption_map {x : Except ε α} {view : α → β} {b : β}
    (h : x.toOption.map view = some b) : ∃ a, x = .ok a ∧ view a = b := by
  cases x with
  | error e => cases h
  | ok a => exact ⟨a, rfl, Option.some.inj h⟩

/-- The first turn of a loop that may raise. -/
theorem foldlM_cons (f : σ → α → Except ε σ) (x : α) (xs : List α) (s : σ) :
    (x :: xs).foldlM f s =
      match f s x with
      | .ok s' => xs.foldlM f s'
      | .error e => .error e := by
  rw [List.foldlM_cons]
  cases f s x <;> rfl

/-- A loop whose turns do not raise under its invariant. -/
theorem foldlM_ok {I : σ → Prop} {f : σ → α → Except ε σ} {xs : List α}
    (h : ∀ s, ∀ x ∈ xs, I s → ∃ s', f s x = .ok s' ∧ I s') {s : σ} (hs : I s) :
    ∃ s', xs.foldlM f s = .ok s' ∧ I s' := by
  induction xs generalizing s with
  | nil => exact ⟨s, rfl, hs⟩
  | cons x xs ih =>
    obtain ⟨s', hstep, hs'⟩ := h s x (List.mem_cons_self ..) hs
    rw [foldlM_cons, hstep]
    exact ih (fun s y hy => h s y (List.mem_cons_of_mem _ hy)) hs'

/-- A loop whose turns come back or not whatever the state is. -/
theorem foldlM_ok_iff {g : σ → α → σ} {good : α → Prop} {f : σ → α → Except ε σ} {xs : List α}
    (h : ∀ s, ∀ x ∈ xs, ∀ s', f s x = .ok s' ↔ good x ∧ s' = g s x) (s s' : σ) :
    xs.foldlM f s = .ok s' ↔ (∀ x ∈ xs, good x) ∧ s' = xs.foldl g s := by
  induction xs generalizing s with
  | nil => simp [pure, Except.pure, eq_comm]
  | cons x xs ih =>
    have hrest := ih fun s y hy => h s y (List.mem_cons_of_mem _ hy)
    rw [List.foldlM_cons, bind_ok, List.forall_mem_cons, List.foldl_cons, and_assoc]
    constructor
    · rintro ⟨t, hstep, hok⟩
      obtain ⟨hgood, rfl⟩ := (h s x (List.mem_cons_self ..) t).mp hstep
      exact ⟨hgood, (hrest _).mp hok⟩
    · rintro ⟨hgood, hok⟩
      exact ⟨_, (h s x (List.mem_cons_self ..) _).mpr ⟨hgood, rfl⟩, (hrest _).mpr hok⟩

/-- A loop whose invariant follows how far it has come. -/
theorem foldlM_prefix {I : List α → σ → Prop} {f : σ → α → Except ε σ} {xs : List α}
    (h : ∀ front x rest, xs = front ++ x :: rest → ∀ s, I front s →
      ∃ s', f s x = .ok s' ∧ I (front ++ [x]) s') {s : σ} (hs : I [] s) :
    ∃ s', xs.foldlM f s = .ok s' ∧ I xs s' := by
  have hrest (rest front : List α) (hxs : xs = front ++ rest) (s : σ) (hs : I front s) :
      ∃ s', rest.foldlM f s = .ok s' ∧ I xs s' := by
    induction rest generalizing front s with
    | nil => exact ⟨s, rfl, by simpa [hxs] using hs⟩
    | cons x rest ih =>
      obtain ⟨s', hstep, hs'⟩ := h front x rest hxs s hs
      rw [foldlM_cons, hstep]
      exact ih (front ++ [x]) (by simp [hxs]) s' hs'
  exact hrest xs [] rfl s hs

/-- An invariant of a loop that has come back. -/
theorem foldlM_inv {I : σ → Prop} {f : σ → α → Except ε σ} {xs : List α}
    (h : ∀ s, ∀ x ∈ xs, ∀ s', f s x = .ok s' → I s → I s') {s s' : σ} (hok : xs.foldlM f s = .ok s')
    (hs : I s) : I s' := by
  induction xs generalizing s with
  | nil =>
    cases hok
    exact hs
  | cons x xs ih =>
    rw [List.foldlM_cons, bind_ok] at hok
    obtain ⟨s₁, hstep, hrest⟩ := hok
    exact ih (fun s y hy => h s y (List.mem_cons_of_mem _ hy)) hrest
      (h s x (List.mem_cons_self ..) s₁ hstep hs)

/-- What is seen of a loop that has come back is a fold of its own. -/
theorem foldlM_view {I : σ → Prop} (view : σ → β) {g : β → α → β} {f : σ → α → Except ε σ}
    {xs : List α} (h : ∀ s, ∀ x ∈ xs, ∀ s', f s x = .ok s' → I s → view s' = g (view s) x ∧ I s')
    {s s' : σ} (hok : xs.foldlM f s = .ok s') (hs : I s) :
    view s' = xs.foldl g (view s) ∧ I s' := by
  induction xs generalizing s with
  | nil =>
    cases hok
    exact ⟨rfl, hs⟩
  | cons x xs ih =>
    rw [List.foldlM_cons, bind_ok] at hok
    obtain ⟨s₁, hstep, hrest⟩ := hok
    obtain ⟨hview, hs₁⟩ := h s x (List.mem_cons_self ..) s₁ hstep hs
    rw [List.foldl_cons, ← hview]
    exact ih (fun s y hy => h s y (List.mem_cons_of_mem _ hy)) hrest hs₁

/-- What each turn asks for besides. -/
theorem foldlM_iff {P : σ → Prop} {Q : α → Prop} {f : σ → α → Except ε σ} {xs : List α}
    (h : ∀ s, ∀ x ∈ xs, ∀ s', f s x = .ok s' → (P s' ↔ P s ∧ Q x)) {s s' : σ}
    (hok : xs.foldlM f s = .ok s') : P s' ↔ P s ∧ ∀ x ∈ xs, Q x := by
  induction xs generalizing s with
  | nil =>
    cases hok
    simp
  | cons x xs ih =>
    rw [List.foldlM_cons, bind_ok] at hok
    obtain ⟨s₁, hstep, hrest⟩ := hok
    rw [ih (fun s y hy => h s y (List.mem_cons_of_mem _ hy)) hrest,
      h s x (List.mem_cons_self ..) s₁ hstep, List.forall_mem_cons, and_assoc]

/-- What the turns note, one thing each. -/
theorem foldlM_log {R : α → β → Prop} (log : σ → List β) {f : σ → α → Except ε σ} {xs : List α}
    (h : ∀ s, ∀ x ∈ xs, ∀ s', f s x = .ok s' → ∃ y, log s' = log s ++ [y] ∧ R x y) {s s' : σ}
    (hok : xs.foldlM f s = .ok s') : ∃ ys, log s' = log s ++ ys ∧ List.Forall₂ R xs ys := by
  induction xs generalizing s with
  | nil =>
    cases hok
    exact ⟨[], by simp, .nil⟩
  | cons x xs ih =>
    rw [List.foldlM_cons, bind_ok] at hok
    obtain ⟨s₁, hstep, hrest⟩ := hok
    obtain ⟨y, hlog, hy⟩ := h s x (List.mem_cons_self ..) s₁ hstep
    obtain ⟨ys, hlogs, hys⟩ := ih (fun s y hy => h s y (List.mem_cons_of_mem _ hy)) hrest
    exact ⟨y :: ys, by simp [hlogs, hlog], .cons hy hys⟩

/-- The state a loop ends in, also where it raises with its state. -/
def after : Except (ε × σ) σ → σ
  | .ok s => s
  | .error (_, s) => s

@[simp] theorem after_ok (s : σ) : after (.ok s : Except (ε × σ) σ) = s := rfl

@[simp] theorem after_error (e : ε) (s : σ) : after (.error (e, s) : Except (ε × σ) σ) = s := rfl

/-- What a loop leaves as it is, also where it raises. -/
theorem foldlM_keeps {f : σ → α → Except (ε × σ) σ} (view : σ → β)
    (h : ∀ s x, view (after (f s x)) = view s) (xs : List α) (s : σ) :
    view (after (xs.foldlM f s)) = view s := by
  induction xs generalizing s with
  | nil => rfl
  | cons x xs ih =>
    have hx := h s x
    rw [foldlM_cons]
    cases hstep : f s x with
    | error e =>
      rw [hstep] at hx
      exact hx
    | ok s' =>
      rw [hstep] at hx
      exact (ih s').trans hx

/-! ## `mapM` -/

theorem mapM_cons (f : α → Except ε β) (x : α) (xs : List α) :
    (x :: xs).mapM f =
      match f x, xs.mapM f with
      | .error e, _ => .error e
      | .ok _, .error e => .error e
      | .ok y, .ok ys => .ok (y :: ys) := by
  rw [List.mapM_cons]
  cases f x with
  | error e => rfl
  | ok y => cases xs.mapM f <;> rfl

/-- A loop that comes back has the result of each turn. -/
theorem mem_mapM {f : α → Except ε β} {xs : List α} {ys : List β} (h : xs.mapM f = .ok ys) (y : β) :
    y ∈ ys ↔ ∃ x ∈ xs, f x = .ok y := by
  induction xs generalizing ys with
  | nil =>
    cases h
    simp
  | cons x xs ih =>
    rw [mapM_cons] at h
    cases hx : f x with
    | error e => simp [hx] at h
    | ok z =>
      cases hxs : xs.mapM f with
      | error e => simp [hx, hxs] at h
      | ok zs =>
        simp only [hx, hxs, Except.ok.injEq] at h
        subst h
        simp [hx, ih hxs, eq_comm]

/-- A loop comes back where all its turns do. -/
theorem mapM_ok_iff {f : α → Except ε β} {xs : List α} :
    (∃ ys, xs.mapM f = .ok ys) ↔ ∀ x ∈ xs, ∃ y, f x = .ok y := by
  induction xs with
  | nil => simp [pure, Except.pure]
  | cons x xs ih =>
    rw [mapM_cons, List.forall_mem_cons, ← ih]
    cases f x with
    | error e => simp
    | ok y => cases xs.mapM f <;> simp

/-- What is seen of the results. -/
theorem mapM_view {view : β → γ} {g : α → γ} {f : α → Except ε β} {xs : List α}
    {ys : List β} (h : ∀ x y, f x = .ok y → view y = g x) (hok : xs.mapM f = .ok ys) :
    ys.map view = xs.map g := by
  induction xs generalizing ys with
  | nil =>
    cases hok
    rfl
  | cons x xs ih =>
    rw [mapM_cons] at hok
    cases hx : f x with
    | error e => simp [hx] at hok
    | ok y =>
      cases hxs : xs.mapM f with
      | error e => simp [hx, hxs] at hok
      | ok zs =>
        simp only [hx, hxs, Except.ok.injEq] at hok
        rw [← hok, List.map_cons, List.map_cons, h x y hx, ih hxs]

/-- The list of the results. -/
theorem mapM_eq_ok {f : α → Except ε β} {xs : List α} {ys : List β} :
    xs.mapM f = .ok ys ↔ xs.map f = ys.map .ok := by
  induction xs generalizing ys with
  | nil => cases ys <;> simp [pure, Except.pure]
  | cons x xs ih =>
    rw [mapM_cons, List.map_cons]
    cases ys with
    | nil =>
      cases f x with
      | error e => simp
      | ok y => cases xs.mapM f <;> simp
    | cons y ys =>
      rw [List.map_cons, List.cons.injEq, ← ih]
      cases f x with
      | error e => simp
      | ok y' => cases xs.mapM f <;> simp

/-- What each turn gives for its element. -/
theorem mapM_forall₂ {R : α → β → Prop} {f : α → Except ε β} {xs : List α} {ys : List β}
    (h : ∀ x y, f x = .ok y → R x y) (hok : xs.mapM f = .ok ys) : List.Forall₂ R xs ys := by
  induction xs generalizing ys with
  | nil =>
    cases hok
    exact .nil
  | cons x xs ih =>
    rw [mapM_cons] at hok
    cases hx : f x with
    | error e => simp [hx] at hok
    | ok y =>
      cases hxs : xs.mapM f with
      | error e => simp [hx, hxs] at hok
      | ok zs =>
        simp only [hx, hxs, Except.ok.injEq] at hok
        rw [← hok]
        exact .cons (h x y hx) (ih hxs)

/-- A loop raises what one of its turns raises. -/
theorem mapM_error {f : α → Except ε β} {xs : List α} {e : ε} (h : xs.mapM f = .error e) :
    ∃ x ∈ xs, f x = .error e := by
  induction xs with
  | nil => cases h
  | cons x xs ih =>
    rw [mapM_cons] at h
    cases hx : f x with
    | error e' =>
      simp only [hx, Except.error.injEq] at h
      exact ⟨x, .head _, by rw [hx, h]⟩
    | ok y =>
      cases hxs : xs.mapM f with
      | error e' =>
        simp only [hx, hxs, Except.error.injEq] at h
        obtain ⟨x', hx', herror⟩ := ih (by rw [hxs, h])
        exact ⟨x', .tail _ hx', herror⟩
      | ok zs => simp [hx, hxs] at h

end Fold
