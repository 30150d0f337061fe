import Disks.Lib.Effect

/-!
# Programs that keep a journal

A program of `EStateM` whose state has a journal, which only grows. `Writes journal m s post` says
that `m`, run from `s`, adds to the journal, and that what it adds and how it ends satisfy `post`.

* `Writes.pure`, `Writes.throw`, `Writes.note`: the steps. `Writes.quiet`: one that adds nothing.
* `Writes.get`, `Writes.bind`: one program after the other; what the second adds stands behind.
* `Writes.forM`: a loop over a list, with an invariant of how far it has come and of what it has
  added by then.
* `Preceded need l`: each entry stands behind those that it needs. `Preceded.snoc`: a new one.
-/

namespace Journal

open Effect

variable {ε σ α β ι : Type} {journal : σ → List ι}

/-- What `m` adds to the journal from `s`, and how it ends. -/
def Writes (journal : σ → List ι) (m : EStateM ε σ α) (s : σ)
    (post : List ι → EStateM.Result ε σ α → Prop) : Prop :=
  ∃ new, journal (final (m s)) = journal s ++ new ∧ post new (m s)

variable {m : EStateM ε σ α} {f : α → EStateM ε σ β} {s : σ}
  {post : List ι → EStateM.Result ε σ α → Prop}

theorem Writes.mono {post' : List ι → EStateM.Result ε σ α → Prop} (h : Writes journal m s post)
    (himp : ∀ new r, post new r → post' new r) : Writes journal m s post' := by
  obtain ⟨new, hnew, hpost⟩ := h
  exact ⟨new, hnew, himp new _ hpost⟩

/-- A step that adds nothing. -/
theorem Writes.quiet (h : journal (final (m s)) = journal s) (hpost : post [] (m s)) :
    Writes journal m s post :=
  ⟨[], by simpa using h, hpost⟩

theorem Writes.pure {a : α} (h : post [] (.ok a s)) : Writes journal (Pure.pure a) s post :=
  .quiet rfl h

theorem Writes.throw {e : ε} (h : post [] (.error e s)) : Writes journal (throw e) s post :=
  .quiet rfl h

/-- A step that adds one entry. -/
theorem Writes.note {g : σ → σ} {x : ι} {post : List ι → EStateM.Result ε σ PUnit → Prop}
    (h : journal (g s) = journal s ++ [x]) (hpost : post [x] (.ok ⟨⟩ (g s))) :
    Writes journal (modify g) s post :=
  ⟨[x], h, hpost⟩

/-- One program after the other. -/
theorem Writes.bind {P : List ι → EStateM.Result ε σ α → Prop}
    {post : List ι → EStateM.Result ε σ β → Prop} (hm : Writes journal m s P)
    (hok : ∀ new a s', P new (.ok a s') →
      Writes journal (f a) s' fun new' r => post (new ++ new') r)
    (herror : ∀ new e s', P new (.error e s') → post new (.error e s')) :
    Writes journal (m >>= f) s post := by
  obtain ⟨new, hnew, hmid⟩ := hm
  cases hres : m s with
  | error e s' =>
    rw [hres] at hnew hmid
    refine ⟨new, ?_, ?_⟩
    · rw [bind_error hres]
      exact hnew
    · rw [bind_error hres]
      exact herror new e s' hmid
  | ok a s' =>
    rw [hres] at hnew hmid
    obtain ⟨new', hnew', hpost⟩ := hok new a s' hmid
    have hs' : journal s' = journal s ++ new := hnew
    refine ⟨new ++ new', ?_, ?_⟩
    · rw [bind_ok hres, hnew', hs', List.append_assoc]
    · rw [bind_ok hres]
      exact hpost

/-- A program that looks at the state first. -/
theorem Writes.get {f : σ → EStateM ε σ β} {post : List ι → EStateM.Result ε σ β → Prop}
    (h : Writes journal (f s) s post) : Writes journal (MonadState.get >>= f) s post :=
  h

/-- A loop over a list: `I` of what is behind, and `E` where a turn raises. -/
theorem Writes.forM {g : β → EStateM ε σ PUnit} {I : List β → List ι → σ → Prop}
    {E : List β → β → List ι → ε → σ → Prop} {l : List β} (hs : I [] [] s)
    (turn : ∀ front b rest, l = front ++ b :: rest → ∀ new s', I front new s' →
      Writes journal (g b) s' fun new' r =>
        match r with
        | .ok _ s'' => I (front ++ [b]) (new ++ new') s''
        | .error e s'' => E front b (new ++ new') e s'') :
    Writes journal (l.forM g) s fun new r =>
      match r with
      | .ok _ s' => I l new s'
      | .error e s' => ∃ front b rest, l = front ++ b :: rest ∧ E front b new e s' := by
  -- from where the loop has come, with what it has added
  have hrest (rest front : List β) (hl : l = front ++ rest) (new : List ι) (s' : σ)
      (hinv : I front new s') : Writes journal (rest.forM g) s' fun new' r =>
        match r with
        | .ok _ s'' => I l (new ++ new') s''
        | .error e s'' =>
          ∃ front b rest, l = front ++ b :: rest ∧ E front b (new ++ new') e s'' := by
    induction rest generalizing front new s' with
    | nil =>
      refine Writes.pure ?_
      rw [List.append_nil] at hl
      rw [List.append_nil, hl]
      exact hinv
    | cons b rest ih =>
      refine Writes.bind (turn front b rest hl new s' hinv) ?_ ?_
      · intro new' _ s'' hmid
        have hl' : l = (front ++ [b]) ++ rest := by simpa using hl
        refine (ih (front ++ [b]) hl' (new ++ new') s'' hmid).mono ?_
        intro new'' r h
        rw [List.append_assoc] at h
        exact h
      · intro new' e s'' hmid
        exact ⟨front, b, rest, hl, hmid⟩
  simpa using hrest l [] rfl [] s hs

/-! ## What stands in front of an entry -/

/-- Each entry stands behind those that it needs. -/
def Preceded (need : ι → ι → Prop) (l : List ι) : Prop :=
  ∀ front x back, l = front ++ x :: back → ∀ y, need x y → y ∈ front

theorem preceded_nil {need : ι → ι → Prop} : Preceded need [] := by
  intro front x back h
  simp at h

theorem Preceded.snoc {need : ι → ι → Prop} {l : List ι} {x : ι} (h : Preceded need l)
    (hx : ∀ y, need x y → y ∈ l) : Preceded need (l ++ [x]) := by
  intro front z back hl y hy
  rcases List.eq_nil_or_concat back with rfl | ⟨back, w, rfl⟩
  · obtain ⟨rfl, hz⟩ := List.append_inj' hl rfl
    rw [List.singleton_inj] at hz
    exact hx y (hz ▸ hy)
  · have hcut : l ++ [x] = (front ++ z :: back) ++ [w] := by simpa using hl
    exact h front z back (List.append_inj' hcut rfl).1 y hy

end Journal
