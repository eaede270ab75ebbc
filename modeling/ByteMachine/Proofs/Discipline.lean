/-!
# What a computation keeps

A computation that may fail changes its state whether it fails or not. A `Discipline` says what
every state keeps to and how a later state is tied to an earlier one; `Yields` says that a
computation keeps to it from a given state and that its result, if it has one, is as described.
The rules below take a computation apart along its text: each step starts in the state the one
before it has left, with what is known of that state at hand.

Key definitions: `Discipline`, `Discipline.Yields`.
Key theorems: `Discipline.Yields.bind`, `Discipline.Yields.mono`, `Discipline.yields_get_bind`,
`Discipline.Yields.caught`.
-/

namespace ByteMachine

theorem bind_eq_ok {ε α β : Type} {x : Except ε α} {f : α → Except ε β} {b : β} :
    (x >>= f) = .ok b ↔ ∃ a, x = .ok a ∧ f a = .ok b := by
  cases x with
  | error e => exact ⟨fun h => (nomatch h), fun ⟨_, h, _⟩ => (nomatch h)⟩
  | ok a =>
    constructor
    · exact fun h => ⟨a, rfl, h⟩
    · rintro ⟨_, h, k⟩
      cases h
      exact k

theorem map_eq_ok {ε α β : Type} {f : α → β} {x : Except ε α} {b : β} :
    x.map f = .ok b ↔ ∃ a, x = .ok a ∧ f a = b := by
  cases x <;> simp [Except.map]

/-- What states keep to, and how a state is tied to those before it. -/
structure Discipline (σ : Type) where
  keeps : σ → Prop
  leads : σ → σ → Prop
  refl : ∀ s, leads s s
  trans : ∀ {s t u}, leads s t → leads t u → leads s u

namespace Discipline

variable {σ ε α β : Type} {d : Discipline σ} {s : σ}

/-- From a state that keeps to the discipline the computation ends in one that does and that the
first leads to, also if it fails. A result is as `post` says of it and of the last state. -/
def Yields (d : Discipline σ) (s : σ) (x : ExceptT ε (StateM σ) α) (post : σ → α → Prop) : Prop :=
  d.keeps s →
    d.leads s (x.run.run s).2 ∧ d.keeps (x.run.run s).2 ∧
      ∀ a, (x.run.run s).1 = .ok a → post (x.run.run s).2 a

/-- What the discipline says of the first state is at hand. -/
theorem Yields.of_keeps {x : ExceptT ε (StateM σ) α} {post : σ → α → Prop}
    (h : d.keeps s → d.Yields s x post) : d.Yields s x post :=
  fun k => h k k

theorem yields_pure {a : α} {post : σ → α → Prop} :
    d.Yields s (pure a : ExceptT ε (StateM σ) α) post ↔ (d.keeps s → post s a) := by
  constructor
  · exact fun h k => (h k).2.2 a rfl
  · intro h k
    refine ⟨d.refl s, k, fun b e => ?_⟩
    cases e
    exact h k

theorem yields_throw {e : ε} {post : σ → α → Prop} :
    d.Yields s (throw e : ExceptT ε (StateM σ) α) post :=
  fun k => ⟨d.refl s, k, fun _ e => by cases e⟩

theorem run_bind (x : ExceptT ε (StateM σ) α) (f : α → ExceptT ε (StateM σ) β) (s : σ) :
    (x >>= f).run.run s =
      match x.run.run s with
      | (.ok a, t) => (f a).run.run t
      | (.error e, t) => (.error e, t) := by
  simp only [ExceptT.run_bind, StateT.run_bind]
  rcases x.run.run s with ⟨_ | _, _⟩ <;> rfl

theorem run_bind_eq_ok {x : ExceptT ε (StateM σ) α} {f : α → ExceptT ε (StateM σ) β} {s t : σ}
    {b : β} : (x >>= f).run.run s = (.ok b, t) ↔
      ∃ a u, x.run.run s = (.ok a, u) ∧ (f a).run.run u = (.ok b, t) := by
  rw [run_bind]
  rcases x.run.run s with ⟨fault | a, u⟩
  · exact ⟨(fun e => nomatch e), fun ⟨_, _, e, _⟩ => nomatch e⟩
  · refine ⟨fun e => ⟨a, u, rfl, e⟩, fun ⟨_, _, e, k⟩ => ?_⟩
    cases e
    exact k

/-- A failure that is caught goes on from the state it has left. -/
theorem run_tryCatch (x : ExceptT ε (StateM σ) α) (f : ε → ExceptT ε (StateM σ) α) (s : σ) :
    (tryCatch x f).run.run s =
      match x.run.run s with
      | (.ok a, t) => (.ok a, t)
      | (.error e, t) => (f e).run.run t := by
  rw [show (tryCatch x f).run = x.run >>= fun r => match r with
    | .ok a => pure (.ok a)
    | .error e => (f e).run from rfl, StateT.run_bind]
  rcases x.run.run s with ⟨_ | _, _⟩ <;> rfl

/-- Each step goes on from where the one before it has left the state. -/
theorem Yields.bind {x : ExceptT ε (StateM σ) α} {f : α → ExceptT ε (StateM σ) β}
    {mid : σ → α → Prop} {post : σ → β → Prop} (hx : d.Yields s x mid)
    (hf : ∀ t a, d.leads s t → mid t a → d.Yields t (f a) post) : d.Yields s (x >>= f) post := by
  intro k
  obtain ⟨l, k', m⟩ := hx k
  rw [run_bind]
  rcases h : x.run.run s with ⟨e | a, t⟩ <;> rw [h] at l k' m
  · exact ⟨l, k', fun _ e => by cases e⟩
  · obtain ⟨l', k'', p⟩ := hf t a l (m a rfl) k'
    exact ⟨d.trans l l', k'', p⟩

theorem Yields.mono {x : ExceptT ε (StateM σ) α} {mid post : σ → α → Prop}
    (h : d.Yields s x mid) (weaken : ∀ t a, d.leads s t → d.keeps t → mid t a → post t a) :
    d.Yields s x post := fun k =>
  ⟨(h k).1, (h k).2.1, fun a e => weaken _ a (h k).1 (h k).2.1 ((h k).2.2 a e)⟩

theorem Yields.map {x : ExceptT ε (StateM σ) α} {f : α → β} {mid : σ → α → Prop}
    {post : σ → β → Prop} (hx : d.Yields s x mid) (hf : ∀ t a, mid t a → post t (f a)) :
    d.Yields s (f <$> x) post := by
  rw [map_eq_pure_bind]
  exact hx.bind fun t a _ m => yields_pure.2 fun _ => hf t a m

/-- What a computation that has succeeded leaves. -/
theorem Yields.of_run {x : ExceptT ε (StateM σ) α} {post : σ → α → Prop} (h : d.Yields s x post)
    (k : d.keeps s) {a : α} {t : σ} (e : x.run.run s = (.ok a, t)) :
    d.leads s t ∧ d.keeps t ∧ post t a := by
  obtain ⟨l, k', p⟩ := h k
  rw [e] at l k' p
  exact ⟨l, k', p a rfl⟩

/-- The result may be left out of account. -/
theorem Yields.forget {x : ExceptT ε (StateM σ) α} {mid : σ → α → Prop} (h : d.Yields s x mid) :
    d.Yields s x fun _ _ => True :=
  h.mono fun _ _ _ _ _ => trivial

theorem yields_get_bind {f : σ → ExceptT ε (StateM σ) β} {post : σ → β → Prop} :
    d.Yields s (get >>= f) post ↔ d.Yields s (f s) post := Iff.rfl

theorem yields_modify {f : σ → σ} {post : σ → PUnit → Prop}
    (h : d.keeps s → d.leads s (f s) ∧ d.keeps (f s) ∧ post (f s) ⟨⟩) :
    d.Yields s (modify f : ExceptT ε (StateM σ) PUnit) post := fun k =>
  ⟨(h k).1, (h k).2.1, fun _ _ => (h k).2.2⟩

theorem Yields.caught {x : ExceptT ε (StateM σ) α} {f : ε → ExceptT ε (StateM σ) α}
    {post : σ → α → Prop} (hx : d.Yields s x post)
    (hf : ∀ t e, d.leads s t → d.Yields t (f e) post) :
    d.Yields s (tryCatch x f) post := by
  intro k
  obtain ⟨l, k', m⟩ := hx k
  rw [run_tryCatch]
  rcases h : x.run.run s with ⟨e | a, t⟩ <;> rw [h] at l k' m
  · obtain ⟨l', k'', p⟩ := hf t e l k'
    exact ⟨d.trans l l', k'', p⟩
  · exact ⟨l, k', m⟩

end Discipline

end ByteMachine
