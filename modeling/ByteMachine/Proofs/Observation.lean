import ByteMachine.Proofs.Functions

/-!
# Computations that only look

Reading operands, following pointers, finding elements and checking types change nothing but the
catalog, which meets the types that come up. `Core.looking` is the discipline they keep to: where
it holds, memory, variables, console and stack are after the computation, failed or not, what they
were before. What a pointer leads to and what an index selects is held by the table: it is a place,
or the name of a registered variable.

Key definitions: `Core.looking`, `Operand.Held`, `Discipline.Yields.within`.
Key theorems: `Run.read_looks`, `Run.readText_looks`, `Run.resolve_looks`, `Run.followTimes_looks`,
`Run.elementOf_looks`, `Run.checkArguments_looks`, `Core.Looks.eq_of_run`.
-/

namespace ByteMachine

open Discipline

/-- What keeps to one discipline keeps to any that asks for less. -/
theorem Discipline.Yields.within {σ ε α : Type} {d e : Discipline σ} {s : σ}
    {x : ExceptT ε (StateM σ) α} {post : σ → α → Prop} (h : d.Yields s x post)
    (keeps : e.keeps s → d.keeps s)
    (leads : ∀ t, d.leads s t → e.keeps s → e.leads s t ∧ e.keeps t) : e.Yields s x post := by
  intro k
  obtain ⟨l, -, p⟩ := h (keeps k)
  exact ⟨(leads _ l k).1, (leads _ l k).2, p⟩

/-- A name that an operand gives is that of a registered variable. -/
def Operand.Held (t : Symbols) : Operand → Prop
  | .named id => ∃ v ∈ t.entries, v.id = id
  | _ => True

namespace Core

/-- Nothing but the catalog changes, and that only grows. -/
def looking : Discipline Core where
  keeps := fun _ => True
  leads := fun s t => s.catalog.Extends t.catalog ∧ t = { s with catalog := t.catalog }
  refl := fun s => ⟨.refl _, rfl⟩
  trans := by
    rintro s t u ⟨grows, e⟩ ⟨grows', e'⟩
    rw [e] at e'
    exact ⟨grows.trans grows', e'⟩

/-- A computation only looks at the core `s` and has a result as described. -/
abbrev Looks {α : Type} (s : Core) (x : Run α) (post : Core → α → Prop) : Prop :=
  looking.Yields s x post

theorem looks_pure {α : Type} {s : Core} {a : α} {post : Core → α → Prop} (h : post s a) :
    s.Looks (pure a : Run α) post :=
  yields_pure.2 fun _ => h

/-- After a computation that only looks, all but the catalog is what it was. -/
theorem Looks.eq_of_run {α : Type} {s t : Core} {x : Run α} {post : Core → α → Prop} {a : α}
    (h : s.Looks x post) (e : x.run.run s = (.ok a, t)) :
    s.catalog.Extends t.catalog ∧ t = { s with catalog := t.catalog } :=
  (h.of_run trivial e).1

end Core

namespace Run

variable {s : Core}

/-! ### Types -/

theorem catalog_looks {f : Catalog → Catalog} (grows : s.catalog.Extends (f s.catalog)) :
    s.Looks (modify fun s => { s with catalog := f s.catalog }) fun _ _ => True :=
  yields_modify fun _ => ⟨⟨grows, rfl⟩, trivial, trivial⟩

theorem built_looks (x : Except TypeFault Ty) : s.Looks (built x) fun _ t => x = .ok t := by
  unfold built
  split
  · next t =>
    exact .bind (catalog_looks (f := fun c => c.intern t) (Catalog.extends_intern _ t))
      fun _ _ _ _ => Core.looks_pure rfl
  · exact yields_throw

theorem pointerTo_looks (t : Ty) : s.Looks (pointerTo t) fun _ p => t.pointerTo = .ok p :=
  built_looks _

theorem arrayOf_looks (t : Ty) (count : Nat) :
    s.Looks (arrayOf t count) fun _ a => a = .array t count :=
  yields_word_bind.2 ((built_looks _).mono fun _ _ _ _ e => Ty.arrayOf_eq_ok e)

theorem areCompatible_looks (a b : Ty) : s.Looks (areCompatible a b) fun _ _ => True :=
  .bind (catalog_looks (f := fun c => c.internCompared a b)
    (Catalog.extends_internCompared _ a b)) fun _ _ _ _ => Core.looks_pure trivial

theorem checkCompatible_looks (a b : Ty) : s.Looks (checkCompatible a b) fun _ _ => True := by
  refine .bind (areCompatible_looks a b) fun _ ok _ _ => ?_
  split
  · exact yields_throw
  · exact Core.looks_pure trivial

/-! ### Values -/

theorem lookup_looks (id : Identifier) :
    s.Looks (lookup id) fun u v => v ∈ u.symbols.entries ∧ v.id = id := by
  refine yields_symbols_bind.2 ?_
  split
  · next v found => exact Core.looks_pure (Symbols.get?_eq_some found)
  · exact yields_throw

theorem naturalType_looks (v : Literal) : s.Looks (naturalType v) fun _ _ => True := by
  cases v with
  | integer => exact yields_word_bind.2 (Core.looks_pure trivial)
  | text => exact (pointerTo_looks _).forget
  | _ => exact Core.looks_pure trivial

theorem typeOf_looks (o : Operand) : s.Looks (typeOf o) fun _ _ => True := by
  cases o with
  | named id => exact .bind (lookup_looks id) fun _ _ _ _ => Core.looks_pure trivial
  | _ => exact Core.looks_pure trivial

theorem storage?_looks (o : Operand) : s.Looks (storage? o) fun _ _ => True := by
  cases o with
  | named id => exact .bind (lookup_looks id) fun _ _ _ _ => Core.looks_pure trivial
  | _ => exact Core.looks_pure trivial

theorem ownerOf?_looks (o : Operand) : s.Looks (ownerOf? o) fun _ _ => True := by
  cases o with
  | named id =>
    refine .bind (lookup_looks id) fun _ v _ _ => ?_
    split <;> exact Core.looks_pure trivial
  | _ => exact Core.looks_pure trivial

theorem readStorage_looks (address : Nat) (t : Ty) :
    s.Looks (readStorage address t) fun _ _ => True := by
  unfold readStorage
  split
  · exact .bind (catalog_looks (f := fun c => c.internDecay t) (Catalog.extends_internDecay _ t))
      fun _ _ _ _ => Core.looks_pure trivial
  · exact yields_memory_bind.2 (yields_catalog_bind.2 (yields_lift_bind fun _ _ =>
      Core.looks_pure trivial))

theorem read_looks (o : Operand) : s.Looks (read o) fun _ _ => True := by
  cases o with
  | value v t => exact Core.looks_pure trivial
  | place address t owner => exact readStorage_looks address _
  | named id => exact .bind (lookup_looks id) fun _ _ _ _ => readStorage_looks _ _

theorem readInteger_looks (o : Operand) : s.Looks (readInteger o) fun _ _ => True := by
  refine .bind (read_looks o) fun _ ⟨v, t⟩ _ _ => ?_
  dsimp only
  split
  · exact yields_throw
  · split
    · exact Core.looks_pure trivial
    · exact yields_catalog_bind.2 yields_throw

theorem readFloat_looks (o : Operand) : s.Looks (readFloat o) fun _ _ => True := by
  refine .bind (read_looks o) fun _ ⟨v, t⟩ _ _ => ?_
  dsimp only
  split
  · split
    · exact Core.looks_pure trivial
    · exact yields_throw
  · exact yields_throw

theorem readIndex_looks (o : Operand) : s.Looks (readIndex o) fun _ _ => True := by
  refine .bind (read_looks o) fun _ ⟨v, t⟩ _ _ => ?_
  dsimp only
  split
  · exact yields_throw
  · split
    · exact Core.looks_pure trivial
    · exact yields_throw

/-! ### Text -/

theorem followText_looks (o : Operand) : s.Looks (followText o) fun _ _ => True := by
  refine .bind (typeOf_looks o) fun _ t _ _ => ?_
  split
  · exact yields_throw
  · refine .bind (read_looks o) fun _ ⟨pointer, _⟩ _ _ => ?_
    dsimp only
    split
    · exact yields_memory_bind.2 (yields_lift fun _ _ _ => trivial)
    · exact yields_throw

theorem readStoredText_looks (o : Operand) : s.Looks (readStoredText o) fun _ _ => True := by
  refine .bind (storage?_looks o) fun _ place _ _ => ?_
  split
  · split
    · refine yields_memory_bind.2 (yields_catalog_bind.2 (yields_lift_bind fun _ _ => ?_))
      split
      · exact Core.looks_pure trivial
      · exact yields_throw
    · exact followText_looks o
  · exact followText_looks o

theorem readText_looks (o : Operand) : s.Looks (readText o) fun _ _ => True := by
  unfold readText
  split
  · exact Core.looks_pure trivial
  · exact readStoredText_looks o

theorem printedValue_looks (o : Operand) : s.Looks (printedValue o) fun _ _ => True := by
  refine .bind (read_looks o) fun _ ⟨v, t⟩ _ _ => ?_
  dsimp only
  split <;> exact Core.looks_pure trivial

theorem printable_looks (o : Operand) : s.Looks (printable o) fun _ _ => True := by
  refine .bind (typeOf_looks o) fun _ t _ _ => ?_
  dsimp only
  split
  · exact .caught (readText_looks o) fun _ _ _ => printedValue_looks o
  · exact printedValue_looks o

/-! ### Storage -/

/-- What is found at an address is held by the table. -/
theorem resolve_looks (address : Nat) (t : Ty) :
    s.Looks (resolve address t) fun u o => o.Held u.symbols := by
  refine yields_catalog_bind.2 ?_
  split
  · exact yields_throw
  · refine yields_symbols_bind.2 ?_
    split
    · next v found =>
      exact Core.looks_pure ⟨v, Symbols.mem_of_startingAt (Symbols.findTyped?_eq_some found).1, rfl⟩
    · split
      · exact Core.looks_pure trivial
      · exact yields_throw

theorem targetOf_looks (t : Ty) : s.Looks (targetOf t) fun _ _ => True := by
  unfold targetOf
  split
  · exact yields_throw
  · split
    · exact yields_throw
    · exact Core.looks_pure trivial

theorem follow_looks (o : Operand) : s.Looks (follow o) fun u p => p.Held u.symbols := by
  refine .bind (read_looks o) fun _ ⟨v, t⟩ _ _ => ?_
  refine .bind (targetOf_looks t) fun _ target _ _ => ?_
  split
  · exact resolve_looks _ _
  · exact yields_catalog_bind.2 yields_throw

theorem followTimes_looks : ∀ (levels : Nat) {s : Core} {o : Operand}, o.Held s.symbols →
    s.Looks (followTimes levels o) fun u p => p.Held u.symbols
  | 0, _, _, held => Core.looks_pure held
  | levels + 1, _, o, _ =>
    .bind (follow_looks o) fun _ _ _ held => followTimes_looks levels held

theorem elementOf_looks (base : Operand) (address : Nat) (element : Ty) (count : Nat) (i : Int) :
    s.Looks (elementOf base address element count i) fun u p => p.Held u.symbols := by
  refine yields_catalog_bind.2 ?_
  dsimp only
  split
  · exact yields_throw
  · refine .bind (ownerOf?_looks base) fun _ owner _ _ => ?_
    split
    · exact Core.looks_pure trivial
    · exact yields_throw

theorem elementBehind_looks (base : Operand) (i : Int) :
    s.Looks (elementBehind base i) fun u p => p.Held u.symbols := by
  refine .bind (read_looks base) fun _ ⟨v, t⟩ _ _ => ?_
  refine .bind (targetOf_looks t) fun _ target _ _ => yields_catalog_bind.2 ?_
  dsimp only
  split
  · exact resolve_looks _ _
  · exact yields_throw

/-! ### Arguments -/

theorem typeArgument_looks (o : Operand) : s.Looks (typeArgument o) fun _ _ => True := by
  refine .bind (read_looks o) fun _ ⟨v, t⟩ _ _ => ?_
  dsimp only
  split
  · refine yields_catalog_bind.2 ?_
    split
    · exact yields_throw
    · exact Core.looks_pure trivial
  · exact yields_catalog_bind.2 yields_throw

theorem reflectedType_looks (o : Operand) : s.Looks (reflectedType o) fun _ _ => True := by
  unfold reflectedType
  split
  · exact Core.looks_pure trivial
  · exact .bind (typeOf_looks o) fun _ _ _ _ => Core.looks_pure trivial

theorem checkArguments_looks (function : String) : ∀ (ps : List (String × Ty)) {s : Core}
    (os : List Operand) (position : Nat),
      s.Looks (checkArguments function position ps os) fun _ _ => True
  | [], _, _, _ => Core.looks_pure trivial
  | _ :: _, _, [], _ => Core.looks_pure trivial
  | p :: ps, _, o :: os, position => by
    refine .bind (typeOf_looks o) fun _ found _ _ => ?_
    refine .bind (areCompatible_looks p.2 found) fun _ ok _ _ => ?_
    split
    · exact yields_throw
    · exact checkArguments_looks function ps os (position + 1)

end Run

end ByteMachine
