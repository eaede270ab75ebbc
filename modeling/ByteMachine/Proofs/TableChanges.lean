import ByteMachine.Proofs.Sizes
import Mathlib.Logic.Relation

/-!
# What runs do to the table

However far a statement gets, all it does to the table is made of a few changes: a number is given
out for a name, an owner is placed where room was found for it, an alias is registered, or a
variable is removed. Nothing is asked of the core for that; where the size of what is stored hangs
on the types that were met, in indexing and in making a reference, more is needed than this.

Nothing that a pointer leads to is of type `any`, since a pointer to `any` cannot be followed.

Key definitions: `Symbols.Change`, `Symbols.Changes`, `Operand.Typed`, `Core.tracking`.
Key theorems: `Core.Looks.tracks`, `Run.allocate_tracked`, `Run.followTimes_tracked`,
`Run.assignTo_tracked`, `Run.invoke_tracked`, `Run.call_tracked`.
-/

namespace ByteMachine

open Discipline

/-! ### Changes -/

namespace Symbols

/-- One change of a table. A new variable has a name that may be declared or, if it is a heap
block, the last number given out. -/
inductive Change (declared : Identifier → Prop) : Symbols → Symbols → Prop where
  | counted (s : Symbols) : Change declared s s.nextHeap.2
  | numbered (s : Symbols) : Change declared s s.nextTemporary.2
  | placed {s t u : Symbols} {v : Variable} (owner : v.isAlias = false)
    (name : declared v.id ∨ ∃ n, s.heapSerial = n + 1 ∧ v.id = .heap (n + 1))
    (found : s.allocate v.size = .ok (v.address, t)) (inserted : t.insert v = .ok u) :
    Change declared s u
  | aliased {s t : Symbols} {v : Variable} (reference : v.isAlias = true) (name : declared v.id)
    (sized : 0 < v.size ∨ ∃ w ∈ s.entries, w.size = v.size) (inserted : s.insert v = .ok t) :
    Change declared s t
  | removed (s : Symbols) (id : Identifier) : Change declared s (s.remove id)

/-- Any number of changes, one after the other. -/
abbrev Changes (declared : Identifier → Prop) : Symbols → Symbols → Prop :=
  Relation.ReflTransGen (Change declared)

variable {declared : Identifier → Prop}

theorem changes_removeAll : ∀ (ids : List Identifier) (s : Symbols),
    Changes declared s (ids.foldl remove s)
  | [], _ => .refl
  | id :: ids, s => .head (.removed s id) (changes_removeAll ids (s.remove id))

end Symbols

/-! ### The discipline -/

/-- A place is not of type `any`. -/
def Operand.Typed : Operand → Prop
  | .place _ t _ => t.isAny = false
  | _ => True

namespace Core

/-- The table goes through changes; no place on the stack is of type `any`. -/
def tracking (declared : Identifier → Prop) : Discipline Core where
  keeps := fun s => ∀ o ∈ s.stack, o.Typed
  leads := fun s t => Symbols.Changes declared s.symbols t.symbols
  refl := fun _ => .refl
  trans := Relation.ReflTransGen.trans

/-- From the core `s` on, a computation, failed or not, takes the table through changes and has a
result as described. -/
abbrev Tracks {α : Type} (declared : Identifier → Prop) (s : Core) (x : Run α)
    (post : Core → α → Prop) : Prop :=
  (tracking declared).Yields s x post

variable {declared : Identifier → Prop} {α : Type} {s : Core} {x : Run α}
  {post : Core → α → Prop}

theorem tracks_pure {a : α} (h : post s a) : s.Tracks declared (pure a) post :=
  yields_pure.2 fun _ => h

theorem tracks_modify {f : Core → Core} (symbols : (f s).symbols = s.symbols)
    (stack : (f s).stack ⊆ s.stack) : s.Tracks declared (modify f) fun _ _ => True :=
  yields_modify fun k => by
    refine ⟨?_, fun o mem => k o (stack mem), trivial⟩
    show Symbols.Changes declared s.symbols (f s).symbols
    rw [symbols]

/-- What only looks changes nothing. -/
theorem Looks.tracks (h : s.Looks x post) : s.Tracks declared x post := by
  refine h.within (fun _ => trivial) ?_
  rintro t ⟨-, e⟩ k
  rw [e]
  exact ⟨.refl, k⟩

end Core

namespace Run

variable {declared : Identifier → Prop} {s : Core}

/-! ### Operands and storage -/

theorem setSymbols_tracked {t : Symbols} (changes : Symbols.Changes declared s.symbols t) :
    s.Tracks declared (setSymbols t) fun u _ => u = { s with symbols := t } :=
  yields_modify fun k => ⟨changes, k, rfl⟩

theorem setMemory_tracked (m : Memory) :
    s.Tracks declared (setMemory m) fun _ _ => True :=
  Core.tracks_modify rfl (List.Subset.refl _)

theorem push_tracked {o : Operand} (typed : o.Typed) :
    s.Tracks declared (push o) fun _ _ => True :=
  yields_modify fun k => ⟨.refl, List.forall_mem_cons.2 ⟨typed, k⟩, trivial⟩

theorem pushValue_tracked (v : Literal) (t : Ty) :
    s.Tracks declared (pushValue v t) fun _ _ => True :=
  push_tracked trivial

theorem pop_tracked : s.Tracks declared pop fun _ o => o.Typed := by
  refine .of_keeps fun k => yields_get_bind.2 ?_
  split
  · next o rest stack =>
    have top : o ∈ s.stack := stack ▸ List.mem_cons_self
    have smaller : rest ⊆ s.stack := stack ▸ List.subset_cons_self o rest
    exact .andThen (Core.tracks_modify (f := fun s => { s with stack := rest }) rfl smaller)
      fun _ _ => Core.tracks_pure (k o top)
  · exact yields_throw

theorem allocate_tracked {id : Identifier} (t : Ty)
    (name : declared id ∨ ∃ n, s.symbols.heapSerial = n + 1 ∧ id = .heap (n + 1)) :
    s.Tracks declared (allocate id t) fun _ _ => True := by
  refine yields_catalog_bind.2 <| yields_symbols_bind.2 <| yields_lift_bind fun ⟨a, table⟩ found =>
    yields_lift_bind fun table' inserted => ?_
  have change : Symbols.Change declared s.symbols table' :=
    .placed (v := .owner s.catalog id t a) (Variable.isAlias_owner _ _ _ _) name found inserted
  exact .andThen (setSymbols_tracked (.single change)).forget fun _ _ => Core.tracks_pure trivial

/-- A heap block has the number that was given out for it. -/
theorem allocateHeap_tracked (t : Ty) : s.Tracks declared (allocateHeap t) fun _ _ => True := by
  refine yields_symbols_bind.2 (.bind (setSymbols_tracked (.single (.counted s.symbols))) ?_)
  rintro _ _ - rfl
  exact allocate_tracked t (.inr ⟨s.symbols.heapSerial, rfl, rfl⟩)

theorem targetOf_tracked (t : Ty) :
    s.Tracks declared (targetOf t) fun _ target => target.isAny = false := by
  unfold targetOf
  split
  · exact yields_throw
  · split
    · exact yields_throw
    · next typed => exact Core.tracks_pure (Bool.eq_false_iff.2 typed)

theorem resolve_tracked {t : Ty} (typed : t.isAny = false) (address : Nat) :
    s.Tracks declared (resolve address t) fun _ o => o.Typed := by
  refine yields_catalog_bind.2 ?_
  split
  · exact yields_throw
  · refine yields_symbols_bind.2 ?_
    split
    · exact Core.tracks_pure trivial
    · split
      · exact Core.tracks_pure typed
      · exact yields_throw

theorem follow_tracked (o : Operand) : s.Tracks declared (follow o) fun _ p => p.Typed := by
  refine .andThen (read_looks o).tracks fun _ ⟨v, t⟩ => ?_
  refine .bind (targetOf_tracked t) fun _ target _ typed => ?_
  split
  · exact resolve_tracked typed _
  · exact yields_catalog_bind.2 yields_throw

theorem followTimes_tracked : ∀ (levels : Nat) {s : Core} {o : Operand}, o.Typed →
    s.Tracks declared (followTimes levels o) fun _ p => p.Typed
  | 0, _, _, typed => Core.tracks_pure typed
  | levels + 1, _, o, _ =>
    .bind (follow_tracked o) fun _ _ _ typed => followTimes_tracked levels typed

theorem elementOf_tracked {element : Ty} (typed : element.isAny = false) (base : Operand)
    (address count : Nat) (i : Int) :
    s.Tracks declared (elementOf base address element count i) fun _ o => o.Typed := by
  refine yields_catalog_bind.2 ?_
  dsimp only
  split
  · exact yields_throw
  · refine .andThen (ownerOf?_looks base).tracks fun _ owner => ?_
    split
    · exact Core.tracks_pure typed
    · exact yields_throw

theorem elementBehind_tracked (base : Operand) (i : Int) :
    s.Tracks declared (elementBehind base i) fun _ o => o.Typed := by
  refine .andThen (read_looks base).tracks fun _ ⟨v, t⟩ => ?_
  refine .bind (targetOf_tracked t) fun _ target _ typed => yields_catalog_bind.2 ?_
  dsimp only
  split
  · exact resolve_tracked typed _
  · exact yields_throw

/-! ### Writing -/

theorem store_tracked (address : Nat) (t : Ty) (v : Literal) :
    s.Tracks declared (do setMemory (← lift ((← memory).store (← catalog) address t v)))
      fun _ _ => True :=
  yields_memory_bind.2 <| yields_catalog_bind.2 <| yields_lift_bind fun _ _ => setMemory_tracked _

theorem copyText_tracked (address capacity : Nat) (text : String) :
    s.Tracks declared (copyText address capacity text) fun _ _ => True := by
  refine yields_lift_bind fun bytes _ => ?_
  split
  · exact yields_throw
  · exact yields_memory_bind.2 (yields_lift_bind fun _ _ => setMemory_tracked _)

theorem allocateText_tracked (text : String) :
    s.Tracks declared (allocateText text) fun _ _ => True :=
  yields_lift_bind fun _ _ => .andThen (arrayOf_looks _ _).tracks fun _ _ =>
    .andThen (allocateHeap_tracked _) fun _ _ => .andThen (copyText_tracked _ _ _) fun _ _ =>
      Core.tracks_pure trivial

theorem storedValue_tracked (t : Ty) (v : Literal) :
    s.Tracks declared (storedValue t v) fun _ _ => True := by
  unfold storedValue
  split
  · split
    · exact .andThen (allocateText_tracked _) fun _ _ => Core.tracks_pure trivial
    · exact Core.tracks_pure trivial
  · exact .andThen (Core.tracks_modify rfl (List.Subset.refl _)) fun _ _ =>
      Core.tracks_pure trivial
  · exact Core.tracks_pure trivial

theorem storeValue_tracked (address : Nat) (t : Ty) (v : Literal) :
    s.Tracks declared (storeValue address t v) fun _ _ => True :=
  .andThen (storedValue_tracked t v) fun _ _ => store_tracked _ _ _

theorem assignTo_tracked (address : Nat) (target : Ty) (source : Operand) :
    s.Tracks declared (assignTo address target source) fun _ _ => True := by
  unfold assignTo
  split
  · split
    · exact .andThen (readText_looks source).tracks fun _ _ => copyText_tracked _ _ _
    · exact yields_throw
  · exact .andThen (read_looks source).tracks fun _ ⟨v, t⟩ =>
      .andThen (checkCompatible_looks target t).tracks fun _ _ =>
        storeValue_tracked address target v

/-! ### Functions -/

theorem pushPointer_tracked (t : Ty) (address : Int) :
    s.Tracks declared (do pushValue (.integer address) (← pointerTo t)) fun _ _ => True :=
  .andThen (pointerTo_looks t).tracks fun _ _ => pushValue_tracked _ _

theorem malloc_tracked (size : Operand) : s.Tracks declared (malloc size) fun _ _ => True := by
  refine .andThen (readInteger_looks size).tracks fun _ n => ?_
  split
  · exact yields_throw
  · exact .andThen (arrayOf_looks _ _).tracks fun _ _ =>
      .andThen (allocateHeap_tracked _) fun _ _ => pushPointer_tracked _ _

theorem release_tracked (pointer : Operand) :
    s.Tracks declared (release pointer) fun _ _ => True := by
  refine .andThen (read_looks pointer).tracks fun t ⟨v, _⟩ => ?_
  dsimp only
  split
  · exact yields_throw
  · split
    · exact Core.tracks_pure trivial
    · exact yields_symbols_bind.2 (yields_lift_bind fun block _ =>
        (setSymbols_tracked (.single (.removed t.symbols block))).forget)

theorem newObject_tracked (type : Operand) :
    s.Tracks declared (newObject type) fun _ _ => True :=
  .andThen (typeArgument_looks type).tracks fun _ _ =>
    .andThen (allocateHeap_tracked _) fun _ _ => pushPointer_tracked _ _

theorem newArray_tracked (type count : Operand) :
    s.Tracks declared (newArray type count) fun _ _ => True := by
  refine .andThen (typeArgument_looks type).tracks fun _ _ => ?_
  refine .andThen (readInteger_looks count).tracks fun _ n => ?_
  split
  · exact yields_throw
  · exact .andThen (arrayOf_looks _ _).tracks fun _ _ =>
      .andThen (allocateHeap_tracked _) fun _ _ => pushPointer_tracked _ _

theorem readLine_tracked (prompt : String) :
    s.Tracks declared (readLine prompt) fun _ _ => True := by
  refine yields_get_bind.2 (.andThen (Core.tracks_modify rfl (List.Subset.refl _)) fun _ _ => ?_)
  split
  · exact Core.tracks_pure trivial
  · exact yields_throw

theorem input_tracked (prompt : Operand) : s.Tracks declared (input prompt) fun _ _ => True :=
  .andThen (readText_looks prompt).tracks fun _ _ => .andThen (readLine_tracked _) fun _ _ =>
    .andThen (allocateText_tracked _) fun _ _ => pushPointer_tracked _ _

theorem abs_tracked (o : Operand) : s.Tracks declared (abs o) fun _ _ => True := by
  refine .andThen (read_looks o).tracks fun _ ⟨v, t⟩ => ?_
  dsimp only
  split
  · exact yields_throw
  · split
    · exact pushValue_tracked _ _
    · split
      · exact yields_word_bind.2 (pushValue_tracked _ _)
      · exact yields_throw

theorem cast_tracked (target : Scalar) (o : Operand) :
    s.Tracks declared (cast target o) fun _ _ => True := by
  refine .andThen (read_looks o).tracks fun _ ⟨v, t⟩ => ?_
  dsimp only
  split
  · exact yields_throw
  · refine yields_word_bind.2 ?_
    split
    · exact pushValue_tracked _ _
    · exact yields_catalog_bind.2 yields_throw

theorem invoke_tracked (f : Builtin) (arguments : List Operand) :
    s.Tracks declared (invoke f arguments) fun _ _ => True := by
  unfold invoke
  split
  · exact malloc_tracked _
  · exact release_tracked _
  · exact release_tracked _
  · exact newObject_tracked _
  · exact newArray_tracked _ _
  · exact .andThen (reflectedType_looks _).tracks fun _ _ => yields_catalog_bind.2
      (pushValue_tracked _ _)
  · exact .andThen (reflectedType_looks _).tracks fun _ _ => pushValue_tracked _ _
  · exact .andThen (printable_looks _).tracks fun _ _ =>
      Core.tracks_modify rfl (List.Subset.refl _)
  · exact input_tracked _
  · exact .andThen (readText_looks _).tracks fun _ _ => yields_lift_bind fun _ _ =>
      pushValue_tracked _ _
  · exact abs_tracked _
  · exact .andThen (readFloat_looks _).tracks fun _ _ => pushValue_tracked _ _
  · exact .andThen (readFloat_looks _).tracks fun _ _ => .andThen (readFloat_looks _).tracks
      fun _ _ => pushValue_tracked _ _
  · exact cast_tracked _ _
  · exact yields_throw

theorem call_tracked (function : String) (count : Nat) :
    s.Tracks declared (call function count) fun _ _ => True := by
  refine yields_get_bind.2 ?_
  dsimp only
  split
  · exact yields_throw
  · refine .andThen (Core.tracks_modify (f := fun u => { u with stack := s.stack.drop count }) rfl
      (List.drop_subset _ _)) fun _ _ => ?_
    split
    · exact yields_throw
    · split
      · exact yields_throw
      · exact .andThen (checkArguments_looks _ _ _ _).tracks fun _ _ => invoke_tracked _ _

/-! ### Instructions -/

theorem addressOf_tracked : s.Tracks declared addressOf fun _ _ => True := by
  refine .andThen pop_tracked fun _ o => .andThen (storage?_looks o).tracks fun _ place => ?_
  split
  · exact yields_throw
  · exact pushPointer_tracked _ _

theorem dereference_tracked (levels : Nat) :
    s.Tracks declared (dereference levels) fun _ _ => True :=
  .bind pop_tracked fun _ _ _ typed => .bind (followTimes_tracked levels typed) fun _ _ _ found =>
    push_tracked found

theorem binary_tracked (op : Operator) : s.Tracks declared (binary op) fun _ _ => True :=
  .andThen pop_tracked fun _ right => .andThen pop_tracked fun _ left =>
    .andThen (read_looks left).tracks fun _ ⟨_, lt⟩ =>
      .andThen (read_looks right).tracks fun _ ⟨_, rt⟩ =>
        .andThen (checkCompatible_looks lt rt).tracks fun _ _ => yields_word_bind.2 <|
          yields_lift_bind fun ⟨_, _⟩ _ => pushValue_tracked _ _

theorem assign_tracked : s.Tracks declared assign fun _ _ => True := by
  refine .andThen pop_tracked fun _ source => .bind pop_tracked fun _ target _ typed => ?_
  refine .andThen (storage?_looks target).tracks fun _ place => ?_
  split
  · exact yields_throw
  · exact .andThen (assignTo_tracked _ _ source) fun _ _ => push_tracked typed

theorem makeScalar_tracked {id : Identifier} (name : declared id) (t : Ty)
    (initial : Option Operand) : s.Tracks declared (makeScalar id t initial) fun _ _ => True := by
  refine yields_catalog_bind.2 ?_
  split
  · exact yields_throw
  · split
    · exact .andThen (allocate_tracked t (.inl name)) fun _ _ => Core.tracks_pure trivial
    · exact .andThen (read_looks _).tracks fun _ ⟨v, found⟩ =>
        .andThen (checkCompatible_looks t found).tracks fun _ _ =>
          .andThen (allocate_tracked t (.inl name)) fun _ address => storeValue_tracked address t v

theorem createScalar_tracked {id : Identifier} (name : declared id) (t : Ty)
    (initialized : Bool) : s.Tracks declared (createScalar id t initialized) fun _ _ => True := by
  unfold createScalar
  cases initialized with
  | true =>
    have initial : s.Tracks declared (some <$> pop) fun _ _ => True :=
      pop_tracked.map fun _ _ _ => trivial
    exact initial.andThen fun _ initial => makeScalar_tracked name t initial
  | false =>
    exact makeScalar_tracked name t none

theorem createArray_tracked {id : Identifier} (name : declared id) (t : Ty)
    (initialized : Bool) : s.Tracks declared (createArray id t initialized) fun _ _ => True := by
  refine .andThen (allocate_tracked t (.inl name)) fun _ address => ?_
  split
  · exact yields_catalog_bind.2 (yields_memory_bind.2 (yields_lift_bind fun _ _ =>
      setMemory_tracked _))
  · exact Core.tracks_pure trivial

theorem temporary_tracked (v : Literal) (t : Ty) (address : Nat) :
    s.Tracks declared (temporary v t address) fun _ _ => True :=
  yields_symbols_bind.2 <| .andThen (setSymbols_tracked (.single (.numbered s.symbols))).forget
    fun _ _ => yields_catalog_bind.2 (Core.tracks_pure trivial)

theorem resultOf_tracked (o : Operand) : s.Tracks declared (resultOf o) fun _ _ => True := by
  cases o with
  | named id => exact (lookup_looks id).tracks.forget
  | place address t owner =>
    exact yields_memory_bind.2 <| yields_catalog_bind.2 <| yields_lift_bind fun v _ =>
      temporary_tracked v t address
  | value v t => exact temporary_tracked v t 0

end Run

end ByteMachine
