import ByteMachine.Proofs.Bytes
import ByteMachine.Proofs.Observation
import ByteMachine.Proofs.StackEffect

/-!
# What evaluating an expression changes

The code of an expression reads the state, pushes operands, meets types, talks to the console and
takes blocks from the heap, which it may fill with text. Everything else stays: the variables that
were there are still there, in their order, and no byte outside of the new blocks is changed.
`Core.growing` says so of all states since a first one. Calls without a result are left out, since
one of them may release a block; an expression that is used for its value has none.

Key definitions: `Core.added`, `Core.Grown`, `Core.growing`, `Instr.Evaluates`.
Key theorems: `Run.allocateHeap_grows`, `Run.allocateText_grows`, `Run.invoke_grows`,
`Run.step_grows`, `Expr.evaluates_compile`, `Run.expression_grows`.
-/

namespace ByteMachine

open Discipline

namespace Core

/-- The variables of a later state behind as many as the first one has. -/
def added (s t : Core) : List Variable := t.symbols.entries.drop s.symbols.entries.length

/-- All that was registered since `s` are blocks of the heap, and no byte outside of them was
changed. -/
structure Grown (s t : Core) : Prop where
  entries : t.symbols.entries = s.symbols.entries ++ s.added t
  blocks : ∀ v ∈ s.added t, v.id.isHeap = true ∧ v.isAlias = false
  bytes : ∀ a : Nat, (∀ v ∈ s.added t, ¬ v.Owns a) → t.memory.bytes[a]? = s.memory.bytes[a]?

theorem added_of_eq {s t : Core} {more : List Variable}
    (h : t.symbols.entries = s.symbols.entries ++ more) : s.added t = more := by
  rw [added, h, List.drop_left]

theorem Grown.refl (s : Core) : s.Grown s where
  entries := by rw [added_of_eq (List.append_nil _).symm, List.append_nil]
  blocks := by rw [added_of_eq (List.append_nil _).symm]; exact List.forall_mem_nil _
  bytes := fun _ _ => rfl

/-- Only memory and the list of variables matter. -/
theorem Grown.congr {s t u : Core} (h : s.Grown t) (entries : u.symbols.entries = t.symbols.entries)
    (memory : u.memory = t.memory) : s.Grown u := by
  have same : s.added u = s.added t := congrArg (List.drop _) entries
  exact ⟨by rw [entries, same]; exact h.entries, by rw [same]; exact h.blocks,
    by rw [same, memory]; exact h.bytes⟩

/-- One more block. -/
theorem Grown.append {s t u : Core} (h : s.Grown t) {v : Variable} (heap : v.id.isHeap = true)
    (owner : v.isAlias = false) (entries : u.symbols.entries = t.symbols.entries ++ [v])
    (memory : u.memory = t.memory) : s.Grown u ∧ v ∈ s.added u := by
  have more : s.added u = s.added t ++ [v] :=
    added_of_eq (by rw [entries, h.entries, List.append_assoc])
  refine ⟨⟨by rw [entries, more, h.entries, List.append_assoc], ?_, ?_⟩, by simp [more]⟩
  · rw [more, List.forall_mem_append, List.forall_mem_singleton]
    exact ⟨h.blocks, heap, owner⟩
  · intro a free
    rw [more, List.forall_mem_append] at free
    rw [memory, h.bytes a free.1]

/-- All states keep to what has only grown since `base`, and what the stack names is registered. -/
def growing (base : Core) : Discipline Core where
  keeps := fun t => base.Grown t ∧ ∀ o ∈ t.stack, o.Held t.symbols
  leads := fun s t => s.symbols.entries <+: t.symbols.entries ∧ s.catalog.Extends t.catalog
  refl := fun _ => ⟨List.prefix_rfl, .refl _⟩
  trans := fun h k => ⟨h.1.trans k.1, h.2.trans k.2⟩

/-- From the core `s` on, a computation only adds to `base`, and its result is as described. -/
abbrev Grows {α : Type} (base s : Core) (x : Run α) (post : Core → α → Prop) : Prop :=
  (growing base).Yields s x post

variable {α : Type} {base s : Core} {x : Run α} {post : Core → α → Prop}

theorem Looks.grows (h : s.Looks x post) : base.Grows s x post := by
  refine h.within (fun _ => trivial) ?_
  rintro t ⟨grows, e⟩ ⟨grown, held⟩
  rw [e]
  exact ⟨⟨List.prefix_rfl, grows⟩, grown.congr rfl rfl, held⟩

theorem grows_pure {a : α} (h : post s a) : base.Grows s (pure a : Run α) post :=
  yields_pure.2 fun _ => h

end Core

theorem Operand.Held.grow {t u : Symbols} (h : t.entries <+: u.entries) {o : Operand}
    (held : o.Held t) : o.Held u := by
  cases o with
  | named id =>
    obtain ⟨v, mem, named⟩ := held
    exact ⟨v, h.subset mem, named⟩
  | _ => trivial

namespace Run

variable {base s : Core}

/-! ### Stack and console -/

theorem setStack_grows {f : Core → List Operand}
    (held : (∀ o ∈ s.stack, o.Held s.symbols) → ∀ o ∈ f s, o.Held s.symbols) :
    base.Grows s (modify fun s => { s with stack := f s }) fun u _ =>
      u = { s with stack := f s } :=
  yields_modify fun k => ⟨⟨List.prefix_rfl, .refl _⟩, ⟨k.1.congr rfl rfl, held k.2⟩, rfl⟩

theorem push_grows {o : Operand} (h : o.Held s.symbols) : base.Grows s (push o) fun _ _ => True :=
  (setStack_grows fun held => List.forall_mem_cons.2 ⟨h, held⟩).forget

theorem pushValue_grows (v : Literal) (t : Ty) : base.Grows s (pushValue v t) fun _ _ => True :=
  push_grows (o := .value v t) trivial

theorem pop_grows : base.Grows s pop fun u o => o.Held u.symbols := by
  refine .of_keeps fun keeps => ?_
  unfold pop
  refine yields_get_bind.2 ?_
  split
  · next o rest stack =>
    have held := keeps.2
    rw [stack, List.forall_mem_cons] at held
    refine .bind (setStack_grows (f := fun _ => rest) fun _ => held.2) ?_
    rintro _ _ - rfl
    exact Core.grows_pure held.1
  · exact yields_throw

theorem setConsole_grows {f : Core → Console} :
    base.Grows s (modify fun s => { s with console := f s }) fun _ _ => True :=
  yields_modify fun k => ⟨⟨List.prefix_rfl, .refl _⟩, ⟨k.1.congr rfl rfl, k.2⟩, trivial⟩

/-! ### Blocks of the heap -/

/-- The table gets one more block, which is among those that were added. -/
theorem setSymbols_grows {t : Symbols} {v : Variable} (heap : v.id.isHeap = true)
    (owner : v.isAlias = false) (entries : t.entries = s.symbols.entries ++ [v]) :
    base.Grows s (setSymbols t) fun u _ => v ∈ base.added u := by
  refine .of_keeps fun keeps => yields_modify fun _ => ?_
  obtain ⟨grown, mem⟩ := keeps.1.append (u := { s with symbols := t }) heap owner entries rfl
  have more : s.symbols.entries <+: t.entries := entries ▸ List.prefix_append _ _
  exact ⟨⟨more, .refl _⟩, ⟨grown, fun o mem => (keeps.2 o mem).grow more⟩, mem⟩

theorem allocate_grows {id : Identifier} (heap : id.isHeap = true) (t : Ty) :
    base.Grows s (allocate id t) fun u a =>
      ∃ v ∈ base.added u, v.address = a ∧ v.size = s.catalog.size t ∧ v.isAlias = false := by
  refine yields_catalog_bind.2 (yields_symbols_bind.2 (yields_lift_bind fun found ok => ?_))
  obtain ⟨address, table⟩ := found
  refine yields_lift_bind fun table' ok' => ?_
  have owner := Variable.isAlias_owner s.catalog id t address
  have entries := Symbols.entries_of_placed ok ok'
  exact .bind (setSymbols_grows heap owner entries) fun u _ _ mem =>
    Core.grows_pure ⟨_, mem, rfl, rfl, owner⟩

theorem allocateHeap_grows (t : Ty) :
    base.Grows s (allocateHeap t) fun u a =>
      ∃ v ∈ base.added u, v.address = a ∧ v.size = s.catalog.size t ∧ v.isAlias = false := by
  refine yields_symbols_bind.2 ?_
  have numbered : base.Grows s (setSymbols s.symbols.nextHeap.2) fun u _ =>
      u.catalog = s.catalog :=
    yields_modify fun k => ⟨⟨List.prefix_rfl, .refl _⟩, ⟨k.1.congr rfl rfl, k.2⟩, rfl⟩
  refine numbered.bind fun u _ _ same => ?_
  rw [← same]
  exact allocate_grows rfl t

/-- Bytes may be written that belong to a new block. -/
theorem setMemory_grows {m : Memory}
    (bytes : ∀ a : Nat, (∀ v ∈ base.added s, ¬ v.Owns a) → m.bytes[a]? = s.memory.bytes[a]?) :
    base.Grows s (setMemory m) fun _ _ => True := by
  refine yields_modify fun k => ⟨⟨List.prefix_rfl, .refl _⟩, ⟨⟨k.1.entries, k.1.blocks, ?_⟩, k.2⟩,
    trivial⟩
  exact fun a free => (bytes a free).trans (k.1.bytes a free)

/-- A text is copied into a new block that has room for it. -/
theorem copyText_grows {v : Variable} (mem : v ∈ base.added s) (owner : v.isAlias = false)
    (text : String) : base.Grows s (copyText v.address v.size text) fun _ _ => True := by
  refine yields_lift_bind fun bytes _ => ?_
  split
  · exact yields_throw
  · next room =>
    refine yields_memory_bind.2 (yields_lift_bind fun m e => setMemory_grows fun a free => ?_)
    refine Memory.getElem?_write_outside e ?_
    have outside : ¬ (v.address ≤ a ∧ a < v.stop) := fun h => free v mem ⟨owner, h⟩
    simp only [Variable.stop, List.length_append, List.length_singleton] at outside ⊢
    omega

theorem allocateText_grows (text : String) :
    base.Grows s (allocateText text) fun _ _ => True := by
  refine yields_lift_bind fun bytes _ => ?_
  refine .bind (arrayOf_looks Ty.char _).grows fun t array _ e => ?_
  refine .bind (allocateHeap_grows array) fun u address _ block => ?_
  obtain ⟨v, mem, rfl, size, owner⟩ := block
  have room : v.size = bytes.length + 1 := by
    rw [size, e]
    exact Nat.one_mul _
  rw [← room]
  exact .bind (copyText_grows mem owner text) fun _ _ _ _ => Core.grows_pure trivial

theorem storedValue_grows (t : Ty) (v : Literal) :
    base.Grows s (storedValue t v) fun _ _ => True := by
  unfold storedValue
  split
  · split
    · exact .bind (allocateText_grows _) fun _ _ _ _ => Core.grows_pure trivial
    · exact Core.grows_pure trivial
  · next array =>
    exact .bind (catalog_looks (f := fun c => c.internDecay array)
      (Catalog.extends_internDecay _ array)).grows fun _ _ _ _ => Core.grows_pure trivial
  · exact Core.grows_pure trivial

/-! ### Functions with a result -/

theorem pushPointer_grows (t : Ty) (address : Int) :
    base.Grows s (do pushValue (.integer address) (← pointerTo t)) fun _ _ => True :=
  .bind (pointerTo_looks t).grows fun _ _ _ _ => pushValue_grows _ _

theorem malloc_grows (o : Operand) : base.Grows s (malloc o) fun _ _ => True := by
  refine .bind (readInteger_looks o).grows fun _ n _ _ => ?_
  split
  · exact yields_throw
  · exact .bind (arrayOf_looks _ _).grows fun _ _ _ _ => .bind (allocateHeap_grows _)
      fun _ _ _ _ => pushPointer_grows _ _

theorem newObject_grows (o : Operand) : base.Grows s (newObject o) fun _ _ => True :=
  .bind (typeArgument_looks o).grows fun _ _ _ _ => .bind (allocateHeap_grows _)
    fun _ _ _ _ => pushPointer_grows _ _

theorem newArray_grows (type count : Operand) :
    base.Grows s (newArray type count) fun _ _ => True := by
  refine .bind (typeArgument_looks type).grows fun _ _ _ _ => ?_
  refine .bind (readInteger_looks count).grows fun _ n _ _ => ?_
  split
  · exact yields_throw
  · exact .bind (arrayOf_looks _ _).grows fun _ _ _ _ => .bind (allocateHeap_grows _)
      fun _ _ _ _ => pushPointer_grows _ _

theorem readLine_grows (prompt : String) : base.Grows s (readLine prompt) fun _ _ => True := by
  refine yields_get_bind.2 ?_
  dsimp only
  refine .bind (setConsole_grows (f := fun _ => _)) fun _ _ _ _ => ?_
  split
  · exact Core.grows_pure trivial
  · exact yields_throw

theorem input_grows (o : Operand) : base.Grows s (input o) fun _ _ => True :=
  .bind (readText_looks o).grows fun _ _ _ _ => .bind (readLine_grows _) fun _ _ _ _ =>
    .bind (allocateText_grows _) fun _ _ _ _ => pushPointer_grows _ _

theorem abs_grows (o : Operand) : base.Grows s (abs o) fun _ _ => True := by
  refine .bind (read_looks o).grows fun _ ⟨v, t⟩ _ _ => ?_
  dsimp only
  split
  · exact yields_throw
  · split
    · exact pushValue_grows _ _
    · split
      · exact yields_word_bind.2 (pushValue_grows _ _)
      · exact yields_throw

theorem cast_grows (target : Scalar) (o : Operand) :
    base.Grows s (cast target o) fun _ _ => True := by
  refine .bind (read_looks o).grows fun _ ⟨v, t⟩ _ _ => ?_
  dsimp only
  split
  · exact yields_throw
  · refine yields_word_bind.2 ?_
    split
    · exact pushValue_grows _ _
    · exact yields_catalog_bind.2 yields_throw

/-- A function that has a result releases nothing. -/
theorem invoke_grows {f : Builtin} (result : f.hasResult = true) (os : List Operand) :
    base.Grows s (invoke f os) fun _ _ => True := by
  unfold invoke
  split
  · exact malloc_grows _
  · cases result
  · cases result
  · exact newObject_grows _
  · exact newArray_grows _ _
  · exact .bind (reflectedType_looks _).grows fun _ _ _ _ => yields_catalog_bind.2
      (pushValue_grows _ _)
  · exact .bind (reflectedType_looks _).grows fun _ _ _ _ => pushValue_grows _ _
  · cases result
  · exact input_grows _
  · exact .bind (readText_looks _).grows fun _ _ _ _ => yields_lift_bind fun _ _ =>
      pushValue_grows _ _
  · exact abs_grows _
  · exact .bind (readFloat_looks _).grows fun _ _ _ _ => pushValue_grows _ _
  · exact .bind (readFloat_looks _).grows fun _ _ _ _ => .bind (readFloat_looks _).grows
      fun _ _ _ _ => pushValue_grows _ _
  · exact cast_grows _ _
  · exact yields_throw

theorem call_grows {function : String} (result : resultsOf function = 1) (count : Nat) :
    base.Grows s (call function count) fun _ _ => True := by
  refine yields_get_bind.2 ?_
  dsimp only
  split
  · exact yields_throw
  · refine .bind (setStack_grows (f := fun _ => s.stack.drop count) fun held o mem =>
      held o (List.mem_of_mem_drop mem)) fun _ _ _ _ => ?_
    split
    · exact yields_throw
    · next f known =>
      have result : f.hasResult = true := by
        simp only [resultsOf, known, Builtin.results] at result
        split at result
        · assumption
        · cases result
      split
      · exact yields_throw
      · exact .bind (checkArguments_looks _ _ _ _).grows fun _ _ _ _ => invoke_grows result _

end Run

/-! ### Code that evaluates -/

/-- An instruction that neither declares nor assigns nor throws a value away, nor calls a function
without a result. -/
def Instr.Evaluates : Instr → Prop
  | .push _ | .pushTyped _ _ | .pushName _ => True
  | .addressOf | .dereference _ | .index | .binary _ => True
  | .call function _ => resultsOf function = 1
  | _ => False

namespace Expr

mutual

/-- An expression that leaves a value and misuses no call is evaluated. -/
theorem evaluates_compile : ∀ e : Expr, e.misuses = 0 → e.lack = 0 →
    ∀ i ∈ e.compile, i.Evaluates
  | literal _, _, _ | null, _, _ | typeName _, _, _ | name _, _, _ =>
    List.forall_mem_singleton.2 trivial
  | negate e, proper, _ => by
    obtain ⟨none, whole⟩ := Nat.add_eq_zero_iff.1 proper
    have inner := evaluates_compile e none whole
    simp only [compile, List.forall_mem_cons, List.forall_mem_append]
    exact ⟨trivial, inner, trivial, List.forall_mem_nil _⟩
  | dereference _ e, proper, _ | addressOf e, proper, _ => by
    obtain ⟨none, whole⟩ := Nat.add_eq_zero_iff.1 proper
    have inner := evaluates_compile e none whole
    simp only [compile, List.forall_mem_cons, List.forall_mem_append]
    exact ⟨inner, trivial, List.forall_mem_nil _⟩
  | index l r, proper, _ | binary _ l r, proper, _ => by
    simp only [misuses, Nat.add_eq_zero_iff] at proper
    have left := evaluates_compile l proper.1.1 proper.1.2
    have right := evaluates_compile r proper.2.1 proper.2.2
    simp only [compile, List.forall_mem_cons, List.forall_mem_append]
    exact ⟨left, right, trivial, List.forall_mem_nil _⟩
  | newObject _, _, _ => by
    simp only [compile, List.forall_mem_cons]
    exact ⟨trivial, rfl, List.forall_mem_nil _⟩
  | newArray _ e, proper, _ => by
    obtain ⟨none, whole⟩ := Nat.add_eq_zero_iff.1 proper
    have inner := evaluates_compile e none whole
    simp only [compile, List.forall_mem_cons, List.forall_mem_append]
    exact ⟨trivial, inner, rfl, List.forall_mem_nil _⟩
  | delete _, _, whole => nomatch whole
  | call function es, proper, whole => by
    have inner := evaluates_compileAll es proper
    have result : resultsOf function = 1 := by
      have := (call function es).results_add_lack
      rwa [whole] at this
    simp only [compile, List.forall_mem_cons, List.forall_mem_append]
    exact ⟨inner, result, List.forall_mem_nil _⟩

theorem evaluates_compileAll : ∀ es : List Expr, misusesAll es = 0 →
    ∀ i ∈ compileAll es, i.Evaluates
  | [], _ => List.forall_mem_nil _
  | e :: es, proper => by
    simp only [misusesAll, Nat.add_eq_zero_iff] at proper
    have first := evaluates_compile e proper.1.1 proper.1.2
    have rest := evaluates_compileAll es proper.2
    simp only [compileAll, List.forall_mem_append]
    exact ⟨first, rest⟩

end

end Expr

namespace Run

variable {base s : Core}

theorem addressOf_grows : base.Grows s addressOf fun _ _ => True := by
  refine .bind pop_grows fun _ o _ _ => ?_
  refine .bind (storage?_looks o).grows fun _ place _ _ => ?_
  split
  · exact yields_throw
  · exact pushPointer_grows _ _

theorem index_grows : base.Grows s index fun _ _ => True := by
  refine .bind pop_grows fun _ position _ _ => ?_
  refine .bind pop_grows fun _ o _ _ => ?_
  refine .bind (readIndex_looks position).grows fun _ i _ _ => ?_
  refine .bind (storage?_looks o).grows fun u place _ _ => ?_
  have behind : base.Grows u (do push (← elementBehind o i)) fun _ _ => True :=
    .bind (elementBehind_looks o i).grows fun _ _ _ held => push_grows held
  split
  · split
    · exact .bind (elementOf_looks o _ _ _ i).grows fun _ _ _ held => push_grows held
    · exact behind
  · exact behind

theorem binary_grows (op : Operator) : base.Grows s (binary op) fun _ _ => True := by
  refine .bind pop_grows fun _ right _ _ => ?_
  refine .bind pop_grows fun _ left _ _ => ?_
  refine .bind (read_looks left).grows fun _ ⟨_, _⟩ _ _ => ?_
  refine .bind (read_looks right).grows fun _ ⟨_, _⟩ _ _ => ?_
  refine .bind (checkCompatible_looks _ _).grows fun _ _ _ _ => ?_
  exact yields_word_bind.2 (yields_lift_bind fun ⟨_, _⟩ _ => pushValue_grows _ _)

/-- One instruction that evaluates, whichever it is. -/
theorem step_grows {i : Instr} (evaluates : i.Evaluates) :
    base.Grows s (step i) fun _ _ => True := by
  cases i with
  | push v => exact .bind (naturalType_looks v).grows fun _ _ _ _ => pushValue_grows _ _
  | pushTyped v t => exact pushValue_grows v t
  | pushName id =>
    exact .bind (lookup_looks id).grows fun _ v _ found => push_grows ⟨v, found⟩
  | addressOf => exact addressOf_grows
  | dereference levels =>
    exact .bind pop_grows fun _ _ _ held => .bind (followTimes_looks levels held).grows
      fun _ _ _ held => push_grows held
  | index => exact index_grows
  | binary op => exact binary_grows op
  | call function count => exact call_grows evaluates count
  | assign | create | discard => exact evaluates.elim

theorem code_grows : ∀ (is : List Instr) {s : Core}, (∀ i ∈ is, i.Evaluates) →
    base.Grows s (code is) fun _ _ => True
  | [], _, _ => Core.grows_pure trivial
  | i :: is, _, evaluate => by
    rw [List.forall_mem_cons] at evaluate
    exact .bind (step_grows evaluate.1) fun _ _ _ _ => code_grows is evaluate.2

/-- An expression that is used for its value only adds blocks of the heap. -/
theorem expression_grows {e : Expr} (proper : e.misuses = 0) (whole : e.lack = 0) :
    base.Grows s (code e.compile) fun _ _ => True :=
  code_grows _ (e.evaluates_compile proper whole)

end Run

end ByteMachine
