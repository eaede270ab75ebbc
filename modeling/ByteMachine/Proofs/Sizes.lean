import ByteMachine.Proofs.Reconfiguration
import ByteMachine.Proofs.Observation

/-!
# The size of memory

Memory is as large as it was made, whatever is done with it. That needs no more of a core than
that it is one: a write that fits replaces as many bytes as it brings, and one that does not fit is
refused. So a machine that a failed change of the word size has left, whose variables may disagree
with its catalog, still has a memory as large as those in its history, and there is no entry that
it cannot go back to.

Key definitions: `Core.sizing`, `Core.KeepsSize`, `Machine.Uniform`.
Key theorems: `Run.code_sized`, `Run.statement_sized`, `Run.registerAll_sized`,
`Machine.Uniform.execute`, `Machine.Uniform.reset`, `Machine.Uniform.revert_eq`.
-/

namespace ByteMachine

open Discipline

/-- A second step that keeps to the discipline from every state needs nothing of the first. -/
theorem Discipline.Yields.andThen {σ ε α β : Type} {d : Discipline σ} {s : σ}
    {x : ExceptT ε (StateM σ) α} {f : α → ExceptT ε (StateM σ) β} {mid : σ → α → Prop}
    {post : σ → β → Prop} (hx : d.Yields s x mid) (hf : ∀ t a, d.Yields t (f a) post) :
    d.Yields s (x >>= f) post :=
  hx.bind fun t a _ _ => hf t a

namespace Core

/-- Memory keeps its size; nothing else is asked of a core. -/
def sizing : Discipline Core where
  keeps := fun _ => True
  leads := fun s t => t.memory.size = s.memory.size
  refl := fun _ => rfl
  trans := fun h k => k.trans h

/-- From the core `s` on, a computation, failed or not, leaves a memory of the same size. -/
abbrev KeepsSize {α : Type} (s : Core) (x : Run α) : Prop := sizing.Yields s x fun _ _ => True

variable {α : Type} {s : Core} {x : Run α}

theorem KeepsSize.eq (h : s.KeepsSize x) : (x.run.run s).2.memory.size = s.memory.size :=
  (h trivial).1

theorem keepsSize_pure (a : α) : s.KeepsSize (pure a) := yields_pure.2 fun _ => trivial

theorem KeepsSize.map {β : Type} (h : s.KeepsSize x) (f : α → β) : s.KeepsSize (f <$> x) :=
  Yields.map h fun _ _ _ => trivial

theorem keepsSize_modify {f : Core → Core} (h : (f s).memory.size = s.memory.size) :
    s.KeepsSize (modify f) :=
  yields_modify fun _ => ⟨h, trivial, trivial⟩

/-- What only looks does not touch memory. -/
theorem Looks.sized {post : Core → α → Prop} (h : s.Looks x post) : s.KeepsSize x := by
  refine (h.within (fun _ => trivial) ?_).forget
  rintro t ⟨-, e⟩ -
  rw [e]
  exact ⟨rfl, trivial⟩

end Core

namespace Run

variable {s : Core}

/-! ### Operands and storage -/

theorem setSymbols_sized (t : Symbols) : s.KeepsSize (setSymbols t) := Core.keepsSize_modify rfl

theorem push_sized (o : Operand) : s.KeepsSize (push o) := Core.keepsSize_modify rfl

theorem pushValue_sized (v : Literal) (t : Ty) : s.KeepsSize (pushValue v t) := push_sized _

theorem pop_sized : s.KeepsSize pop := by
  refine yields_get_bind.2 ?_
  split
  · exact .andThen (Core.keepsSize_modify rfl) fun _ _ => Core.keepsSize_pure _
  · exact yields_throw

theorem allocate_sized (id : Identifier) (t : Ty) : s.KeepsSize (allocate id t) :=
  yields_catalog_bind.2 <| yields_symbols_bind.2 <| yields_lift_bind fun _ _ =>
    yields_lift_bind fun _ _ => .andThen (setSymbols_sized _) fun _ _ => Core.keepsSize_pure _

theorem allocateHeap_sized (t : Ty) : s.KeepsSize (allocateHeap t) :=
  yields_symbols_bind.2 (.andThen (setSymbols_sized _) fun _ _ => allocate_sized _ t)

theorem followTimes_sized : ∀ (levels : Nat) {s : Core} (o : Operand),
    s.KeepsSize (followTimes levels o)
  | 0, _, _ => Core.keepsSize_pure _
  | levels + 1, _, o => .andThen (follow_looks o).sized fun _ p => followTimes_sized levels p

/-! ### Writing -/

theorem write_sized (address : Nat) (bytes : List UInt8) :
    s.KeepsSize (do setMemory (← lift ((← memory).write address bytes))) :=
  yields_memory_bind.2 (yields_lift_bind fun _ e => Core.keepsSize_modify (Memory.write_eq_ok e).1)

theorem store_sized (address : Nat) (t : Ty) (v : Literal) :
    s.KeepsSize (do setMemory (← lift ((← memory).store (← catalog) address t v))) :=
  yields_memory_bind.2 <| yields_catalog_bind.2 <| yields_lift_bind fun _ e =>
    Core.keepsSize_modify (Memory.store_eq_ok e).1

theorem copyText_sized (address capacity : Nat) (text : String) :
    s.KeepsSize (copyText address capacity text) := by
  refine yields_lift_bind fun bytes _ => ?_
  split
  · exact yields_throw
  · exact write_sized _ _

theorem allocateText_sized (text : String) : s.KeepsSize (allocateText text) :=
  yields_lift_bind fun _ _ => .andThen (arrayOf_looks _ _).sized fun _ _ =>
    .andThen (allocateHeap_sized _) fun _ _ => .andThen (copyText_sized _ _ _) fun _ _ =>
      Core.keepsSize_pure _

theorem storedValue_sized (t : Ty) (v : Literal) : s.KeepsSize (storedValue t v) := by
  unfold storedValue
  split
  · split
    · exact .andThen (allocateText_sized _) fun _ _ => Core.keepsSize_pure _
    · exact Core.keepsSize_pure _
  · exact .andThen (Core.keepsSize_modify rfl) fun _ _ => Core.keepsSize_pure _
  · exact Core.keepsSize_pure _

theorem storeValue_sized (address : Nat) (t : Ty) (v : Literal) :
    s.KeepsSize (storeValue address t v) :=
  .andThen (storedValue_sized t v) fun _ _ => store_sized _ _ _

theorem assignTo_sized (address : Nat) (target : Ty) (source : Operand) :
    s.KeepsSize (assignTo address target source) := by
  unfold assignTo
  split
  · split
    · exact .andThen (readText_looks source).sized fun _ _ => copyText_sized _ _ _
    · exact yields_throw
  · exact .andThen (read_looks source).sized fun _ ⟨v, t⟩ =>
      .andThen (checkCompatible_looks target t).sized fun _ _ => storeValue_sized address target v

/-! ### Functions -/

theorem pushPointer_sized (t : Ty) (address : Int) :
    s.KeepsSize (do pushValue (.integer address) (← pointerTo t)) :=
  .andThen (pointerTo_looks t).sized fun _ _ => pushValue_sized _ _

theorem malloc_sized (size : Operand) : s.KeepsSize (malloc size) := by
  refine .andThen (readInteger_looks size).sized fun _ n => ?_
  split
  · exact yields_throw
  · exact .andThen (arrayOf_looks _ _).sized fun _ _ => .andThen (allocateHeap_sized _) fun _ _ =>
      pushPointer_sized _ _

theorem release_sized (pointer : Operand) : s.KeepsSize (release pointer) := by
  refine .andThen (read_looks pointer).sized fun _ ⟨v, _⟩ => ?_
  dsimp only
  split
  · exact yields_throw
  · split
    · exact Core.keepsSize_pure _
    · exact yields_symbols_bind.2 (yields_lift_bind fun _ _ => setSymbols_sized _)

theorem newObject_sized (type : Operand) : s.KeepsSize (newObject type) :=
  .andThen (typeArgument_looks type).sized fun _ _ => .andThen (allocateHeap_sized _) fun _ _ =>
    pushPointer_sized _ _

theorem newArray_sized (type count : Operand) : s.KeepsSize (newArray type count) := by
  refine .andThen (typeArgument_looks type).sized fun _ _ => ?_
  refine .andThen (readInteger_looks count).sized fun _ n => ?_
  split
  · exact yields_throw
  · exact .andThen (arrayOf_looks _ _).sized fun _ _ => .andThen (allocateHeap_sized _) fun _ _ =>
      pushPointer_sized _ _

theorem readLine_sized (prompt : String) : s.KeepsSize (readLine prompt) := by
  refine yields_get_bind.2 (.andThen (Core.keepsSize_modify rfl) fun _ _ => ?_)
  split
  · exact Core.keepsSize_pure _
  · exact yields_throw

theorem input_sized (prompt : Operand) : s.KeepsSize (input prompt) :=
  .andThen (readText_looks prompt).sized fun _ _ => .andThen (readLine_sized _) fun _ _ =>
    .andThen (allocateText_sized _) fun _ _ => pushPointer_sized _ _

theorem abs_sized (o : Operand) : s.KeepsSize (abs o) := by
  refine .andThen (read_looks o).sized fun _ ⟨v, t⟩ => ?_
  dsimp only
  split
  · exact yields_throw
  · split
    · exact pushValue_sized _ _
    · split
      · exact yields_word_bind.2 (pushValue_sized _ _)
      · exact yields_throw

theorem cast_sized (target : Scalar) (o : Operand) : s.KeepsSize (cast target o) := by
  refine .andThen (read_looks o).sized fun _ ⟨v, t⟩ => ?_
  dsimp only
  split
  · exact yields_throw
  · refine yields_word_bind.2 ?_
    split
    · exact pushValue_sized _ _
    · exact yields_catalog_bind.2 yields_throw

theorem invoke_sized (f : Builtin) (arguments : List Operand) :
    s.KeepsSize (invoke f arguments) := by
  unfold invoke
  split
  · exact malloc_sized _
  · exact release_sized _
  · exact release_sized _
  · exact newObject_sized _
  · exact newArray_sized _ _
  · exact .andThen (reflectedType_looks _).sized fun _ _ => yields_catalog_bind.2
      (pushValue_sized _ _)
  · exact .andThen (reflectedType_looks _).sized fun _ _ => pushValue_sized _ _
  · exact .andThen (printable_looks _).sized fun _ _ => Core.keepsSize_modify rfl
  · exact input_sized _
  · exact .andThen (readText_looks _).sized fun _ _ => yields_lift_bind fun _ _ =>
      pushValue_sized _ _
  · exact abs_sized _
  · exact .andThen (readFloat_looks _).sized fun _ _ => pushValue_sized _ _
  · exact .andThen (readFloat_looks _).sized fun _ _ => .andThen (readFloat_looks _).sized
      fun _ _ => pushValue_sized _ _
  · exact cast_sized _ _
  · exact yields_throw

theorem call_sized (function : String) (count : Nat) : s.KeepsSize (call function count) := by
  refine yields_get_bind.2 ?_
  dsimp only
  split
  · exact yields_throw
  · refine .andThen (Core.keepsSize_modify rfl) fun _ _ => ?_
    split
    · exact yields_throw
    · split
      · exact yields_throw
      · exact .andThen (checkArguments_looks _ _ _ _).sized fun _ _ => invoke_sized _ _

/-! ### Instructions -/

theorem addressOf_sized : s.KeepsSize addressOf := by
  refine .andThen pop_sized fun _ o => .andThen (storage?_looks o).sized fun _ place => ?_
  split
  · exact yields_throw
  · exact pushPointer_sized _ _

theorem index_sized : s.KeepsSize index := by
  refine .andThen pop_sized fun _ position => .andThen pop_sized fun _ base => ?_
  refine .andThen (readIndex_looks position).sized fun _ i => ?_
  refine .andThen (storage?_looks base).sized fun u place => ?_
  have behind : u.KeepsSize (do push (← elementBehind base i)) :=
    .andThen (elementBehind_looks base i).sized fun _ _ => push_sized _
  split
  · split
    · exact .andThen (elementOf_looks base _ _ _ i).sized fun _ _ => push_sized _
    · exact behind
  · exact behind

theorem binary_sized (op : Operator) : s.KeepsSize (binary op) :=
  .andThen pop_sized fun _ right => .andThen pop_sized fun _ left =>
    .andThen (read_looks left).sized fun _ ⟨_, lt⟩ =>
      .andThen (read_looks right).sized fun _ ⟨_, rt⟩ =>
        .andThen (checkCompatible_looks lt rt).sized fun _ _ => yields_word_bind.2 <|
          yields_lift_bind fun ⟨_, _⟩ _ => pushValue_sized _ _

theorem assign_sized : s.KeepsSize assign := by
  refine .andThen pop_sized fun _ source => .andThen pop_sized fun _ target => ?_
  refine .andThen (storage?_looks target).sized fun _ place => ?_
  split
  · exact yields_throw
  · exact .andThen (assignTo_sized _ _ source) fun _ _ => push_sized target

theorem makeScalar_sized (id : Identifier) (t : Ty) (initial : Option Operand) :
    s.KeepsSize (makeScalar id t initial) := by
  refine yields_catalog_bind.2 ?_
  split
  · exact yields_throw
  · split
    · exact .andThen (allocate_sized id t) fun _ _ => Core.keepsSize_pure _
    · exact .andThen (read_looks _).sized fun _ ⟨v, found⟩ =>
        .andThen (checkCompatible_looks t found).sized fun _ _ =>
          .andThen (allocate_sized id t) fun _ address => storeValue_sized address t v

theorem createScalar_sized (id : Identifier) (t : Ty) (initialized : Bool) :
    s.KeepsSize (createScalar id t initialized) := by
  unfold createScalar
  cases initialized with
  | true =>
    exact .andThen (Core.KeepsSize.map pop_sized some) fun _ initial =>
      makeScalar_sized id t initial
  | false =>
    exact .andThen (Core.keepsSize_pure none) fun _ initial => makeScalar_sized id t initial

theorem createReference_sized (id : Identifier) (t target : Ty) :
    s.KeepsSize (createReference id t target) := by
  refine .andThen pop_sized fun _ source => .andThen (storage?_looks source).sized fun _ place => ?_
  split
  · exact yields_throw
  · split
    · exact yields_throw
    · refine .andThen (ownerOf?_looks source).sized fun _ owner => ?_
      split
      · exact yields_throw
      · exact yields_catalog_bind.2 <| yields_symbols_bind.2 <| yields_lift_bind fun _ _ =>
          setSymbols_sized _

theorem createArray_sized (id : Identifier) (t : Ty) (initialized : Bool) :
    s.KeepsSize (createArray id t initialized) := by
  refine .andThen (allocate_sized id t) fun _ address => ?_
  split
  · exact yields_catalog_bind.2 (write_sized _ _)
  · exact Core.keepsSize_pure _

theorem create_sized (t : Ty) (id : Identifier) (initialized : Bool) :
    s.KeepsSize (create t id initialized) := by
  refine yields_symbols_bind.2 ?_
  split
  · exact yields_throw
  · dsimp only
    split
    · exact .andThen (createReference_sized _ _ _) fun _ _ => push_sized _
    · exact .andThen (createArray_sized _ _ _) fun _ _ => push_sized _
    · exact .andThen (createScalar_sized _ _ _) fun _ _ => push_sized _

/-- One instruction, whichever it is. -/
theorem step_sized (i : Instr) : s.KeepsSize (step i) := by
  cases i with
  | push v => exact .andThen (naturalType_looks v).sized fun _ _ => pushValue_sized v _
  | pushTyped v t => exact pushValue_sized v t
  | pushName id => exact .andThen (lookup_looks id).sized fun _ _ => push_sized _
  | addressOf => exact addressOf_sized
  | dereference levels =>
    exact .andThen pop_sized fun _ o => .andThen (followTimes_sized levels o) fun _ _ =>
      push_sized _
  | index => exact index_sized
  | binary op => exact binary_sized op
  | assign => exact assign_sized
  | create t id initialized => exact create_sized t id initialized
  | call function count => exact call_sized function count
  | discard => exact .andThen pop_sized fun _ _ => Core.keepsSize_pure _

theorem code_sized : ∀ (is : List Instr) {s : Core}, s.KeepsSize (code is)
  | [], _ => Core.keepsSize_pure _
  | i :: is, _ => .andThen (step_sized i) fun _ _ => code_sized is

theorem temporary_sized (v : Literal) (t : Ty) (address : Nat) :
    s.KeepsSize (temporary v t address) :=
  yields_symbols_bind.2 <| .andThen (setSymbols_sized _) fun _ _ => yields_catalog_bind.2 <|
    Core.keepsSize_pure _

theorem resultOf_sized (o : Operand) : s.KeepsSize (resultOf o) := by
  cases o with
  | named id => exact (lookup_looks id).sized
  | place address t owner =>
    exact yields_memory_bind.2 <| yields_catalog_bind.2 <| yields_lift_bind fun v _ =>
      temporary_sized v t address
  | value v t => exact temporary_sized v t 0

/-- A statement leaves a memory of the size there was, however far it gets and from whatever core
it starts. -/
theorem statement_sized (is : List Instr) : s.KeepsSize (statement is) := by
  refine .andThen (code_sized is) fun t _ => yields_get_bind.2 ?_
  split
  · exact Core.keepsSize_pure _
  · exact .andThen pop_sized fun _ o => Core.KeepsSize.map (resultOf_sized o) some
  · exact yields_throw

theorem registerAll_sized : ∀ (streams : List (String × Int)) {s : Core},
    s.KeepsSize (registerAll streams)
  | [], _ => Core.keepsSize_pure _
  | _ :: rest, _ =>
    .andThen (allocate_sized _ _) fun _ _ => yields_memory_bind.2 <| yields_catalog_bind.2 <|
      yields_lift_bind fun _ e =>
        .andThen (Core.keepsSize_modify (Memory.store_eq_ok e).1) fun _ _ => registerAll_sized rest

end Run

/-! ### Switching the byte order -/

namespace Symbols

theorem size_reverseAll : ∀ (runs : List (Nat × Nat)) (m : Memory),
    (reverseAll runs m).2.size = m.size
  | [], _ => rfl
  | (address, length) :: rest, m => by
    unfold reverseAll
    split
    · next turned e =>
      obtain ⟨bytes, -, written⟩ := bind_eq_ok.1 e
      exact (size_reverseAll rest turned).trans (Memory.write_eq_ok written).1
    · rfl

theorem size_switchOrder (s : Symbols) (c : Catalog) (m : Memory) :
    (s.switchOrder c m).2.size = m.size := by
  have turned := size_reverseAll ((s.entries.filter fun v => !v.isAlias).flatMap (units c)) m
  unfold switchOrder
  split
  all_goals
    next e =>
      rw [e] at turned
      exact turned

end Symbols

/-! ### Machines -/

namespace Machine

/-- The memories in the history are as large as that of the machine. -/
def Uniform (m : Machine) : Prop :=
  ∀ s ∈ m.history.entries, s.memory.size = m.core.memory.size

variable {m n : Machine}

/-- Nothing but the size of memory and the entries of the history matters. -/
theorem Uniform.congr (h : m.Uniform) (size : n.core.memory.size = m.core.memory.size)
    (entries : n.history.entries ⊆ m.history.entries) : n.Uniform :=
  fun s mem => (h s (entries mem)).trans size.symm

theorem Uniform.record (h : m.Uniform) (name : String) :
    ({ m with history := m.history.push (m.snapshot name) } : Machine).Uniform := by
  intro s mem
  rcases History.mem_push mem with old | rfl
  · exact h s old
  · rfl

/-- Going back succeeds for every entry there is. -/
theorem Uniform.revert_eq (h : m.Uniform) {index : Nat} {s : Snapshot}
    (past : m.past? index = some s) :
    m.revert index = (.ok (), { m with
      config := { m.config with order := s.memory.order }
      core := { m.core with
        memory := s.memory
        symbols := { s.symbols with placement := m.config.placement }
        stack := [] }
      history := m.history.truncate index }) := by
  obtain ⟨entry, found, rfl⟩ := Option.map_eq_some_iff.1 past
  have back := restore_eq_ok (m := m) (s := entry.under m.core.catalog)
    (h entry (List.mem_of_getElem? found))
  simp only [Machine.revert, past, back]

theorem Uniform.revert (h : m.Uniform) (index : Nat) : (m.revert index).2.Uniform := by
  cases past : m.past? index with
  | none =>
    simp only [Machine.revert, past]
    exact h
  | some s =>
    obtain ⟨entry, found, rfl⟩ := Option.map_eq_some_iff.1 past
    rw [h.revert_eq past]
    exact h.congr (h entry (List.mem_of_getElem? found)) (List.take_subset _ _)

theorem Uniform.perform (h : m.Uniform) (name : String) (is : List Instr) :
    (m.perform name is).2.Uniform := by
  have size := (Run.statement_sized (s := { m.core with stack := [] }) is).eq
  rcases k : (Run.statement is).run.run { m.core with stack := [] } with ⟨fault | r, core⟩ <;>
    rw [k] at size
  · have back := restore_eq_ok (m := { m with core := core }) (s := m.snapshot name) size.symm
    simp only [Machine.perform, k, back]
    exact h
  · rw [perform_done k]
    exact Uniform.record (m := { m with
      core := { core with symbols := core.symbols.collect, stack := [] } })
      (h.congr size (List.Subset.refl _)) name

/-- Running a line, to whatever end, leaves memories of one size. -/
theorem Uniform.execute (h : m.Uniform) (line : String) : (m.execute line).2.Uniform := by
  rcases k : Statement.parse m.scope (Statement.clean line) with ⟨fault | _ | s, met⟩
  · rw [execute_misread k]
    exact h
  · rw [(execute_blank k).2]
    exact h
  · rw [(execute_read k).2]
    exact Uniform.perform (m := m.meet met) h _ _

theorem Uniform.setOrder (h : m.Uniform) (o : ByteOrder) : (m.setOrder o).2.Uniform := by
  have size := m.core.symbols.size_switchOrder m.core.catalog m.core.memory
  unfold Machine.setOrder
  split
  · exact h
  · rcases k : m.core.symbols.switchOrder m.core.catalog m.core.memory with ⟨fault | _, memory⟩ <;>
      rw [k] at size
    · exact h.congr size (List.Subset.refl _)
    · exact Uniform.record (m := { m with
        config := { m.config with order := o }
        core := { m.core with memory := memory } }) (h.congr size (List.Subset.refl _)) _

/-- A reset keeps the size also if it finds no room for the streams. -/
theorem Uniform.reset (h : m.Uniform) : m.reset.2.Uniform := by
  have size := (Run.registerAll_sized standardStreams (s := m.core.cleared)).eq
  have cleared : m.core.cleared.memory.size = m.core.memory.size := List.length_replicate
  rw [reset_eq]
  rcases k : (Run.registerAll standardStreams).run.run m.core.cleared with ⟨fault | _, core⟩ <;>
    rw [k] at size
  · exact h.congr (size.trans cleared) (List.Subset.refl _)
  · exact Uniform.record (m := { m with core := core, history := m.history.clear })
      (fun _ mem => nomatch mem) _

theorem Uniform.setWord (h : m.Uniform) (word : Nat) : (m.setWord word).2.Uniform := by
  unfold Machine.setWord
  dsimp only
  split
  · exact h
  · exact Uniform.reset (h.congr rfl (List.Subset.refl _))

theorem uniform_create {c : Config} {console : Console} (e : create c console = .ok m) :
    m.Uniform := by
  have fresh := Uniform.reset (m := blank c console) fun _ mem => nomatch mem
  obtain ⟨-, -, e⟩ := bind_eq_ok.1 e
  split at e
  · next k =>
    cases e
    rw [k] at fresh
    exact fresh
  · cases e

end Machine

end ByteMachine
