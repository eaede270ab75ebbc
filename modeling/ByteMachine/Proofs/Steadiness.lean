import ByteMachine.Machine.Execution
import ByteMachine.Proofs.Lockstep

/-!
# Every instruction is steady

No computation of a statement tells states apart that are alike, and each has its effect on the
stack: the ones on operands leave it alone, an instruction changes it as `Instr.effect` says, and
code as `Code.effect` does. What is said here of one state needs nothing of it, not even that it is
sound.

Key theorems: `Run.read_steady`, `Run.printable_steady`, `Run.invoke_steady`, `Run.call_steady`,
`Run.create_steady`, `Run.step_steady`, `Run.code_steady`.
-/

namespace ByteMachine

open Discipline

namespace Run

/-! ### Types and operands -/

theorem built_steady (x : Except TypeFault Ty) : Steady .still (built x) := by
  unfold built
  split
  · next t =>
    exact (setCatalog_steady (g := fun c => c.intern t) fun h => h.intern t).bind fun _ =>
      steady_pure t
  · exact steady_throw _

theorem pointerTo_steady (t : Ty) : Steady .still (pointerTo t) := built_steady _

theorem arrayOf_steady (t : Ty) (count : Nat) : Steady .still (arrayOf t count) :=
  steady_word_bind fun _ => built_steady _

theorem areCompatible_steady (a b : Ty) : Steady .still (areCompatible a b) :=
  (setCatalog_steady (g := fun c => c.internCompared a b) fun h => h.internCompared a b).bind
    fun _ => steady_pure _

theorem checkCompatible_steady (a b : Ty) : Steady .still (checkCompatible a b) := by
  refine (areCompatible_steady a b).bind fun ok => ?_
  split
  · exact steady_throw _
  · exact steady_pure _

theorem lookup_steady (id : Identifier) : Steady .still (lookup id) := by
  refine steady_symbols_bind fun table => ?_
  split
  · exact steady_pure _
  · exact steady_throw _

theorem naturalType_steady (v : Literal) : Steady .still (naturalType v) := by
  cases v with
  | integer n => exact steady_word_bind fun _ => steady_pure _
  | text => exact pointerTo_steady _
  | char | float | type => exact steady_pure _

theorem typeOf_steady (o : Operand) : Steady .still (typeOf o) := by
  cases o with
  | value | place => exact steady_pure _
  | named id => exact (lookup_steady id).bind fun _ => steady_pure _

theorem storage?_steady (o : Operand) : Steady .still (storage? o) := by
  cases o with
  | value | place => exact steady_pure _
  | named id => exact (lookup_steady id).bind fun _ => steady_pure _

theorem ownerOf?_steady (o : Operand) : Steady .still (ownerOf? o) := by
  cases o with
  | value | place => exact steady_pure _
  | named id =>
    refine (lookup_steady id).bind fun v => ?_
    split <;> exact steady_pure _

/-! ### Reading -/

theorem readStorage_steady (address : Nat) (t : Ty) : Steady .still (readStorage address t) := by
  unfold readStorage
  split
  · exact (setCatalog_steady (g := fun c => c.internDecay t) fun h => h.internDecay t).bind
      fun _ => steady_pure _
  · refine steady_memory_bind fun m => steady_catalog_bind fun h => ?_
    exact (lockstep_lift (Memory.load_below h m address t)).still_bind fun _ => steady_pure _

theorem read_steady (o : Operand) : Steady .still (read o) := by
  cases o with
  | value v t => exact steady_pure _
  | place address t owner => exact readStorage_steady _ _
  | named id => exact (lookup_steady id).bind fun v => readStorage_steady _ _

theorem readInteger_steady (o : Operand) : Steady .still (readInteger o) := by
  refine (read_steady o).bind fun ⟨v, t⟩ => ?_
  dsimp only
  split
  · exact steady_throw _
  · split
    · exact steady_pure _
    · exact steady_catalog_bind fun _ => lockstep_throw _ _

theorem readFloat_steady (o : Operand) : Steady .still (readFloat o) := by
  refine (read_steady o).bind fun ⟨v, t⟩ => ?_
  dsimp only
  split
  · split
    · exact steady_pure _
    · exact steady_throw _
  · exact steady_throw _

theorem followText_steady (o : Operand) : Steady .still (followText o) := by
  refine (typeOf_steady o).bind fun t => ?_
  split
  · exact steady_throw _
  · refine (read_steady o).bind fun ⟨pointer, _⟩ => ?_
    dsimp only
    split
    · exact steady_memory_bind fun _ => steady_lift _
    · exact steady_throw _

theorem readStoredText_steady (o : Operand) : Steady .still (readStoredText o) := by
  refine (storage?_steady o).bind fun place => ?_
  split
  · next address t =>
    split
    · refine steady_memory_bind fun m => steady_catalog_bind fun h => ?_
      refine (lockstep_lift (Memory.present_below h m address t)).still_bind fun v => ?_
      split
      · exact steady_pure _
      · exact steady_throw _
    · exact followText_steady o
  · exact followText_steady o

theorem readText_steady (o : Operand) : Steady .still (readText o) := by
  unfold readText
  split
  · exact steady_pure _
  · exact readStoredText_steady o

theorem resolve_steady (address : Nat) (t : Ty) : Steady .still (resolve address t) := by
  refine steady_word_of (fun h => by simp only [Catalog.size, h]) fun c => ?_
  dsimp only
  split
  · exact steady_throw _
  · refine steady_symbols_bind fun table => ?_
    split
    · exact steady_pure _
    · split
      · exact steady_pure _
      · exact steady_throw _

/-! ### Taking storage -/

theorem allocate_steady (id : Identifier) (t : Ty) : Steady .still (allocate id t) := by
  refine steady_word_of (fun h => by simp only [Catalog.size, Variable.owner, h]) fun c => ?_
  refine steady_symbols_bind fun table => (steady_lift _).bind fun ⟨address, table⟩ => ?_
  exact (steady_lift _).bind fun table => (setSymbols_steady table).bind fun _ => steady_pure _

theorem allocateHeap_steady (t : Ty) : Steady .still (allocateHeap t) :=
  steady_symbols_bind fun _ => (setSymbols_steady _).bind fun _ => allocate_steady _ _

theorem copyText_steady (address capacity : Nat) (text : String) :
    Steady .still (copyText address capacity text) := by
  refine (steady_lift _).bind fun bytes => ?_
  split
  · exact steady_throw _
  · exact steady_memory_bind fun m => (steady_lift _).bind fun n => setMemory_steady n

theorem allocateText_steady (text : String) : Steady .still (allocateText text) :=
  (steady_lift _).bind fun _ => (arrayOf_steady _ _).bind fun _ => (allocateHeap_steady _).bind
    fun _ => (copyText_steady _ _ _).bind fun _ => steady_pure _

theorem storedValue_steady (t : Ty) (v : Literal) : Steady .still (storedValue t v) := by
  unfold storedValue
  split
  · split
    · exact (allocateText_steady _).bind fun _ => steady_pure _
    · exact steady_pure _
  · next array =>
    exact (setCatalog_steady (g := fun c => c.internDecay array) fun h => h.internDecay array).bind
      fun _ => steady_pure _
  · exact steady_pure _

theorem storeValue_steady (address : Nat) (t : Ty) (v : Literal) :
    Steady .still (storeValue address t v) := by
  refine (storedValue_steady t v).bind fun stored => steady_memory_bind fun m => ?_
  refine steady_word_of (fun h => by rw [Memory.store_congr h]) fun c => ?_
  exact (steady_lift _).bind fun n => setMemory_steady n

/-! ### Pointers, elements and operators -/

/-- A pointer is made and pushed. -/
theorem pushPointer_steady (t : Ty) (address : Int) :
    Steady ⟨0, 1⟩ (do pushValue (.integer address) (← pointerTo t)) :=
  (pointerTo_steady t).bind fun _ => pushValue_steady _ _

theorem addressOf_steady : Steady ⟨1, 1⟩ addressOf := by
  refine steady_pop_bind fun o => (storage?_steady o).bind fun place => ?_
  split
  · exact steady_throw _
  · exact pushPointer_steady _ _

theorem targetOf_steady (t : Ty) : Steady .still (targetOf t) := by
  unfold targetOf
  split
  · exact steady_throw _
  · split
    · exact steady_throw _
    · exact steady_pure _

theorem follow_steady (o : Operand) : Steady .still (follow o) := by
  refine (read_steady o).bind fun ⟨v, t⟩ => (targetOf_steady t).bind fun target => ?_
  split
  · exact resolve_steady _ _
  · exact steady_catalog_bind fun _ => lockstep_throw _ _

theorem followTimes_steady : ∀ (levels : Nat) (o : Operand), Steady .still (followTimes levels o)
  | 0, o => steady_pure o
  | levels + 1, o => (follow_steady o).bind (followTimes_steady levels)

theorem dereference_steady (levels : Nat) : Steady ⟨1, 1⟩ (dereference levels) :=
  steady_pop_bind fun o => (followTimes_steady levels o).bind push_steady

theorem readIndex_steady (o : Operand) : Steady .still (readIndex o) := by
  refine (read_steady o).bind fun ⟨v, t⟩ => ?_
  dsimp only
  split
  · exact steady_throw _
  · split
    · exact steady_pure _
    · exact steady_throw _

theorem elementOf_steady (base : Operand) (address : Nat) (element : Ty) (count : Nat) (i : Int) :
    Steady .still (elementOf base address element count i) := by
  refine steady_word_of (fun h => by simp only [Catalog.size, h]) fun c => ?_
  dsimp only
  split
  · exact steady_throw _
  · refine (ownerOf?_steady base).bind fun owner => ?_
    split
    · exact steady_pure _
    · exact steady_throw _

theorem elementBehind_steady (base : Operand) (i : Int) : Steady .still (elementBehind base i) := by
  refine (read_steady base).bind fun ⟨v, t⟩ => (targetOf_steady t).bind fun target => ?_
  refine steady_word_of (fun h => by simp only [Catalog.size, h]) fun c => ?_
  dsimp only
  split
  · exact resolve_steady _ _
  · exact steady_throw _

theorem index_steady : Steady ⟨2, 1⟩ index := by
  refine steady_pop_bind fun position => steady_pop_bind fun base => ?_
  refine (readIndex_steady position).bind fun i => (storage?_steady base).bind fun place => ?_
  have behind : Steady ⟨0, 1⟩ (do push (← elementBehind base i)) :=
    (elementBehind_steady base i).bind push_steady
  split
  · split
    · exact (elementOf_steady base _ _ _ i).bind push_steady
    · exact behind
  · exact behind

theorem binary_steady (op : Operator) : Steady ⟨2, 1⟩ (binary op) := by
  refine steady_pop_bind fun right => steady_pop_bind fun left => ?_
  refine (read_steady left).bind fun ⟨lv, lt⟩ => (read_steady right).bind fun ⟨rv, rt⟩ => ?_
  refine (checkCompatible_steady lt rt).bind fun _ => steady_word_bind fun word => ?_
  exact (steady_lift _).bind fun ⟨v, t⟩ => pushValue_steady v t

theorem assignTo_steady (address : Nat) (target : Ty) (source : Operand) :
    Steady .still (assignTo address target source) := by
  unfold assignTo
  split
  · split
    · exact (readText_steady source).bind fun _ => copyText_steady _ _ _
    · exact steady_throw _
  · refine (read_steady source).bind fun ⟨v, t⟩ => ?_
    exact (checkCompatible_steady target t).bind fun _ => storeValue_steady _ _ _

theorem assign_steady : Steady ⟨2, 1⟩ assign := by
  refine steady_pop_bind fun source => steady_pop_bind fun target => ?_
  refine (storage?_steady target).bind fun place => ?_
  split
  · exact steady_throw _
  · exact (assignTo_steady _ _ source).bind fun _ => push_steady target

/-! ### Memory from the heap, types -/

theorem malloc_steady (size : Operand) : Steady ⟨0, 1⟩ (malloc size) := by
  refine (readInteger_steady size).bind fun n => ?_
  split
  · exact steady_throw _
  · exact (arrayOf_steady _ _).bind fun _ => (allocateHeap_steady _).bind fun _ =>
      pushPointer_steady _ _

theorem release_steady (pointer : Operand) : Steady .still (release pointer) := by
  refine (read_steady pointer).bind fun ⟨v, t⟩ => ?_
  dsimp only
  split
  · exact steady_throw _
  · split
    · exact steady_pure _
    · exact steady_symbols_bind fun table => (steady_lift _).bind fun _ => setSymbols_steady _

theorem typeArgument_steady (o : Operand) : Steady .still (typeArgument o) := by
  refine (read_steady o).bind fun ⟨v, t⟩ => ?_
  dsimp only
  split
  · refine steady_word_of (fun h => by unfold Catalog.size; rw [h]) fun c => ?_
    split
    · exact steady_throw _
    · exact steady_pure _
  · exact steady_catalog_bind fun _ => lockstep_throw _ _

theorem newObject_steady (type : Operand) : Steady ⟨0, 1⟩ (newObject type) :=
  (typeArgument_steady type).bind fun t => (allocateHeap_steady t).bind fun _ =>
    pushPointer_steady t _

theorem newArray_steady (type count : Operand) : Steady ⟨0, 1⟩ (newArray type count) := by
  refine (typeArgument_steady type).bind fun element => (readInteger_steady count).bind fun n => ?_
  split
  · exact steady_throw _
  · exact (arrayOf_steady _ _).bind fun _ => (allocateHeap_steady _).bind fun _ =>
      pushPointer_steady element _

theorem reflectedType_steady (o : Operand) : Steady .still (reflectedType o) := by
  unfold reflectedType
  split
  · exact steady_pure _
  · exact (typeOf_steady o).bind fun _ => steady_pure _

theorem sizeof_steady (o : Operand) : Steady ⟨0, 1⟩ (sizeof o) :=
  (reflectedType_steady o).bind fun t =>
    steady_word_of (fun h => by simp only [Catalog.size, h]) fun _ => pushValue_steady _ _

theorem typeof_steady (o : Operand) : Steady ⟨0, 1⟩ (typeof o) :=
  (reflectedType_steady o).bind fun _ => pushValue_steady _ _

/-! ### Printing and input -/

theorem printedValue_steady (o : Operand) : Steady .still (printedValue o) := by
  refine (read_steady o).bind fun ⟨v, t⟩ => ?_
  dsimp only
  split <;> exact steady_pure _

section

variable (m : Memory) (c : Catalog) (address : Nat)

theorem read_tagless (length : Nat) : Tagless (m.read address length) := by
  unfold Memory.read
  split
  · exact tagless_ok _
  · exact (tagless_error_iff _).2 rfl

theorem load_pointer_tagless (target : Ty) : Tagless (m.load c address (.pointer target)) := by
  unfold Memory.load
  refine (read_tagless m address c.word).bind fun bytes => .bind ?_ fun n => tagless_ok _
  unfold ByteOrder.decodeInt
  split
  · exact tagless_ok _
  · exact (tagless_error_iff _).2 rfl

theorem loadText_tagless : Tagless (m.loadText address) := by
  unfold Memory.loadText
  split
  · exact (tagless_error_iff _).2 rfl
  · refine (read_tagless m address _).bind fun tail => ?_
    split
    · exact tagless_ok _
    · exact (tagless_error_iff _).2 rfl

theorem present_tagless {t : Ty} (text : t.isCharArray = true) :
    Tagless (m.present c address t) := by
  have pointer : t.isCharPointer = false := by
    unfold Ty.isCharArray at text
    unfold Ty.isCharPointer
    split at text
    · next e n strip => rw [strip]
    · cases text
  unfold Memory.present
  simp only [pointer, text, Bool.false_eq_true, if_false, if_true]
  exact (read_tagless m address _).bind fun bytes => tagless_ok _

end

theorem readStorage_plain (s : Core) (address : Nat) {t : Ty} (pointer : t.isCharPointer = true) :
    Plain s (readStorage address t.strip) := by
  unfold Ty.isCharPointer at pointer
  split at pointer
  · next target strip =>
    rw [strip]
    exact (plain_lift s (load_pointer_tagless s.memory s.catalog address target)).bind
      fun v u _ => plain_pure u (v, Ty.pointer target)
  · cases pointer

theorem run_lookup (id : Identifier) (s : Core) : (lookup id).run.run s =
    match s.symbols.get? id with
    | some v => (.ok v, s)
    | none => (.error (.unknownVariable id.text), s) := by
  show StateT.run (ExceptT.run (match s.symbols.get? id with
    | some v => pure v
    | none => throw _)) s = _
  split <;> rfl

theorem lookup_plain (id : Identifier) (s : Core) : Plain s (lookup id) := by
  unfold Plain
  rw [run_lookup]
  split
  · exact ⟨rfl, tagless_ok _⟩
  · exact ⟨rfl, (tagless_error_iff _).2 rfl⟩

/-- Looking twice finds the same. -/
theorem lookup_eq_ok {id : Identifier} {s u : Core} {v : Variable}
    (e : (lookup id).run.run s = (.ok v, u)) : u = s ∧ s.symbols.get? id = some v := by
  rw [run_lookup] at e
  split at e
  · next found =>
    cases e
    exact ⟨rfl, found⟩
  · cases e

theorem lookup_bind_eq_ok {α : Type} {id : Identifier} {f : Variable → Run α} {s t : Core} {a : α}
    (e : (lookup id >>= f).run.run s = (.ok a, t)) :
    ∃ v, s.symbols.get? id = some v ∧ (f v).run.run s = (.ok a, t) := by
  obtain ⟨v, u, found, e⟩ := run_bind_eq_ok.1 e
  obtain ⟨same, found⟩ := lookup_eq_ok found
  exact ⟨v, found, same ▸ e⟩

theorem typeOf_named_eq_ok {id : Identifier} {s u : Core} {t : Ty}
    (e : (typeOf (.named id)).run.run s = (.ok t, u)) :
    u = s ∧ ∃ v, s.symbols.get? id = some v ∧ t = v.type := by
  have run := run_bind (lookup id) (fun v => (pure v.type : Run Ty)) s
  rw [run_lookup] at run
  cases found : s.symbols.get? id with
  | none =>
    rw [found] at run
    cases run.symm.trans e
  | some v =>
    rw [found] at run
    cases run.symm.trans e
    exact ⟨rfl, v, rfl, rfl⟩

theorem typeOf_plain (o : Operand) (s : Core) : Plain s (typeOf o) := by
  cases o with
  | value | place => exact plain_pure s _
  | named id => exact (lookup_plain id s).bind fun _ u _ => plain_pure u _

theorem storage?_plain (o : Operand) (s : Core) : Plain s (storage? o) := by
  cases o with
  | value | place => exact plain_pure s _
  | named id => exact (lookup_plain id s).bind fun _ u _ => plain_pure u _

/-- The text at an address. -/
theorem textBehind_plain (s : Core) (pointer : Literal) : Plain s (match pointer.toAddress? with
    | some address => do lift ((← memory).loadText address)
    | none => throw (.invalidAddress 0 1) : Run String) := by
  split
  · next address _ => exact plain_lift s (loadText_tagless s.memory address)
  · exact plain_throw s rfl

/-- Text is read through the word of a pointer or byte by byte, never as a type. -/
theorem followText_plain (o : Operand) (s : Core) : Plain s (followText o) := by
  cases o with
  | value v t =>
    show Plain s (if !t.isCharPointer then throw _ else _)
    split
    · exact plain_throw s rfl
    · exact textBehind_plain s v
  | place address t owner =>
    show Plain s (if !t.isCharPointer then throw _ else _)
    split
    · exact plain_throw s rfl
    · next pointer =>
      have pointer : t.isCharPointer = true := by simpa using pointer
      exact (readStorage_plain s address pointer).bind fun p u _ => textBehind_plain u p.1
  | named id =>
    refine (typeOf_plain (.named id) s).bind fun t u e => ?_
    obtain ⟨rfl, v, found, rfl⟩ := typeOf_named_eq_ok e
    split
    · exact plain_throw u rfl
    · next pointer =>
      have pointer : v.type.isCharPointer = true := by simpa using pointer
      refine Plain.bind (x := read (.named id)) ?_ fun p w _ => textBehind_plain w p.1
      refine (lookup_plain id u).bind fun v' w e' => ?_
      obtain ⟨rfl, found'⟩ := lookup_eq_ok e'
      cases found.symm.trans found'
      exact readStorage_plain w v.address pointer

/-- The text that is stored at an address or behind it. -/
theorem storedText_plain (s : Core) (o : Operand) (address : Nat) (t : Ty) : Plain s (do
    if t.isCharArray then
      match ← lift ((← memory).present (← catalog) address t) with
      | .text text => return text
      | _ => throw (.typeMismatch Ty.charPointer.name t.name)
    else followText o : Run String) := by
  split
  · next array =>
    refine (plain_lift s (present_tagless s.memory s.catalog address array)).bind fun v u _ => ?_
    split
    · exact plain_pure u _
    · exact plain_throw u rfl
  · exact followText_plain o s

theorem readText_plain (o : Operand) (s : Core) : Plain s (readText o) := by
  unfold readText
  split
  · exact plain_pure s _
  · refine (storage?_plain o s).bind fun place u _ => ?_
    split
    · exact storedText_plain u o _ _
    · exact followText_plain o u

theorem printable_steady (o : Operand) : Steady .still (printable o) := by
  refine (typeOf_steady o).bind fun t => ?_
  dsimp only
  split
  · exact (readText_steady o).caught (readText_plain o) fun _ _ => printedValue_steady o
  · exact printedValue_steady o

theorem print_steady (o : Operand) : Steady .still (print o) :=
  (printable_steady o).bind fun text => setConsole_steady fun c => c.write (text ++ "\n")

/-- The next line of the given console. -/
def takeLine (prompt : String) (c : Console) : Run String := do
  let (line, console) := c.readLine prompt
  modify fun s => { s with console := console }
  match line with
  | some line => return line
  | none => throw .inputClosed

theorem takeLine_steady (prompt : String) (c : Console) : Steady .still (takeLine prompt c) := by
  refine (setConsole_steady fun _ => _).bind fun _ => ?_
  split
  · exact steady_pure _
  · exact steady_throw _

theorem readLine_steady (prompt : String) : Steady .still (readLine prompt) :=
  steady_get_bind (p := Core.console) (g := takeLine prompt) (fun h => h.console)
    (takeLine_steady prompt)

theorem input_steady (prompt : Operand) : Steady ⟨0, 1⟩ (input prompt) :=
  (readText_steady prompt).bind fun _ => (readLine_steady _).bind fun _ =>
    (allocateText_steady _).bind fun _ => pushPointer_steady _ _

/-! ### Numbers -/

theorem strlen_steady (o : Operand) : Steady ⟨0, 1⟩ (strlen o) :=
  (readText_steady o).bind fun _ => (steady_lift _).bind fun _ => pushValue_steady _ _

theorem abs_steady (o : Operand) : Steady ⟨0, 1⟩ (abs o) := by
  refine (read_steady o).bind fun ⟨v, t⟩ => ?_
  dsimp only
  split
  · exact steady_throw _
  · split
    · exact pushValue_steady _ _
    · split
      · exact steady_word_bind fun _ => pushValue_steady _ _
      · exact steady_throw _

theorem sqrt_steady (o : Operand) : Steady ⟨0, 1⟩ (sqrt o) :=
  (readFloat_steady o).bind fun _ => pushValue_steady _ _

theorem pow_steady (base exponent : Operand) : Steady ⟨0, 1⟩ (pow base exponent) :=
  (readFloat_steady base).bind fun _ => (readFloat_steady exponent).bind fun _ =>
    pushValue_steady _ _

theorem cast_steady (target : Scalar) (o : Operand) : Steady ⟨0, 1⟩ (cast target o) := by
  refine (read_steady o).bind fun ⟨v, t⟩ => ?_
  dsimp only
  split
  · exact steady_throw _
  · refine steady_word_bind fun word => ?_
    split
    · exact pushValue_steady _ _
    · exact steady_catalog_bind fun _ => lockstep_throw _ _

/-! ### Calls -/

/-- The body of a function leaves an operand if the function has a result. -/
theorem invoke_steady (f : Builtin) (arguments : List Operand) :
    Steady ⟨0, f.results⟩ (invoke f arguments) := by
  unfold invoke
  split
  · exact malloc_steady _
  · exact release_steady _
  · exact release_steady _
  · exact newObject_steady _
  · exact newArray_steady _ _
  · exact sizeof_steady _
  · exact typeof_steady _
  · exact print_steady _
  · exact input_steady _
  · exact strlen_steady _
  · exact abs_steady _
  · exact sqrt_steady _
  · exact pow_steady _ _
  · exact cast_steady _ _
  · exact steady_throw _

theorem checkArguments_steady (function : String) : ∀ (position : Nat) (ps : List (String × Ty))
    (os : List Operand), Steady .still (checkArguments function position ps os)
  | _, [], _ => steady_pure _
  | _, _ :: _, [] => steady_pure _
  | position, p :: ps, o :: os => by
    refine (typeOf_steady o).bind fun found => (areCompatible_steady _ _).bind fun ok => ?_
    split
    · exact steady_throw _
    · exact checkArguments_steady function (position + 1) ps os

/-- A call takes its arguments at once. -/
theorem call_eq (function : String) (count : Nat) :
    call function count = (do
      let os ← takeAll count (.missingArguments function)
      match Builtin.ofName? function with
      | none => throw (.unknownFunction function)
      | some f =>
        if os.reverse.length != f.parameters.length then
          throw (.parameterCount function f.parameters.length os.reverse.length)
        else
          checkArguments function 1 f.parameters os.reverse
          invoke f os.reverse) := by
  unfold call takeAll
  rw [bind_assoc]
  congr 1
  funext s
  dsimp only
  by_cases few : s.stack.length < count
  · rw [if_pos few, if_pos few]
    rfl
  · rw [if_neg few, if_neg few]
    rfl

theorem call_steady (function : String) (count : Nat) :
    Steady ⟨count, resultsOf function⟩ (call function count) := by
  have whole :
      (Effect.mk count 0).andThen ⟨0, resultsOf function⟩ = ⟨count, resultsOf function⟩ := by
    simp [Effect.andThen]
  rw [call_eq]
  refine whole ▸ (takeAll_steady _ _).andThen fun os => ?_
  cases k : Builtin.ofName? function with
  | none => exact steady_throw _
  | some f =>
    simp only [resultsOf, k]
    split
    · exact steady_throw _
    · exact (checkArguments_steady _ _ _ _).bind fun _ => invoke_steady f _

/-! ### Declarations -/

theorem makeScalar_steady (id : Identifier) (t : Ty) (initial : Option Operand) :
    Steady .still (makeScalar id t initial) := by
  refine steady_word_of (fun h => by unfold Catalog.size; rw [h]) fun c => ?_
  split
  · exact steady_throw _
  · split
    · exact (allocate_steady id t).bind fun _ => steady_pure _
    · next o =>
      refine (read_steady o).bind fun ⟨v, found⟩ =>
        (checkCompatible_steady t found).bind fun _ => ?_
      exact (allocate_steady id t).bind fun _ => storeValue_steady _ _ _

theorem createScalar_steady (id : Identifier) (t : Ty) (initialized : Bool) :
    Steady ⟨if initialized then 1 else 0, 0⟩ (createScalar id t initialized) := by
  cases initialized with
  | false => exact Steady.bind (steady_pure none) fun initial => makeScalar_steady id t initial
  | true => exact (pop_steady.map some).andThen fun initial => makeScalar_steady id t initial

theorem createReference_steady (id : Identifier) (t target : Ty) :
    Steady ⟨1, 0⟩ (createReference id t target) := by
  refine steady_pop_bind fun source => (storage?_steady source).bind fun place => ?_
  split
  · exact steady_throw _
  · split
    · exact steady_throw _
    · refine (ownerOf?_steady source).bind fun owner => ?_
      split
      · exact steady_throw _
      · refine steady_word_of (fun h => by unfold Catalog.size; rw [h]) fun c => ?_
        exact steady_symbols_bind fun table => (steady_lift _).bind fun more =>
          setSymbols_steady more

theorem createArray_steady (id : Identifier) (t : Ty) (initialized : Bool) :
    Steady .still (createArray id t initialized) := by
  refine (allocate_steady id t).bind fun address => ?_
  split
  · refine steady_word_of (fun h => by unfold Catalog.size; rw [h]) fun c => ?_
    exact steady_memory_bind fun m => (steady_lift _).bind fun n => setMemory_steady n
  · exact steady_pure _

/-- A computation that leaves nothing, and then an operand. -/
theorem Steady.andPush {n : Nat} {x : Run Unit} (hx : Steady ⟨n, 0⟩ x) (o : Operand) :
    Steady ⟨n, 1⟩ (do x; push o) := by
  have whole : (Effect.mk n 0).andThen ⟨0, 1⟩ = ⟨n, 1⟩ := by simp [Effect.andThen]
  exact whole ▸ hx.andThen fun _ => push_steady o

theorem create_steady (t : Ty) (id : Identifier) (initialized : Bool) :
    Steady (Instr.create t id initialized).effect (create t id initialized) := by
  refine steady_symbols_bind fun table => ?_
  split
  · exact steady_throw _
  · dsimp only
    split
    · exact (createReference_steady _ _ _).andPush _
    · exact (createArray_steady _ _ _).andPush _
    · next reference array =>
      cases t with
      | reference target => exact absurd rfl (reference target)
      | array e n => exact absurd rfl (array e n)
      | _ => exact (createScalar_steady _ _ _).andPush _

theorem pushName_steady (id : Identifier) : Steady ⟨0, 1⟩ (pushName id) :=
  (lookup_steady id).bind fun _ => push_steady _

/-! ### Code and results -/

/-- One instruction, whichever it is. -/
theorem step_steady (i : Instr) : Steady i.effect (step i) := by
  cases i with
  | push v => exact (naturalType_steady v).bind fun t => pushValue_steady v t
  | pushTyped v t => exact pushValue_steady v t
  | pushName id => exact pushName_steady id
  | addressOf => exact addressOf_steady
  | dereference levels => exact dereference_steady levels
  | index => exact index_steady
  | binary op => exact binary_steady op
  | assign => exact assign_steady
  | create t id initialized => exact create_steady t id initialized
  | call function count => exact call_steady function count
  | discard => exact pop_steady.andThen fun _ => steady_pure _

/-- All instructions of some code, in order. -/
theorem code_steady : ∀ is : List Instr, Steady (Code.effect is) (code is)
  | [] => steady_pure _
  | i :: is => (step_steady i).andThen fun _ => code_steady is

theorem temporary_steady (v : Literal) (t : Ty) (address : Nat) :
    Steady .still (temporary v t address) :=
  steady_symbols_bind fun _ => (setSymbols_steady _).bind fun _ =>
    steady_word_of (fun h => by unfold Catalog.size; rw [h]) fun _ => steady_pure _

theorem resultOf_steady (o : Operand) : Steady .still (resultOf o) := by
  unfold resultOf
  split
  · exact lookup_steady _
  · refine steady_memory_bind fun m => steady_catalog_bind fun h => ?_
    exact (lockstep_lift (Memory.load_below h m _ _)).still_bind fun v => temporary_steady v _ _
  · exact temporary_steady _ _ _

end Run

end ByteMachine
