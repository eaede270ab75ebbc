import ByteMachine.Proofs.Measures
import ByteMachine.Proofs.Reconfiguration
import ByteMachine.Proofs.StackDiscipline

/-!
# Runs keep to what fits into memory

Every instruction that a line may spell keeps to the layout of the machine, from any state that
does, whether it fails or not; so does the code of a line, up to any of its instructions. A value
that an instruction pushes is a literal of the code, an address, a size, a length, or what
arithmetic, `abs` or a cast makes, which wrap to the width of the type. From machine to machine
the variables keep their places as well, those in the history included.

Key definitions: `Machine.layout`, `Machine.Fitting`, `Machine.startOf`, `Machine.stateAfter`.
Key theorems: `Run.apply_measures`, `Run.invoke_measures`, `Run.step_measures`,
`Run.code_measures`, `Machine.Reachable.fitting`, `Machine.Reachable.holds_stateAfter`.
-/

namespace ByteMachine

open Discipline Number

namespace Run

variable {l : Layout} {code : List Instr} {s : Core}

/-! ### Pointers, elements and operators -/

theorem addressOf_measures : l.Measures code s addressOf fun _ _ => True := by
  refine .bind pop_measures fun _ o _ measured => ?_
  refine .bind (storage?_measures measured) fun _ place _ known => ?_
  split
  · exact yields_throw
  · next a t =>
    have room := known a t rfl
    dsimp only
    split
    · next shape =>
      obtain rfl := Layout.eq_array_of_shape room.plain shape
      exact pushPointer_measures room.start room.within.1 room.within.2.1
    · exact pushPointer_measures room.start room.plain room.within

theorem dereference_measures (levels : Nat) :
    l.Measures code s (dereference levels) fun _ _ => True :=
  .bind pop_measures fun _ _ _ measured => .bind (followTimes_measures levels measured)
    fun _ _ _ found => push_measures found

theorem index_measures : l.Measures code s index fun _ _ => True := by
  refine .bind pop_measures fun _ position _ _ => ?_
  refine .bind pop_measures fun _ o _ measured => ?_
  refine .bind (readIndex_looks position).measures fun _ i _ _ => ?_
  refine .bind (storage?_measures measured) fun u place _ known => ?_
  have behind : l.Measures code u (do push (← elementBehind o i)) fun _ _ => True :=
    .bind (elementBehind_measures measured i) fun _ _ _ found => push_measures found
  split
  · next a t =>
    split
    · next shape =>
      have room := known a t rfl
      obtain rfl := Layout.eq_array_of_shape room.plain shape
      exact .bind (elementOf_measures room o i) fun _ _ _ found => push_measures found
    · exact behind
  · exact behind

theorem binary_measures (h : l.Proper) (op : Operator) :
    l.Measures code s (binary op) fun _ _ => True := by
  refine .bind pop_measures fun _ right _ mr => ?_
  refine .bind pop_measures fun _ left _ ml => ?_
  refine .bind (read_measures ml) fun _ ⟨lv, lt⟩ _ rl => ?_
  refine .bind (read_measures mr) fun _ ⟨rv, rt⟩ _ rr => ?_
  refine .bind (checkCompatible_looks lt rt).measures fun _ _ _ _ => .of_keeps fun k => ?_
  refine yields_word_bind.2 (yields_lift_bind fun ⟨v, t⟩ e => ?_)
  rw [k.word] at e
  obtain ⟨computed, type⟩ := Arithmetic.apply_computed h.word e
  have sensible : l.Sensible code v t := by
    rcases computed with ⟨x, p, rfl, rfl⟩ | ⟨n, rfl, wide, range⟩
    · exact ⟨p, rfl⟩
    · exact fun _ => ⟨wide, .inl range⟩
  rcases type with rfl | rfl | ⟨p, rfl⟩
  · exact pushValue_measures rl.1 rl.2.1 sensible
  · exact pushValue_measures rr.1 rr.2.1 sensible
  · exact pushValue_measures rfl trivial sensible

/-! ### Assignment -/

theorem copyText_measures (a capacity : Nat) (text : String) :
    l.Measures code s (copyText a capacity text) fun _ _ => True := by
  refine yields_lift_bind fun bytes _ => ?_
  split
  · exact yields_throw
  · exact yields_memory_bind.2 (yields_lift_bind fun m e =>
      setMemory_measures (Memory.write_eq_ok e).1)

/-- The copy of a text is in memory. -/
theorem allocateText_measures (h : l.Proper) (text : String) :
    l.Measures code s (allocateText text) fun _ a => a < l.size := by
  refine yields_lift_bind fun bytes _ => ?_
  refine .bind (arrayOf_measures (e := Ty.char) trivial _) fun _ t _ made => ?_
  obtain ⟨rfl, within⟩ := made
  refine .bind (allocateHeap_measures h rfl within) fun _ a _ room => ?_
  exact .bind (copyText_measures _ _ _) fun _ _ _ _ => Layout.measures_pure room.start

theorem storedValue_measures (h : l.Proper) (t : Ty) (v : Literal) :
    l.Measures code s (storedValue t v) fun _ _ => True := by
  unfold storedValue
  split
  · split
    · exact .bind (allocateText_measures h _) fun _ _ _ _ => Layout.measures_pure trivial
    · exact Layout.measures_pure trivial
  · next array =>
    exact .bind (catalog_looks (f := fun c => c.internDecay array)
      (Catalog.extends_internDecay _ array)).measures fun _ _ _ _ => Layout.measures_pure trivial
  · exact Layout.measures_pure trivial

theorem storeValue_measures (h : l.Proper) (a : Nat) (t : Ty) (v : Literal) :
    l.Measures code s (storeValue a t v) fun _ _ => True :=
  .bind (storedValue_measures h t v) fun _ _ _ _ => yields_memory_bind.2 (yields_catalog_bind.2
    (yields_lift_bind fun _ e => setMemory_measures (Memory.store_eq_ok e).1))

theorem assignTo_measures (h : l.Proper) (a : Nat) (target : Ty) (source : Operand) :
    l.Measures code s (assignTo a target source) fun _ _ => True := by
  unfold assignTo
  split
  · split
    · exact .bind (readText_looks source).measures fun _ _ _ _ => copyText_measures _ _ _
    · exact yields_throw
  · refine .bind (read_looks source).measures fun _ ⟨v, t⟩ _ _ => ?_
    exact .bind (checkCompatible_looks target t).measures fun _ _ _ _ => storeValue_measures h _ _ _

theorem assign_measures (h : l.Proper) : l.Measures code s assign fun _ _ => True := by
  refine .bind pop_measures fun _ source _ _ => ?_
  refine .bind pop_measures fun _ target _ measured => ?_
  refine .bind (storage?_looks target).measures fun _ place _ _ => ?_
  split
  · exact yields_throw
  · exact .bind (assignTo_measures h _ _ source) fun _ _ _ _ => push_measures measured

/-! ### Functions -/

theorem malloc_measures (h : l.Proper) (o : Operand) :
    l.Measures code s (malloc o) fun _ _ => True := by
  refine .bind (readInteger_looks o).measures fun _ n _ _ => ?_
  split
  · exact yields_throw
  · refine .bind (arrayOf_measures (e := Ty.char) trivial _) fun _ t _ made => ?_
    obtain ⟨rfl, within⟩ := made
    exact .bind (allocateHeap_measures h rfl within) fun _ _ _ room =>
      pushPointer_measures room.start rfl trivial

theorem release_measures (o : Operand) : l.Measures code s (release o) fun _ _ => True := by
  refine .bind (read_looks o).measures fun u ⟨v, _⟩ _ _ => ?_
  dsimp only
  split
  · exact yields_throw
  · split
    · exact Layout.measures_pure trivial
    · refine yields_symbols_bind.2 (yields_lift_bind fun block _ => ?_)
      have settings := Symbols.sameSettings_remove u.symbols block
      refine (setSymbols_measures settings.capacity settings.word fun old v mem => ?_).forget
      rw [Symbols.entries_remove] at mem
      exact old v (List.mem_filter.1 mem).1

theorem typeArgument_measures {o : Operand} (measured : l.Measured code o) :
    l.Measures code s (typeArgument o) fun _ t => t.isReference = false ∧ l.Within t := by
  refine .bind (read_measures measured) fun _ ⟨v, t⟩ _ read => ?_
  dsimp only
  split
  · refine yields_catalog_bind.2 ?_
    split
    · exact yields_throw
    · next sized =>
      simp only [Bool.or_eq_true, not_or, Bool.not_eq_true] at sized
      exact Layout.measures_pure ⟨sized.2, read.2.2⟩
  · exact yields_catalog_bind.2 yields_throw

theorem newObject_measures (h : l.Proper) {o : Operand} (measured : l.Measured code o) :
    l.Measures code s (newObject o) fun _ _ => True := by
  refine .bind (typeArgument_measures measured) fun _ t _ ⟨plain, within⟩ => ?_
  exact .bind (allocateHeap_measures h plain fun _ => within) fun _ _ _ room =>
    pushPointer_measures room.start plain within

theorem newArray_measures (h : l.Proper) {type : Operand} (measured : l.Measured code type)
    (count : Operand) : l.Measures code s (newArray type count) fun _ _ => True := by
  refine .bind (typeArgument_measures measured) fun _ e _ ⟨plain, within⟩ => ?_
  refine .bind (readInteger_looks count).measures fun _ n _ _ => ?_
  split
  · exact yields_throw
  · refine .bind (arrayOf_measures within _) fun _ t _ made => ?_
    obtain ⟨rfl, fits⟩ := made
    exact .bind (allocateHeap_measures h rfl fits) fun _ _ _ room =>
      pushPointer_measures room.start plain within

theorem reflectedType_measures {o : Operand} (measured : l.Measured code o) :
    l.Measures code s (reflectedType o) fun _ t => l.Within t := by
  unfold reflectedType
  split
  · exact Layout.measures_pure measured.2.2
  · exact .bind (typeOf_measures measured) fun _ _ _ within =>
      Layout.measures_pure within.strip.2

theorem sizeof_measures (h : l.Proper) {o : Operand} (measured : l.Measured code o) :
    l.Measures code s (sizeof o) fun _ _ => True := by
  refine .bind (reflectedType_measures measured) fun u t _ within => .of_keeps fun k => ?_
  have size : u.catalog.size t = t.size l.word := congrArg t.size k.word
  have fits : u.catalog.size t ≤ l.size := size ▸ h.size_le within
  exact yields_catalog_bind.2 (pushValue_measures rfl trivial
    (Layout.whole_of_count (fun bounded => Nat.le_trans fits bounded.size) (.extent fits)))

theorem typeof_measures {o : Operand} (measured : l.Measured code o) :
    l.Measures code s (typeof o) fun _ _ => True :=
  .bind (reflectedType_measures measured) fun _ _ _ within =>
    pushValue_measures rfl trivial within

theorem print_measures (o : Operand) : l.Measures code s (print o) fun _ _ => True :=
  .bind (printable_looks o).measures fun _ _ _ _ => setConsole_measures

theorem readLine_measures (prompt : String) :
    l.Measures code s (readLine prompt) fun _ _ => True := by
  refine yields_get_bind.2 ?_
  dsimp only
  refine .bind (setConsole_measures (f := fun _ => _)) fun _ _ _ _ => ?_
  split
  · exact Layout.measures_pure trivial
  · exact yields_throw

theorem input_measures (h : l.Proper) (o : Operand) :
    l.Measures code s (input o) fun _ _ => True :=
  .bind (readText_looks o).measures fun _ _ _ _ => .bind (readLine_measures _) fun _ _ _ _ =>
    .bind (allocateText_measures h _) fun _ _ _ inside => pushPointer_measures inside rfl trivial

theorem strlen_measures {o : Operand} (measured : l.Measured code o) :
    l.Measures code s (strlen o) fun _ _ => True := by
  refine .bind (readText_measures measured) fun _ text _ known => ?_
  refine yields_lift_bind fun bytes e => pushValue_measures rfl trivial ?_
  rw [length_textBytes e]
  rcases known with short | stands
  · exact Layout.whole_of_count (fun bounded => Nat.le_trans short bounded.size) (.extent short)
  · exact Layout.whole_of_count (fun bounded => bounded.texts _ stands) (.length stands)

theorem abs_measures (h : l.Proper) {o : Operand} (measured : l.Measured code o) :
    l.Measures code s (abs o) fun _ _ => True := by
  refine .bind (read_measures measured) fun u ⟨v, t⟩ _ ⟨plain, within, _⟩ => .of_keeps fun k => ?_
  dsimp only at plain within ⊢
  split
  · exact yields_throw
  · next p number =>
    obtain rfl := Layout.eq_scalar_of_number plain number
    split
    · exact pushValue_measures plain within ⟨p, rfl⟩
    · split
      · refine yields_word_bind.2 (pushValue_measures plain within ?_)
        exact k.word ▸ h.wrapped (fun _ => fitsWide_narrow _) p
      · exact yields_throw

theorem cast_measures (h : l.Proper) (target : Scalar) {o : Operand}
    (measured : l.Measured code o) : l.Measures code s (cast target o) fun _ _ => True := by
  refine .bind (read_measures measured) fun u ⟨v, t⟩ _ ⟨_, _, sensible⟩ => .of_keeps fun k => ?_
  dsimp only at sensible ⊢
  split
  · exact yields_throw
  · refine yields_word_bind.2 ?_
    rw [k.word]
    split
    · next w made => exact pushValue_measures rfl trivial (h.converted sensible made)
    · exact yields_catalog_bind.2 yields_throw

theorem invoke_measures (h : l.Proper) (f : Builtin) {os : List Operand} (measured : ∀ o ∈ os, l.Measured code o) :
    l.Measures code s (invoke f os) fun _ _ => True := by
  unfold invoke
  split
  · exact malloc_measures h _
  · exact release_measures _
  · exact release_measures _
  · exact newObject_measures h (measured _ (.head _))
  · exact newArray_measures h (measured _ (.head _)) _
  · exact sizeof_measures h (measured _ (.head _))
  · exact typeof_measures (measured _ (.head _))
  · exact print_measures _
  · exact input_measures h _
  · exact strlen_measures (measured _ (.head _))
  · exact abs_measures h (measured _ (.head _))
  · exact .bind (readFloat_looks _).measures fun _ _ _ _ =>
      pushValue_measures rfl trivial ⟨.double, rfl⟩
  · exact .bind (readFloat_looks _).measures fun _ _ _ _ => .bind (readFloat_looks _).measures
      fun _ _ _ _ => pushValue_measures rfl trivial ⟨.double, rfl⟩
  · exact cast_measures h _ (measured _ (.head _))
  · exact yields_throw

theorem call_measures (h : l.Proper) (function : String) (count : Nat) :
    l.Measures code s (call function count) fun _ _ => True := by
  refine yields_get_bind.2 (.of_keeps fun k => ?_)
  dsimp only
  split
  · exact yields_throw
  · refine .bind (setStack_measures (f := fun _ => s.stack.drop count) fun measured o mem =>
      measured o (List.mem_of_mem_drop mem)) fun _ _ _ _ => ?_
    split
    · exact yields_throw
    · next f _ =>
      split
      · exact yields_throw
      · refine .bind (checkArguments_looks _ _ _ _).measures fun _ _ _ _ => ?_
        exact invoke_measures h f fun o mem =>
          k.stack o (List.mem_of_mem_take (List.mem_reverse.1 mem))

/-! ### Declarations -/

theorem makeScalar_measures (h : l.Proper) {t : Ty} (flat : t.Flat) (id : Identifier)
    (initial : Option Operand) :
    l.Measures code s (makeScalar id t initial) fun _ _ => True := by
  have allocates {u : Core} : l.Measures code u (allocate id t) fun _ a => l.Room a t :=
    allocate_measures h flat.plain (fun _ => Layout.within_of_flat flat) id
  refine yields_catalog_bind.2 ?_
  split
  · exact yields_throw
  · split
    · exact .bind allocates fun _ _ _ _ => Layout.measures_pure trivial
    · next o =>
      refine .bind (read_looks o).measures fun _ ⟨v, found⟩ _ _ => ?_
      refine .bind (checkCompatible_looks t found).measures fun _ _ _ _ => ?_
      exact .bind allocates fun _ _ _ _ => storeValue_measures h _ _ _

theorem createScalar_measures (h : l.Proper) {t : Ty} (flat : t.Flat) (id : Identifier)
    (initialized : Bool) : l.Measures code s (createScalar id t initialized) fun _ _ => True := by
  cases initialized with
  | false =>
    have initial : l.Measures code s (pure none : Run (Option Operand)) fun _ _ => True :=
      Layout.measures_pure trivial
    exact initial.bind fun _ o _ _ => makeScalar_measures h flat id o
  | true =>
    have initial : l.Measures code s (some <$> pop) fun _ _ => True :=
      pop_measures.map fun _ _ _ => trivial
    exact initial.bind fun _ o _ _ => makeScalar_measures h flat id o

/-- A reference is registered where its target has room. -/
theorem createReference_measures {t : Ty} (flat : t.Flat) (id : Identifier) :
    l.Measures code s (createReference id (.reference t) t.strip) fun _ _ => True := by
  refine .bind pop_measures fun _ source _ measured => ?_
  refine .bind (storage?_measures measured) fun _ place _ known => ?_
  split
  · exact yields_throw
  · next a found =>
    have room := known a found rfl
    split
    · exact yields_throw
    · next same =>
      have strip : t.strip = t := Ty.strip_of_plain flat.plain
      rw [Decidable.not_not.1 same, strip] at room
      refine .bind (ownerOf?_looks source).measures fun u owner _ _ => .of_keeps fun k => ?_
      split
      · exact yields_throw
      · refine yields_catalog_bind.2 (yields_symbols_bind.2 (yields_lift_bind fun table e => ?_))
        have settings := Symbols.sameSettings_insert e
        obtain ⟨-, -, rfl⟩ := Symbols.insert_eq_ok e
        refine (setSymbols_measures settings.capacity settings.word fun old v mem => ?_).forget
        rcases List.mem_append.1 mem with mem | mem
        · exact old v mem
        · cases List.mem_singleton.1 mem
          have size : u.catalog.size t.strip = t.size l.word := by
            rw [strip]
            exact congrArg t.size k.word
          refine ⟨⟨flat.plain, Layout.within_of_flat flat⟩, size, room.start, ?_⟩
          show a + u.catalog.size t.strip ≤ l.size
          rw [size]
          exact room.stop

theorem createArray_measures (h : l.Proper) {e : Ty} {n : Nat} (flat : e.Flat) (id : Identifier)
    (initialized : Bool) :
    l.Measures code s (createArray id (.array e n) initialized) fun _ _ => True := by
  have declared : (Ty.array e n).Declared := flat
  refine .bind (allocate_measures h rfl (Layout.within_of_declared declared) id) fun _ _ _ _ => ?_
  split
  · refine yields_catalog_bind.2 (yields_memory_bind.2 (yields_lift_bind fun m e => ?_))
    exact setMemory_measures (Memory.write_eq_ok e).1
  · exact Layout.measures_pure trivial

theorem create_measures (h : l.Proper) {t : Ty} (declared : t.Declared) (id : Identifier)
    (initialized : Bool) : l.Measures code s (create t id initialized) fun _ _ => True := by
  refine yields_symbols_bind.2 ?_
  split
  · exact yields_throw
  · have pushed {x : Run Unit} (made : l.Measures code s x fun _ _ => True) :
        l.Measures code s (do x; push (.named id)) fun _ _ => True :=
      made.bind fun _ _ _ _ => push_measures (o := .named id) trivial
    cases t with
    | reference => exact pushed (createReference_measures declared id)
    | array => exact pushed (createArray_measures h declared id initialized)
    | _ => exact pushed (createScalar_measures h declared id initialized)

/-! ### Code -/

/-- A literal has the type that it is spelled for, and is in its range unless that is `long`. -/
theorem push_literal_measures {length : Nat} {v : Literal} (mem : .push v ∈ code)
    (spelled : v.Spelled length) :
    l.Measures code s (do pushValue v (← naturalType v)) fun _ _ => True := by
  cases v with
  | integer n =>
    have natural : l.Measures code s (naturalType (.integer n)) fun _ t =>
        t = Ty.ofInteger l.word n :=
      .of_keeps fun k => yields_word_bind.2 (Layout.measures_pure (k.word ▸ rfl))
    refine natural.bind ?_
    rintro _ _ - rfl
    have wide : fitsWide n = true := by
      obtain ⟨low, high⟩ := spelled
      simp only [fitsWide, Bool.and_eq_true, decide_eq_true_eq]
      exact ⟨by omega, high⟩
    unfold Ty.ofInteger
    dsimp only
    split
    · next small =>
      refine pushValue_measures rfl trivial fun _ => ⟨wide, .inl fun width signed kind => ?_⟩
      cases kind
      simpa [InRange, Scalar.size, Scalar.isSigned] using small
    · exact pushValue_measures rfl trivial fun _ => ⟨wide, .inr (.literal mem)⟩
  | char b => exact pushValue_measures rfl trivial rfl
  | float x => exact pushValue_measures rfl trivial ⟨.double, rfl⟩
  | text t =>
    refine .bind (pointerTo_looks Ty.char).measures fun _ p _ e => ?_
    cases e
    exact pushValue_measures rfl ⟨rfl, trivial⟩ mem
  | type t => exact pushValue_measures rfl trivial (Layout.within_of_flat spelled)

theorem step_measures (h : l.Proper) {length : Nat} (spelled : ∀ i ∈ code, i.Spelled length)
    {i : Instr} (mem : i ∈ code) : l.Measures code s (step i) fun _ _ => True := by
  have known := spelled i mem
  cases i with
  | push v => exact push_literal_measures mem known
  | pushTyped v t =>
    obtain ⟨rfl, rfl⟩ := known
    have null : 0 < l.size := Nat.lt_trans (by decide) h.low
    exact pushValue_measures rfl ⟨rfl, trivial⟩ (Layout.whole_of_address null code Ty.any)
  | pushName id =>
    exact .bind (lookup_looks id).measures fun _ _ _ _ => push_measures (o := .named id) trivial
  | addressOf => exact addressOf_measures
  | dereference levels => exact dereference_measures levels
  | index => exact index_measures
  | binary op => exact binary_measures h op
  | assign => exact assign_measures h
  | create t id initialized => exact create_measures h known id initialized
  | call function count => exact call_measures h function count
  | discard => exact .bind pop_measures fun _ _ _ _ => Layout.measures_pure trivial

theorem code_measures (h : l.Proper) {length : Nat} (spelled : ∀ i ∈ code, i.Spelled length) :
    ∀ (is : List Instr) {s : Core}, is ⊆ code → l.Measures code s (Run.code is) fun _ _ => True
  | [], _, _ => Layout.measures_pure trivial
  | i :: is, _, among => by
    rw [List.cons_subset] at among
    exact .bind (step_measures h spelled among.1) fun _ _ _ _ =>
      code_measures h spelled is among.2

theorem resultOf_measures (o : Operand) : l.Measures code s (resultOf o) fun _ _ => True := by
  have temporary {u : Core} (v : Literal) (t : Ty) (a : Nat) :
      l.Measures code u (temporary v t a) fun _ _ => True :=
    yields_symbols_bind.2 (.bind (setSymbols_measures rfl rfl fun old => old) fun _ _ _ _ =>
      yields_catalog_bind.2 (Layout.measures_pure trivial))
  cases o with
  | named id => exact (lookup_measures id).forget
  | place a t owner =>
    exact yields_memory_bind.2 (yields_catalog_bind.2 (yields_lift_bind fun v _ => temporary v t a))
  | value v t => exact temporary v t 0

theorem statement_measures (h : l.Proper) {length : Nat} (spelled : ∀ i ∈ code, i.Spelled length) :
    l.Measures code s (statement code) fun _ _ => True := by
  refine .bind (code_measures h spelled code (List.Subset.refl _)) fun u _ _ _ => ?_
  refine yields_get_bind.2 ?_
  split
  · exact Layout.measures_pure trivial
  · exact .bind pop_measures fun _ o _ _ => (resultOf_measures o).map fun _ _ _ => trivial
  · exact yields_throw

theorem registerAll_measures (h : l.Proper) : ∀ (streams : List (String × Int)) {s : Core},
    l.Measures code s (registerAll streams) fun _ _ => True
  | [], _ => Layout.measures_pure trivial
  | _ :: streams, _ => by
    refine .bind (allocate_measures h (t := Ty.int) rfl (fun _ => trivial) _) fun _ _ _ _ => ?_
    refine yields_memory_bind.2 (yields_catalog_bind.2 (yields_lift_bind fun m e => ?_))
    exact .bind (setMemory_measures (Memory.store_eq_ok e).1) fun _ _ _ _ =>
      registerAll_measures h streams

end Run

/-! ### Lines -/

theorem Instr.Spelled.mono {m n : Nat} (h : m ≤ n) {i : Instr} (k : i.Spelled m) : i.Spelled n := by
  cases i with
  | push => exact Literal.Spelled.mono h k
  | _ => exact k

namespace Machine

variable {m n : Machine}

/-- The code of a line holds only what the line spells out. -/
theorem spelled_codeOf (h : m.Sound) (line : String) :
    ∀ i ∈ m.codeOf line, i.Spelled line.length := by
  unfold codeOf
  split
  · next s read =>
    have word : Catalog.isWordSize m.scope.word = true := h.core.closed.word
    have shorter : (Statement.clean line).length ≤ line.length := by
      rw [Statement.clean, String.length_ofList]
      exact Statement.length_cleanChars line.toList
    exact fun i mem => (Statement.spelled_of_parse word read i mem).mono shorter
  · exact List.forall_mem_nil _

/-- The sizes that a machine is set to. -/
def layout (m : Machine) : Layout := ⟨m.config.word, m.config.memorySize⟩

/-- The state in which the code of a line starts. -/
def start (m : Machine) (line : String) : Core :=
  { (m.meet (Statement.parse m.scope (Statement.clean line)).2).core with stack := [] }

/-- The state that the first instructions of a line leave, be it because one of them has failed. -/
def stateAfter (m : Machine) (line : String) (count : Nat) : Core :=
  ((Run.code ((m.codeOf line).take count)).run.run (m.start line)).2

/-- All variables that the machine has or can go back to have room. -/
structure Fitting (m : Machine) : Prop where
  present : ∀ v ∈ m.core.symbols.entries, m.layout.Places v
  past : ∀ s ∈ m.history.entries, ∀ v ∈ s.symbols.entries, m.layout.Places v

theorem Fitting.holds_meet (fitting : m.Fitting) (configured : m.core.Configured m.config)
    (met : List Ty) (code : List Instr) :
    m.layout.Holds code { (m.meet met).core with stack := [] } where
  word := (Catalog.extends_internAll met m.core.catalog).word.trans configured.word
  memory := configured.memory
  capacity := configured.capacity
  width := configured.width
  places := fitting.present
  stack := List.forall_mem_nil _

theorem Reachable.proper (h : m.Reachable) : m.layout.Proper where
  word := by
    have word : Catalog.isWordSize m.core.catalog.word = true := h.sound.core.closed.word
    rw [h.sound.configured.word] at word
    exact word
  low := by
    have valid := h.isSize
    simp only [Memory.isSize, Bool.and_eq_true, decide_eq_true_eq] at valid
    exact valid.1

/-- A new entry of the history has the variables of the machine. -/
theorem Fitting.record (fitting : m.Fitting) (name : String) :
    ({ m with history := m.history.push (m.snapshot name) } : Machine).Fitting where
  present := fitting.present
  past := fun s mem => by
    rcases History.mem_push mem with mem | rfl
    · exact fitting.past s mem
    · exact fitting.present

theorem Fitting.rewound (fitting : m.Fitting) (r : m.Rewound n) : n.Fitting := by
  have same : n.layout = m.layout := by rw [layout, layout, r.config]
  constructor
  · rw [same, r.symbols]
    exact fitting.present
  · rw [same, r.history]
    exact fitting.past

/-- A machine that is reset has only its streams, and these have room. -/
theorem fitting_reset (proper : m.layout.Proper) (configured : m.core.Configured m.config)
    (e : m.reset = (.ok (), n)) : n.Fitting := by
  have config := reset_config m
  rw [e] at config
  let cleared : Core := { m.core with
    memory := m.core.memory.clear, symbols := m.core.symbols.clear, stack := [] }
  have start : m.layout.Holds [] cleared := by
    obtain ⟨memory, capacity, word, width, -, -⟩ := configured
    have size : cleared.memory.size = m.core.memory.size := List.length_replicate
    exact ⟨word, size.trans memory, capacity, width, List.forall_mem_nil _, List.forall_mem_nil _⟩
  obtain ⟨-, holds, -⟩ := Run.registerAll_measures proper standardStreams start
  unfold reset at e
  dsimp only at e
  split at e
  · cases e
  · next core k =>
    rw [k] at holds
    have anew : ({ m with core := core, history := m.history.clear } : Machine).Fitting :=
      ⟨holds.places, fun s mem => nomatch mem⟩
    cases e
    exact anew.record resetName

theorem Fitting.execute (fitting : m.Fitting) (h : m.Reachable) (line : String) :
    (m.execute line).2.Fitting := by
  have sound := h.sound
  have met (ts : List Ty) : (m.meet ts).Fitting := ⟨fitting.present, fitting.past⟩
  have spelled := spelled_codeOf sound line
  rcases k : Statement.parse m.scope (Statement.clean line) with ⟨fault | _ | s, ts⟩
  · rw [execute_misread k]
    exact met ts
  · rw [(execute_blank k).2]
    exact met ts
  · obtain ⟨code, e⟩ := execute_read k
    rw [code] at spelled
    rw [e]
    have closed := Statement.closed_of_parse sound.core.closed k
    have configured : (m.meet ts).core.Configured m.config :=
      sound.configured.lead ⟨Catalog.extends_internAll _ _, rfl, rfl, .refl _⟩
    rcases perform_cases configured (sound_meet sound closed)
      (Statement.known_of_parse sound.core.closed k) (Statement.clean line) with
      ⟨fault, n, e, rewound, -⟩ | ⟨r, core, e, -, core_sound⟩
    · rw [e]
      exact (met ts).rewound rewound
    · obtain ⟨core, ran⟩ := run_of_perform e
      rw [perform_done ran]
      have start := fitting.holds_meet sound.configured ts s.compile
      obtain ⟨-, holds, -⟩ := (Run.statement_measures h.proper spelled).of_run start ran
      have collected : ({ m.meet ts with core :=
          { core with symbols := core.symbols.collect, stack := [] } } : Machine).Fitting := by
        refine ⟨fun v mem => holds.places v ?_, fitting.past⟩
        change v ∈ core.symbols.collect.entries at mem
        rw [Symbols.collect, Symbols.entries_removeAll] at mem
        exact (List.mem_filter.1 mem).1
      exact collected.record _

/-- A new machine has only its streams. -/
theorem fitting_create {c : Config} {console : Console} (e : create c console = .ok m) :
    m.Fitting := by
  unfold create at e
  obtain ⟨⟨⟩, valid, e⟩ := bind_eq_ok.1 e
  split at e
  · next k =>
    cases e
    obtain ⟨word, size⟩ := validate_eq_ok valid
    simp only [Memory.isSize, Bool.and_eq_true, decide_eq_true_eq] at size
    have configured : (blank c console).core.Configured c :=
      ⟨List.length_replicate, rfl, rfl, rfl, rfl, rfl⟩
    have proper : (blank c console).layout.Proper := ⟨word, size.1⟩
    exact fitting_reset proper configured k
  · cases e

/-- A machine whose words were changed has only its streams. -/
theorem Reachable.fitting_setWord (h : m.Reachable) {word : Nat}
    (e : m.setWord word = (.ok (), n)) : n.Fitting := by
  rcases setWord_cases h.isSize word with ⟨-, refused⟩ | ⟨valid, anew⟩
  · exact nomatch refused.symm.trans e
  · rw [anew] at e
    have configured : (m.withWord word).core.Configured (m.withWord word).config :=
      ⟨h.sound.configured.memory, rfl, rfl, rfl, h.sound.configured.order, rfl⟩
    have proper : (m.withWord word).layout.Proper := ⟨valid, h.proper.low⟩
    exact fitting_reset proper configured e

theorem Reachable.fitting (h : m.Reachable) : m.Fitting := by
  induction h with
  | created e => exact fitting_create e
  | executed h line ih => exact ih.execute h line
  | @ran m h source ih =>
    have keeps : (m.runProgram source).2.Reachable ∧ (m.runProgram source).2.Fitting :=
      runLines_keeps (p := fun n => n.Reachable ∧ n.Fitting)
        (fun _ line kept => ⟨kept.1.executed line, kept.2.execute kept.1 line⟩) _ m 1 ⟨h, ih⟩
    exact keeps.2
  | @ordered m h o ih =>
    rcases setOrder_cases h.sound o with ⟨-, e⟩ | ⟨-, memory, n, -, -, same, e⟩ <;> rw [e]
    · exact ih
    · have switched : n.Fitting := same ▸ ⟨ih.present, ih.past⟩
      exact switched.record _
  | placed _ p ih => exact ⟨ih.present, ih.past⟩
  | @reverted m h index ih =>
    cases e : m.history.get? index with
    | none => rw [revert_none e]; exact ih
    | some s =>
      rw [revert_eq h.sound e]
      exact ⟨ih.past s (List.mem_of_getElem? e),
        fun t mem => ih.past t (List.mem_of_mem_take mem)⟩
  | consoled _ _ ih => exact ⟨ih.present, ih.past⟩
  | reset h e ih => exact fitting_reset h.proper h.sound.configured e
  | resized h e ih => exact h.fitting_setWord e

end Machine

end ByteMachine
