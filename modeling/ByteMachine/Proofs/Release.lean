import ByteMachine.Proofs.HeapBlocks
import ByteMachine.Proofs.Indexing
import ByteMachine.Proofs.WriteThrough

/-!
# Releasing a block

`free` and `delete` release the block that starts where their argument leads to. The block goes, and
with it, when the statement is committed, exactly the aliases that refer to it: all others have an
owner that is still there. Its bytes stay as they are, but belong to nobody, so no block starts at
any of them until room is given out again. Any other address is refused: one inside a block, one of
a variable that was declared and one of a block that was released.

Between statements no operand is held, so a statement that is refused leaves the machine as it was,
but for the types that were met. These can make a difference: an array is taken for a pointer to its
elements, and a byte that was no type may be the byte of that pointer.

Key definitions: `Core.EvaluatesTo`, `Machine.Releases`, `Machine.informed`.
Key theorems: `Machine.Reachable.stack_empty`, `Run.run_call_release`,
`Symbols.Sound.entries_released`, `Machine.Releases.committed`, `Machine.Releases.refused`,
`Machine.Reachable.release_law`, `Machine.refused_release_meets_type`.
-/

namespace ByteMachine

open Discipline

/-! ### What a call releases -/

namespace Run

variable {s u : Core} {o : Operand} {type t : Ty} {v : Literal} {address : Nat}

/-- Storage reads the same once the pointer it may decay to was met. -/
theorem readStorage_settled (plain : type.strip.isReference = false)
    (e : (readStorage address type.strip).run.run s = (.ok (v, t), u)) :
    (readStorage address type.strip).run.run
        { s with catalog := s.catalog.internDecay type } =
      (.ok (v, t), { s with catalog := s.catalog.internDecay type }) := by
  unfold readStorage at e ⊢
  by_cases array : type.strip.isArray = true
  · rw [if_pos array] at e ⊢
    cases e
    show (Except.ok _, { s with catalog :=
      (s.catalog.internDecay type).internDecay type.strip }) = _
    rw [Catalog.internDecay_strip _ plain, Catalog.internDecay_internDecay]
  · rw [if_neg array] at e ⊢
    have still : s.catalog.internDecay type = s.catalog := by
      rw [← Catalog.internDecay_strip _ plain]
      exact if_neg array
    rw [still]
    have only : u = s := by
      have e : ((do
        let memory ← memory
        let c ← catalog
        let v ← lift (memory.load c address type.strip)
        return (v, type.strip)) : Run (Literal × Ty)).run.run s = (.ok (v, t), u) := e
      rw [run_memory_bind, run_catalog_bind] at e
      obtain ⟨w, -, e⟩ := lift_bind_eq_ok e
      cases e
      rfl
    rw [e, only]

/-- An operand that is read reads the same once its type was decayed. -/
theorem read_settled (declared : (typeOf o).run.run s = (.ok type, s))
    (plain : type.strip.isReference = false) (e : (read o).run.run s = (.ok (v, t), u)) :
    (read o).run.run { s with catalog := s.catalog.internDecay type } =
      (.ok (v, t), { s with catalog := s.catalog.internDecay type }) := by
  cases o with
  | value w known =>
    cases e
    rfl
  | place address known owner =>
    cases declared
    exact readStorage_settled plain e
  | named id =>
    obtain ⟨-, w, found, rfl⟩ := typeOf_named_eq_ok declared
    rw [read, run_bind, run_lookup, found] at e ⊢
    exact readStorage_settled plain e

/-- Releasing what an operand leads to looks for the block there and takes it away. -/
theorem run_release (declared : (typeOf o).run.run s = (.ok type, s))
    (plain : type.strip.isReference = false) (e : (read o).run.run s = (.ok (v, t), u))
    (value : v.toAddress? = some address) (nonzero : address ≠ 0) :
    (release o).run.run { s with catalog := s.catalog.internDecay type } =
      match s.symbols.heapBlockAt address with
      | .ok block => (.ok (), { s with
          catalog := s.catalog.internDecay type, symbols := s.symbols.remove block })
      | .error fault => (.error fault, { s with catalog := s.catalog.internDecay type }) := by
  rw [release, run_bind, read_settled declared plain e]
  simp only [value, if_neg nonzero]
  rw [run_symbols_bind]
  cases s.symbols.heapBlockAt address <;> rfl

/-- Every argument may stand for a pointer to `any`; its type is decayed for that. -/
theorem run_checkArguments_any (function : String) (declared : (typeOf o).run.run s = (.ok type, s)) :
    (checkArguments function 1 [("ptr", Ty.anyPointer)] [o]).run.run s =
      (.ok (), { s with catalog := s.catalog.internDecay type }) := by
  have fits : Ty.anyPointer.compatible type = true := by
    have any : Ty.anyPointer.decay.isPointerToAny = true := rfl
    simp [Ty.compatible, any]
  rw [checkArguments, run_bind, declared]
  dsimp only
  rw [run_bind]
  show ((if !Ty.anyPointer.compatible type then _ else _ : Run Unit)).run.run _ = _
  rw [fits]
  rfl

/-- Calling a function of one parameter on the one operand there is checks the operand and runs the
function. -/
theorem run_call_single {function : String} {f : Builtin} {parameter : String × Ty}
    (known : Builtin.ofName? function = some f) (single : f.parameters = [parameter])
    (empty : s.stack = []) : (call function 1).run.run { s with stack := [o] } =
      (do
        checkArguments function 1 [parameter] [o]
        invoke f [o] : Run Unit).run.run s := by
  obtain ⟨c, m, table, console, stack⟩ := s
  cases empty
  rw [call, known]
  dsimp only
  rw [single]
  rfl

/-- A call of `free` or `delete` takes its argument and releases what it leads to. -/
theorem run_call_release {function : String} (name : function = "free" ∨ function = "delete")
    (declared : (typeOf o).run.run s = (.ok type, s))
    (plain : type.strip.isReference = false) (e : (read o).run.run s = (.ok (v, t), u))
    (value : v.toAddress? = some address) (nonzero : address ≠ 0) (empty : s.stack = []) :
    (call function 1).run.run { s with stack := [o] } =
      match s.symbols.heapBlockAt address with
      | .ok block => (.ok (), { s with
          catalog := s.catalog.internDecay type, symbols := s.symbols.remove block })
      | .error fault => (.error fault, { s with catalog := s.catalog.internDecay type }) := by
  have body : (call function 1).run.run { s with stack := [o] } = (do
      checkArguments function 1 [("ptr", Ty.anyPointer)] [o]
      release o : Run Unit).run.run s := by
    rcases name with rfl | rfl
    · exact run_call_single (f := .free) rfl rfl empty
    · exact run_call_single (f := .delete) rfl rfl empty
  rw [body, run_bind, run_checkArguments_any function declared]
  exact run_release declared plain e value nonzero

end Run

/-! ### What is left of the table -/

/-- When a variable is removed, its aliases are collected and no others. -/
theorem Symbols.Sound.entries_released {s : Symbols} (h : s.Sound) (bound : s.Bound)
    (id : Identifier) : (s.remove id).collect.entries =
      s.entries.filter fun v => v.id ≠ id ∧ v.role ≠ .reference id := by
  have left := h.remove id
  rw [left.entries_collect, entries_remove, List.filter_filter]
  refine List.filter_congr fun v mem => ?_
  rw [Bool.eq_iff_iff, Bool.and_eq_true, left.isBound_iff, entries_remove, bne_iff_ne,
    decide_eq_true_eq]
  constructor
  · rintro ⟨covered, other⟩
    refine ⟨other, fun alias' => ?_⟩
    obtain ⟨w, there, same, -⟩ := covered id alias'
    exact bne_iff_ne.1 (List.mem_filter.1 there).2 same
  · rintro ⟨other, elsewhere⟩
    refine ⟨fun target role => ?_, other⟩
    obtain ⟨w, mw, same, covers⟩ := h.isBound_iff.1 (bound v mem) target role
    refine ⟨w, List.mem_filter.2 ⟨mw, bne_iff_ne.2 fun gone => elsewhere ?_⟩, same, covers⟩
    rw [role, ← same, gone]

/-! ### Between statements -/

namespace Run

/-- Registering the streams leaves no operand. -/
theorem registerAll_steady : ∀ streams : List (String × Int), Steady .still (registerAll streams)
  | [] => steady_pure ()
  | _ :: rest =>
    (allocate_steady _ _).bind fun _ => steady_memory_bind fun _ =>
      steady_word_of (fun h => by rw [Memory.store_congr h]) fun _ =>
        (steady_lift _).bind fun _ => (setMemory_steady _).bind fun _ => registerAll_steady rest

end Run

namespace Machine

variable {m n : Machine} {line : String} {a : Nat} {c : Catalog}

theorem stack_reset (e : m.reset = (.ok (), n)) : n.core.stack = [] := by
  have turns := ((Run.registerAll_steady standardStreams).moves m.core.cleared).2 ()
  rw [reset_eq] at e
  split at e
  · cases e
  · next core ran =>
    cases e
    obtain ⟨-, os, length, stack⟩ := turns (congrArg Prod.fst ran)
    rw [ran] at stack
    rw [List.length_eq_zero_iff.1 length] at stack
    exact stack

theorem stack_execute (h : m.Sound) (empty : m.core.stack = []) (line : String) :
    (m.execute line).2.core.stack = [] := by
  rcases k : Statement.parse m.scope (Statement.clean line) with ⟨fault | _ | s, met⟩
  · rw [execute_misread k]
    exact empty
  · rw [(execute_blank k).2]
    exact empty
  · rcases ran : (Run.statement s.compile).run.run { (m.meet met).core with stack := [] } with
      ⟨fault | r, core⟩
    · rw [h.execute_undone k ran]
    · rw [(execute_read k).2, perform_done ran]
      rfl

/-- Between statements no operand is held. -/
theorem Reachable.stack_empty (h : m.Reachable) : m.core.stack = [] := by
  induction h with
  | created e =>
    obtain ⟨-, -, e⟩ := bind_eq_ok.1 e
    split at e
    · next k =>
      cases e
      exact stack_reset k
    · cases e
  | executed h line ih => exact stack_execute h.sound ih line
  | @ran m h source ih =>
    have line (n : Machine) (line : String) (kept : n.Sound ∧ n.core.stack = []) :
        (n.execute line).2.Sound ∧ (n.execute line).2.core.stack = [] :=
      ⟨kept.1.execute line, stack_execute kept.1 kept.2 line⟩
    have keeps : (m.runProgram source).2.Sound ∧ (m.runProgram source).2.core.stack = [] :=
      runLines_keeps (p := fun n => n.Sound ∧ n.core.stack = []) line _ m 1 ⟨h.sound, ih⟩
    exact keeps.2
  | @ordered m h o ih =>
    rcases setOrder_cases h.sound o with ⟨-, e⟩ | ⟨-, memory, n, -, -, same, e⟩ <;> rw [e]
    · exact ih
    · subst same
      exact ih
  | placed _ p ih => exact ih
  | @reverted m h index ih =>
    cases e : m.history.get? index with
    | none =>
      rw [revert_none e]
      exact ih
    | some s => rw [revert_eq h.sound e]
  | consoled _ _ ih => exact ih
  | reset _ e _ => exact stack_reset e
  | @resized m n h word e _ =>
    rcases setWord_cases h.isSize word with ⟨-, refused⟩ | ⟨-, anew⟩
    · exact nomatch refused.symm.trans e
    · exact stack_reset (anew ▸ e)

end Machine

/-! ### Statements that release -/

/-- From the core on, the expression leaves one operand, which reads as the address, and changes
nothing. The types that were met by then are in `c`, with the pointer that an array decays to. -/
def Core.EvaluatesTo (s : Core) (e : Expr) (address : Nat) (c : Catalog) : Prop :=
  ∃ o d type v t u,
    (Run.code e.compile).run.run s = (.ok (), { s with catalog := d, stack := o :: s.stack }) ∧
    (Run.typeOf o).run.run { s with catalog := d } = (.ok type, { s with catalog := d }) ∧
    (Run.read o).run.run { s with catalog := d } = (.ok (v, t), u) ∧
    v.toAddress? = some address ∧ c = d.internDecay type

/-- Code that evaluates such an expression and calls `free` or `delete` on it takes away the block
that starts at the address, or fails for want of one. -/
theorem Run.run_statement_release {s : Core} (sound : s.Sound) (empty : s.stack = []) {e : Expr}
    (known : Code.Known s.catalog e.compile) {address : Nat} {c : Catalog}
    (evaluates : s.EvaluatesTo e address c) (nonzero : address ≠ 0) {function : String}
    (name : function = "free" ∨ function = "delete") :
    (Run.statement (e.compile ++ [.call function 1])).run.run s =
      match s.symbols.heapBlockAt address with
      | .ok block => (.ok none, { s with catalog := c, symbols := s.symbols.remove block })
      | .error fault => (.error fault, { s with catalog := c }) := by
  obtain ⟨o, d, type, v, t, u, ran, declared, reads, value, rfl⟩ := evaluates
  obtain ⟨-, after, -⟩ := (Run.code_yields _ known).of_run sound ran
  have kept : ({ s with catalog := d } : Core).Sound :=
    ⟨after.closed, after.fits, fun o mem => after.stack o (.tail _ mem)⟩
  have top : o.Known d := after.stack o (.head _)
  obtain ⟨-, -, met⟩ :=
    (Run.typeOf_yields (s := { s with catalog := d }) top).of_run kept declared
  have plain : type.strip.isReference = false := after.closed.isReference_strip met
  have released : (call function 1).run.run { s with catalog := d, stack := [o] } =
      match s.symbols.heapBlockAt address with
      | .ok block => (.ok (), { s with
          catalog := d.internDecay type, symbols := s.symbols.remove block })
      | .error fault => (.error fault, { s with catalog := d.internDecay type }) :=
    run_call_release (s := { s with catalog := d }) name declared plain reads value nonzero empty
  have last : (code (e.compile ++ [.call function 1])).run.run s =
      (call function 1).run.run { s with catalog := d, stack := [o] } := by
    rw [← empty]
    exact run_code_last ran
  rw [statement, run_bind, last, released]
  obtain ⟨c, m, table, console, stack⟩ := s
  cases empty
  dsimp only
  cases table.heapBlockAt address <;> rfl

namespace Machine

/-- The line calls `free` or `delete` on an expression that evaluates to the address. -/
def Releases (m : Machine) (line : String) (address : Nat) (c : Catalog) : Prop :=
  ∃ e s met, Statement.parse m.scope (Statement.clean line) = (.ok (some s), met) ∧
    (s = .expression (.call "free" [e]) ∨ s = .expression (.delete e)) ∧
    ({ (m.meet met).core with stack := [] } : Core).EvaluatesTo e address c

theorem meet_nil (m : Machine) : m.meet [] = m := rfl

/-- The machine with nothing changed but the types that were met. -/
def informed (m : Machine) (c : Catalog) : Machine :=
  { m with core := { m.core with catalog := c } }

/-- The name of a pointer evaluates to the address that the pointer holds. -/
theorem evaluatesTo_pointer {m : Machine} {p : Variable}
    (found : m.core.symbols.get? p.id = some p) {target : Ty} (type : p.type = .pointer target)
    {v : Literal} (loaded : m.core.memory.load m.core.catalog p.address (.pointer target) = .ok v)
    {address : Nat} (value : v.toAddress? = some address) :
    ({ m.core with stack := [] } : Core).EvaluatesTo (.name p.id) address m.core.catalog := by
  have declared : (Run.typeOf (.named p.id)).run.run { m.core with stack := [] } =
      (.ok (.pointer target), { m.core with stack := [] }) :=
    type ▸ Run.run_typeOf_named found
  have ran : (Run.code (Expr.name p.id).compile).run.run { m.core with stack := [] } =
      (.ok (), { m.core with stack := [.named p.id] }) := Run.run_name found
  have reads : (Run.read (.named p.id)).run.run { m.core with stack := [] } =
      (.ok (v, .pointer target), { m.core with stack := [] }) := Run.run_read_pointer found type loaded
  exact ⟨_, _, _, _, _, _, ran, declared, reads, value, rfl⟩

/-- The name of an array evaluates to where the array is; taking it for a pointer meets the type. -/
theorem evaluatesTo_array {m : Machine} {x : Variable}
    (found : m.core.symbols.get? x.id = some x) {element : Ty} {count : Nat}
    (type : x.type = .array element count) (reach : x.address < Number.addressBound) :
    ({ m.core with stack := [] } : Core).EvaluatesTo (.name x.id) x.address
      (m.core.catalog.internDecay (.array element count)) := by
  have declared : (Run.typeOf (.named x.id)).run.run { m.core with stack := [] } =
      (.ok (.array element count), { m.core with stack := [] }) :=
    type ▸ Run.run_typeOf_named found
  have ran : (Run.code (Expr.name x.id).compile).run.run { m.core with stack := [] } =
      (.ok (), { m.core with stack := [.named x.id] }) := Run.run_name found
  have reads : (Run.read (.named x.id)).run.run { m.core with stack := [] } =
      (.ok (.integer x.address, (Ty.array element count).decay),
        { m.core with catalog := m.core.catalog.internDecay (.array element count), stack := [] }) := by
    rw [Run.read, run_bind, Run.run_lookup, found]
    simp only [type]
    rfl
  exact ⟨_, _, _, _, _, _, ran, declared, reads, Literal.toAddress?_integer reach, rfl⟩

/-- Both forms of the statement end in a call on the one argument. -/
theorem compile_release {s : Statement} {e : Expr}
    (form : s = .expression (.call "free" [e]) ∨ s = .expression (.delete e)) :
    ∃ function, (function = "free" ∨ function = "delete") ∧
      s.compile = e.compile ++ [.call function 1] := by
  rcases form with rfl | rfl
  · refine ⟨"free", .inl rfl, ?_⟩
    simp only [Statement.compile, Expr.compile, Expr.compileAll, List.append_nil,
      List.length_singleton]
  · exact ⟨"delete", .inr rfl, rfl⟩

variable {m n : Machine} {line : String} {a : Nat} {c : Catalog}

/-- Such a line takes away the block that starts at the address, or fails for want of one. -/
theorem Releases.run (h : m.Sound) (releases : m.Releases line a c) (nonzero : a ≠ 0) :
    ∃ s met, Statement.parse m.scope (Statement.clean line) = (.ok (some s), met) ∧
      (Run.statement s.compile).run.run { (m.meet met).core with stack := [] } =
        match m.core.symbols.heapBlockAt a with
        | .ok block => (.ok none, { m.core with
            catalog := c, symbols := m.core.symbols.remove block, stack := [] })
        | .error fault => (.error fault, { m.core with catalog := c, stack := [] }) := by
  obtain ⟨e, s, met, read, form, evaluates⟩ := releases
  obtain ⟨function, name, code⟩ := compile_release form
  have known := Statement.known_of_parse h.core.closed read
  rw [code, Code.known_append] at known
  refine ⟨s, met, read, ?_⟩
  rw [code]
  exact Run.run_statement_release (sound_start h read) rfl known.1 evaluates nonzero name

/-- The block that starts at the address is released. -/
theorem Releases.committed (h : m.Sound) (releases : m.Releases line a c) (nonzero : a ≠ 0)
    {block : Identifier} (found : m.core.symbols.heapBlockAt a = .ok block) :
    m.execute line = (.ok none, m.commit (Statement.clean line) { m.core with
      catalog := c, symbols := m.core.symbols.remove block, stack := [] }) := by
  obtain ⟨s, met, read, ran⟩ := releases.run h nonzero
  rw [found] at ran
  rw [(execute_read read).2, perform_done ran]
  rfl

/-- Where no block starts nothing is released and nothing is changed. -/
theorem Releases.refused (h : m.Reachable) (releases : m.Releases line a c) (nonzero : a ≠ 0)
    (vacant : ∀ b ∈ m.core.symbols.entries, b.id.isHeap = true → b.address ≠ a) :
    m.execute line = (.error (.notHeapAddress a), m.informed c) := by
  obtain ⟨s, met, read, ran⟩ := releases.run h.sound nonzero
  rw [h.sound.core.fits.table.heapBlockAt_of_none vacant] at ran
  rw [h.sound.execute_undone read ran, informed, ← h.stack_empty]

/-- What releasing a block does. `free` and `delete` are committed where a block starts and nowhere
else; then the block and the aliases that refer to it are gone, and nothing else has changed. At none
of its bytes is anything released again, from the machine as it is then. Wherever no block starts, as
at a byte inside an owner or at one of a variable that was declared, the statement is refused and
leaves the machine as it was, but for the types that it met; so it changes nothing if it met none. -/
theorem Reachable.release_law (h : m.Reachable) (releases : m.Releases line a c) (nonzero : a ≠ 0) :
    ((∃ r n, m.execute line = (.ok r, n)) ↔
      ∃ b ∈ m.core.symbols.entries, b.id.isHeap = true ∧ b.address = a) ∧
    (∀ r n, m.execute line = (.ok r, n) →
      ∃ b ∈ m.core.symbols.entries, b.id.isHeap = true ∧ b.address = a ∧ r = none ∧
        n.core.symbols.entries =
          m.core.symbols.entries.filter (fun v => v.id ≠ b.id ∧ v.role ≠ .reference b.id) ∧
        n.core.memory = m.core.memory ∧ n.core.console = m.core.console ∧
        n.core.catalog = c ∧ n.config = m.config ∧
        ∀ again a' c', n.Releases again a' c' → b.address ≤ a' → a' < b.stop →
          n.execute again = (.error (.notHeapAddress a'), n.informed c')) ∧
    ((∀ b ∈ m.core.symbols.entries, b.id.isHeap = true → b.address ≠ a) →
      m.execute line = (.error (.notHeapAddress a), m.informed c)) ∧
    (∀ w ∈ m.core.symbols.entries, w.isAlias = false → w.address ≤ a → a < w.stop →
      w.id.isHeap = false ∨ w.address ≠ a →
      m.execute line = (.error (.notHeapAddress a), m.informed c)) ∧
    (c = m.core.catalog → m.informed c = m) := by
  have table := h.sound.core.fits.table
  have blocks := h.ownsBlocks
  have starts {r : Option Variable} {n : Machine} (done : m.execute line = (.ok r, n)) :
      ∃ b ∈ m.core.symbols.entries, b.id.isHeap = true ∧ b.address = a := by
    by_contra vacant
    have refused := releases.refused h nonzero fun b mem heap here => vacant ⟨b, mem, heap, here⟩
    cases done.symm.trans refused
  refine ⟨⟨fun ⟨r, n, done⟩ => starts done, ?_⟩, ?_, releases.refused h nonzero, ?_, ?_⟩
  · rintro ⟨b, mem, heap, rfl⟩
    exact ⟨_, _, releases.committed h.sound nonzero (table.heapBlockAt_eq_ok blocks mem heap)⟩
  · intro r n done
    obtain ⟨b, mem, heap, rfl⟩ := starts done
    have reached := h.of_done done
    have committed :=
      releases.committed h.sound nonzero (table.heapBlockAt_eq_ok blocks mem heap)
    have left : n.core.symbols.entries =
        m.core.symbols.entries.filter fun v => v.id ≠ b.id ∧ v.role ≠ .reference b.id := by
      rw [← table.entries_released h.sound.bound b.id]
      cases done.symm.trans committed
      rfl
    have pos : 0 < b.address := (table.room b mem (blocks b mem heap)).2.1
    refine ⟨b, mem, heap, rfl, ?_⟩
    cases done.symm.trans committed
    refine ⟨rfl, left, rfl, rfl, rfl, rfl, fun again a' c' releases' low high => ?_⟩
    refine releases'.refused reached (by omega) fun d md heap' here => ?_
    -- A block at a byte of the released one would share it, so it would be that block.
    rw [left] at md
    obtain ⟨md, other⟩ := List.mem_filter.1 md
    obtain rfl := table.eq_of_block blocks md heap' mem
      ⟨blocks b mem heap, here ▸ low, here ▸ high⟩
    exact (of_decide_eq_true other).1 rfl
  · intro w mw owner low high other
    refine releases.refused h nonzero fun b mem heap here => ?_
    obtain rfl := table.eq_of_block blocks mem heap mw ⟨owner, here ▸ low, here ▸ high⟩
    rcases other with declared | inside
    · rw [heap] at declared
      cases declared
    · exact inside here
  · rintro rfl
    rfl

/-- A machine with a block of eight bytes, a pointer to it and a reference to its first four. -/
def referring : Machine := ((fresh.execute "int* p = malloc(8)").2.execute "int& r = *p").2

/-- Releasing the block takes the reference with it and leaves the pointer. -/
theorem release_law_aliased :
    (referring.Reachable ∧ referring.Releases "free(p)" 16 referring.core.catalog ∧ 16 ≠ 0) ∧
      referring.core.symbols.entries.map Variable.id =
        [.named "stdin", .named "stdout", .named "stderr", .heap 1, .named "p", .named "r"] ∧
      ∃ r n, referring.execute "free(p)" = (.ok r, n) ∧
        n.core.symbols.entries.map Variable.id =
          [.named "stdin", .named "stdout", .named "stderr", .named "p"] := by
  have reached : referring.Reachable := (reachable_fresh.executed _).executed _
  have releases : referring.Releases "free(p)" 16 referring.core.catalog := by
    have found : referring.core.symbols.get? (.named "p") =
        some ⟨.named "p", .pointer Ty.int, 24, 4, .pointer⟩ := by
      decide +kernel
    have loaded : referring.core.memory.load referring.core.catalog 24 (.pointer Ty.int) =
        .ok (.integer 16) := by
      decide +kernel
    refine ⟨.name (.named "p"), _, [], by decide +kernel, .inl rfl, ?_⟩
    rw [meet_nil]
    exact evaluatesTo_pointer (p := ⟨.named "p", .pointer Ty.int, 24, 4, .pointer⟩) found rfl loaded
      (by decide)
  have names : referring.core.symbols.entries.map Variable.id =
      [.named "stdin", .named "stdout", .named "stderr", .heap 1, .named "p", .named "r"] := by
    decide +kernel
  have law := reached.release_law releases (by decide)
  have block : ∃ b ∈ referring.core.symbols.entries, b.id.isHeap = true ∧ b.address = 16 := by
    decide +kernel
  obtain ⟨r, n, done⟩ := law.1.2 block
  refine ⟨⟨reached, releases, by decide⟩, names, r, n, done, ?_⟩
  have left : (referring.execute "free(p)").2.core.symbols.entries.map Variable.id =
      [.named "stdin", .named "stdout", .named "stderr", .named "p"] := by
    decide +kernel
  rwa [done] at left

/-- A machine with a byte that is no type in storage for one, and an array. -/
def arrayed : Machine :=
  (fresh.runProgram "type_t t\nchar* p = &t\n*p = ','\nint a[2]").2

/-- The address of an array is refused, but the byte has become a type, which it has not when the
array is named only. -/
theorem refused_release_meets_type :
    arrayed.Reachable ∧ (∃ c, arrayed.Releases "free(a)" 24 c) ∧
      (∃ w ∈ arrayed.core.symbols.entries,
        w.id = .named "a" ∧ w.isAlias = false ∧ w.address = 24) ∧
      (arrayed.execute "a").2.core.catalog = arrayed.core.catalog ∧
      ∃ n, arrayed.execute "free(a)" = (.error (.notHeapAddress 24), n) ∧ n ≠ arrayed ∧
        (arrayed.execute "type_t u = t").1 = .error (.invalidTag 0x2c) ∧
        (n.execute "type_t u = t").1.isOk = true := by
  have found : arrayed.core.symbols.get? (.named "a") =
      some ⟨.named "a", .array Ty.int 2, 24, 8, .array Ty.int 2⟩ := by
    decide +kernel
  have releases : arrayed.Releases "free(a)" 24
      (arrayed.core.catalog.internDecay (.array Ty.int 2)) := by
    refine ⟨.name (.named "a"), _, [], by decide +kernel, .inl rfl, ?_⟩
    rw [meet_nil]
    exact evaluatesTo_array (x := ⟨.named "a", .array Ty.int 2, 24, 8, .array Ty.int 2⟩) found rfl
      (by decide)
  have named : (arrayed.execute "a").2.core.catalog = arrayed.core.catalog := by
    decide +kernel
  have refused : arrayed.execute "free(a)" =
      (.error (.notHeapAddress 24), (arrayed.execute "free(a)").2) := by
    decide +kernel
  have invalid : (arrayed.execute "type_t u = t").1 = .error (.invalidTag 0x2c) := by
    decide +kernel
  have valid : ((arrayed.execute "free(a)").2.execute "type_t u = t").1.isOk = true := by
    decide +kernel
  refine ⟨reachable_fresh.ran _, ⟨_, releases⟩, ⟨_, (Symbols.get?_eq_some found).1, rfl, rfl, rfl⟩,
    named, _, refused, fun same => ?_, invalid, valid⟩
  rw [same, invalid] at valid
  cases valid

end Machine

end ByteMachine
