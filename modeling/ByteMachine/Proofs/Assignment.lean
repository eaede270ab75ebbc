import ByteMachine.Proofs.Growth
import ByteMachine.Proofs.Reachability
import ByteMachine.Proofs.StackDiscipline

/-!
# What an assignment changes

An assignment evaluates its target and then its value, which only adds blocks of the heap; what
the target leads to stays where it is meanwhile. Then it writes the bytes of the value at the
address of the target, no more of them than the type of the target has: a number is encoded in
just that size, and text is copied into an array only if it fits with its end. Nothing is taken
from the table, so committing collects nothing.

Key definitions: `Run.Assigned`.
Key theorems: `Run.assignTo_eq_ok`, `Run.assignment_eq_ok`,
`Machine.assignment_eq_ok`, `Machine.Reachable.assignment_frame`.
-/

namespace ByteMachine

open Discipline

/-! ### Storing a value -/

/-- An array has at least as many bytes as elements, if these are characters. -/
theorem Ty.count_le_size {c : Catalog} (closed : c.Closed) {t e : Ty} {count : Nat}
    (plain : t.isReference = false) (shape : t.arrayShape? = some (e, count))
    (chars : t.isCharArray = true) : count ≤ c.size t := by
  have pos : 0 < c.word := closed.word_pos
  cases t with
  | reference => cases plain
  | array =>
    cases shape
    simp only [isCharArray, strip, scalar?, beq_iff_eq] at chars
    cases e with
    | scalar s =>
      cases chars
      exact Nat.le_of_eq (Nat.one_mul _).symm
    | reference => exact Nat.le_mul_of_pos_left _ pos
    | _ => cases chars
  | _ => cases shape

namespace Run

variable {base s t : Core}

/-- Storing in storage of a type writes bytes at its address, no more than it has, to a memory in
which nothing but new blocks has changed. For all but arrays they are those of a value. -/
theorem assignTo_eq_ok {address : Nat} {type : Ty} {source : Operand}
    (keeps : (Core.growing base).keeps s) (closed : s.catalog.Closed)
    (plain : type.isReference = false)
    (ok : (assignTo address type source).run.run s = (.ok (), t)) :
    ∃ u bs, base.Grown u ∧ u.memory.write address bs = .ok t.memory ∧
      t = { u with memory := t.memory } ∧ bs.length ≤ s.catalog.size type ∧
      (type.isArray = false → ∃ v, Memory.encode u.memory.order u.catalog v type = .ok bs) := by
  unfold assignTo at ok
  split at ok
  · next element count shape =>
    split at ok
    · next chars =>
      obtain ⟨text, u, read, ok⟩ := run_bind_eq_ok.1 ok
      obtain ⟨-, kept, -⟩ := (readText_looks source).grows.of_run keeps read
      obtain ⟨bytes, -, ok⟩ := lift_bind_eq_ok ok
      split at ok
      · cases ok
      · next room =>
        rw [run_memory_bind] at ok
        obtain ⟨m, written, ok⟩ := lift_bind_eq_ok ok
        cases ok
        have count_le := Ty.count_le_size closed plain shape chars
        refine ⟨_, _, kept.1, written, rfl, ?_, fun single => ?_⟩
        · rw [List.length_append, List.length_singleton]
          omega
        · rw [Ty.isArray, shape] at single
          cases single
    · cases ok
  · next single =>
    obtain ⟨⟨v, found⟩, u₁, read, ok⟩ := run_bind_eq_ok.1 ok
    obtain ⟨⟨⟩, u₂, checked, ok⟩ := run_bind_eq_ok.1 ok
    obtain ⟨stored, u₃, value, ok⟩ := run_bind_eq_ok.1 ok
    obtain ⟨l₁, kept, -⟩ := (read_looks source).grows.of_run keeps read
    obtain ⟨l₂, kept, -⟩ := (checkCompatible_looks _ _).grows.of_run kept checked
    obtain ⟨l₃, kept, -⟩ := (storedValue_grows _ _).of_run kept value
    have grows := (l₁.2.trans l₂.2).trans l₃.2
    rw [run_memory_bind, run_catalog_bind] at ok
    obtain ⟨m, written, ok⟩ := lift_bind_eq_ok ok
    cases ok
    obtain ⟨bs, encoded, written⟩ := bind_eq_ok.1 written
    refine ⟨_, bs, kept.1, written, rfl, ?_, fun _ => ⟨stored, encoded⟩⟩
    exact Nat.le_of_eq ((Memory.length_encode plain encoded).trans (grows.size type))

theorem storage?_eq_ok {o : Operand} {place : Option (Nat × Ty)}
    (e : (storage? o).run.run s = (.ok place, t)) : t = s := by
  cases o with
  | value | place =>
    cases e
    rfl
  | named id =>
    obtain ⟨v, -, e⟩ := lookup_bind_eq_ok e
    cases e
    rfl

/-- What a held operand leads to is the same in a table with more variables. -/
theorem storage?_of_prefix {o : Operand} (more : s.symbols.entries <+: t.symbols.entries)
    (held : o.Held s.symbols) {place : Option (Nat × Ty)}
    (e : (storage? o).run.run t = (.ok place, t)) :
    (storage? o).run.run s = (.ok place, s) := by
  cases o with
  | value | place =>
    cases e
    rfl
  | named id =>
    obtain ⟨v, mem, rfl⟩ := held
    obtain ⟨x, found, e⟩ := lookup_bind_eq_ok e
    cases e
    have same : s.symbols.get? v.id = some x := by
      obtain ⟨y, first⟩ := Symbols.get?_of_mem mem
      rw [Symbols.get?_of_prefix more first] at found
      rw [first, found]
    refine run_bind_eq_ok.2 ⟨x, s, ?_, rfl⟩
    rw [run_lookup, same]

/-- An assignment takes its operands, stores the upper one where the lower one leads to, and leaves
the lower one. -/
theorem assign_eq_ok {source target : Operand} {rest : List Operand}
    (stack : s.stack = source :: target :: rest) (ok : assign.run.run s = (.ok (), t)) :
    ∃ address type u,
      (storage? target).run.run { s with stack := rest } =
        (.ok (some (address, type)), { s with stack := rest }) ∧
      (assignTo address type source).run.run { s with stack := rest } = (.ok (), u) ∧
      t = { u with stack := target :: u.stack } := by
  obtain ⟨source, below, top, ok⟩ := pop_bind_eq_ok ok
  cases stack.symm.trans top
  obtain ⟨target, rest, top, ok⟩ := pop_bind_eq_ok ok
  cases top
  obtain ⟨place, u, found, ok⟩ := run_bind_eq_ok.1 ok
  cases storage?_eq_ok found
  split at ok
  · cases ok
  · next address type =>
    obtain ⟨⟨⟩, u, stored, ok⟩ := run_bind_eq_ok.1 ok
    cases ok
    exact ⟨address, type, u, found, stored, rfl⟩

/-- An expression without misuses leaves one operand. -/
theorem stack_of_expression {e : Expr} (proper : e.misuses = 0) (whole : e.lack = 0)
    (ok : (code e.compile).run.run s = (.ok (), t)) : ∃ o, t.stack = o :: s.stack := by
  obtain ⟨os, stack, leaves⟩ := expression_stack e s
  rw [ok] at stack leaves
  obtain ⟨-, length⟩ := leaves rfl
  have one : e.results = 1 := by
    have := e.results_add_lack
    omega
  obtain ⟨o, rfl⟩ := List.length_eq_one_iff.1 (length.trans one)
  rw [proper, List.drop_zero] at stack
  exact ⟨o, stack⟩

/-- Storage has no reference type of its own. -/
theorem plain_of_storage {o : Operand} (sound : s.Sound) (known : o.Known s.catalog)
    {address : Nat} {type : Ty}
    (e : (storage? o).run.run s = (.ok (some (address, type)), t)) :
    type.isReference = false := by
  cases o with
  | value => cases e
  | place =>
    cases e
    exact sound.closed.isReference_strip known
  | named id =>
    obtain ⟨v, found, e⟩ := lookup_bind_eq_ok e
    cases e
    exact sound.closed.isReference_strip
      (sound.fits.agree v (Symbols.get?_eq_some found).1).known

/-- The code of an assignment leads from the core `s` to `t`: its target leads to storage of a
type, blocks are added, and then bytes are written there, no more than the type has. -/
structure Assigned (target : Expr) (s t u x : Core) (o : Operand) (address : Nat) (type : Ty)
    (bs : List UInt8) : Prop where
  evaluated : (code target.compile).run.run s = (.ok (), u)
  stack : u.stack = [o]
  storage : (storage? o).run.run u = (.ok (some (address, type)), u)
  plain : type.isReference = false
  grown : s.Grown x
  written : x.memory.write address bs = .ok t.memory
  room : bs.length ≤ s.catalog.size type
  entries : t.symbols.entries = x.symbols.entries
  top : t.stack.head? = some o
  encoded : type.isArray = false →
    ∃ v, Memory.encode x.memory.order x.catalog v type = .ok bs

/-- No byte is changed but those of the storage and those of the new blocks. -/
theorem Assigned.bytes {target : Expr} {u x : Core} {o : Operand} {address : Nat} {type : Ty}
    {bs : List UInt8} (h : Assigned target s t u x o address type bs) {a : Nat}
    (outside : a < address ∨ address + s.catalog.size type ≤ a)
    (free : ∀ v ∈ s.added x, ¬ v.Owns a) : t.memory.bytes[a]? = s.memory.bytes[a]? := by
  have room := h.room
  rw [Memory.getElem?_write_outside h.written (by omega), h.grown.bytes a free]

theorem assignment_eq_ok {target value : Expr}
    (proper : (Statement.assignment target value).misuses = 0) (empty : s.stack = [])
    (sound : s.Sound) (known : Code.Known s.catalog (Statement.assignment target value).compile)
    (ok : (code (Statement.assignment target value).compile).run.run s = (.ok (), t)) :
    ∃ u x o address type bs, Assigned target s t u x o address type bs := by
  simp only [Statement.misuses, Nat.add_eq_zero_iff] at proper
  simp only [Statement.compile, Code.known_append] at known
  simp only [Statement.compile, code_append] at ok
  obtain ⟨⟨⟩, u, evaluated, ok⟩ := run_bind_eq_ok.1 ok
  obtain ⟨⟨⟩, w, valued, ok⟩ := run_bind_eq_ok.1 ok
  obtain ⟨⟨⟩, t', stored, ok⟩ := run_bind_eq_ok.1 ok
  cases ok
  -- Both operands lie on the stack, the target as it was before the value was evaluated.
  obtain ⟨o, stack⟩ := stack_of_expression proper.1.1 proper.1.2 evaluated
  obtain ⟨source, stack'⟩ := stack_of_expression proper.2.1 proper.2.2 valued
  rw [empty] at stack
  rw [stack] at stack'
  have start : (s.growing).keeps s := ⟨.refl s, by rw [empty]; exact List.forall_mem_nil _⟩
  obtain ⟨-, keeps, -⟩ := (expression_grows proper.1.1 proper.1.2).of_run start evaluated
  have held : o.Held u.symbols := keeps.2 o (by rw [stack]; exact .head _)
  obtain ⟨later, keeps, -⟩ := (expression_grows proper.2.1 proper.2.2).of_run keeps valued
  obtain ⟨l, sound_u, -⟩ := (code_yields _ known.1).of_run sound evaluated
  obtain ⟨l', sound_w, -⟩ := (code_yields _ (known.2.1.grow l.catalog)).of_run sound_u valued
  -- The assignment takes them, and what the target leads to has not moved.
  obtain ⟨address, type, v, found, written, rfl⟩ := assign_eq_ok stack' stored
  have storage := storage?_of_prefix (t := { w with stack := [] }) later.1 held found
  have plain := plain_of_storage sound_u (sound_u.stack o (by rw [stack]; exact .head _)) storage
  have emptied : (s.growing).keeps { w with stack := [] } :=
    ⟨keeps.1.congr rfl rfl, List.forall_mem_nil _⟩
  obtain ⟨x, bs, grown, write, same, room, encoded⟩ :=
    assignTo_eq_ok emptied sound_w.closed plain written
  have size : w.catalog.size type = s.catalog.size type :=
    (l.catalog.trans l'.catalog).size type
  have entries := congrArg (fun c : Core => c.symbols.entries) same
  exact ⟨u, x, o, address, type, bs, evaluated, stack, storage, plain, grown, write, size ▸ room,
    entries, rfl, encoded⟩

/-! ### Statements -/

theorem resultOf_eq_ok {o : Operand} {v : Variable} (e : (resultOf o).run.run s = (.ok v, t)) :
    t.memory = s.memory ∧ t.symbols.entries = s.symbols.entries ∧ t.catalog = s.catalog := by
  have made {v : Literal} {type : Ty} {address : Nat} {x : Variable}
      (e : (temporary v type address).run.run s = (.ok x, t)) :
      t.memory = s.memory ∧ t.symbols.entries = s.symbols.entries ∧ t.catalog = s.catalog := by
    cases e
    exact ⟨rfl, rfl, rfl⟩
  unfold resultOf at e
  split at e
  · rw [(lookup_eq_ok e).1]
    exact ⟨rfl, rfl, rfl⟩
  · rw [run_memory_bind, run_catalog_bind] at e
    obtain ⟨v, -, e⟩ := lift_bind_eq_ok e
    exact made e
  · exact made e

/-- What follows the code of a statement changes neither memory nor the variables. The result is
the variable that the last operand names, if it names one. -/
theorem core_of_statement {is : List Instr} {u : Core} {r : Option Variable}
    (done : (code is).run.run s = (.ok (), u)) (ok : (statement is).run.run s = (.ok r, t)) :
    (t.memory = u.memory ∧ t.symbols.entries = u.symbols.entries ∧ t.catalog = u.catalog) ∧
      ∀ id, u.stack = [.named id] → ∃ v, r = some v ∧ u.symbols.get? id = some v := by
  obtain ⟨⟨⟩, _, again, ok⟩ := run_bind_eq_ok.1 ok
  cases done.symm.trans again
  obtain ⟨_, _, got, ok⟩ := run_bind_eq_ok.1 ok
  cases got
  split at ok
  · next empty =>
    cases ok
    refine ⟨⟨rfl, rfl, rfl⟩, fun id one => ?_⟩
    rw [empty] at one
    cases one
  · obtain ⟨o, rest, stack, ok⟩ := pop_bind_eq_ok ok
    rw [map_eq_pure_bind] at ok
    obtain ⟨v, w, result, ok⟩ := run_bind_eq_ok.1 ok
    cases ok
    have kept := resultOf_eq_ok result
    refine ⟨kept, fun id one => ⟨v, rfl, ?_⟩⟩
    cases stack.symm.trans one
    exact (lookup_eq_ok result).2
  · cases ok

end Run

/-! ### Machines -/

namespace Symbols

variable {s t : Symbols}

/-- Nothing is collected if every alias has its target. -/
theorem Sound.entries_collect_of_bound (h : s.Sound) (b : s.Bound) :
    s.collect.entries = s.entries := by
  rw [h.entries_collect]
  exact List.filter_eq_self.2 b

/-- More owners behind the others leave every alias its target. -/
theorem Bound.append (b : s.Bound) (h : s.Sound) (k : t.Sound) {more : List Variable}
    (entries : t.entries = s.entries ++ more) (owners : ∀ v ∈ more, v.isAlias = false) :
    t.Bound := by
  intro v mem
  refine k.isBound_iff.2 fun target role => ?_
  rw [entries] at mem ⊢
  rcases List.mem_append.1 mem with mem | mem
  · obtain ⟨w, mw, rest⟩ := h.isBound_iff.1 (b v mem) target role
    exact ⟨w, List.mem_append_left _ mw, rest⟩
  · have owner := owners v mem
    rw [Variable.isAlias_iff.2 ⟨target, role⟩] at owner
    cases owner

/-- Nothing is collected if only owners were added. -/
theorem Bound.entries_collect (b : s.Bound) (h : s.Sound) (k : t.Sound) {more : List Variable}
    (entries : t.entries = s.entries ++ more) (owners : ∀ v ∈ more, v.isAlias = false) :
    t.collect.entries = s.entries ++ more := by
  rw [k.entries_collect_of_bound (b.append h k entries owners), entries]

end Symbols

namespace Machine

variable {m n : Machine} {line : String}

/-- A statement that was read starts with no operands and the types that were met in it. -/
theorem sound_start (h : m.Sound) {d : Option Statement} {met : List Ty}
    (read : Statement.parse m.scope (Statement.clean line) = (.ok d, met)) :
    ({ (m.meet met).core with stack := [] } : Core).Sound := by
  have closed := Statement.closed_of_parse h.core.closed read
  exact ⟨closed, (sound_meet h closed).fits, List.forall_mem_nil _⟩

/-- A statement that was read and committed has run from the empty stack to a sound core, whose
memory, catalog and bound variables are those of the machine from then on. The settings stay. -/
theorem committed_eq_ok (h : m.Sound) {d : Statement} {met : List Ty}
    (read : Statement.parse m.scope (Statement.clean line) = (.ok (some d), met))
    {r : Option Variable} (done : m.execute line = (.ok r, n)) :
    ∃ core, (Run.statement d.compile).run.run { (m.meet met).core with stack := [] } =
        (.ok r, core) ∧ core.Sound ∧ n.core.memory = core.memory ∧
      n.core.catalog = core.catalog ∧ n.core.symbols = core.symbols.collect ∧
      n.config = m.config := by
  obtain ⟨-, e⟩ := execute_read read
  rw [e] at done
  obtain ⟨core, ran⟩ := run_of_perform done
  rw [perform_done ran] at done
  cases done
  have known := Statement.known_of_parse h.core.closed read
  obtain ⟨-, sound, -⟩ := (Run.statement_yields known).of_run (sound_start h read) ran
  exact ⟨core, ran, sound, rfl, rfl, rfl, rfl⟩

/-- If the code of a committed statement has only added owners, none of the variables is collected:
the machine has those that the code has left, beside its memory and catalog. If the code has left the
name of one of them, that is the result. -/
theorem coded_eq_ok (h : m.Sound) {d : Statement} {met : List Ty}
    (read : Statement.parse m.scope (Statement.clean line) = (.ok (some d), met))
    {r : Option Variable} (done : m.execute line = (.ok r, n)) :
    ∃ u, (Run.code d.compile).run.run { (m.meet met).core with stack := [] } = (.ok (), u) ∧
      n.config = m.config ∧ n.core.memory = u.memory ∧ n.core.catalog = u.catalog ∧
      ∀ more : List Variable,
        u.symbols.entries = m.core.symbols.entries ++ more → (∀ v ∈ more, v.isAlias = false) →
        n.core.symbols.entries = u.symbols.entries ∧
        ∀ id, u.stack = [.named id] → ∃ v, r = some v ∧ n.core.symbols.get? id = some v := by
  obtain ⟨core, ran, sound, memory, catalog, symbols, config⟩ := committed_eq_ok h read done
  obtain ⟨u, coded, -⟩ := Run.result_of_statement ran
  obtain ⟨⟨memory', entries, catalog'⟩, named⟩ := Run.core_of_statement coded ran
  refine ⟨u, coded, config, memory.trans memory', catalog.trans catalog',
    fun more grown owners => ?_⟩
  have kept : n.core.symbols.entries = u.symbols.entries := by
    rw [symbols, h.bound.entries_collect h.core.fits.table sound.fits.table (entries.trans grown)
      owners, grown]
  refine ⟨kept, fun id stack => ?_⟩
  obtain ⟨v, result, found⟩ := named id stack
  exact ⟨v, result, by rw [Symbols.get?, kept]; exact found⟩

/-- An assignment that was committed has been stored where its target led to. -/
theorem assignment_eq_ok (h : m.Sound) {target value : Expr} {met : List Ty}
    (read : Statement.parse m.scope (Statement.clean line) =
      (.ok (some (.assignment target value)), met))
    {r : Option Variable} (done : m.execute line = (.ok r, n)) :
    ∃ t u x o address type bs,
      Run.Assigned target { (m.meet met).core with stack := [] } t u x o address type bs ∧
      n.core.memory = t.memory ∧ n.core.symbols.entries = t.symbols.entries ∧
      n.core.catalog = t.catalog ∧
      ∀ id, o = .named id → ∃ v, r = some v ∧ n.core.symbols.get? id = some v := by
  obtain ⟨t, coded, -, memory, catalog, whole⟩ := coded_eq_ok h read done
  obtain ⟨core, ran, -⟩ := committed_eq_ok h read done
  have shaped : (Statement.assignment target value).Shaped := trivial
  have proper := Run.misuses_of_statement shaped (fun _ _ _ => nofun) rfl ran
  obtain ⟨t', coded', result⟩ := Run.result_of_statement ran
  cases coded.symm.trans coded'
  have known := Statement.known_of_parse h.core.closed read
  obtain ⟨u, x, o, address, type, bs, assigned⟩ :=
    Run.assignment_eq_ok proper rfl (sound_start h read) known coded
  obtain ⟨kept, named⟩ := whole _ (assigned.entries.trans assigned.grown.entries)
    fun v mem => (assigned.grown.blocks v mem).2
  refine ⟨t, u, x, o, address, type, bs, assigned, memory, kept, catalog, ?_⟩
  rintro id rfl
  have top := assigned.top
  rcases result with ⟨empty, -⟩ | ⟨o', stack, -⟩
  · rw [empty] at top
    cases top
  · rw [stack] at top
    cases top
    exact named id stack

/-- An assignment that is committed changes no byte but those of the storage that its target leads
to and those of blocks of the heap that are new; the variables stay as they are, and behind them
there are new only these blocks. -/
theorem Reachable.assignment_frame (h : m.Reachable) {target value : Expr} {met : List Ty}
    (read : Statement.parse m.scope (Statement.clean line) =
      (.ok (some (.assignment target value)), met))
    {r : Option Variable} (done : m.execute line = (.ok r, n)) :
    ∃ u o address type blocks,
      (Run.code target.compile).run.run { (m.meet met).core with stack := [] } = (.ok (), u) ∧
      u.stack = [o] ∧ (Run.storage? o).run.run u = (.ok (some (address, type)), u) ∧
      type.isReference = false ∧
      n.core.symbols.entries = m.core.symbols.entries ++ blocks ∧
      (∀ v ∈ blocks, v.id.isHeap = true ∧ v.isAlias = false) ∧
      ∀ a : Nat, a < address ∨ address + m.core.catalog.size type ≤ a →
        (∀ v ∈ blocks, ¬ v.Owns a) → n.core.memory.bytes[a]? = m.core.memory.bytes[a]? := by
  obtain ⟨t, u, x, o, address, type, bs, assigned, memory, entries, -, -⟩ :=
    assignment_eq_ok h.sound read done
  refine ⟨u, o, address, type, _, assigned.evaluated, assigned.stack, assigned.storage,
    assigned.plain, (entries.trans assigned.entries).trans assigned.grown.entries,
    assigned.grown.blocks, fun a outside free => ?_⟩
  have size : (m.meet met).core.catalog.size type = m.core.catalog.size type :=
    (Catalog.extends_internAll met m.core.catalog).size type
  rw [memory]
  exact assigned.bytes (size ▸ outside) free

/-- Text assigned to a pointer is put in a new block, and the variables stay as they are. -/
theorem assignment_frame_text :
    ∃ blocks, ((fresh.execute "char* p").2.execute "p = \"hi\"").2.core.symbols.entries =
        (fresh.execute "char* p").2.core.symbols.entries ++ blocks ∧
      ∀ v ∈ blocks, v.id.isHeap = true ∧ v.isAlias = false := by
  have read : Statement.parse (fresh.execute "char* p").2.scope (Statement.clean "p = \"hi\"") =
      (.ok (some (.assignment (.name (.named "p")) (.literal (.text "hi")))), []) := by
    decide +kernel
  have done : (fresh.execute "char* p").2.execute "p = \"hi\"" =
      (.ok (some ⟨.named "p", Ty.charPointer, 16, 4, .pointer⟩),
        ((fresh.execute "char* p").2.execute "p = \"hi\"").2) := by
    decide +kernel
  obtain ⟨u, o, address, type, blocks, -, -, -, -, entries, heap, -⟩ :=
    (reachable_fresh.executed "char* p").assignment_frame read done
  exact ⟨blocks, entries, heap⟩

end Machine

end ByteMachine
