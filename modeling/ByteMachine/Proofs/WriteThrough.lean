import ByteMachine.Proofs.Assignment
import ByteMachine.Proofs.Pointers
import ByteMachine.Proofs.Reconfiguration

/-!
# Writing through a pointer

A machine that has committed the declaration of a pointer to a variable can write to the variable
through it: the assignment does what one to the variable itself does, and changes no byte of any
other. This needs the address of the variable to fit in a word. Settings are accepted with a memory
larger than that, and there the pointer may lead to another variable.

Key definitions: `Symbols.registerInts`, `Machine.drawn`.
Key theorems: `Machine.aims_of_declared`, `Machine.declared_of_room`, `Machine.stored_through`,
`Machine.Reachable.pointer_write_through`, `Machine.create_of_registerInts`,
`Machine.pointer_to_stream_leads_elsewhere`.
-/

namespace ByteMachine

open Discipline Number

namespace Machine

variable {m n : Machine} {line : String} {x : Variable} {p : Identifier}

section

variable {met : List Ty} (h : m.Sound) (mem : x ∈ m.core.symbols.entries)
  (owner : x.isAlias = false) (single : x.type.isArray = false) (few : x.type.stars < Ty.maxStars)
  (read : Statement.parse m.scope (Statement.clean line) =
    (.ok (some (.scalarDeclaration (.pointer x.type) p (some (.addressOf (.name x.id))))), met))

include h mem owner single few read

/-- After the declaration of a pointer to a variable the pointer holds its address, and there is
one more owner. -/
theorem aims_of_declared {r : Option Variable} (done : m.execute line = (.ok r, n)) :
    n.core.Aims p x ∧ n.core.catalog.word = m.core.catalog.word ∧
      ∃ v, n.core.symbols.entries = m.core.symbols.entries ++ [v] := by
  obtain ⟨u, coded, -, memory, catalog, whole⟩ := coded_eq_ok h read done
  let s : Core := { (m.meet met).core with stack := [] }
  have start : s.Sound := sound_start h read
  have width : s.catalog.word = m.core.catalog.word :=
    (Catalog.extends_internAll met m.core.catalog).word
  obtain ⟨address, table, grown, filled, room, inserted, stored, rfl⟩ :=
    (Run.declarePointer_eq_ok start mem owner single few).1 coded
  let v : Variable := .owner s.catalog p (.pointer x.type) address
  have more : grown.entries = m.core.symbols.entries ++ [v] :=
    Symbols.entries_of_placed room inserted
  have kept : n.core.symbols.entries = m.core.symbols.entries ++ [v] :=
    (whole [v] more (List.forall_mem_singleton.2 (Variable.isAlias_owner _ _ _ _))).1.trans more
  have word : n.core.catalog.word = s.catalog.word := by
    rw [catalog]
    exact Catalog.intern_word _ _
  refine ⟨⟨v, ?_, rfl, ?_⟩, word.trans width, v, kept⟩
  · exact (h.of_done done).core.fits.table.get?_id (v := v)
      (kept ▸ List.mem_append_right _ (List.mem_singleton_self v))
  · have loaded := Memory.load_stored_address start.closed.word stored
    simp only [Memory.load, word, memory] at loaded ⊢
    exact loaded

/-- The declaration of a pointer to a variable is committed if there is room for the pointer. -/
theorem declared_of_room (new : p ∉ m.core.symbols.entries.map Variable.id) {address : Nat}
    {table : Symbols}
    (room : m.core.symbols.allocate m.core.catalog.word = .ok (address, table)) :
    ∃ r n, m.execute line = (.ok r, n) := by
  let s : Core := { (m.meet met).core with stack := [] }
  have start : s.Sound := sound_start h read
  have width : s.catalog.word = m.core.catalog.word :=
    (Catalog.extends_internAll met m.core.catalog).word
  obtain ⟨grown, inserted⟩ : ∃ grown,
      table.insert (.owner s.catalog p (.pointer x.type) address) = .ok grown := by
    obtain ⟨stream, -, rfl⟩ := Symbols.allocate_eq_ok room
    exact ⟨_, Symbols.insert_new new rfl⟩
  obtain ⟨filled, stored⟩ : ∃ filled, s.memory.store s.catalog address (.pointer x.type)
      (.integer x.address) = .ok filled := by
    obtain ⟨stream, slot, -⟩ := Symbols.allocate_eq_ok room
    obtain ⟨-, -, -, stop⟩ := Placement.slot?_free (start.fits.word ▸ start.closed.word_pos) slot
    have inside : address + s.catalog.size (.pointer x.type) ≤ s.memory.size := by
      rw [← start.fits.capacity]
      show address + s.catalog.word ≤ m.core.symbols.capacity
      rw [width]
      exact stop
    exact Memory.store_of_inside rfl (if_pos (ByteOrder.isIntWidth_word start.closed.word)) inside
  have coded := (Run.declarePointer_eq_ok start mem owner single few).2
    ⟨address, table, grown, filled, width ▸ room, inserted, stored, rfl⟩
  have registered : Variable.owner s.catalog p (.pointer x.type) address ∈ grown.entries := by
    rw [Symbols.entries_of_placed room inserted]
    exact List.mem_append_right _ (List.mem_singleton_self _)
  obtain ⟨v, found⟩ := Symbols.get?_of_mem registered
  have ran := Run.statement_of_named coded rfl found
  rw [(execute_read read).2]
  exact ⟨_, _, perform_done ran⟩

end

theorem Reachable.of_done (h : m.Reachable) {r : Option Variable}
    (done : m.execute line = (.ok r, n)) : n.Reachable := by
  have reached := h.executed line
  rwa [done] at reached

theorem perform_congr {is js : List Instr}
    (same : (Run.statement is).run.run { m.core with stack := [] } =
      (Run.statement js).run.run { m.core with stack := [] }) (name : String) :
    m.perform name is = m.perform name js := by
  simp only [perform, same]

/-- Whatever is stored through a pointer that leads to a variable, it is stored there. -/
theorem stored_through (h : m.Sound) (mem : x ∈ m.core.symbols.entries)
    (owner : x.isAlias = false) {value : Expr} {met : List Ty}
    (leads : ∀ s : Core, s.memory = m.core.memory → s.symbols = m.core.symbols →
      m.core.catalog.Extends s.catalog →
      (Run.code (Expr.dereference 1 (.name p)).compile).run.run s =
        (.ok (), { s with stack := .named x.id :: s.stack }))
    (read : Statement.parse m.scope (Statement.clean line) =
      (.ok (some (.assignment (.dereference 1 (.name p)) value)), met))
    {r : Option Variable} (done : m.execute line = (.ok r, n)) :
    r = some x ∧ ∃ blocks,
      n.core.symbols.entries = m.core.symbols.entries ++ blocks ∧
      (∀ v ∈ blocks, v.id.isHeap = true ∧ v.isAlias = false) ∧
      ∀ a : Nat, ¬ x.Owns a → (∀ v ∈ blocks, ¬ v.Owns a) →
        n.core.memory.bytes[a]? = m.core.memory.bytes[a]? := by
  obtain ⟨t, u, w, o, address, type, bs, assigned, memory, entries, -, named⟩ :=
    assignment_eq_ok h read done
  have grows : m.core.catalog.Extends (m.meet met).core.catalog :=
    Catalog.extends_internAll met m.core.catalog
  -- The target is the variable, so its address and type are those of the storage.
  have target := (leads { (m.meet met).core with stack := [] } rfl rfl grows).symm.trans
    assigned.evaluated
  cases target
  obtain ⟨rfl, -⟩ := List.cons.inj assigned.stack
  have found : m.core.symbols.get? x.id = some x := h.core.fits.table.get?_id mem
  obtain ⟨v, again, e⟩ := Run.lookup_bind_eq_ok assigned.storage
  cases found.symm.trans again
  cases e
  have more := (entries.trans assigned.entries).trans assigned.grown.entries
  have agrees := h.core.fits.agree x mem
  have size : x.stop = x.address + (m.meet met).core.catalog.size x.type.strip := by
    rw [grows.size, ← agrees.size, Variable.stop]
  refine ⟨?_, _, more, assigned.grown.blocks, fun a outside free => ?_⟩
  · obtain ⟨v, rfl, last⟩ := named x.id rfl
    rw [Symbols.get?_of_prefix (more ▸ List.prefix_append _ _) found] at last
    exact last.symm
  · have apart : ¬ (x.address ≤ a ∧ a < x.stop) := fun h => outside ⟨owner, h⟩
    rw [memory]
    exact assigned.bytes (by dsimp only; omega) free

/-- A pointer that was declared with the address of a variable leads to the variable exactly if the
address fits in a word, as it does if all of memory can be addressed by a word. Then an assignment
through the pointer does just what an assignment to the variable does, and what it stores it
stores there. -/
theorem Reachable.pointer_write_through (h : m.Reachable) (mem : x ∈ m.core.symbols.entries)
    (owner : x.isAlias = false) (single : x.type.isArray = false)
    (few : x.type.stars < Ty.maxStars) {met : List Ty}
    (read : Statement.parse m.scope (Statement.clean line) =
      (.ok (some (.scalarDeclaration (.pointer x.type) p (some (.addressOf (.name x.id))))), met))
    {r : Option Variable} (done : m.execute line = (.ok r, n)) :
    (m.config.memorySize ≤ byteRange m.config.word → x.address < byteRange m.config.word) ∧
    (∀ s : Core, s.memory = n.core.memory → s.symbols = n.core.symbols →
      n.core.catalog.Extends s.catalog →
        ((Run.code (Expr.dereference 1 (.name p)).compile).run.run s =
            (Run.code (Expr.name x.id).compile).run.run s ↔
          x.address < byteRange m.config.word)) ∧
    (x.address < byteRange m.config.word → ∀ {line : String} {value : Expr} {met : List Ty},
      Statement.parse n.scope (Statement.clean line) =
        (.ok (some (.assignment (.dereference 1 (.name p)) value)), met) →
      n.execute line = (n.meet met).perform (Statement.clean line)
        (Statement.assignment (.name x.id) value).compile ∧
      ∀ {r : Option Variable} {k : Machine}, n.execute line = (.ok r, k) →
        r = some x ∧ ∃ blocks,
          k.core.symbols.entries = n.core.symbols.entries ++ blocks ∧
          (∀ v ∈ blocks, v.id.isHeap = true ∧ v.isAlias = false) ∧
          ∀ a : Nat, ¬ x.Owns a → (∀ v ∈ blocks, ¬ v.Owns a) →
            k.core.memory.bytes[a]? = n.core.memory.bytes[a]?) := by
  have sound := h.sound
  have later := (h.of_done done).sound
  have width := sound.configured.word
  obtain ⟨aims, word, v, more⟩ := aims_of_declared sound mem owner single few read done
  have mem' : x ∈ n.core.symbols.entries := more ▸ List.mem_append_left _ mem
  -- The pointer leads to the variable or not, whatever types were met in the meantime.
  have leads : ∀ s : Core, s.memory = n.core.memory → s.symbols = n.core.symbols →
      n.core.catalog.Extends s.catalog →
        ((Run.code (Expr.dereference 1 (.name p)).compile).run.run s =
            (Run.code (Expr.name x.id).compile).run.run s ↔
          x.address < byteRange m.config.word) := by
    intro s memory symbols grows
    have fits : Fits s.catalog s.memory s.symbols := by
      rw [memory, symbols]
      exact later.core.fits.grow grows
    have same : s.catalog.word = m.config.word := (grows.word.trans word).trans width
    have wordSize : Catalog.isWordSize s.catalog.word = true :=
      grows.word ▸ later.core.closed.word
    rw [← same]
    exact Run.dereference_eq_name_iff fits wordSize (aims.congr memory symbols grows.word)
      (symbols ▸ mem') owner
  refine ⟨fun whole => ?_, leads, fun low line value met read => ⟨?_, fun done => ?_⟩⟩
  · have room := sound.core.fits.table.room x mem owner
    have stop : x.address + x.size ≤ m.core.symbols.capacity := room.2.2
    rw [sound.configured.capacity] at stop
    omega
  · have grows : n.core.catalog.Extends (n.meet met).core.catalog :=
      Catalog.extends_internAll met n.core.catalog
    have same := (leads { (n.meet met).core with stack := [] } rfl rfl grows).2 low
    rw [(execute_read read).2]
    exact perform_congr (Run.statement_assignment_congr same) _
  · refine stored_through later mem' owner (fun s memory symbols grows => ?_) read done
    rw [(leads s memory symbols grows).2 low]
    exact Run.run_name (symbols ▸ later.core.fits.table.get?_id mem')

/-- A machine with a pointer to one of the streams. -/
def pointing : Machine := (fresh.execute "int* p = &stdout").2

/-- A number that is stored through the pointer changes the stream and no byte beside it. -/
theorem pointer_write_through_stream :
    ∃ blocks, (pointing.execute "*p = 5").2.core.symbols.entries =
        pointing.core.symbols.entries ++ blocks ∧
      ∀ a : Nat, a < 8 ∨ 12 ≤ a → (∀ v ∈ blocks, ¬ v.Owns a) →
        (pointing.execute "*p = 5").2.core.memory.bytes[a]? = pointing.core.memory.bytes[a]? := by
  have mem : (⟨.named "stdout", Ty.int, 8, 4, .plain⟩ : Variable) ∈ fresh.core.symbols.entries := by
    decide +kernel
  have read : Statement.parse fresh.scope (Statement.clean "int* p = &stdout") =
      (.ok (some (.scalarDeclaration (.pointer Ty.int) (.named "p")
        (some (.addressOf (.name (.named "stdout")))))), [.pointer Ty.int]) := by
    decide +kernel
  have done : fresh.execute "int* p = &stdout" =
      (.ok (some ⟨.named "p", .pointer Ty.int, 16, 4, .pointer⟩), pointing) := by
    decide +kernel
  have low : 8 < byteRange fresh.config.word := by decide +kernel
  have read' : Statement.parse pointing.scope (Statement.clean "*p = 5") =
      (.ok (some (.assignment (.dereference 1 (.name (.named "p"))) (.literal (.integer 5)))),
        []) := by
    decide +kernel
  have done' : pointing.execute "*p = 5" =
      (.ok (some ⟨.named "stdout", Ty.int, 8, 4, .plain⟩), (pointing.execute "*p = 5").2) := by
    decide +kernel
  obtain ⟨-, -, writes⟩ :=
    reachable_fresh.pointer_write_through mem rfl rfl (by decide) read done
  obtain ⟨-, blocks, more, -, bytes⟩ := (writes low read').2 done'
  refine ⟨blocks, more, fun a outside free => bytes a ?_ free⟩
  rintro ⟨-, here⟩
  simp only [Variable.stop] at here
  omega

end Machine

/-! ### Memory that a word cannot address -/

/-- A table with an integer registered for each of some names. -/
def Symbols.registerInts (c : Catalog) : List String → Symbols → Except Fault Symbols
  | [], t => .ok t
  | name :: names, t => do
    let (address, table) ← t.allocate (c.size Ty.int)
    registerInts c names (← table.insert (.owner c (.named name) Ty.int address))

/-- Where the streams are registered does not depend on memory. -/
theorem Run.registerAll_of_registerInts : ∀ (streams : List (String × Int)) {s : Core},
    s.Registers streams → ∀ {u : Symbols},
    Symbols.registerInts s.catalog (streams.map Prod.fst) s.symbols = .ok u →
      ∃ m, (registerAll streams).run.run s = (.ok (), { s with symbols := u, memory := m })
  | [], s, _, u, e => by
    cases e
    exact ⟨s.memory, rfl⟩
  | (name, value) :: streams, s, h, u, e => by
    obtain ⟨⟨address, table⟩, found, e⟩ := bind_eq_ok.1 e
    obtain ⟨grown, inserted, e⟩ := bind_eq_ok.1 e
    rcases registerAll_cons h with ⟨full, -⟩ | ⟨a, t, w, m, found', inserted', -, next, run⟩
    · cases found.symm.trans full
    · cases found.symm.trans found'
      cases inserted.symm.trans inserted'
      obtain ⟨last, rest⟩ := registerAll_of_registerInts streams next e
      exact ⟨last, run.trans rest⟩

namespace Machine

/-- A machine is made if the streams can be registered, and has them as its variables. -/
theorem create_of_registerInts {c : Config} {u : Symbols} (valid : c.validate = .ok ())
    (e : Symbols.registerInts (.standard c.word) (standardStreams.map Prod.fst)
      (.empty c.memorySize c.word c.placement c.seed) = .ok u) (console : Console) :
    ∃ m, create c console = .ok m ∧ m.core.symbols = u ∧ m.core.catalog = .standard c.word := by
  have ready : (blank c console).core.cleared.Registers standardStreams :=
    Core.registers_cleared (isWordSize_of_validate valid) rfl List.length_replicate.symm
  obtain ⟨memory, run⟩ := Run.registerAll_of_registerInts _ ready e
  obtain ⟨m, done, symbols, catalog⟩ : ∃ m, (blank c console).reset = (.ok (), m) ∧
      m.core.symbols = u ∧ m.core.catalog = .standard c.word := by
    rw [reset_eq, run]
    exact ⟨_, rfl, rfl, rfl⟩
  refine ⟨m, bind_eq_ok.2 ⟨(), valid, ?_⟩, symbols, catalog⟩
  rw [done]
  rfl

/-- The settings of a machine whose memory is twice what its pointers can address. The seed puts
the first two streams where pointers cannot tell them apart. -/
def drawn : Config :=
  { word := 2, memorySize := 131072, placement := .scattered, seed := 323261 }

/-- The streams of that machine. -/
def drawnStreams : Symbols :=
  (Symbols.registerInts (.standard drawn.word) (standardStreams.map Prod.fst)
    (.empty drawn.memorySize drawn.word drawn.placement drawn.seed)).toOption.getD default

theorem registerInts_drawn :
    Symbols.registerInts (.standard drawn.word) (standardStreams.map Prod.fst)
      (.empty drawn.memorySize drawn.word drawn.placement drawn.seed) = .ok drawnStreams := by
  decide +kernel

/-- A pointer to the first stream leads to the second one, since the address of the first does not
fit in a word. -/
theorem pointer_to_stream_leads_elsewhere :
    ∃ (m n : Machine) (x y : Variable) (r : Option Variable), create drawn .silent = .ok m ∧
      x ∈ m.core.symbols.entries ∧ x.isAlias = false ∧ x.type = Ty.int ∧ x.id = .named "stdin" ∧
      y ∈ m.core.symbols.entries ∧ y ≠ x ∧ m.execute "int* p = &stdin" = (.ok r, n) ∧
      (Run.code (Expr.dereference 1 (.name (.named "p"))).compile).run.run
          { n.core with stack := [] } =
        (.ok (), { n.core with stack := [.named y.id] }) := by
  let x : Variable := ⟨.named "stdin", Ty.int, 111396, 2, .plain⟩
  let y : Variable := ⟨.named "stdout", Ty.int, 45860, 2, .plain⟩
  obtain ⟨m, created, symbols, catalog⟩ :=
    create_of_registerInts (c := drawn) (by decide) registerInts_drawn .silent
  have sound := (Reachable.created created).sound
  have mem : x ∈ m.core.symbols.entries := by
    rw [symbols]
    decide +kernel
  have mem' : y ∈ m.core.symbols.entries := by
    rw [symbols]
    decide +kernel
  have scope : m.scope = ⟨2, fun name => (drawnStreams.named? name).isSome⟩ := by
    simp only [Machine.scope, symbols, catalog]
    rfl
  have read : Statement.parse m.scope (Statement.clean "int* p = &stdin") =
      (.ok (some (.scalarDeclaration (.pointer Ty.int) (.named "p")
        (some (.addressOf (.name (.named "stdin")))))), [.pointer Ty.int]) := by
    rw [scope]
    decide +kernel
  have new : Identifier.named "p" ∉ m.core.symbols.entries.map Variable.id := by
    rw [symbols]
    decide +kernel
  have room : m.core.symbols.allocate m.core.catalog.word =
      .ok (100843, { drawnStreams with stream := ⟨323261 + 4 * SplitMix.step⟩ }) := by
    rw [symbols, catalog]
    decide +kernel
  obtain ⟨r, n, done⟩ := declared_of_room sound (x := x) mem rfl rfl (by decide) read new room
  obtain ⟨aims, word, v, more⟩ := aims_of_declared sound mem rfl rfl (by decide) read done
  have later := ((Reachable.created created).of_done done).sound
  have dropped : y.address = x.address % byteRange n.core.catalog.word := by
    rw [word, catalog]
    decide
  refine ⟨m, n, x, y, r, created, mem, rfl, rfl, rfl, mem', by decide, done, ?_⟩
  exact Run.run_dereference_owner (s := { n.core with stack := [] }) later.core.fits
    later.core.closed.word (aims.congr rfl rfl rfl) (more ▸ List.mem_append_left _ mem') rfl
    dropped rfl

end Machine

end ByteMachine
