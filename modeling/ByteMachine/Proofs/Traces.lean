import ByteMachine.Proofs.Reachability
import ByteMachine.Proofs.Steadiness

/-!
# What a failed statement leaves behind

A statement that fails leaves memory, symbols, settings and history as they were, but the types it
has met stay in the catalog, where nothing else depends on them but the reading of a byte as a
type. So what is run afterwards does what it would have done without the failed statement, one
statement after the other, as long as none of them fails to read a type: it fails or not alike,
with the same results, and leads to the same memory and symbols. A statement that would have
failed to read a type may succeed after one that has failed.

Key definitions: `Machine.Like`, `Machine.outcomes`, `Machine.SameOutcome`.
Key theorems: `Machine.execute_like`, `Machine.outcomes_like`,
`Machine.Reachable.failure_leaves_no_trace`.
-/

namespace ByteMachine

open Discipline

/-- What is left of the last operand of a statement does not depend on the types met. -/
theorem Run.statement_same (is : List Instr) {s t : Core} (h : s.Alike t) :
    SameEnd Core.Alike ((statement is).run.run s) ((statement is).run.run t) := by
  refine sameEnd_bind ((code_steady is).same h) fun _ u v alike => ?_
  rw [sameEnd_get_bind, alike.stack]
  split
  · exact .done none alike
  · exact (pop_steady.andThen fun o => (resultOf_steady o).map some).same alike
  · exact .failed _ _ alike

namespace Machine

variable {m n : Machine}

/-- Two machines that differ in the types met and in the history only, of which the second has met
all types of the first. -/
structure Like (m n : Machine) : Prop where
  config : n.config = m.config
  catalog : m.core.catalog.Below n.core.catalog
  memory : n.core.memory = m.core.memory
  symbols : n.core.symbols = m.core.symbols
  console : n.core.console = m.core.console

theorem Like.meet (h : m.Like n) (types : List Ty) : (m.meet types).Like (n.meet types) :=
  ⟨h.config, h.catalog.internAll types, h.memory, h.symbols, h.console⟩

theorem Like.scope (h : m.Like n) : n.scope = m.scope := by
  unfold Machine.scope
  rw [h.catalog.word, h.symbols]

theorem perform_like (h : m.Like n) (sound : m.Sound) (sound' : n.Sound) {is : List Instr}
    (known : Code.Known m.core.catalog is) (known' : Code.Known n.core.catalog is)
    (name : String) : SameEnd Like (m.perform name is) (n.perform name is) := by
  have alike : ({ m.core with stack := [] } : Core).Alike { n.core with stack := [] } :=
    ⟨h.catalog, h.memory, h.symbols, h.console, rfl⟩
  have same := Run.statement_same is alike
  generalize left : (Run.statement is).run.run { m.core with stack := [] } = p at same
  generalize right : (Run.statement is).run.run { n.core with stack := [] } = q at same
  cases same with
  | untyped tag s =>
    rw [perform_failed sound.configured sound.core known name left]
    exact .untyped tag _ _
  | failed fault fault' after =>
    rw [perform_failed sound.configured sound.core known name left,
      perform_failed sound'.configured sound'.core known' name right]
    exact .failed fault fault' ⟨h.config, after.catalog, h.memory, h.symbols, after.console⟩
  | done r after =>
    rw [perform_done left, perform_done right]
    exact .done r ⟨h.config, after.catalog, after.memory, congrArg Symbols.collect after.symbols,
      after.console⟩

/-- One statement does the same on machines that are alike. -/
theorem execute_like (h : m.Like n) (sound : m.Sound) (sound' : n.Sound) (line : String) :
    SameEnd Like (m.execute line) (n.execute line) := by
  rcases k : Statement.parse m.scope (Statement.clean line) with ⟨fault | _ | s, met⟩ <;>
    have k' := k <;> rw [← h.scope] at k'
  · rw [execute_misread k, execute_misread k']
    exact .failed _ _ (h.meet met)
  · rw [(execute_blank k).2, (execute_blank k').2]
    exact .done none (h.meet met)
  · rw [(execute_read k).2, (execute_read k').2]
    have met_sound := sound.rewound (n := m.meet met)
      ⟨rfl, rfl, rfl, rfl, Catalog.extends_internAll met _⟩
      (sound_meet sound (Statement.closed_of_parse sound.core.closed k))
    have met_sound' := sound'.rewound (n := n.meet met)
      ⟨rfl, rfl, rfl, rfl, Catalog.extends_internAll met _⟩
      (sound_meet sound' (Statement.closed_of_parse sound'.core.closed k'))
    exact perform_like (h.meet met) met_sound met_sound'
      (Statement.known_of_parse sound.core.closed k)
      (Statement.known_of_parse sound'.core.closed k') _

/-- How statements end that are run one after the other, whether one fails or not, each with the
machine that it leaves. -/
def outcomes (m : Machine) : List String → List (Except Fault (Option Variable) × Machine)
  | [] => []
  | line :: lines => m.execute line :: (m.execute line).2.outcomes lines

/-- Both fail or both give the same, with the same memory and the same symbols, and what a variable
reads as after the first it reads as after the second. -/
structure SameOutcome (o p : Except Fault (Option Variable) × Machine) : Prop where
  result : (∃ fault fault', o.1 = .error fault ∧ p.1 = .error fault') ∨
    ∃ r, o.1 = .ok r ∧ p.1 = .ok r
  memory : p.2.core.memory = o.2.core.memory
  symbols : p.2.core.symbols = o.2.core.symbols
  values : ∀ v value, o.2.valueOf v = .ok value → p.2.valueOf v = .ok value

theorem Like.valueOf (h : m.Like n) {v : Variable} {value : Literal}
    (e : m.valueOf v = .ok value) : n.valueOf v = .ok value := by
  unfold Machine.valueOf at e ⊢
  rcases Memory.valueOf_below h.catalog m.core.memory v with ⟨tag, invalid⟩ | same
  · cases invalid.symm.trans e
  · rw [h.memory, ← same, e]

theorem sameOutcome_of_sameEnd {o p : Except Fault (Option Variable) × Machine}
    (h : SameEnd Like o p) (tagless : Tagless o.1) : SameOutcome o p ∧ o.2.Like p.2 := by
  cases h with
  | untyped tag => exact absurd rfl (tagless tag)
  | failed fault fault' h =>
    exact ⟨⟨.inl ⟨fault, fault', rfl, rfl⟩, h.memory, h.symbols, fun _ _ => h.valueOf⟩, h⟩
  | done r h => exact ⟨⟨.inr ⟨r, rfl, rfl⟩, h.memory, h.symbols, fun _ _ => h.valueOf⟩, h⟩

theorem outcomes_like : ∀ (lines : List String) {m n : Machine}, m.Like n → m.Sound → n.Sound →
    (∀ o ∈ m.outcomes lines, Tagless o.1) →
      List.Forall₂ SameOutcome (m.outcomes lines) (n.outcomes lines)
  | [], _, _, _, _, _, _ => .nil
  | line :: lines, m, n, h, sound, sound', tagless => by
    rw [outcomes, List.forall_mem_cons] at tagless
    obtain ⟨same, alike⟩ :=
      sameOutcome_of_sameEnd (execute_like h sound sound' line) tagless.1
    exact .cons same (outcomes_like lines alike (sound.execute line) (sound'.execute line)
      tagless.2)

theorem Rewound.like (r : m.Rewound n) (console : n.core.console = m.core.console) : m.Like n :=
  ⟨r.config, r.catalog.below, r.memory, r.symbols, console⟩

/-- What is run after a statement that has failed without a change of the console does what it
does without it, as long as no statement fails to read a type without it. -/
theorem Reachable.failure_leaves_no_trace (h : m.Reachable) {line : String} {fault : Fault}
    (failed : m.execute line = (.error fault, n)) (quiet : n.core.console = m.core.console)
    (lines : List String) (tagless : ∀ o ∈ m.outcomes lines, Tagless o.1) :
    List.Forall₂ SameOutcome (m.outcomes lines) (n.outcomes lines) := by
  have rewound : m.Rewound n := by
    rcases execute_cases h.sound line with ⟨_, _, e, r, -⟩ | ⟨-, e⟩ | ⟨-, _, _, e, -⟩
    · cases e.symm.trans failed
      exact r
    · cases e.symm.trans failed
    · cases e.symm.trans failed
  have sound : n.Sound := by
    have sound := h.sound.execute line
    rwa [failed] at sound
  exact outcomes_like lines (rewound.like quiet) h.sound sound tagless

/-- A statement that fails after it has met a type, before some that read no types. -/
theorem failure_leaves_no_trace_fresh :
    List.Forall₂ SameOutcome (fresh.outcomes ["int x = 3", "x / 0", "x * 2"])
      ((fresh.execute "int** z = nosuch").2.outcomes ["int x = 3", "x / 0", "x * 2"]) := by
  have failed : fresh.execute "int** z = nosuch" =
      (.error (.unknownVariable "nosuch"), (fresh.execute "int** z = nosuch").2) := by
    decide +kernel
  have quiet : (fresh.execute "int** z = nosuch").2.core.console = fresh.core.console := by
    decide +kernel
  have tagless : ∀ o ∈ fresh.outcomes ["int x = 3", "x / 0", "x * 2"], Tagless o.1 := by
    decide +kernel
  exact reachable_fresh.failure_leaves_no_trace failed quiet _ tagless

theorem isOk_eq_of_same {line : String}
    (same : List.Forall₂ SameOutcome (m.outcomes [line]) (n.outcomes [line])) :
    (m.execute line).1.isOk = (n.execute line).1.isOk := by
  obtain ⟨first, -⟩ := List.forall₂_cons.1 same
  rcases first.result with ⟨_, _, e, e'⟩ | ⟨_, e, e'⟩
  · rw [e, e']
    rfl
  · rw [e, e']

/-- A machine with a byte that is no type in storage for one. -/
def mistyped : Machine := (fresh.runProgram "type_t t\nchar* p = &t\n*p = 'L'").2

/-- A byte that is no type has become one after a statement that has failed. -/
theorem failure_leaves_a_trace : mistyped.Reachable ∧ ∃ n fault,
    mistyped.execute "int** z = nosuch" = (.error fault, n) ∧
    n.core.console = mistyped.core.console ∧
    (mistyped.execute "type_t u = t").1 = .error (.invalidTag 0x4c) ∧
    (n.execute "type_t u = t").1.isOk = true ∧
    ¬ List.Forall₂ SameOutcome (mistyped.outcomes ["type_t u = t"])
      (n.outcomes ["type_t u = t"]) := by
  have failed : mistyped.execute "int** z = nosuch" =
      (.error (.unknownVariable "nosuch"), (mistyped.execute "int** z = nosuch").2) := by
    decide +kernel
  have console : (mistyped.execute "int** z = nosuch").2.core.console = mistyped.core.console := by
    decide +kernel
  have invalid : (mistyped.execute "type_t u = t").1 = .error (.invalidTag 0x4c) := by
    decide +kernel
  have valid : ((mistyped.execute "int** z = nosuch").2.execute "type_t u = t").1.isOk = true := by
    decide +kernel
  refine ⟨reachable_fresh.ran _, _, _, failed, console, invalid, valid, fun same => ?_⟩
  have alike := isOk_eq_of_same same
  rw [invalid, valid] at alike
  cases alike

end Machine

end ByteMachine
