import ByteMachine.Proofs.Reachability

/-!
# Statements are atomic

A statement may fail behind any of its instructions, with bytes written, blocks taken or released
and numbers drawn by then. Since the state before it is put back, and since the settings agree with
that state, nothing of this is left on a machine that can be reached: only the catalog may have
grown. A statement that succeeds adds one entry to the history, for the state it leads to.

Key theorem: `Machine.Reachable.execute_atomic`.
-/

namespace ByteMachine

namespace Machine

variable {m : Machine}

/-- A failed statement leaves memory, variables, settings and history as they were, and every type
with its number. One that succeeds records the new state once; one without code changes nothing. -/
theorem Reachable.execute_atomic (h : m.Reachable) (line : String) :
    (∀ (fault : Fault) (n : Machine), m.execute line = (.error fault, n) →
      n.core.memory = m.core.memory ∧ n.config = m.config ∧ n.history = m.history ∧
        n.core.symbols = m.core.symbols ∧
        ∀ (number : Nat) (t : Ty), m.core.catalog.known[number]? = some t →
          n.core.catalog.known[number]? = some t ∧
            n.core.catalog.size t = m.core.catalog.size t) ∧
    (∀ (result : Option Variable) (n : Machine), m.execute line = (.ok result, n) →
      (m.codeOf line = [] → n = m) ∧
      (m.codeOf line ≠ [] →
        n.history = m.history.push (n.snapshot (Statement.clean line)))) := by
  rcases execute_cases h.sound line with
    ⟨fault, n, e, r, -⟩ | ⟨none, e⟩ | ⟨some, result, core, e, -, -⟩ <;> rw [e]
  · refine ⟨?_, fun _ _ e => nomatch e⟩
    rintro _ _ ⟨⟩
    exact ⟨r.memory, r.config, r.history, r.symbols, fun _ t known =>
      ⟨r.catalog.number known, r.catalog.size t⟩⟩
  · refine ⟨fun _ _ e => (nomatch e), ?_⟩
    rintro _ _ ⟨⟩
    exact ⟨fun _ => rfl, fun some => absurd none some⟩
  · refine ⟨fun _ _ e => (nomatch e), ?_⟩
    rintro _ _ ⟨⟩
    exact ⟨fun none => absurd none some, fun _ => rfl⟩

/-- A block that was taken before a division fails is gone again; a declaration is recorded. -/
theorem execute_atomic_fresh :
    (fresh.execute "int y = sizeof(malloc(8)) / 0").2.core.symbols = fresh.core.symbols ∧
      (fresh.execute "int y = 8").2.history =
        fresh.history.push ((fresh.execute "int y = 8").2.snapshot "int y = 8") := by
  have failed : fresh.execute "int y = sizeof(malloc(8)) / 0" =
      (.error .divisionByZero, (fresh.execute "int y = sizeof(malloc(8)) / 0").2) := by
    decide +kernel
  have done : fresh.execute "int y = 8" =
      (.ok (some ⟨.named "y", Ty.int, 16, 4, .plain⟩), (fresh.execute "int y = 8").2) := by
    decide +kernel
  have code : fresh.codeOf "int y = 8" ≠ [] := by decide +kernel
  have text : Statement.clean "int y = 8" = "int y = 8" := by decide +kernel
  obtain ⟨-, -, -, kept, -⟩ :=
    (reachable_fresh.execute_atomic "int y = sizeof(malloc(8)) / 0").1 _ _ failed
  have pushed := ((reachable_fresh.execute_atomic "int y = 8").2 _ _ done).2 code
  rw [text] at pushed
  exact ⟨kept, pushed⟩

end Machine

end ByteMachine
