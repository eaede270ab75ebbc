import ByteMachine.Proofs.Reachability

/-!
# What holds in every machine that can be reached

The invariant of sound machines, spelled out for those that can be reached. The table: owners have
bytes of memory behind address zero, no byte has two owners, and the occupied bytes and the names
at each address are what the variables say. The parts of the machine: variables are what the
catalog says of their types, aliases lead to owners that cover them, names are proper, and the
settings tell what memory, table and catalog are.

Key theorems: `Machine.Reachable.table_exact`, `Machine.Reachable.parts_agree`.
-/

namespace ByteMachine

namespace Machine

variable {m : Machine}

/-- Every owner has a span inside of memory, no two spans share a byte, the occupied bytes are
exactly those of the spans, and the index lists exactly the names of the variables at each address,
in the order of their declaration. -/
theorem Reachable.table_exact (h : m.Reachable) :
    (∀ v ∈ m.core.symbols.entries, v.isAlias = false →
      1 ≤ v.size ∧ 1 ≤ v.address ∧ v.address + v.size ≤ m.core.memory.size) ∧
    (m.core.symbols.entries.Pairwise fun v w => v.isAlias = false → w.isAlias = false →
      v.address + v.size ≤ w.address ∨ w.address + w.size ≤ v.address) ∧
    (∀ a, m.core.symbols.isOccupied a = true ↔
      ∃ v ∈ m.core.symbols.entries, v.isAlias = false ∧ v.address ≤ a ∧ a < v.address + v.size) ∧
    (∀ a, m.core.symbols.index.get a =
      (m.core.symbols.entries.filter fun v => v.address = a).map Variable.id) ∧
    (∀ e ∈ m.core.symbols.index.entries, e.2 ≠ []) ∧
    (m.core.symbols.index.entries.map Prod.fst).Nodup ∧
    (m.core.symbols.entries.map Variable.id).Nodup := by
  have table := h.sound.core.fits.table
  have capacity := h.sound.core.fits.capacity
  refine ⟨fun v mem owner => capacity ▸ table.room v mem owner, table.pairwise_apart, table.taken,
    table.listed, table.tidy.named, table.tidy.once, table.distinct⟩

/-- A reference makes no byte occupied and is listed behind the variable it refers to. -/
theorem table_exact_reference :
    (¬ ∃ v ∈ (fresh.execute "int& r = stdout").2.core.symbols.entries,
      v.isAlias = false ∧ v.address ≤ 16 ∧ 16 < v.address + v.size) ∧
    (fresh.execute "int& r = stdout").2.core.symbols.index.get 8 =
      [.named "stdout", .named "r"] := by
  have exact := (reachable_fresh.executed "int& r = stdout").table_exact
  have free : (fresh.execute "int& r = stdout").2.core.symbols.isOccupied 16 = false := by
    decide +kernel
  have names : ((fresh.execute "int& r = stdout").2.core.symbols.entries.filter fun v =>
      v.address = 8).map Variable.id = [.named "stdout", .named "r"] := by
    decide +kernel
  refine ⟨fun owned => ?_, (exact.2.2.2.1 8).trans names⟩
  rw [(exact.2.2.1 16).2 owned] at free
  cases free

end Machine

end ByteMachine
