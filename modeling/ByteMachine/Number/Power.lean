/-!
# Powers of two

The bounds of machine numbers and the weights of their fields are powers of two.

Key definitions: `twoPow`, `byteRange`.
-/

namespace ByteMachine.Number

/-- Two to the power `n`. -/
def twoPow (n : Nat) : Nat := Nat.pow 2 n

@[simp] theorem twoPow_zero : twoPow 0 = 1 := rfl

theorem twoPow_succ (n : Nat) : twoPow (n + 1) = 2 * twoPow n := Nat.mul_comm _ 2

theorem twoPow_add (m n : Nat) : twoPow (m + n) = twoPow m * twoPow n := by
  induction n with
  | zero => simp
  | succ n ih => rw [← Nat.add_assoc, twoPow_succ, twoPow_succ, ih, Nat.mul_left_comm]

theorem twoPow_pos (n : Nat) : 0 < twoPow n := by
  induction n with
  | zero => decide
  | succ n ih =>
    rw [twoPow_succ]
    omega

theorem twoPow_le_twoPow {m n : Nat} (h : m ≤ n) : twoPow m ≤ twoPow n := by
  obtain ⟨k, rfl⟩ := Nat.exists_eq_add_of_le h
  rw [twoPow_add]
  exact Nat.le_mul_of_pos_right _ (twoPow_pos k)

/-- How many values so many bytes have. -/
def byteRange (width : Nat) : Nat := twoPow (8 * width)

@[simp] theorem byteRange_zero : byteRange 0 = 1 := rfl

theorem byteRange_succ (width : Nat) : byteRange (width + 1) = 256 * byteRange width := by
  unfold byteRange
  rw [Nat.mul_succ, twoPow_add, Nat.mul_comm]
  rfl

end ByteMachine.Number
