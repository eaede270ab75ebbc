/-!
# A stream of pseudo-random numbers

The SplitMix generator on 64 bits: the state moves by a fixed odd step, and each number is the
state mixed by shifts and products. The stream is part of the symbol table, so that going back
to an earlier state draws the same addresses again.

Key definitions: `SplitMix`, `SplitMix.ofSeed`, `SplitMix.next`, `SplitMix.draw`.
-/

namespace ByteMachine

/-- A place in a stream of pseudo-random numbers. -/
structure SplitMix where
  state : UInt64
deriving DecidableEq, Repr, Inhabited

namespace SplitMix

/-- The step of the state, also the first state for the seed zero. -/
def step : UInt64 := 0x9E3779B97F4A7C15

def ofSeed (seed : UInt64) : SplitMix := ⟨if seed = 0 then step else seed⟩

/-- The next number and the stream behind it. -/
def next (s : SplitMix) : UInt64 × SplitMix :=
  let state := s.state + step
  let z := (state ^^^ (state >>> 30)) * 0xBF58476D1CE4E5B9
  let z := (z ^^^ (z >>> 27)) * 0x94D049BB133111EB
  (z ^^^ (z >>> 31), ⟨state⟩)

/-- A number from `low` up to `high`. Nothing is drawn if there is no choice. -/
def draw (s : SplitMix) (low high : Nat) : Nat × SplitMix :=
  if high ≤ low then (low, s)
  else (low + s.next.1.toNat % (high - low + 1), s.next.2)

theorem draw_bounds (s : SplitMix) {low high : Nat} (h : low ≤ high) :
    low ≤ (s.draw low high).1 ∧ (s.draw low high).1 ≤ high := by
  unfold draw
  split
  · exact ⟨Nat.le_refl _, h⟩
  · have := Nat.mod_lt s.next.1.toNat (show 0 < high - low + 1 by omega)
    exact ⟨Nat.le_add_right _ _, by simp only; omega⟩

end SplitMix

end ByteMachine
