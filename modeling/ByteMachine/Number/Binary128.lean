import ByteMachine.Number.Power

/-!
# Quadruple precision patterns

Conversion between the bit patterns of double and quadruple precision numbers. Every double has
a quadruple of the same value. Going back drops the digits that do not fit, toward zero; what is
too small becomes zero and what is too large infinity.

Key definitions: `Binary128.ofDouble`, `Binary128.toDouble`.
-/

namespace ByteMachine.Number.Binary128

/-- The quadruple precision pattern of the value of a double precision pattern. -/
def ofDouble (double : Nat) : Nat :=
  let sign := double / twoPow 63 * twoPow 127
  let exponent := double / twoPow 52 % twoPow 11
  let fraction := double % twoPow 52
  if exponent = 2047 then sign + twoPow 112 * 32767 + fraction * twoPow 60
  else if exponent = 0 then
    if fraction = 0 then sign
    else
      -- a subnormal double is a normal quadruple: its leading one becomes the hidden bit
      let shift := 52 - Nat.log2 fraction
      sign + (15361 - shift) * twoPow 112 + fraction * twoPow shift % twoPow 52 * twoPow 60
  else sign + (exponent + 15360) * twoPow 112 + fraction * twoPow 60

/-- The double precision pattern of a quadruple precision pattern cut toward zero. -/
def toDouble (quad : Nat) : Nat :=
  let sign := quad / twoPow 127 * twoPow 63
  let exponent := quad / twoPow 112 % twoPow 15
  let fraction := quad % twoPow 112
  let high := fraction / twoPow 60
  if exponent = 32767 then
    if fraction = 0 then sign + twoPow 52 * 2047
    else sign + twoPow 52 * 2047 + twoPow 51 + high % twoPow 51
  else if exponent ≤ 15308 then sign
  else if exponent ≤ 15360 then sign + (twoPow 52 + high) / twoPow (15361 - exponent)
  else if 17407 ≤ exponent then sign + twoPow 52 * 2047
  else sign + (exponent - 15360) * twoPow 52 + high

end ByteMachine.Number.Binary128
