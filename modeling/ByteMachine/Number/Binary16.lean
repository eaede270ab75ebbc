import ByteMachine.Number.Rounding

/-!
# Half precision patterns

Conversion between the bit patterns of single and half precision numbers. Going to half
precision rounds to nearest with ties away from zero; a carry out of the fraction bumps the
exponent, up to infinity. Going back is exact.

Key definitions: `Binary16.ofSingle`, `Binary16.toSingle`.
-/

namespace ByteMachine.Number.Binary16

/-- The half precision pattern nearest to a single precision pattern. -/
def ofSingle (single : Nat) : Nat :=
  let sign := single / twoPow 31 * twoPow 15
  let exponent := single / twoPow 23 % twoPow 8
  let fraction := single % twoPow 23
  if exponent = 255 then sign + twoPow 10 * 31 + if fraction = 0 then 0 else twoPow 9
  else if 143 ≤ exponent then sign + twoPow 10 * 31
  else if exponent < 102 then sign
  else if exponent ≤ 112 then
    let shift := 126 - exponent
    sign + (fraction + twoPow 23 + twoPow (shift - 1)) / twoPow shift
  else sign + ((exponent - 112) * twoPow 10 + fraction / twoPow 13) + fraction / twoPow 12 % 2

/-- The single precision pattern of the same value. -/
def toSingle (half : Nat) : Nat :=
  let sign := half / twoPow 15 * twoPow 31
  let exponent := half / twoPow 10 % twoPow 5
  let fraction := half % twoPow 10
  if exponent = 0 then sign + Format.single.round fraction (twoPow 24)
  else if exponent = 31 then sign + twoPow 23 * 255 + fraction * twoPow 13
  else sign + (exponent + 112) * twoPow 23 + fraction * twoPow 13

end ByteMachine.Number.Binary16
