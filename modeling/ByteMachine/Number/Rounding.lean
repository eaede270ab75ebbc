import ByteMachine.Number.Power

/-!
# Rounding to a binary format

A binary interchange format stores a sign, an exponent and a fraction. `Format.round` finds the
pattern of the format nearest to a fraction `n / d`, a tie going to the even pattern; the
patterns of a format are ordered as their values are, so a carry out of the fraction bumps the
exponent and, at the top, gives infinity. `Format.significand` and `Format.scale` read a
pattern back as an integer times a power of two.

Key definitions: `nearestEven`, `Format`, `Format.round`, `Format.significand`, `Format.scale`.
-/

namespace ByteMachine.Number

/-- `n / d` rounded to the nearest integer, a tie going to the even one. -/
def nearestEven (n d : Nat) : Nat :=
  if 2 * (n % d) < d then n / d
  else if d < 2 * (n % d) then n / d + 1
  else n / d + n / d % 2

/-- A binary interchange format, by the widths of its two fields after the sign. -/
structure Format where
  fraction : Nat
  exponent : Nat
deriving DecidableEq, Repr

namespace Format

def half : Format := ⟨10, 5⟩

def single : Format := ⟨23, 8⟩

def double : Format := ⟨52, 11⟩

/-- The pattern of infinity: all ones in the exponent and a zero fraction. -/
def infinity (f : Format) : Nat := (twoPow f.exponent - 1) * twoPow f.fraction

/-- The weight of the sign bit. -/
def signWeight (f : Format) : Nat := twoPow (f.exponent + f.fraction)

/-- The exponent of the smallest normal value. -/
def minExponent (f : Format) : Int := 2 - twoPow (f.exponent - 1)

/-- The exponent of two of the last place of the subnormal values. -/
def minScale (f : Format) : Int := f.minExponent - f.fraction

/-- The integer that a finite pattern without sign multiplies by its power of two. -/
def significand (f : Format) (pattern : Nat) : Nat :=
  if pattern / twoPow f.fraction = 0 then pattern
  else pattern % twoPow f.fraction + twoPow f.fraction

/-- The exponent of the power of two a finite pattern without sign is a multiple of. -/
def scale (f : Format) (pattern : Nat) : Int :=
  f.minScale + ((pattern / twoPow f.fraction - 1 : Nat) : Int)

/-- The fraction `n / d` times `2 ^ e`, as a numerator and a denominator. -/
def scaled (n d : Nat) (e : Int) : Nat × Nat :=
  if 0 ≤ e then (n * twoPow e.toNat, d) else (n, d * twoPow (-e).toNat)

/-- The largest `e` with `2 ^ e ≤ n / d`, for positive `n` and `d`. -/
def binaryExponent (n d : Nat) : Int :=
  let guess : Int := (Nat.log2 n : Int) - Nat.log2 d
  let (a, b) := scaled n d (-guess)
  if a < b then guess - 1 else guess

/-- The pattern without sign of the format's value nearest to `n / d`, ties to even. -/
def round (f : Format) (n d : Nat) : Nat :=
  if n = 0 then 0
  else
    let steps := (binaryExponent n d - f.minExponent).toNat
    let (a, b) := scaled n d (-(f.minScale + steps))
    min (steps * twoPow f.fraction + nearestEven a b) f.infinity

/-- The pattern without sign nearest to the integer `n` times `2 ^ e`. -/
def roundScaled (f : Format) (n : Nat) (e : Int) : Nat :=
  let (a, b) := scaled n 1 e
  f.round a b

end Format

end ByteMachine.Number
