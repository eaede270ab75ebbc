import ByteMachine.Number.Rounding

/-!
# Double precision numbers

A `Binary64` is the bit pattern of an IEEE 754 double. The four operations and the remainder
are the exact result rounded once to nearest, ties to even; the remainder of a division is
exact. Conversions to and from integers and single precision are here too.

Key definitions: `Binary64`, `Binary64.ofRatio`, `Binary64.ofInt`, `Binary64.toInt`,
`Binary64.add`, `Binary64.mul`, `Binary64.div`, `Binary64.rem`, `Binary64.toSingle`,
`Binary64.ofSingle`.
-/

namespace ByteMachine.Number

/-- A double precision number, by its bits. -/
structure Binary64 where
  bits : UInt64
deriving DecidableEq, Repr, Inhabited

namespace Binary64

/-- The pattern without the sign bit. -/
def magnitude (x : Binary64) : Nat := x.bits.toNat % twoPow 63

def isNegative (x : Binary64) : Bool := twoPow 63 ≤ x.bits.toNat

def isNaN (x : Binary64) : Bool := Format.double.infinity < x.magnitude

def isInfinite (x : Binary64) : Bool := x.magnitude == Format.double.infinity

def isZero (x : Binary64) : Bool := x.magnitude == 0

/-- The number with the given sign and pattern without sign. -/
def ofMagnitude (negative : Bool) (pattern : Nat) : Binary64 :=
  ⟨UInt64.ofNat (pattern + if negative then twoPow 63 else 0)⟩

def nan : Binary64 := ofMagnitude false (twoPow 51 * 4095)

def infinity (negative : Bool) : Binary64 := ofMagnitude negative Format.double.infinity

def zero (negative : Bool) : Binary64 := ofMagnitude negative 0

/-- The integer that the number, without its sign, is times `2 ^ scale`. -/
def significand (x : Binary64) : Nat := Format.double.significand x.magnitude

def scale (x : Binary64) : Int := Format.double.scale x.magnitude

/-- The number nearest to `n / d` with the given sign. -/
def ofRatio (negative : Bool) (n d : Nat) : Binary64 :=
  ofMagnitude negative (Format.double.round n d)

/-- The number nearest to `n * 2 ^ e` with the given sign. -/
def ofScaled (negative : Bool) (n : Nat) (e : Int) : Binary64 :=
  ofMagnitude negative (Format.double.roundScaled n e)

/-- The number nearest to an integer. -/
def ofInt (i : Int) : Binary64 := ofRatio (i < 0) i.natAbs 1

/-- The integer part, toward zero, of a finite number without its sign. -/
def wholePart (x : Binary64) : Nat :=
  if 0 ≤ x.scale then x.significand * twoPow x.scale.toNat
  else x.significand / twoPow (-x.scale).toNat

/-- The integer part toward zero, held to 128 bits with a sign; a NaN gives zero. -/
def toInt (x : Binary64) : Int :=
  if x.isNaN then 0
  else if x.isNegative then
    if x.isInfinite then -(twoPow 127) else max (-(twoPow 127)) (-(x.wholePart : Int))
  else
    if x.isInfinite then twoPow 127 - 1 else min (twoPow 127 - 1) (x.wholePart : Int)

def abs (x : Binary64) : Binary64 := ofMagnitude false x.magnitude

def neg (x : Binary64) : Binary64 := ofMagnitude (!x.isNegative) x.magnitude

/-- A finite number as a multiple of `2 ^ e`, for `e` not above its scale. -/
def multiple (x : Binary64) (e : Int) : Int :=
  let n : Int := x.significand * twoPow (x.scale - e).toNat
  if x.isNegative then -n else n

/-- The sum. Opposite zeros, and opposite equal numbers, give zero without a sign. -/
def add (x y : Binary64) : Binary64 :=
  if x.isNaN || y.isNaN then nan
  else if x.isInfinite then
    if y.isInfinite && x.isNegative != y.isNegative then nan else x
  else if y.isInfinite then y
  else
    let e := min x.scale y.scale
    let sum := x.multiple e + y.multiple e
    if sum = 0 then zero (x.isNegative && y.isNegative)
    else ofScaled (sum < 0) sum.natAbs e

def sub (x y : Binary64) : Binary64 := x.add y.neg

/-- The product. Zero times infinity is no number. -/
def mul (x y : Binary64) : Binary64 :=
  let negative := x.isNegative != y.isNegative
  if x.isNaN || y.isNaN then nan
  else if x.isInfinite || y.isInfinite then
    if x.isZero || y.isZero then nan else infinity negative
  else ofScaled negative (x.significand * y.significand) (x.scale + y.scale)

/-- The quotient. A number other than zero by zero is infinite. -/
def div (x y : Binary64) : Binary64 :=
  let negative := x.isNegative != y.isNegative
  if x.isNaN || y.isNaN then nan
  else if x.isInfinite then if y.isInfinite then nan else infinity negative
  else if y.isInfinite then zero negative
  else if y.isZero then if x.isZero then nan else infinity negative
  else
    let (n, d) := Format.scaled x.significand y.significand (x.scale - y.scale)
    ofRatio negative n d

/-- The remainder of the division toward zero: exact, with the sign of the dividend. -/
def rem (x y : Binary64) : Binary64 :=
  if x.isNaN || y.isNaN || x.isInfinite || y.isZero then nan
  else if y.isInfinite then x
  else
    let e := min x.scale y.scale
    ofScaled x.isNegative ((x.multiple e).natAbs % (y.multiple e).natAbs) e

/-- The square root, correctly rounded. -/
def sqrt (x : Binary64) : Binary64 := ⟨(Float.ofBits x.bits).sqrt.toBits⟩

/-- The power, as the mathematical library computes it. -/
def pow (x y : Binary64) : Binary64 := ⟨((Float.ofBits x.bits).pow (Float.ofBits y.bits)).toBits⟩

/-- The pattern of the nearest single precision number, sign included. A NaN keeps the high bits
of its fraction and becomes quiet. -/
def toSingle (x : Binary64) : Nat :=
  let sign := if x.isNegative then Format.single.signWeight else 0
  if x.isNaN then sign + twoPow 22 * 511 + x.magnitude / twoPow 29 % twoPow 22
  else if x.isInfinite then sign + Format.single.infinity
  else sign + Format.single.roundScaled x.significand x.scale

/-- The number a single precision pattern stands for. -/
def ofSingle (pattern : Nat) : Binary64 :=
  let negative : Bool := Format.single.signWeight ≤ pattern
  let magnitude := pattern % Format.single.signWeight
  if Format.single.infinity < magnitude then
    ofMagnitude negative (twoPow 51 * 4095 + magnitude % twoPow 22 * twoPow 29)
  else if magnitude = Format.single.infinity then infinity negative
  else ofScaled negative (Format.single.significand magnitude) (Format.single.scale magnitude)

/-- The number rounded to single precision. -/
def roundToSingle (x : Binary64) : Binary64 := ofSingle x.toSingle

end Binary64

end ByteMachine.Number
