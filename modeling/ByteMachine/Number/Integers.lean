import ByteMachine.Number.Power

/-!
# Integers of a fixed width

Machine integers are mathematical integers held to a number of bytes. Arithmetic itself runs on
128 bits with a sign and wraps there; `wrap` then brings a value to the width of its type.

Key definitions: `wrap`, `narrow`, `addWide`, `subWide`, `mulWide`,
`divWide`, `remWide`, `absWide`.
-/

namespace ByteMachine.Number

/-- The integer of the given width in bytes congruent to `value`, in the signed or the unsigned
range; sixteen bytes hold every value the machine computes. -/
def wrap (value : Int) (width : Nat) (signed : Bool) : Int :=
  if 16 ≤ width then value
  else if signed then Int.bmod value (byteRange width)
  else value % byteRange width

/-- A value brought to 128 bits with a sign. -/
def narrow (value : Int) : Int := Int.bmod value (twoPow 128)

def addWide (a b : Int) : Int := narrow (a + b)

def subWide (a b : Int) : Int := narrow (a - b)

def mulWide (a b : Int) : Int := narrow (a * b)

/-- The quotient toward zero. -/
def divWide (a b : Int) : Int := narrow (Int.tdiv a b)

/-- The remainder of the division toward zero, with the sign of the dividend. -/
def remWide (a b : Int) : Int := narrow (Int.tmod a b)

def absWide (a : Int) : Int := narrow a.natAbs

/-- Whether an integer lies in the 128-bit range. -/
def fitsWide (a : Int) : Bool := -(twoPow 127) ≤ a && a < twoPow 127

/-- The sizes and addresses of the machine are below this bound. -/
def addressBound : Nat := twoPow 64

/-- An integer as an address or a count, if it is one. -/
def toAddress? (a : Int) : Option Nat :=
  if 0 ≤ a && a < (addressBound : Int) then some a.toNat else none

end ByteMachine.Number
