import ByteMachine.Number.Binary64

/-!
# Decimal text of doubles

Reading a decimal number rounds it to the nearest double, ties to even. Writing takes the fewest
digits that read back to the same double, of those the ones nearest to it, and of two equally
near the larger.

`Binary64.spelling` writes positional digits with a fraction from a ten-thousandth up to 10^16
and an exponent outside; `Binary64.positional` never writes an exponent and no fraction for a
whole number.

Key definitions: `Binary64.ofDecimal`, `Binary64.shortest`, `Binary64.spelling`,
`Binary64.positional`.
-/

namespace ByteMachine.Number

/-- `10 ^ e` as a numerator and a denominator. -/
def tenPower (e : Int) : Nat × Nat :=
  if 0 ≤ e then (Nat.pow 10 e.toNat, 1) else (1, Nat.pow 10 (-e).toNat)

namespace Binary64

/-- The double nearest to `digits * 10 ^ e`. A number of more than 400 digits before the point
is infinite and one with more than 400 zeros after it is zero, so no larger power is formed. -/
def ofDecimal (digits : Nat) (e : Int) : Binary64 :=
  let size : Int := (Nat.toDigits 10 digits).length + e
  if digits = 0 || size < -400 then zero false
  else if 400 < size then infinity false
  else
    let (n, d) := tenPower e
    ofRatio false (digits * n) d

/-- The point of the grid of multiples of `10 ^ e` that stands for the number: of its two
neighbours on the grid those that read back to it, and of these the nearer. -/
def gridPoint? (x : Binary64) (e : Int) : Option Nat :=
  -- everything in quarters of the last place, so that the ends of the interval are whole
  let value := 4 * x.significand
  let below := if x.significand = twoPow Format.double.fraction then 1 else 2
  let (pn, pd) := tenPower e
  let (tn, td) := Format.scaled 1 1 (x.scale - 2)
  let step := pn * td
  let at_ := fun n : Nat => n * (tn * pd)
  let closed := x.significand % 2 = 0
  let inside := fun point : Nat =>
    (at_ (value - below) < point * step || (closed && at_ (value - below) == point * step)) &&
      (point * step < at_ (value + 2) || (closed && at_ (value + 2) == point * step))
  let low := at_ value / step
  let high := if at_ value % step = 0 then low else low + 1
  if inside low && inside high then
    some (if at_ value - low * step < high * step - at_ value then low else high)
  else if inside low then some low
  else if inside high then some high
  else none

/-- The exponent of the first digit of a positive number: the largest `e` with `10 ^ e` not
above it. -/
def decimalExponent (x : Binary64) : Int :=
  let guess : Int := ((Nat.log2 x.significand : Int) + x.scale) * 30103 / 100000
  let (tn, td) := Format.scaled x.significand 1 x.scale
  let reaches := fun e : Int =>
    let (pn, pd) := tenPower e
    pn * td ≤ tn * pd
  if reaches (guess + 1) then guess + 1 else if reaches guess then guess else guess - 1

/-- The first grid with a point for the number, from `places` digits up to `places + fuel`. -/
def firstGrid (x : Binary64) (e : Int) : Nat → Nat → Nat × Int
  | 0, places => (x.significand, places)
  | fuel + 1, places =>
    match x.gridPoint? (e + 1 - places) with
    | some point => (point, e + 1 - places)
    | none => firstGrid x e fuel (places + 1)

/-- Without the zeros at the end of the digits, each of which adds one to the exponent. -/
def dropZeros : Nat → Nat × Int → Nat × Int
  | 0, d => d
  | fuel + 1, (digits, e) =>
    if digits % 10 = 0 && digits ≠ 0 then dropZeros fuel (digits / 10, e + 1) else (digits, e)

/-- The shortest decimal `digits * 10 ^ e` that reads back to a finite number other than zero,
its sign apart. Seventeen digits are always enough. -/
def shortest (x : Binary64) : Nat × Int :=
  dropZeros 20 (firstGrid x x.decimalExponent 17 1)

/-- `count` zeros. -/
def zeros (count : Nat) : String := String.ofList (List.replicate count '0')

/-- Digits with a point after the first `point` of them, filled with zeros on either side;
whole numbers end in `tail`. -/
def placePoint (digits : String) (point : Int) (tail : String) : String :=
  let count := digits.length
  if point ≤ 0 then "0." ++ zeros (-point).toNat ++ digits
  else if (count : Int) ≤ point then digits ++ zeros (point.toNat - count) ++ tail
  else
    String.ofList (digits.toList.take point.toNat) ++ "." ++
      String.ofList (digits.toList.drop point.toNat)

/-- One digit, the others after a point, and the exponent of ten. -/
def scientific (digits : String) (point : Int) : String :=
  let first := String.ofList (digits.toList.take 1)
  let rest := String.ofList (digits.toList.drop 1)
  let fraction := if rest.isEmpty then "" else "." ++ rest
  first ++ fraction ++ "e" ++ toString (point - 1)

def signText (x : Binary64) : String := if x.isNegative then "-" else ""

/-- The number as values are shown: with a fraction or an exponent. -/
def spelling (x : Binary64) : String :=
  if x.isNaN then "NaN"
  else if x.isInfinite then x.signText ++ "inf"
  else if x.isZero then x.signText ++ "0.0"
  else
    let (n, e) := x.shortest
    let digits := toString n
    let point := digits.length + e
    let body := if -3 ≤ point && point ≤ 16 then placePoint digits point ".0"
      else scientific digits point
    x.signText ++ body

/-- The number in positional digits alone. -/
def positional (x : Binary64) : String :=
  if x.isNaN then "NaN"
  else if x.isInfinite then x.signText ++ "inf"
  else if x.isZero then x.signText ++ "0"
  else
    let (n, e) := x.shortest
    let digits := toString n
    x.signText ++ placePoint digits (digits.length + e) ""

end Binary64

end ByteMachine.Number
