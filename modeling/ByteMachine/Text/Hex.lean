/-!
# Numbers in base sixteen

Addresses, raw bytes and escapes are written in base sixteen with lower-case digits.

Key definitions: `Text.hex`, `Text.hexPadded`, `Text.hexValue?`.
-/

namespace ByteMachine.Text

/-- `n` in base sixteen, lower case, without leading zeros. -/
def hex (n : Nat) : String := String.ofList (Nat.toDigits 16 n)

/-- `text` filled up with zeros on the left to at least `width` characters. -/
def zeroFill (width : Nat) (text : String) : String :=
  String.ofList (List.replicate (width - text.length) '0') ++ text

/-- `n` in base sixteen with at least `width` digits. -/
def hexPadded (width n : Nat) : String := zeroFill width (hex n)

def isHexDigit (c : Char) : Bool :=
  c.isDigit || ('a' ≤ c && c ≤ 'f') || ('A' ≤ c && c ≤ 'F')

/-- The value of one digit, 0 for what is no digit. -/
def hexDigitValue (c : Char) : Nat :=
  if c.isDigit then c.toNat - '0'.toNat
  else if 'a' ≤ c && c ≤ 'f' then c.toNat - 'a'.toNat + 10
  else if 'A' ≤ c && c ≤ 'F' then c.toNat - 'A'.toNat + 10
  else 0

/-- The value of a string of digits in the given base, most significant first. -/
def digitsValue (base : Nat) (digits : List Char) : Nat :=
  digits.foldl (fun n c => base * n + hexDigitValue c) 0

end ByteMachine.Text
