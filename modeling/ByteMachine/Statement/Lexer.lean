import ByteMachine.Statement.Clean
import ByteMachine.Statement.Token

/-!
# Reading tokens

A cleaned statement falls into tokens from left to right, with blanks between them where they
would run together. `scan` reads one token and gives the rest of the text, `tokens` all of them.
Each scanner returns what it has read even if it fails, since reading goes on behind a token
that is invalid.

Key definitions: `Lexer.scanEscape`, `Lexer.scanText`, `Lexer.scanChar`, `Lexer.scanNumber`,
`Lexer.scan`, `Lexer.lexemes`, `Statement.lexemes`.
-/

namespace ByteMachine

open Number

namespace Lexer

/-- The characters that are a token each. -/
def specials : List Char :=
  [';', '.', ',', '=', '(', ')', '\x7b', '\x7d', '[', ']', '+', '-', '*', '/', '%', '&']

def isLetter (c : Char) : Bool := ('a' ≤ c && c ≤ 'z') || ('A' ≤ c && c ≤ 'Z')

/-- The characters a name starts with. -/
def isNameStart (c : Char) : Bool := isLetter c || c = '_'

/-- The characters a name goes on with. -/
def isNameChar (c : Char) : Bool := isNameStart c || c.isDigit

def isAscii (c : Char) : Bool := c.toNat < 128

/-- The byte two digits in base sixteen give; the first of them may be a plus sign. -/
def escapedByte? (c d : Char) : Option UInt8 :=
  if !Text.isHexDigit d then none
  else if c = '+' then some (UInt8.ofNat (Text.hexDigitValue d))
  else if Text.isHexDigit c then some (UInt8.ofNat (Text.digitsValue 16 [c, d]))
  else none

/-- The byte that one letter behind a backslash stands for, `x` apart. -/
def letterByte? (c : Char) : Option UInt8 :=
  if c = 'n' then some 10
  else if c = 't' then some 9
  else if c = 'r' then some 13
  else if c = '\x5c' then some 0x5c
  else if c = '\x27' then some 0x27
  else if c = '\x22' then some 0x22
  else if c = '0' then some 0
  else none

/-- The byte that the characters behind a backslash stand for, and what follows them. -/
def scanEscape : List Char → Option UInt8 × List Char
  | [] => (none, [])
  | 'x' :: c :: d :: cs => (escapedByte? c d, cs)
  | 'x' :: _ => (none, [])
  | c :: cs => (letterByte? c, cs)

/-- A string literal behind its opening quote; `read` is the text so far in reverse. `fuel` is at
least the length of the input. -/
def scanTextFrom : Nat → List Char → List Char → Token × List Char
  | 0, _, cs => (.invalid '\x22', cs)
  | _ + 1, _, [] => (.invalid '\x22', [])
  | fuel + 1, read, c :: cs =>
    if c = '\x22' then (.text (String.ofList read.reverse), cs)
    else if c = '\x5c' then
      match scanEscape cs with
      | (some b, rest) => scanTextFrom fuel (Text.byteChar b :: read) rest
      | (none, rest) => (.invalid '\x5c', rest)
    else if isAscii c then scanTextFrom fuel (c :: read) cs
    else (.invalid c, cs)

def scanText (cs : List Char) : Token × List Char := scanTextFrom (cs.length + 1) [] cs

/-- The value inside a character literal behind its opening quote. -/
def scanCharValue : List Char → Option UInt8 × List Char
  | [] => (none, [])
  | c :: cs =>
    if c = '\x5c' then scanEscape cs
    else if isAscii c && c ≠ '\x27' then (some (UInt8.ofNat c.toNat), cs)
    else (none, cs)

/-- A character literal behind its opening quote. One more character is read behind the value,
which has to be the closing quote. -/
def scanChar (cs : List Char) : Token × List Char :=
  match scanCharValue cs with
  | (some b, '\x27' :: rest) => (.char b, rest)
  | (_, rest) => (.invalid '\x27', rest.drop 1)

/-- The largest integer a literal may have is below this bound. -/
def integerBound : Nat := twoPow 127

/-- A number in base sixteen behind its `0x`. -/
def scanHexadecimal (cs : List Char) : Token × List Char :=
  let digits := cs.takeWhile Text.isHexDigit
  let rest := cs.dropWhile Text.isHexDigit
  let n := Text.digitsValue 16 digits
  if digits.isEmpty || integerBound ≤ n then (.invalid 'x', rest) else (.hexadecimal n, rest)

/-- The digits behind the point of a number, if a point with a digit comes next. -/
def scanFraction : List Char → Option (List Char) × List Char
  | '.' :: c :: cs =>
    if c.isDigit then
      (some (c :: cs.takeWhile Char.isDigit), cs.dropWhile Char.isDigit)
    else (none, '.' :: c :: cs)
  | cs => (none, cs)

/-- The digits of an exponent as an integer. -/
def exponentValue (negative : Bool) (digits : List Char) : Int :=
  let n : Int := Text.digitsValue 10 digits
  if negative then -n else n

/-- The exponent of a number behind its `e`, if there is a digit, perhaps behind a sign. -/
def scanExponentDigits : List Char → Option Int × List Char
  | '+' :: c :: cs =>
    if c.isDigit then
      (some (exponentValue false (c :: cs.takeWhile Char.isDigit)), cs.dropWhile Char.isDigit)
    else (none, '+' :: c :: cs)
  | '-' :: c :: cs =>
    if c.isDigit then
      (some (exponentValue true (c :: cs.takeWhile Char.isDigit)), cs.dropWhile Char.isDigit)
    else (none, '-' :: c :: cs)
  | c :: cs =>
    if c.isDigit then
      (some (exponentValue false (c :: cs.takeWhile Char.isDigit)), cs.dropWhile Char.isDigit)
    else (none, c :: cs)
  | [] => (none, [])

/-- The exponent of a number, if one comes next. -/
def scanExponent : List Char → Option Int × List Char
  | 'e' :: cs =>
    match scanExponentDigits cs with
    | (some e, rest) => (some e, rest)
    | (none, _) => (none, 'e' :: cs)
  | 'E' :: cs =>
    match scanExponentDigits cs with
    | (some e, rest) => (some e, rest)
    | (none, _) => (none, 'E' :: cs)
  | cs => (none, cs)

/-- A number from its first digit. With a fraction or an exponent it is a real, else an
integer. -/
def scanDecimal (first : Char) (cs : List Char) : Token × List Char :=
  let whole := first :: cs.takeWhile Char.isDigit
  let (fraction, rest) := scanFraction (cs.dropWhile Char.isDigit)
  let (exponent, rest) := scanExponent rest
  if fraction.isNone && exponent.isNone then
    let n := Text.digitsValue 10 whole
    (if integerBound ≤ n then .invalid first else .integer n, rest)
  else
    let behind := fraction.getD []
    let n := Text.digitsValue 10 (whole ++ behind)
    (.real (Binary64.ofDecimal n (exponent.getD 0 - behind.length)), rest)

/-- A number from its first digit. -/
def scanNumber (first : Char) (cs : List Char) : Token × List Char :=
  match first, cs with
  | '0', 'x' :: rest => scanHexadecimal rest
  | '0', 'X' :: rest => scanHexadecimal rest
  | _, _ => scanDecimal first cs

/-- The token that starts with the character `c` and goes on in `cs`. -/
def scan (c : Char) (cs : List Char) : Token × List Char :=
  if c = '\x22' then scanText cs
  else if c = '\x27' then scanChar cs
  else if c.isDigit then scanNumber c cs
  else if isNameStart c then
    (.identifier (String.ofList (c :: cs.takeWhile isNameChar)), cs.dropWhile isNameChar)
  else if c ∈ specials then (.special c, cs)
  else (.invalid c, cs)

/-- The tokens of a text that starts at the given column, with `stop` at the end. `fuel` is more
than the length of the text. -/
def lexemesFrom : Nat → Nat → List Char → List Lexeme
  | 0, column, _ => [⟨.stop, column⟩]
  | fuel + 1, column, cs =>
    match cs with
    | [] => [⟨.stop, column⟩]
    | c :: rest =>
      if Text.isBlank c then lexemesFrom fuel (column + 1) rest
      else
        let (token, behind) := scan c rest
        ⟨token, column⟩ :: lexemesFrom fuel (column + (rest.length + 1 - behind.length)) behind

/-- The tokens of a text that needs no cleaning. -/
def lexemes (cs : List Char) : List Lexeme := lexemesFrom (cs.length + 1) 1 cs

end Lexer

/-- The tokens of a statement, the last of which is `stop`. -/
def Statement.lexemes (line : String) : List Lexeme := Lexer.lexemes (cleanChars line.toList)

end ByteMachine
