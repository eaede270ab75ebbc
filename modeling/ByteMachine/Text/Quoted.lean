import ByteMachine.Text.CharacterTable
import ByteMachine.Text.Hex

/-!
# Quoted text

A text is shown between double quotes. The quote and the backslash get a backslash before
them, line feed, carriage return, tab and NUL have a letter, and a character that would not
show, or would merge with its neighbour, is written by its number in braces.

Key definitions: `Text.escape`, `Text.quoted`, `Text.byteChar`, `Text.ofBytes`.
-/

namespace ByteMachine.Text

/-- Whether a character is written by its number: it shows nothing, or it would change the one
before it. The voiced sound marks of half width stand by themselves. -/
def mustName (c : Char) : Bool :=
  isHidden c || isIgnorable c || (isExtending c && c.toNat != 0xff9e && c.toNat != 0xff9f)

/-- How one character is written between double quotes. -/
def escape (c : Char) : String :=
  if c = '\x22' then "\\\x22"
  else if c = '\x5c' then "\\\\"
  else if c = '\n' then "\\n"
  else if c = '\r' then "\\r"
  else if c = '\t' then "\\t"
  else if c = '\x00' then "\\0"
  else if mustName c then "\\u\x7b" ++ hex c.toNat ++ "\x7d"
  else String.singleton c

/-- `text` between double quotes. -/
def quoted (text : String) : String :=
  "\x22" ++ String.join (text.toList.map escape) ++ "\x22"

/-- The character a byte stands for: text is kept one byte to a character. -/
def byteChar (b : UInt8) : Char := Char.ofNat b.toNat

def ofBytes (bytes : List UInt8) : String := String.ofList (bytes.map byteChar)

/-- Whether a byte is a printable ASCII character, the space included. -/
def isPrintable (b : UInt8) : Bool := 0x20 ≤ b && b ≤ 0x7e

/-- A byte as a character between single quotes, or by its number where it would not show. -/
def quotedByte (b : UInt8) : String :=
  if isPrintable b then "'" ++ String.singleton (byteChar b) ++ "'"
  else "'\\x" ++ hexPadded 2 b.toNat ++ "'"

end ByteMachine.Text
