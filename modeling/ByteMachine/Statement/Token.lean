import ByteMachine.Number.Decimal
import ByteMachine.Text.Quoted

/-!
# Tokens

The words of a statement. A token that is no word of the language, such as a stray character or
a literal that does not close, is `invalid` and names one character; after the last word comes
`stop`.

Key definitions: `Token`, `Token.describe`, `Lexeme`.
-/

namespace ByteMachine

open Number

/-- A word of a statement. -/
inductive Token where
  | identifier (name : String)
  | integer (value : Nat)
  /-- An integer written in base sixteen. -/
  | hexadecimal (value : Nat)
  | real (value : Binary64)
  | char (value : UInt8)
  | text (value : String)
  | special (c : Char)
  | invalid (c : Char)
  | stop
deriving DecidableEq, Repr, Inhabited

/-- How a token is named in messages. -/
def Token.describe : Token → String
  | identifier name => "identifier '" ++ name ++ "'"
  | integer n => "integer " ++ toString n
  | hexadecimal n => "integer 0x" ++ Text.hex n
  | real x => "number " ++ x.positional
  | char b => "char literal " ++ Text.quotedByte b
  | text s => "string literal " ++ Text.quoted s
  | special c => "'" ++ String.singleton c ++ "'"
  | invalid c => "unexpected character '" ++ String.singleton c ++ "'"
  | stop => "end of statement"

/-- A token and the column, from 1, of its first character. -/
structure Lexeme where
  token : Token
  column : Nat
deriving DecidableEq, Repr, Inhabited

end ByteMachine
