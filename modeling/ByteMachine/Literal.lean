import ByteMachine.Number.Decimal
import ByteMachine.Text.Quoted
import ByteMachine.Types.Catalog

/-!
# Values

A `Literal` is a value apart from any storage: what a statement spells out, what an operator
computes and what the bytes of a variable read as. Integers, characters and floats convert into
one another; a character is a byte that counts as a signed number.

Key definitions: `Literal`, `Literal.toInteger?`, `Literal.toFloat?`, `Literal.toAddress?`,
`Literal.display`, `Literal.listing`.
-/

namespace ByteMachine

open Number

/-- A value apart from any storage. -/
inductive Literal where
  /-- An integer, or the address a pointer holds. -/
  | integer (value : Int)
  | char (value : UInt8)
  | float (value : Binary64)
  | text (value : String)
  | type (value : Ty)
deriving DecidableEq, Repr, Inhabited

namespace Literal

/-- A byte as a signed number. -/
def signedByte (b : UInt8) : Int := wrap b.toNat 1 true

/-- The value as an integer, a float cut toward zero. -/
def toInteger? : Literal → Option Int
  | integer n => some n
  | char b => some (signedByte b)
  | float x => some x.toInt
  | _ => none

def toFloat? : Literal → Option Binary64
  | integer n => some (Binary64.ofInt n)
  | char b => some (Binary64.ofInt (signedByte b))
  | float x => some x
  | _ => none

/-- The value as an address or a count, if it is one. -/
def toAddress? (v : Literal) : Option Nat := v.toInteger?.bind Number.toAddress?

/-- The value as it is shown and, types apart, as a statement spells it. -/
def display : Literal → String
  | integer n => toString n
  | char b => Text.quotedByte b
  | float x => x.spelling
  | text s => Text.quoted s
  | type t => t.name

/-- The value in a listing of code: its kind with the value in parentheses, a type by its
number. -/
def listing (c : Catalog) : Literal → String
  | integer n => "Integer(" ++ toString n ++ ")"
  | char b => "Char(" ++ toString b.toNat ++ ")"
  | float x => "Float(" ++ x.spelling ++ ")"
  | text s => "Text(" ++ Text.quoted s ++ ")"
  | type t => "Type(TypeId(" ++ toString (c.number t) ++ "))"

end Literal

end ByteMachine
