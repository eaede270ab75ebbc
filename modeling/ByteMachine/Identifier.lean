import ByteMachine.Statement.Lexer

/-!
# Names of variables

A variable is named in a statement, or it is an anonymous heap block or a temporary result and
has a serial number. The written forms of the two numbered kinds start with a dollar sign, which
no name in a statement can hold, so the three kinds never meet.

Key definitions: `Identifier`, `Identifier.text`, `Identifier.isName`, `Identifier.ofName?`,
`Identifier.reserved`.
-/

namespace ByteMachine

/-- The name of a variable. -/
inductive Identifier where
  | named (name : String)
  | heap (serial : Nat)
  | temporary (serial : Nat)
deriving DecidableEq, Repr, Inhabited

namespace Identifier

/-- The longest name in a statement, in bytes. -/
def maxLength : Nat := 32

/-- How a name is written. -/
def text : Identifier → String
  | named name => name
  | heap serial => "$heap" ++ toString serial
  | temporary serial => "$tmp" ++ toString serial

def isHeap : Identifier → Bool
  | heap _ => true
  | _ => false

def isTemporary : Identifier → Bool
  | temporary _ => true
  | _ => false

/-- Whether a text can name a variable in a statement: a letter or an underscore, then letters,
digits and underscores. -/
def isName (name : String) : Bool :=
  match name.toList with
  | [] => false
  | c :: cs => Lexer.isNameStart c && name.utf8ByteSize ≤ maxLength && cs.all Lexer.isNameChar

def ofName? (name : String) : Option Identifier := if isName name then some (named name) else none

/-- Words that no variable may have as its name. -/
def reserved : List String := ["new", "delete", "null", "NULL"]

end Identifier

end ByteMachine
