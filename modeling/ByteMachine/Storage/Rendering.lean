import ByteMachine.Symbols.Variable
import ByteMachine.Storage.Memory

/-!
# Showing variables

The value of a variable is read from a memory, the live one or one of the past, and shown the
way it is written in a statement: pointers in base sixteen, text in quotes, types by name,
arrays in braces. What cannot be read shows as a question mark.

Key definitions: `Literal.render`, `Memory.valueOf`, `Memory.elements`, `Memory.render`,
`Memory.describe`.
-/

namespace ByteMachine

/-- A value as one of the given type is shown. -/
def Literal.render (v : Literal) (t : Ty) : String :=
  match v with
  | .integer n =>
    if t.isPointer then "0x" ++ Text.hex (n % Number.twoPow 128).toNat else v.display
  | _ => v.display

namespace Memory

/-- The value of a variable: text for `char*` and `char` arrays, and for another array the
address of its first element. -/
def valueOf (m : Memory) (c : Catalog) (v : Variable) : Except Fault Literal :=
  match v.role with
  | .temporary value => .ok value
  | _ =>
    let t := v.type.strip
    if t.isArray && !t.isCharArray then .ok (.integer v.address)
    else m.present c v.address t

/-- The values of the elements of an array, or the one value of any other variable. -/
def elements (m : Memory) (c : Catalog) (v : Variable) : Except Fault (List Literal) :=
  match v.type.arrayShape? with
  | some (e, n) => (List.range n).mapM fun i => m.load c (v.address + i * c.size e) e
  | none => (m.valueOf c v).map fun value => [value]

/-- What is shown of a value that may not be readable. -/
def orUnreadable : Except Fault String → String
  | .ok text => text
  | .error _ => "?"

/-- The value of a variable as it is shown. -/
def render (m : Memory) (c : Catalog) (v : Variable) : String :=
  let t := v.type.strip
  match if t.isCharArray then none else t.arrayShape? with
  | some (e, _) => orUnreadable ((m.elements c v).map fun items =>
      "\x7b" ++ String.intercalate ", " (items.map fun item => item.render e) ++ "\x7d")
  | none => orUnreadable ((m.valueOf c v).map fun value => value.render t)

/-- A variable with its type, its address unless it is a temporary, and its value. -/
def describe (m : Memory) (c : Catalog) (v : Variable) : String :=
  let place := if v.isTemporary then "" else " @ 0x" ++ Text.hexPadded 4 v.address
  v.id.text ++ ": " ++ v.type.name ++ place ++ " = " ++ m.render c v

end Memory

end ByteMachine
