import ByteMachine.Fault
import ByteMachine.Literal
import ByteMachine.Statement.Tree

/-!
# Arithmetic on values

The binary operators on typed values. Two integers give the widest of `int` and their types,
unsigned on a tie, and the result wraps to its width; with a float on either side the result is
a float. A pointer and an integer add up to a pointer, in steps of the size of its target, and
the difference of two pointers counts such steps.

Key definitions: `Arithmetic.promote`, `Arithmetic.integers`, `Arithmetic.numbers`,
`Arithmetic.offset`, `Arithmetic.distance`, `Arithmetic.apply`.
-/

namespace ByteMachine

open Number

namespace Arithmetic

/-- Whether `p` is wider than `q`, or as wide and unsigned while `q` is not. -/
def outranks (word : Nat) (p q : Scalar) : Bool :=
  q.size word < p.size word || (p.size word = q.size word && q.isSigned && !p.isSigned)

/-- The type of the result of integer arithmetic: the first of `int` and the two operand types
that no other outranks. -/
def promote (word : Nat) (left right : Scalar) : Scalar :=
  let wider := if outranks word left .int then left else .int
  if outranks word right wider then right else wider

/-- An operator on integers of 128 bits. -/
def integers (op : Operator) (a b : Int) : Except Fault Int :=
  match op with
  | .add => .ok (addWide a b)
  | .sub => .ok (subWide a b)
  | .mul => .ok (mulWide a b)
  | .div => if b = 0 then .error .divisionByZero else .ok (divWide a b)
  | .mod => if b = 0 then .error .divisionByZero else .ok (remWide a b)

def floats (op : Operator) (a b : Binary64) : Binary64 :=
  match op with
  | .add => a.add b
  | .sub => a.sub b
  | .mul => a.mul b
  | .div => a.div b
  | .mod => a.rem b

/-- The scalar type of a value that takes part in arithmetic. -/
def scalar? (t : Ty) : Option Scalar := t.scalar?.filter Scalar.isArithmetic

/-- An operator on two numbers. -/
def numbers (word : Nat) (op : Operator) (left : Literal) (leftType : Ty) (right : Literal)
    (rightType : Ty) : Except Fault (Literal × Ty) :=
  match scalar? leftType, scalar? rightType with
  | some p, some q =>
    if p.isFloat || q.isFloat then
      match left.toFloat?, right.toFloat? with
      | some a, some b =>
        let precision := if p = .double || q = .double then Scalar.double else Scalar.float
        .ok (.float (floats op a b), .scalar precision)
      | _, _ => .error (.typeMismatch "a number" "text")
    else
      match left.toInteger?, right.toInteger? with
      | some a, some b => do
        let n ← integers op a b
        let s := promote word p q
        return (.integer (wrap n (s.size word) s.isSigned), .scalar s)
      | _, _ => .error (.typeMismatch "an integer" "text")
  | _, _ =>
    let culprit := if leftType.isArithmetic then rightType else leftType
    .error (.typeMismatch "an arithmetic value" culprit.name)

/-- The failure of an operator on a type that it does not take. -/
def refused (op : Operator) (t : Ty) : Except Fault (Literal × Ty) :=
  .error (.typeMismatch ("operands valid for '" ++ String.singleton op.symbol ++ "'") t.name)

/-- The bytes that one step of a pointer moves by; a pointer to what has no size moves by
one. -/
def stride (word : Nat) (pointer : Ty) : Nat :=
  match pointer.pointee? with
  | some target => max (target.size word) 1
  | none => 1

/-- A pointer moved by an integer. -/
def offset (word : Nat) (op : Operator) (pointer : Literal) (pointerType : Ty)
    (steps : Literal) (stepsType : Ty) : Except Fault (Literal × Ty) :=
  if op != .add && op != .sub then refused op pointerType
  else if stepsType.isFloat || !stepsType.isArithmetic then
    .error (.typeMismatch "an integer offset" stepsType.name)
  else
    match pointer.toInteger?, steps.toInteger? with
    | some start, some n =>
      let delta := mulWide n (stride word pointerType)
      let address := if op = .sub then subWide start delta else addWide start delta
      .ok (.integer (wrap address word false), pointerType)
    | none, _ => .error (.typeMismatch "an address" "text")
    | _, none => .error (.typeMismatch "an integer offset" "text")

/-- The difference of two pointers, in steps of the first. -/
def distance (word : Nat) (op : Operator) (left : Literal) (leftType : Ty) (right : Literal) :
    Except Fault (Literal × Ty) :=
  if op != .sub then refused op leftType
  else
    match left.toInteger?, right.toInteger? with
    | some a, some b =>
      .ok (.integer (wrap (Int.tdiv (a - b) (stride word leftType)) word true), Ty.int)
    | _, _ => .error (.typeMismatch "an address" "text")

/-- An operator on two typed values of compatible types. -/
def apply (word : Nat) (op : Operator) (left : Literal) (leftType : Ty) (right : Literal)
    (rightType : Ty) : Except Fault (Literal × Ty) :=
  match leftType.isPointer, rightType.isPointer with
  | true, true => distance word op left leftType right
  | true, false => offset word op left leftType right rightType
  | false, true =>
    if op = .add then offset word op right rightType left leftType else refused op rightType
  | false, false => numbers word op left leftType right rightType

end Arithmetic

end ByteMachine
