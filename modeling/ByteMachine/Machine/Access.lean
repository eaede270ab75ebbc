import ByteMachine.Machine.Arithmetic
import ByteMachine.Machine.Core

/-!
# Reaching and changing storage

The instructions that take addresses, follow them, index and assign. Indexing an array is
checked against its length; indexing a pointer, like following one, only has to land inside of
some variable. An assignment stores a value converted to the type of its target. Text stored in
a `char*` is first copied to a heap block of its own; text stored in a `char` array is copied
into it.

Key definitions: `Run.addressOf`, `Run.dereference`, `Run.index`, `Run.binary`, `Run.assign`,
`Run.storeValue`, `Run.allocateText`, `Run.copyText`.
-/

namespace ByteMachine

open Number

/-- The address `position` elements behind `start`, if that is an address. -/
def elementAddress? (start : Nat) (position : Int) (size : Nat) : Option Nat :=
  let step := position * size
  if fitsWide step && fitsWide (start + step) then toAddress? (start + step) else none

namespace Run

/-- Replaces storage by a pointer to it; for an array, to its first element. -/
def addressOf : Run Unit := do
  let o ← pop
  match ← storage? o with
  | none => throw .addressOfTemporary
  | some (address, t) =>
    let target := match t.arrayShape? with
      | some (e, _) => e
      | none => t
    pushValue (.integer address) (← pointerTo target)

/-- What a pointer of the given type points to. A pointer to `any` cannot be followed. -/
def targetOf (t : Ty) : Run Ty := do
  match t.pointee? with
  | none => throw (.typeMismatch "a pointer" t.name)
  | some target =>
    if target.isAny then throw (.typeMismatch "a typed pointer" Ty.anyPointer.name)
    else return target

/-- The storage a pointer leads to. -/
def follow (o : Operand) : Run Operand := do
  let (v, t) ← read o
  let target ← targetOf t
  match v.toAddress? with
  | some address => resolve address target
  | none => throw (.invalidAddress 0 ((← catalog).size target))

/-- The storage a number of pointers leads to, one behind the other. -/
def followTimes : Nat → Operand → Run Operand
  | 0, o => return o
  | levels + 1, o => do followTimes levels (← follow o)

def dereference (levels : Nat) : Run Unit := do
  push (← followTimes levels (← pop))

/-- The value of an index. -/
def readIndex (o : Operand) : Run Int := do
  let (v, t) ← read o
  if !t.isArithmetic || t.isFloat then throw (.typeMismatch "an integer index" t.name)
  else
    match v.toInteger? with
    | some i => return i
    | none => throw (.typeMismatch "an integer index" "a non-integer value")

/-- The element of an array at an address. An index is cut to 64 bits before it is compared with
the length. -/
def elementOf (base : Operand) (address : Nat) (element : Ty) (count : Nat) (i : Int) :
    Run Operand := do
  let size := (← catalog).size element
  let position := (i % (addressBound : Int)).toNat
  if i < 0 || count ≤ position then
    throw (.invalidAddress ((elementAddress? address i size).getD 0) size)
  else
    match ← ownerOf? base with
    | some owner => return .place (address + position * size) element owner
    | none => throw .addressOfTemporary

/-- The storage a number of elements behind where a pointer leads to. -/
def elementBehind (base : Operand) (i : Int) : Run Operand := do
  let (v, t) ← read base
  let target ← targetOf t
  let size := (← catalog).size target
  match v.toAddress?.bind fun start => elementAddress? start i size with
  | some address => resolve address target
  | none => throw (.invalidAddress 0 size)

/-- Replaces an array or a pointer and an index by an element. -/
def index : Run Unit := do
  let position ← pop
  let base ← pop
  let i ← readIndex position
  match ← storage? base with
  | some (address, t) =>
    match t.arrayShape? with
    | some (e, n) => push (← elementOf base address e n i)
    | none => push (← elementBehind base i)
  | none => push (← elementBehind base i)

/-- Replaces two operands by the value of an operator on them. -/
def binary (op : Operator) : Run Unit := do
  let right ← pop
  let left ← pop
  let (lv, lt) ← read left
  let (rv, rt) ← read right
  checkCompatible lt rt
  let (v, t) ← lift (Arithmetic.apply (← word) op lv lt rv rt)
  pushValue v t

/-- Writes a text and a zero byte into storage for `capacity` characters. -/
def copyText (address capacity : Nat) (text : String) : Run Unit := do
  let bytes ← lift (textBytes text)
  if capacity < bytes.length + 1 then throw (.textTooLong bytes.length capacity)
  else setMemory (← lift ((← memory).write address (bytes ++ [0])))

/-- The address of a copy of a text in a heap block of its own. -/
def allocateText (text : String) : Run Nat := do
  let length := (← lift (textBytes text)).length + 1
  let address ← allocateHeap (← arrayOf Ty.char length)
  copyText address length text
  return address

/-- The value that is stored for a value in storage of the given type: for text in a `char*`
the address of a copy of it, for an array type the pointer it decays to. -/
def storedValue (t : Ty) (v : Literal) : Run Literal := do
  match v with
  | .text text => if t.isCharPointer then return .integer (← allocateText text) else return v
  | .type array =>
    modify fun s => { s with catalog := s.catalog.internDecay array }
    return .type array.decay
  | _ => return v

/-- Stores a value converted to a type at an address. -/
def storeValue (address : Nat) (t : Ty) (v : Literal) : Run Unit := do
  let stored ← storedValue t v
  setMemory (← lift ((← memory).store (← catalog) address t stored))

/-- Stores an operand in storage of a type. Of arrays only those of `char` take a value as a
whole, a text. -/
def assignTo (address : Nat) (target : Ty) (source : Operand) : Run Unit := do
  match target.arrayShape? with
  | some (_, count) =>
    if target.isCharArray then copyText address count (← readText source)
    else throw (.typeMismatch "an element of the array" target.name)
  | none =>
    let (v, t) ← read source
    checkCompatible target t
    storeValue address target v

/-- Stores the top operand in the one below it, which stays. -/
def assign : Run Unit := do
  let source ← pop
  let target ← pop
  match ← storage? target with
  | none => throw .assignmentToTemporary
  | some (address, t) =>
    assignTo address t source
    push target

end Run

end ByteMachine
