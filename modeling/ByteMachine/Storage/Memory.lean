import ByteMachine.Literal
import ByteMachine.Storage.ByteOrder
import ByteMachine.Storage.TypeTag

/-!
# Memory

Memory is a list of bytes of fixed length and the byte order its numbers are written in. Every
access is checked against the length. `load` and `store` move a value of a scalar type; text is
a run of bytes that a zero byte ends. Nothing is kept beside the bytes, so what memory holds is
what a variable reads.

Key definitions: `Memory`, `Memory.restore`, `Memory.read`, `Memory.write`, `Memory.load`,
`Memory.store`, `Memory.loadText`, `Memory.present`, `latinBytes`.
-/

namespace ByteMachine

open Number

/-- The bytes of a text, one to a character. Characters above U+00FF have none. -/
def latinBytes : List Char → Except Fault (List UInt8)
  | [] => .ok []
  | c :: cs =>
    if c.toNat < 256 then (latinBytes cs).map (UInt8.ofNat c.toNat :: ·)
    else .error (.notLatin c)

def textBytes (text : String) : Except Fault (List UInt8) := latinBytes text.toList

/-- A memory of fixed size. -/
structure Memory where
  bytes : List UInt8
  order : ByteOrder
deriving DecidableEq, Repr, Inhabited

namespace Memory

/-- The sizes a memory may have: multiples of 16 above 16. -/
def isSize (size : Nat) : Bool := 16 < size && size % 16 = 0

/-- A memory of zero bytes. -/
def zeroed (size : Nat) (order : ByteOrder) : Memory := ⟨List.replicate size 0, order⟩

def size (m : Memory) : Nat := m.bytes.length

/-- The memory with every byte zero. -/
def clear (m : Memory) : Memory := { m with bytes := List.replicate m.size 0 }

/-- The memory with all of its bytes replaced by as many others. -/
def restore (m : Memory) (bytes : List UInt8) : Except Fault Memory :=
  if bytes.length = m.size then .ok { m with bytes := bytes }
  else .error (.invalidMemorySize bytes.length)

/-- The bytes from `address` on. -/
def read (m : Memory) (address length : Nat) : Except Fault (List UInt8) :=
  if address + length ≤ m.size then .ok ((m.bytes.drop address).take length)
  else .error (.invalidAddress address length)

/-- The memory with the bytes from `address` on replaced. -/
def write (m : Memory) (address : Nat) (bytes : List UInt8) : Except Fault Memory :=
  if address + bytes.length ≤ m.size then
    .ok { m with
      bytes := m.bytes.take address ++ bytes ++ m.bytes.drop (address + bytes.length) }
  else .error (.invalidAddress address bytes.length)

/-- The memory with a run of bytes turned around. -/
def reverse (m : Memory) (address length : Nat) : Except Fault Memory := do
  m.write address (← m.read address length).reverse

/-- The value of the given type at an address. A reference type reads as its target; an array
and `any` have no value. -/
def load (m : Memory) (c : Catalog) (address : Nat) : Ty → Except Fault Literal
  | .reference target => load m c address target
  | .array e n => .error (.typeMismatch "a scalar type" (Ty.array e n).name)
  | .descriptor => do
    match ← m.read address 1 with
    | tag :: _ => (TypeTag.resolve c tag).map .type
    | [] => .error (.invalidAddress address 1)
  | .pointer _ => do
    return .integer (← m.order.decodeInt (← m.read address c.word) false)
  | .scalar .any => .error (.typeMismatch "a scalar type" Scalar.any.name)
  | .scalar .char => do
    match ← m.read address 1 with
    | b :: _ => return .char b
    | [] => .error (.invalidAddress address 1)
  | .scalar s => do
    let bytes ← m.read address (s.size c.word)
    if s.isFloat then return .float (← m.order.decodeFloat bytes)
    else return .integer (← m.order.decodeInt bytes s.isSigned)

/-- The text at an address, up to the first zero byte. -/
def loadText (m : Memory) (address : Nat) : Except Fault String := do
  if address = 0 then .error (.invalidAddress address 1)
  else
    let tail ← m.read address (m.size - address)
    if 0 ∈ tail then .ok (Text.ofBytes (tail.takeWhile fun b => b != 0))
    else .error (.invalidAddress address (tail.length + 1))

/-- The value of the given type at an address as it is shown: a `char*` is followed to its text
unless it is null, and a `char` array is text up to its first zero byte. -/
def present (m : Memory) (c : Catalog) (address : Nat) (t : Ty) : Except Fault Literal := do
  if t.isCharPointer then
    let pointer ← m.load c address t
    match pointer.toAddress? with
    | none | some 0 => return pointer
    | some target => return .text (← m.loadText target)
  else if t.isCharArray then
    let bytes ← m.read address (t.strip.size c.word)
    return .text (Text.ofBytes (bytes.takeWhile fun b => b != 0))
  else m.load c address t

/-- The bytes of a value as the given type. Integers wrap to the width of the type; a pointer
takes the low bytes of an address. -/
def encode (o : ByteOrder) (c : Catalog) (value : Literal) : Ty → Except Fault (List UInt8)
  | .reference target => encode o c value target
  | .array e n => .error (.typeMismatch (Ty.array e n).name value.display)
  | .descriptor =>
    match value with
    | .type t => (TypeTag.encode t).map fun tag => [tag]
    | _ => .error (.typeMismatch Ty.descriptor.name value.display)
  | .pointer target =>
    match value.toInteger? with
    | some n => o.encodeInt n c.word
    | none => .error (.typeMismatch (Ty.pointer target).name value.display)
  | .scalar s =>
    if s = .any then .error (.typeMismatch s.name value.display)
    else if s.isFloat then
      match value.toFloat? with
      | some x => o.encodeFloat x (s.size c.word)
      | none => .error (.typeMismatch s.name value.display)
    else
      match value.toInteger? with
      | some n => o.encodeInt (wrap n (s.size c.word) s.isSigned) (s.size c.word)
      | none => .error (.typeMismatch s.name value.display)

/-- The memory with a value of the given type at an address. -/
def store (m : Memory) (c : Catalog) (address : Nat) (t : Ty) (value : Literal) :
    Except Fault Memory := do
  m.write address (← encode m.order c value t)

end Memory

end ByteMachine
