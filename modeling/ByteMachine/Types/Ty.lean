import ByteMachine.Types.Scalar
import ByteMachine.Number.Integers

/-!
# Types

A type is a scalar, a pointer, a reference, an array or `type_t`, whose values are types. The
smart constructors `pointerTo`, `referenceTo` and `arrayOf` build only well-formed types: at
most three levels of pointers, no reference to a reference, no pointer to a reference, and
arrays of a positive number of elements that are neither arrays nor references nor `any`.

References count as their target and arrays as a pointer to their first element wherever a
value is read; `strip` and `decay` are these two views. `compatible` is the one rule by which
operands, assignments and arguments are checked.

Key definitions: `Ty`, `Ty.name`, `Ty.size`, `Ty.pointerTo`, `Ty.referenceTo`, `Ty.arrayOf`,
`Ty.strip`, `Ty.decay`, `Ty.compatible`, `TypeFault`.
-/

namespace ByteMachine

/-- The type of a variable or a value. -/
inductive Ty where
  | scalar (s : Scalar)
  /-- The type `type_t` of types. -/
  | descriptor
  | pointer (target : Ty)
  | reference (target : Ty)
  | array (element : Ty) (count : Nat)
deriving DecidableEq, Repr, Inhabited

/-- Why a type cannot be built. -/
inductive TypeFault where
  | tooManyStars (target : String)
  | referenceToReference (target : String)
  | compoundElement (element : String)
  | unsizedElement
  | emptyArray
  | tooLarge
deriving DecidableEq, Repr

namespace Ty

/-- The deepest pointer that a type may be. -/
def maxStars : Nat := 3

/-- How a type is written. -/
def name : Ty → String
  | scalar s => s.name
  | descriptor => "type_t"
  | pointer t => t.name ++ "*"
  | reference t => t.name ++ "&"
  | array e n => e.name ++ "[" ++ toString n ++ "]"

/-- The size in bytes on a machine with words of `word` bytes. -/
def size (word : Nat) : Ty → Nat
  | scalar s => s.size word
  | descriptor => 1
  | pointer _ => word
  | reference _ => word
  | array e n => e.size word * n

/-- The number of stars at the end of a type. -/
def stars : Ty → Nat
  | pointer t => t.stars + 1
  | _ => 0

/-- The type without the stars at its end. -/
def base : Ty → Ty
  | pointer t => t.base
  | t => t

/-- A type behind `n` more stars. -/
def starred (t : Ty) : Nat → Ty
  | 0 => t
  | n + 1 => pointer (t.starred n)

/-- The type that a keyword names. -/
def ofKeyword? (keyword : String) : Option Ty :=
  if keyword = "type_t" then some descriptor
  else (Scalar.all.find? fun s => s.name = keyword).map scalar

/-- The keywords that name a type, in alphabetical order. -/
def keywords : List String :=
  ("type_t" :: Scalar.all.map Scalar.name).mergeSort

def isKeyword (name : String) : Bool := (ofKeyword? name).isSome

/-- The type of pointers to a type; a pointer to a reference points to its target. -/
def pointerTo : Ty → Except TypeFault Ty
  | reference t => pointerTo t
  | t => if maxStars < t.stars + 1 then .error (.tooManyStars t.name) else .ok (pointer t)

/-- The type of references to a type. -/
def referenceTo : Ty → Except TypeFault Ty
  | reference t => .error (.referenceToReference (reference t).name)
  | t => .ok (reference t)

/-- The type of arrays of `count` elements, whose size is an address on the machine. -/
def arrayOf (word : Nat) (element : Ty) (count : Nat) : Except TypeFault Ty :=
  match element with
  | reference _ | array _ _ => .error (.compoundElement element.name)
  | scalar .any => .error .unsizedElement
  | _ =>
    if count = 0 then .error .emptyArray
    else if Number.addressBound ≤ element.size word * count then .error .tooLarge
    else .ok (array element count)

/-- The type without a reference around it. -/
def strip : Ty → Ty
  | reference t => t
  | t => t

/-- What one level of dereference gives, if the type is a pointer. -/
def pointee? (t : Ty) : Option Ty :=
  match t.strip with
  | pointer target => some target
  | _ => none

/-- The element type and the count of an array. -/
def arrayShape? (t : Ty) : Option (Ty × Nat) :=
  match t.strip with
  | array e n => some (e, n)
  | _ => none

/-- The type of a value read from a place of this type: references read as their target and
arrays as a pointer to their element, if there is a type for it. -/
def decay (t : Ty) : Ty :=
  match t.strip with
  | array e n => (pointerTo e).toOption.getD (array e n)
  | t => t

def scalar? (t : Ty) : Option Scalar :=
  match t.strip with
  | scalar s => some s
  | _ => none

def isPointer (t : Ty) : Bool :=
  match t.strip with
  | pointer _ => true
  | _ => false

def isArray (t : Ty) : Bool := t.arrayShape?.isSome

def isReference : Ty → Bool
  | reference _ => true
  | _ => false

def isAny (t : Ty) : Bool := t.scalar? == some .any

def isArithmetic (t : Ty) : Bool := t.scalar?.any Scalar.isArithmetic

def isFloat (t : Ty) : Bool := t.scalar?.any Scalar.isFloat

/-- The pointers to `any`, of any depth. -/
def isPointerToAny (t : Ty) : Bool := t.isPointer && t.strip.base.isAny

/-- The type `char*`, whose values read back as text. -/
def isCharPointer (t : Ty) : Bool :=
  match t.strip with
  | pointer target => target.scalar? == some .char
  | _ => false

def isCharArray (t : Ty) : Bool :=
  match t.strip with
  | array e _ => e.scalar? == some .char
  | _ => false

/-- Whether values of the two types may meet in an operator, an assignment or a call. -/
def compatible (a b : Ty) : Bool :=
  let a := a.decay
  let b := b.decay
  a.isAny || b.isAny || a.isPointerToAny || b.isPointerToAny || a == b ||
    ((a.isPointer || a.isArithmetic) && (b.isPointer || b.isArithmetic))

/-- The type of an integer in source: `int` if it fits there, else `long`. -/
def ofInteger (word : Nat) (value : Int) : Ty :=
  let bound : Int := Number.twoPow (8 * word - 1)
  if -bound ≤ value && value < bound then scalar .int else scalar .long

def int : Ty := scalar .int

def uint : Ty := scalar .uint

def char : Ty := scalar .char

def double : Ty := scalar .double

def any : Ty := scalar .any

def charPointer : Ty := pointer (scalar .char)

def anyPointer : Ty := pointer (scalar .any)

end Ty

end ByteMachine
