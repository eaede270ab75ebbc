/-!
# Scalar types

The built-in types that hold one number, with their sizes for a given word size, and `any`,
which holds nothing and stands for every type in parameter lists and behind pointers.

Key definitions: `Scalar`, `Scalar.all`, `Scalar.name`, `Scalar.size`, `Scalar.isSigned`.
-/

namespace ByteMachine

/-- The built-in scalar types. -/
inductive Scalar where
  | any
  | char
  | int8
  | uint8
  | int16
  | uint16
  | int32
  | uint32
  | int64
  | uint64
  | short
  | ushort
  | int
  | uint
  | long
  | ulong
  | float
  | double
deriving DecidableEq, Repr, Inhabited

namespace Scalar

/-- Every scalar type, in the order of their indices. -/
def all : List Scalar :=
  [any, char, int8, uint8, int16, uint16, int32, uint32, int64, uint64, short, ushort, int, uint,
    long, ulong, float, double]

/-- The position in `all`, which a type tag stores in its low five bits. -/
def index : Scalar → Nat
  | any => 0
  | char => 1
  | int8 => 2
  | uint8 => 3
  | int16 => 4
  | uint16 => 5
  | int32 => 6
  | uint32 => 7
  | int64 => 8
  | uint64 => 9
  | short => 10
  | ushort => 11
  | int => 12
  | uint => 13
  | long => 14
  | ulong => 15
  | float => 16
  | double => 17

def ofIndex? (n : Nat) : Option Scalar := all[n]?

theorem ofIndex?_index (s : Scalar) : ofIndex? s.index = some s := by cases s <;> rfl

/-- The keyword of a scalar type. -/
def name : Scalar → String
  | any => "any"
  | char => "char"
  | int8 => "int8_t"
  | uint8 => "uint8_t"
  | int16 => "int16_t"
  | uint16 => "uint16_t"
  | int32 => "int32_t"
  | uint32 => "uint32_t"
  | int64 => "int64_t"
  | uint64 => "uint64_t"
  | short => "short"
  | ushort => "ushort"
  | int => "int"
  | uint => "uint"
  | long => "long"
  | ulong => "ulong"
  | float => "float"
  | double => "double"

/-- The size in bytes on a machine with words of `word` bytes. -/
def size (word : Nat) : Scalar → Nat
  | any => 0
  | char | int8 | uint8 => 1
  | int16 | uint16 => 2
  | int32 | uint32 => 4
  | int64 | uint64 => 8
  | short | ushort => word / 2
  | int | uint | float => word
  | long | ulong | double => word * 2

def isFloat : Scalar → Bool
  | float | double => true
  | _ => false

def isSigned : Scalar → Bool
  | char | int8 | int16 | int32 | int64 | short | int | long => true
  | _ => false

/-- Every scalar type but `any` takes part in arithmetic. -/
def isArithmetic (s : Scalar) : Bool := s != any

end Scalar

end ByteMachine
