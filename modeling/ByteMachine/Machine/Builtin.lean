import ByteMachine.Machine.Access

/-!
# Built-in functions

The functions a statement can call: memory from the heap and its release, questions about types,
printing and input, a little mathematics, and a cast for each arithmetic type. Number and types
of the arguments are checked before the body runs. A function that has a result leaves it on the
stack.

Key definitions: `Builtin`, `Builtin.all`, `Builtin.parameters`, `Builtin.ofName?`,
`Builtin.signature`, `Run.call`.
-/

namespace ByteMachine

open Number

/-- A built-in function. -/
inductive Builtin where
  | malloc
  | free
  | delete
  | newObject
  | newArray
  | sizeof
  | typeof
  | print
  | input
  | strlen
  | abs
  | sqrt
  | pow
  | cast (target : Scalar)
deriving DecidableEq, Repr, Inhabited

namespace Builtin

def name : Builtin → String
  | malloc => "malloc"
  | free => "free"
  | delete => "delete"
  | newObject => "new"
  | newArray => "new[]"
  | sizeof => "sizeof"
  | typeof => "typeof"
  | print => "print"
  | input => "input"
  | strlen => "strlen"
  | abs => "abs"
  | sqrt => "sqrt"
  | pow => "pow"
  | cast target => target.name

/-- The names and types of the parameters. -/
def parameters : Builtin → List (String × Ty)
  | malloc => [("size", Ty.uint)]
  | free | delete => [("ptr", Ty.anyPointer)]
  | newObject => [("type", Ty.descriptor)]
  | newArray => [("type", Ty.descriptor), ("count", Ty.uint)]
  | sizeof | typeof | print | abs | cast _ => [("value", Ty.any)]
  | input => [("prompt", Ty.charPointer)]
  | strlen => [("text", Ty.charPointer)]
  | sqrt => [("x", Ty.double)]
  | pow => [("x", Ty.double), ("y", Ty.double)]

/-- Every built-in function. -/
def all : List Builtin :=
  [malloc, free, delete, newObject, newArray, sizeof, typeof, print, input, strlen, abs, sqrt,
    pow] ++ (Scalar.all.filter Scalar.isArithmetic).map cast

/-- Every built-in function, in alphabetical order. -/
def sorted : List Builtin := all.mergeSort fun f g => f.name ≤ g.name

def ofName? (name : String) : Option Builtin := all.find? fun f => f.name = name

/-- A function with its parameters, as help shows it. -/
def signature (f : Builtin) : String :=
  f.name ++ "(" ++
    String.intercalate ", " (f.parameters.map fun p => p.2.name ++ " " ++ p.1) ++ ")"

/-- Whether the function leaves a result. -/
def hasResult : Builtin → Bool
  | free | delete | print => false
  | _ => true

end Builtin

namespace Run

/-- An integer as a count of at least one. -/
def positiveCount? (n : Int) : Option Nat := (toAddress? n).filter fun count => 0 < count

def malloc (size : Operand) : Run Unit := do
  let n ← readInteger size
  match positiveCount? n with
  | none => throw (.blockSizeNotPositive n)
  | some count =>
    let address ← allocateHeap (← arrayOf Ty.char count)
    pushValue (.integer address) (← pointerTo Ty.any)

/-- Releases the heap block at an address. Null is no block and needs no release. -/
def release (pointer : Operand) : Run Unit := do
  let (v, _) ← read pointer
  match v.toAddress? with
  | none => throw (.notHeapAddress 0)
  | some address =>
    if address = 0 then return ()
    else
      let table ← symbols
      let block ← lift (table.heapBlockAt address)
      setSymbols (table.remove block)

/-- The type an argument of type `type_t` stands for. -/
def typeArgument (o : Operand) : Run Ty := do
  let (v, _) ← read o
  match v with
  | .type t =>
    if (← catalog).size t = 0 || t.isReference then throw (.typeMismatch "a type with a size" t.name)
    else return t
  | _ => throw (.typeMismatch "a type" (v.listing (← catalog)))

def newObject (type : Operand) : Run Unit := do
  let t ← typeArgument type
  let address ← allocateHeap t
  pushValue (.integer address) (← pointerTo t)

def newArray (type count : Operand) : Run Unit := do
  let element ← typeArgument type
  let n ← readInteger count
  match positiveCount? n with
  | none => throw (.arrayLengthNotPositive n)
  | some count =>
    let address ← allocateHeap (← arrayOf element count)
    pushValue (.integer address) (← pointerTo element)

/-- The type an operand is about: a type stands for itself, all else for its own type. -/
def reflectedType (o : Operand) : Run Ty := do
  match o with
  | .value (.type t) _ => return t
  | _ => return (← typeOf o).strip

def sizeof (o : Operand) : Run Unit := do
  let t ← reflectedType o
  pushValue (.integer ((← catalog).size t)) Ty.uint

def typeof (o : Operand) : Run Unit := do
  pushValue (.type (← reflectedType o)) Ty.descriptor

/-- The value of an operand as it is printed: a character stands for itself. -/
def printedValue (o : Operand) : Run String := do
  let (v, t) ← read o
  match v with
  | .char b => return String.singleton (Text.byteChar b)
  | _ => return v.render t

/-- What is printed for an operand. Text is printed without quotes, if it can be read. -/
def printable (o : Operand) : Run String := do
  let t := (← typeOf o).strip
  if t.isCharPointer || t.isCharArray then
    try readText o catch _ => printedValue o
  else printedValue o

def print (o : Operand) : Run Unit := do
  let text ← printable o
  modify fun s => { s with console := s.console.write (text ++ "\n") }

/-- The next line of the console. -/
def readLine (prompt : String) : Run String := do
  let (line, console) := (← get).console.readLine prompt
  modify fun s => { s with console := console }
  match line with
  | some line => return line
  | none => throw .inputClosed

def input (prompt : Operand) : Run Unit := do
  let line ← readLine (← readText prompt)
  let address ← allocateText line
  pushValue (.integer address) (← pointerTo Ty.char)

def strlen (o : Operand) : Run Unit := do
  let bytes ← lift (textBytes (← readText o))
  pushValue (.integer bytes.length) Ty.uint

def abs (o : Operand) : Run Unit := do
  let (v, t) ← read o
  match Arithmetic.scalar? t with
  | none => throw (.typeMismatch "a number" t.name)
  | some s =>
    match v with
    | .float x => pushValue (.float x.abs) t
    | _ =>
      match v.toInteger? with
      | some n => pushValue (.integer (wrap (absWide n) (s.size (← word)) s.isSigned)) t
      | none => throw (.typeMismatch "a number" "text")

def sqrt (o : Operand) : Run Unit := do
  pushValue (.float (← readFloat o).sqrt) Ty.double

def pow (base exponent : Operand) : Run Unit := do
  let x ← readFloat base
  let y ← readFloat exponent
  pushValue (.float (x.pow y)) Ty.double

/-- A value converted to a scalar type of the given size: an integer wraps to the width, a float
of four bytes is rounded to single precision. -/
def converted? (target : Scalar) (width : Nat) (v : Literal) : Option Literal :=
  if target.isFloat then
    v.toFloat?.map fun x => .float (if width = 4 then x.roundToSingle else x)
  else
    v.toInteger?.map fun n =>
      let wrapped := wrap n width target.isSigned
      if target = .char then .char (UInt8.ofNat (wrapped % 256).toNat) else .integer wrapped

def cast (target : Scalar) (o : Operand) : Run Unit := do
  let (v, t) ← read o
  if !(t.isArithmetic || t.isPointer) then throw (.typeMismatch "a number or pointer" t.name)
  else
    match converted? target (target.size (← word)) v with
    | some converted => pushValue converted (.scalar target)
    | none => throw (.typeMismatch "a number or pointer" (v.listing (← catalog)))

/-- Runs the body of a function on its arguments, which are as many as its parameters. -/
def invoke (f : Builtin) (arguments : List Operand) : Run Unit :=
  match f, arguments with
  | .malloc, [size] => malloc size
  | .free, [pointer] => release pointer
  | .delete, [pointer] => release pointer
  | .newObject, [type] => newObject type
  | .newArray, [type, count] => newArray type count
  | .sizeof, [o] => sizeof o
  | .typeof, [o] => typeof o
  | .print, [o] => print o
  | .input, [prompt] => input prompt
  | .strlen, [o] => strlen o
  | .abs, [o] => abs o
  | .sqrt, [o] => sqrt o
  | .pow, [base, exponent] => pow base exponent
  | .cast target, [o] => cast target o
  | _, _ => throw (.parameterCount f.name f.parameters.length arguments.length)

/-- Checks the arguments from `position` on against the parameters. -/
def checkArguments (function : String) :
    Nat → List (String × Ty) → List Operand → Run Unit
  | position, p :: ps, o :: os => do
    let found ← typeOf o
    if !(← areCompatible p.2 found) then
      throw (.parameterType function position p.2.name found.name)
    else checkArguments function (position + 1) ps os
  | _, _, _ => return ()

/-- Calls a function on the `count` operands on top of the stack. -/
def call (function : String) (count : Nat) : Run Unit := do
  let stack := (← get).stack
  if stack.length < count then throw (.missingArguments function)
  else
    let arguments := (stack.take count).reverse
    modify fun s => { s with stack := stack.drop count }
    match Builtin.ofName? function with
    | none => throw (.unknownFunction function)
    | some f =>
      if arguments.length != f.parameters.length then
        throw (.parameterCount function f.parameters.length arguments.length)
      else
        checkArguments function 1 f.parameters arguments
        invoke f arguments

end Run

end ByteMachine
