import ByteMachine.Console
import ByteMachine.Storage.Rendering
import ByteMachine.Symbols.Table

/-!
# The state a statement runs on

While a statement runs, its code works on the catalog, the memory, the symbols, the console and
a stack of operands. An operand is a computed value or leads to stored bytes: a registered
variable, or a place inside of one. Stored operands are read from memory whenever their value is
asked for, so two operands for the same bytes always agree.

`Run` is the kind of computation the instructions are: it may fail, and what was done before the
failure stays in the state. Undoing it is the business of whoever runs the whole statement.

Key definitions: `Operand`, `Core`, `Run`, `Run.typeOf`, `Run.storage?`, `Run.ownerOf?`,
`Run.read`, `Run.readInteger`, `Run.readFloat`, `Run.readText`, `Run.resolve`.
-/

namespace ByteMachine

open Number

/-- An entry of the operand stack. -/
inductive Operand where
  | value (v : Literal) (type : Ty)
  | named (id : Identifier)
  /-- Bytes inside the variable `owner`. -/
  | place (address : Nat) (type : Ty) (owner : Identifier)
deriving DecidableEq, Repr, Inhabited

/-- What a running statement works on. The top of the stack comes first. -/
structure Core where
  catalog : Catalog
  memory : Memory
  symbols : Symbols
  console : Console
  stack : List Operand
deriving DecidableEq, Repr, Inhabited

/-- A computation on the core that may fail. -/
abbrev Run := ExceptT Fault (StateM Core)

namespace Run

/-- The result, or the failure, of something that needs no state. -/
def lift {α : Type} : Except Fault α → Run α
  | .ok a => pure a
  | .error fault => throw fault

def catalog : Run Catalog := do return (← get).catalog

def memory : Run Memory := do return (← get).memory

def symbols : Run Symbols := do return (← get).symbols

def word : Run Nat := do return (← get).catalog.word

def setMemory (m : Memory) : Run Unit := modify fun s => { s with memory := m }

def setSymbols (t : Symbols) : Run Unit := modify fun s => { s with symbols := t }

def intern (t : Ty) : Run Unit := modify fun s => { s with catalog := s.catalog.intern t }

/-- A type that was built, added to the catalog. -/
def built : Except TypeFault Ty → Run Ty
  | .ok t => do
    intern t
    return t
  | .error cause => throw (.badType cause)

def pointerTo (t : Ty) : Run Ty := built t.pointerTo

def arrayOf (element : Ty) (count : Nat) : Run Ty := do
  built (Ty.arrayOf (← word) element count)

/-- Whether two types are compatible. The pointers that arrays decay to for it are met. -/
def areCompatible (a b : Ty) : Run Bool := do
  modify fun s => { s with catalog := s.catalog.internCompared a b }
  return a.compatible b

def checkCompatible (expected found : Ty) : Run Unit := do
  if !(← areCompatible expected found) then throw (.typeMismatch expected.name found.name)

def push (o : Operand) : Run Unit := modify fun s => { s with stack := o :: s.stack }

def pushValue (v : Literal) (t : Ty) : Run Unit := push (.value v t)

/-- Takes the top operand from the stack. -/
def pop : Run Operand := do
  match (← get).stack with
  | o :: rest =>
    modify fun s => { s with stack := rest }
    return o
  | [] => throw .missingOperand

/-- The registered variable of a name. -/
def lookup (id : Identifier) : Run Variable := do
  match (← symbols).get? id with
  | some v => return v
  | none => throw (.unknownVariable id.text)

/-- The type a value has in a statement. -/
def naturalType : Literal → Run Ty
  | .integer n => do return Ty.ofInteger (← word) n
  | .char _ => return Ty.char
  | .float _ => return Ty.double
  | .text _ => pointerTo Ty.char
  | .type _ => return Ty.descriptor

/-- The declared type of an operand. -/
def typeOf : Operand → Run Ty
  | .value _ t => return t
  | .place _ t _ => return t
  | .named id => do return (← lookup id).type

/-- The address and the type behind references of a stored operand. -/
def storage? : Operand → Run (Option (Nat × Ty))
  | .value _ _ => return none
  | .place address t _ => return some (address, t.strip)
  | .named id => do
    let v ← lookup id
    return some (v.address, v.type.strip)

/-- The variable that owns the bytes of a stored operand: for an alias its target. -/
def ownerOf? : Operand → Run (Option Identifier)
  | .value _ _ => return none
  | .place _ _ owner => return some owner
  | .named id => do
    match (← lookup id).role with
    | .reference target => return some target
    | _ => return some id

/-- The value and the type of stored bytes. An array reads as a pointer to its first element. -/
def readStorage (address : Nat) (t : Ty) : Run (Literal × Ty) := do
  if t.isArray then
    modify fun s => { s with catalog := s.catalog.internDecay t }
    return (.integer address, t.decay)
  else return (← lift ((← memory).load (← catalog) address t), t)

/-- The value and the type of an operand. -/
def read (o : Operand) : Run (Literal × Ty) := do
  match o with
  | .value v t => return (v, t)
  | .place address t _ => readStorage address t.strip
  | .named id =>
    let v ← lookup id
    readStorage v.address v.type.strip

/-- The value of an operand that has to be an integer or an address. -/
def readInteger (o : Operand) : Run Int := do
  let (v, t) ← read o
  if t.isFloat || !(t.isArithmetic || t.isPointer) then throw (.typeMismatch "an integer" t.name)
  else
    match v.toInteger? with
    | some n => return n
    | none => throw (.typeMismatch "an integer" (v.listing (← catalog)))

/-- The value of an operand that has to be a number, as a float. -/
def readFloat (o : Operand) : Run Binary64 := do
  let (v, t) ← read o
  match v.toFloat? with
  | some x => if t.isArithmetic then return x else throw (.typeMismatch "a number" t.name)
  | none => throw (.typeMismatch "a number" t.name)

/-- The text at the address that an operand of type `char*` holds. -/
def followText (o : Operand) : Run String := do
  let t ← typeOf o
  if !t.isCharPointer then throw (.typeMismatch Ty.charPointer.name t.name)
  else
    let (pointer, _) ← read o
    match pointer.toAddress? with
    | some address => lift ((← memory).loadText address)
    | none => throw (.invalidAddress 0 1)

/-- The text behind an operand that is no text itself: a `char` array or a `char*`. -/
def readStoredText (o : Operand) : Run String := do
  match ← storage? o with
  | some (address, t) =>
    if t.isCharArray then
      match ← lift ((← memory).present (← catalog) address t) with
      | .text text => return text
      | _ => throw (.typeMismatch Ty.charPointer.name t.name)
    else followText o
  | none => followText o

/-- The text that an operand is or leads to. -/
def readText (o : Operand) : Run String := do
  match o with
  | .value (.text text) _ => return text
  | _ => readStoredText o

/-- The storage of the given type at an address: a registered variable of exactly this type,
else a place inside the variable that covers it. -/
def resolve (address : Nat) (t : Ty) : Run Operand := do
  let length := (← catalog).size t
  if address = 0 then throw (.invalidAddress address length)
  else
    let table ← symbols
    match table.findTyped? address t with
    | some v => return .named v.id
    | none =>
      match table.spanning? address (max length 1) with
      | some owner => return .place address t owner.id
      | none => throw (.invalidAddress address length)

/-- Storage for a new variable, which is registered as its owner. -/
def allocate (id : Identifier) (t : Ty) : Run Nat := do
  let c ← catalog
  let (address, table) ← lift ((← symbols).allocate (c.size t))
  setSymbols (← lift (table.insert (Variable.owner c id t address)))
  return address

/-- Storage for a new heap block. -/
def allocateHeap (t : Ty) : Run Nat := do
  let (id, table) := (← symbols).nextHeap
  setSymbols table
  allocate id t

end Run

end ByteMachine
