import ByteMachine.Storage.Memory
import ByteMachine.Symbols.Placement
import ByteMachine.Symbols.Region
import ByteMachine.Symbols.Variable

/-!
# The symbol table

The table holds the registered variables in the order of their declaration, the names at each
address, the addresses that owners occupy, and what the choice of addresses and of numbered
names depends on. Several variables may be at one address, an owner and its aliases; a look-up
by address tells them apart by type and prefers the owner.

Key definitions: `Symbols`, `Symbols.get?`, `Symbols.startingAt`, `Symbols.allocate`, `Symbols.insert`,
`Symbols.remove`, `Symbols.findTyped?`, `Symbols.spanning?`, `Symbols.heapBlockAt`,
`Symbols.isBound`, `Symbols.collect`, `Symbols.switchOrder`.
-/

namespace ByteMachine

/-- The names registered at each address. -/
structure AddressIndex where
  entries : List (Nat × List Identifier)
deriving DecidableEq, Repr, Inhabited

namespace AddressIndex

def empty : AddressIndex := ⟨[]⟩

/-- The names at an address, in the order of their registration. -/
def get (ix : AddressIndex) (address : Nat) : List Identifier :=
  (ix.entries.lookup address).getD []

/-- The entries with a name added at an address. -/
def addTo (address : Nat) (id : Identifier) :
    List (Nat × List Identifier) → List (Nat × List Identifier)
  | [] => [(address, [id])]
  | e :: es => if e.1 = address then (e.1, e.2 ++ [id]) :: es else e :: addTo address id es

def insert (ix : AddressIndex) (address : Nat) (id : Identifier) : AddressIndex :=
  ⟨addTo address id ix.entries⟩

/-- The index without a name at an address, and without the address if no name is left. -/
def remove (ix : AddressIndex) (address : Nat) (id : Identifier) : AddressIndex :=
  ⟨ix.entries.filterMap fun e =>
    if e.1 = address then
      let left := e.2.filter fun other => other != id
      if left.isEmpty then none else some (e.1, left)
    else some e⟩

end AddressIndex

/-- The registered variables and the state of allocation. -/
structure Symbols where
  entries : List Variable
  index : AddressIndex
  occupied : Region
  placement : Placement
  stream : SplitMix
  seed : UInt64
  capacity : Nat
  word : Nat
  heapSerial : Nat
  temporarySerial : Nat
deriving DecidableEq, Repr, Inhabited

namespace Symbols

/-- A table without variables, for addresses below `capacity`. -/
def empty (capacity word : Nat) (placement : Placement) (seed : UInt64) : Symbols :=
  { entries := [], index := .empty, occupied := .empty, placement := placement,
    stream := .ofSeed seed, seed := seed, capacity := capacity, word := word, heapSerial := 0,
    temporarySerial := 0 }

/-- The table without its variables, the stream and the serial numbers from their start. -/
def clear (s : Symbols) : Symbols := empty s.capacity s.word s.placement s.seed

def size (s : Symbols) : Nat := s.entries.length

def get? (s : Symbols) (id : Identifier) : Option Variable :=
  s.entries.find? fun v => v.id = id

/-- The variable with the given written name. -/
def named? (s : Symbols) (name : String) : Option Variable :=
  s.entries.find? fun v => v.id.text = name

def contains (s : Symbols) (id : Identifier) : Bool := s.entries.any fun v => v.id = id

def isOccupied (s : Symbols) (address : Nat) : Bool := s.occupied.contains address

/-- A name for a heap block that was not given out before, and the table that knows it. -/
def nextHeap (s : Symbols) : Identifier × Symbols :=
  (.heap (s.heapSerial + 1), { s with heapSerial := s.heapSerial + 1 })

/-- A name for a temporary that was not given out before, and the table that knows it. -/
def nextTemporary (s : Symbols) : Identifier × Symbols :=
  (.temporary (s.temporarySerial + 1), { s with temporarySerial := s.temporarySerial + 1 })

/-- Whether `size` bytes at an address are free: no variable is registered there and no byte is
occupied. -/
def isFree (s : Symbols) (size address : Nat) : Bool :=
  (s.index.get address).isEmpty && !s.occupied.meets address (address + size)

/-- An address for `size` bytes, and the table with the stream behind the draws it took. -/
def allocate (s : Symbols) (size : Nat) : Except Fault (Nat × Symbols) :=
  match s.placement.slot? (s.isFree size) s.stream size s.capacity s.word with
  | some (address, stream) => .ok (address, { s with stream := stream })
  | none => .error (.memoryExhausted size)

/-- The table with one more variable. -/
def insert (s : Symbols) (v : Variable) : Except Fault Symbols :=
  if s.contains v.id then .error (.duplicateVariable v.id.text)
  else if v.isTemporary then .error (.registeredTemporary v.id.text)
  else .ok { s with
    entries := s.entries ++ [v]
    index := s.index.insert v.address v.id
    occupied := if v.isAlias then s.occupied else s.occupied.insert v.address v.stop }

/-- The table without a variable. Its bytes stay as they are. -/
def remove (s : Symbols) (id : Identifier) : Symbols :=
  match s.get? id with
  | none => s
  | some v => { s with
      entries := s.entries.filter fun other => other.id != id
      index := s.index.remove v.address id
      occupied := if v.isAlias then s.occupied else s.occupied.erase v.address v.stop }

/-- The variables at exactly an address. -/
def startingAt (s : Symbols) (address : Nat) : List Variable :=
  (s.index.get address).filterMap s.get?

/-- The variable at an address whose type, seen through references, is the given one: an owner
if there is one, else the first alias. -/
def findTyped? (s : Symbols) (address : Nat) (type : Ty) : Option Variable :=
  let matching := (s.startingAt address).filter fun v => v.type.strip = type.strip
  (matching.find? fun v => !v.isAlias) <|> matching.head?

/-- The owner whose bytes include `length` bytes from `address` on. -/
def spanning? (s : Symbols) (address length : Nat) : Option Variable :=
  s.entries.find? fun v => !v.isAlias && v.spans address length

/-- The heap block that starts at an address. -/
def heapBlockAt (s : Symbols) (address : Nat) : Except Fault Identifier :=
  match (s.startingAt address).find? fun v => v.id.isHeap with
  | some v => .ok v.id
  | none => .error (.notHeapAddress address)

/-- The table with the types of its variables changed. -/
def retype (f : Ty → Ty) (s : Symbols) : Symbols :=
  { s with entries := s.entries.map fun v => v.retype f }

@[simp] theorem retype_id (s : Symbols) : s.retype (fun t => t) = s := by simp [retype]

/-- Whether the target of an alias is still there and covers it. Every other variable is bound. -/
def isBound (s : Symbols) (v : Variable) : Bool :=
  match v.role with
  | .reference target => (s.get? target).any fun t => !t.isAlias && t.spans v.address v.size
  | _ => true

/-- The aliases whose target has gone. -/
def dangling (s : Symbols) : List Identifier :=
  (s.entries.filter fun v => !s.isBound v).map Variable.id

/-- The table without the aliases whose target has gone. -/
def collect (s : Symbols) : Symbols := s.dangling.foldl remove s

/-- The runs of bytes that are one number each in an owner: the elements of an array, else the
whole. Single bytes have no order and are left out. -/
def units (c : Catalog) (v : Variable) : List (Nat × Nat) :=
  let (unit, count) :=
    match v.type with
    | .array e n => (c.size e, n)
    | _ => (v.size, 1)
  if unit < 2 then [] else (List.range count).map fun i => (v.address + i * unit, unit)

/-- Turns each run of bytes around. Up to the first run outside of memory the work is done. -/
def reverseAll : List (Nat × Nat) → Memory → Except Fault Unit × Memory
  | [], m => (.ok (), m)
  | (address, length) :: rest, m =>
    match m.reverse address length with
    | .ok turned => reverseAll rest turned
    | .error fault => (.error fault, m)

/-- Turns around the numbers of every owner and then the byte order of the memory, so that each
reads as before. -/
def switchOrder (s : Symbols) (c : Catalog) (m : Memory) : Except Fault Unit × Memory :=
  match reverseAll ((s.entries.filter fun v => !v.isAlias).flatMap (units c)) m with
  | (.ok (), turned) => (.ok (), { turned with order := turned.order.flip })
  | (.error fault, turned) => (.error fault, turned)

end Symbols

end ByteMachine
