import ByteMachine.Config
import ByteMachine.History
import ByteMachine.Machine.Builtin
import ByteMachine.Statement.Parser

/-!
# Running statements

A machine is its settings, the core that statements work on and the history of the states it was
in. A statement is read, compiled and run on an empty operand stack. If it fails, memory and
symbols are put back to what they were; if it does not, the references whose target has gone are
collected and the new state enters the history. Types that were met and what was printed or read
stay in either case.

Key definitions: `Machine`, `Run.create`, `Run.step`, `Run.code`, `Machine.restore`,
`Machine.execute`, `Machine.runProgram`.
-/

namespace ByteMachine

namespace Run

/-- Makes a scalar variable with an initial value, if there is one. The value is read and checked
before the variable takes memory. -/
def makeScalar (id : Identifier) (t : Ty) (initial : Option Operand) : Run Unit := do
  if (← catalog).size t = 0 then throw (.typeMismatch "a type with a size" t.name)
  else
    match initial with
    | none => let _ ← allocate id t
    | some o =>
      let (v, found) ← read o
      checkCompatible t found
      let address ← allocate id t
      storeValue address t v

/-- Makes a scalar variable. -/
def createScalar (id : Identifier) (t : Ty) (initialized : Bool) : Run Unit := do
  let initial ← if initialized then some <$> pop else pure none
  makeScalar id t initial

/-- Makes a reference to stored bytes of the type it refers to. It is registered at the address
of the bytes and owns none of them. -/
def createReference (id : Identifier) (t target : Ty) : Run Unit := do
  let source ← pop
  match ← storage? source with
  | none => throw (.referenceToTemporary id.text)
  | some (address, found) =>
    if found ≠ target then throw (.typeMismatch target.name found.name)
    else
      match ← ownerOf? source with
      | none => throw (.referenceToTemporary id.text)
      | some owner =>
        let size := (← catalog).size target
        setSymbols (← lift ((← symbols).insert ⟨id, t, address, size, .reference owner⟩))

/-- Makes an array, with zeros in it if it has an initializer. -/
def createArray (id : Identifier) (t : Ty) (initialized : Bool) : Run Unit := do
  let address ← allocate id t
  if initialized then
    let zeros := List.replicate ((← catalog).size t) 0
    setMemory (← lift ((← memory).write address zeros))

/-- Makes a variable and pushes it. -/
def create (t : Ty) (id : Identifier) (initialized : Bool) : Run Unit := do
  if (← symbols).contains id then throw (.duplicateVariable id.text)
  else
    match t with
    | .reference target => createReference id t target.strip
    | .array _ _ => createArray id t initialized
    | _ => createScalar id t initialized
    push (.named id)

/-- Pushes the variable of a name. -/
def pushName (id : Identifier) : Run Unit := do
  let _ ← lookup id
  push (.named id)

/-- Runs one instruction. -/
def step : Instr → Run Unit
  | .push v => do pushValue v (← naturalType v)
  | .pushTyped v t => pushValue v t
  | .pushName id => pushName id
  | .addressOf => addressOf
  | .dereference levels => dereference levels
  | .index => index
  | .binary op => binary op
  | .assign => assign
  | .create t id initialized => create t id initialized
  | .call function count => call function count
  | .discard => do let _ ← pop

/-- Runs instructions in order. -/
def code : List Instr → Run Unit
  | [] => return ()
  | i :: is => do
    step i
    code is

/-- A temporary that holds a value. -/
def temporary (v : Literal) (t : Ty) (address : Nat) : Run Variable := do
  let (id, table) := (← symbols).nextTemporary
  setSymbols table
  return ⟨id, t, address, (← catalog).size t, .temporary v⟩

/-- The variable that the last operand of a statement is: the one it names, or a temporary with
its value. -/
def resultOf (o : Operand) : Run Variable := do
  match o with
  | .named id => lookup id
  | .place address t _ =>
    temporary (← lift ((← memory).load (← catalog) address t)) t address
  | .value v t => temporary v t 0

/-- Runs the code of a statement. At most one operand may be left, the result. -/
def statement (is : List Instr) : Run (Option Variable) := do
  code is
  match (← get).stack with
  | [] => return none
  | [_] => some <$> resultOf (← pop)
  | stack => throw (.leftOver stack.length)

end Run

/-- A machine. -/
structure Machine where
  config : Config
  core : Core
  history : History
deriving DecidableEq, Repr, Inhabited

namespace Machine

/-- The present state under a name. -/
def snapshot (m : Machine) (name : String) : Snapshot := ⟨name, m.core.memory, m.core.symbols, m.core.catalog⟩

/-- What the names in a statement are read against. -/
def scope (m : Machine) : Scope :=
  ⟨m.core.catalog.word, fun name => (m.core.symbols.named? name).isSome⟩

/-- The machine with the memory and the symbols of a snapshot, if the memory has the size of its
own. The placement stays the one that is set. -/
def restore (m : Machine) (s : Snapshot) : Except Fault Machine := do
  let memory ← m.core.memory.restore s.memory.bytes
  return { m with
    config := { m.config with order := s.memory.order }
    core := { m.core with
      memory := { memory with order := s.memory.order }
      symbols := { s.symbols with placement := m.config.placement }
      stack := [] } }

/-- The machine with the core a statement has left, the dangling references collected, and the
new state in its history. -/
def commit (m : Machine) (name : String) (core : Core) : Machine :=
  let core := { core with symbols := core.symbols.collect, stack := [] }
  let m := { m with core := core }
  { m with history := m.history.push (m.snapshot name) }

/-- The machine with the types that were met while a statement was read. -/
def meet (m : Machine) (types : List Ty) : Machine :=
  { m with core := { m.core with catalog := m.core.catalog.internAll types } }

/-- Runs code as the statement of the given name. It is done as a whole or not at all. -/
def perform (m : Machine) (name : String) (is : List Instr) :
    Except Fault (Option Variable) × Machine :=
  match (Run.statement is).run.run { m.core with stack := [] } with
  | (.ok result, core) => (.ok result, m.commit name core)
  | (.error fault, core) =>
    match { m with core := core }.restore (m.snapshot name) with
    | .ok restored => (.error fault, restored)
    | .error unrestored => (.error unrestored, { m with core := core })

/-- Runs one statement. The result is the variable it names or a temporary with the value it has
computed; a blank line and a call without a result have none. -/
def execute (m : Machine) (line : String) : Except Fault (Option Variable) × Machine :=
  let text := Statement.clean line
  match Statement.parse m.scope text with
  | (.error fault, met) => (.error (.misread fault), m.meet met)
  | (.ok none, met) => (.ok none, m.meet met)
  | (.ok (some s), met) => (m.meet met).perform text s.compile

/-- Runs the lines of a program from line number `number` on, up to the first that fails; the
failure comes with the number of its line. Blank lines are left out. -/
def runLines (m : Machine) (number : Nat) : List String →
    Except (Nat × Fault) (List Variable) × Machine
  | [] => (.ok [], m)
  | line :: lines =>
    if (Statement.clean line).isEmpty then m.runLines (number + 1) lines
    else
      match m.execute line with
      | (.error fault, m) => (.error (number, fault), m)
      | (.ok result, m) =>
        match m.runLines (number + 1) lines with
        | (.ok results, m) => (.ok (result.toList ++ results), m)
        | (.error failure, m) => (.error failure, m)

/-- Runs a program, line by line. -/
def runProgram (m : Machine) (source : String) :
    Except (Nat × Fault) (List Variable) × Machine :=
  m.runLines 1 (Text.lines source)

end Machine

/-- The text of a failure in a program, with the number of its line. -/
def programMessage (line : Nat) (fault : Fault) : String :=
  "line " ++ toString line ++ ": " ++ fault.message

end ByteMachine
