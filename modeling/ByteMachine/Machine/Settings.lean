import ByteMachine.Machine.Execution

/-!
# Making and changing machines

A new machine, and one after a reset, has the three standard streams as its only variables and
one entry in its history. Changing the byte order keeps every value; changing the word size
makes all types anew and resets the machine. Going back in history gives up what came later.

Key definitions: `Machine.create`, `Machine.reset`, `Machine.setOrder`, `Machine.setWord`,
`Machine.setPlacement`, `Machine.revert`, `Machine.describe`.
-/

namespace ByteMachine

/-- The standard streams and their numbers. -/
def standardStreams : List (String × Int) := [("stdin", 0), ("stdout", 1), ("stderr", 2)]

namespace Run

/-- Registers variables of type `int` with the given values. -/
def registerAll : List (String × Int) → Run Unit
  | [] => return ()
  | (name, value) :: rest => do
    let address ← allocate (.named name) Ty.int
    setMemory (← lift ((← memory).store (← catalog) address Ty.int (.integer value)))
    registerAll rest

end Run

namespace Machine

/-- The name of the state after a reset. -/
def resetName : String := "<reset>"

/-- Clears memory and symbols, registers the standard streams and starts a new history. If there
is no room for the streams the history stays. -/
def reset (m : Machine) : Except Fault Unit × Machine :=
  let cleared := { m.core with
    memory := m.core.memory.clear, symbols := m.core.symbols.clear, stack := [] }
  match (Run.registerAll standardStreams).run.run cleared with
  | (.error fault, core) => (.error fault, { m with core := core })
  | (.ok (), core) =>
    let m := { m with core := core }
    (.ok (), { m with history := m.history.clear.push (m.snapshot resetName) })

/-- A machine before its first reset. -/
def blank (c : Config) (console : Console) : Machine :=
  { config := c
    core :=
      { catalog := .standard c.word
        memory := .zeroed c.memorySize c.order
        symbols := .empty c.memorySize c.word c.placement c.seed
        console := console
        stack := [] }
    history := .empty c.historyLimit }

/-- A new machine. -/
def create (c : Config) (console : Console) : Except Fault Machine := do
  c.validate
  match (blank c console).reset with
  | (.ok (), m) => return m
  | (.error fault, _) => throw fault

/-- Switches to a byte order. Every value reads as before, and the new state enters the
history. -/
def setOrder (m : Machine) (o : ByteOrder) : Except Fault Unit × Machine :=
  if o = m.core.memory.order then (.ok (), m)
  else
    match m.core.symbols.switchOrder m.core.catalog m.core.memory with
    | (.error fault, memory) => (.error fault, { m with core := { m.core with memory := memory } })
    | (.ok (), memory) =>
      let m := { m with
        config := { m.config with order := o }
        core := { m.core with memory := memory } }
      (.ok (), { m with history := m.history.push (m.snapshot ("<" ++ o.name ++ ">")) })

/-- Changes the word size, which makes all types anew and resets the machine. -/
def setWord (m : Machine) (word : Nat) : Except Fault Unit × Machine :=
  let c := { m.config with word := word }
  match c.validate with
  | .error fault => (.error fault, m)
  | .ok () =>
    { m with
      config := c
      core := { m.core with
        catalog := .standard word
        symbols := .empty c.memorySize word c.placement c.seed } }.reset

/-- Changes how addresses are chosen from now on. -/
def setPlacement (m : Machine) (p : Placement) : Machine :=
  { m with
    config := { m.config with placement := p }
    core := { m.core with symbols := { m.core.symbols with placement := p } } }

/-- An entry of the history, as the present catalog shows it. -/
def past? (m : Machine) (index : Nat) : Option Snapshot :=
  (m.history.get? index).map fun s => s.under m.core.catalog

/-- Goes back to an entry of the history and gives up those behind it. -/
def revert (m : Machine) (index : Nat) : Except Fault Unit × Machine :=
  match m.past? index with
  | none => (.error (.noHistoryEntry index), m)
  | some s =>
    match m.restore s with
    | .ok restored => (.ok (), { restored with history := m.history.truncate index })
    | .error fault => (.error fault, m)

def withConsole (m : Machine) (console : Console) : Machine :=
  { m with core := { m.core with console := console } }

/-- The machine with a text written to its console. -/
def print (m : Machine) (text : String) : Machine := m.withConsole (m.core.console.write text)

/-- The number of the newest entry of the history. -/
def latest (m : Machine) : Nat := m.history.size - 1

/-- The value of a variable at present. -/
def valueOf (m : Machine) (v : Variable) : Except Fault Literal :=
  m.core.memory.valueOf m.core.catalog v

/-- A variable with its type, address and present value. -/
def describe (m : Machine) (v : Variable) : String := m.core.memory.describe m.core.catalog v

end Machine

end ByteMachine
