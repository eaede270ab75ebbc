import ByteMachine.Machine.Settings

/-!
# The workbench

A machine with a line of input, a transcript and a place in its history. The workbench is driven
by keys: it runs the line that was typed, looks at earlier states and goes back to them, and
changes the settings of the machine. What the machine prints and what the workbench says go to
one transcript, the output of the console of the machine.

While an entry of the history is on the screen the machine itself is untouched. Every key that
changes the machine or the line ends the look into the past.

Key definitions: `Workbench`, `Workbench.start`, `Key`, `Workbench.press`, `Workbench.submit`,
`Workbench.runScript`, `Workbench.revert`.
-/

namespace ByteMachine

/-- The panes that can be scrolled, one of which has the focus. -/
inductive Pane where
  | terminal
  | memory
  | symbols
deriving DecidableEq, Repr, Inhabited

namespace Pane

def next : Pane → Pane
  | terminal => memory
  | memory => symbols
  | symbols => terminal

def previous : Pane → Pane
  | terminal => symbols
  | memory => terminal
  | symbols => memory

end Pane

/-- The first row that each pane shows. An offset behind the last page stands for the last page
until the screen is drawn. -/
structure Offsets where
  terminal : Nat := 0
  memory : Nat := 0
  symbols : Nat := 0
deriving DecidableEq, Repr, Inhabited

namespace Offsets

/-- The largest offset there is; it leads to the last page. -/
def last : Nat := Number.addressBound - 1

/-- The offsets with that of one pane changed. -/
def update (p : Pane) (f : Nat → Nat) (o : Offsets) : Offsets :=
  match p with
  | .terminal => { o with terminal := f o.terminal }
  | .memory => { o with memory := f o.memory }
  | .symbols => { o with symbols := f o.symbols }

/-- An offset moved by a number of rows to the front. -/
def back (rows offset : Nat) : Nat := offset - rows

/-- An offset moved by a number of rows to the end. -/
def forth (rows offset : Nat) : Nat := min (offset + rows) last

end Offsets

/-- What the status bar says last. -/
structure Notice where
  text : String
  isError : Bool
deriving DecidableEq, Repr, Inhabited

/-- A machine at work. -/
structure Workbench where
  machine : Machine
  /-- The line being typed. -/
  input : String := ""
  focus : Pane := .terminal
  offsets : Offsets := {}
  /-- The entry of the history on the screen, unless it is the present. -/
  view : Option Nat := none
  finished : Bool := false
  notice : Notice := ⟨"Ready!", false⟩
deriving DecidableEq, Repr, Inhabited

/-- A key that was pressed. -/
inductive Key where
  | char (c : Char)
  | control (c : Char)
  | enter
  | backspace
  | escape
  | tab
  | backTab
  | left
  | right
  | up
  | down
  | pageUp
  | pageDown
  | function (number : Nat)
  | other
deriving DecidableEq, Repr, Inhabited

namespace Workbench

/-- A workbench with an empty transcript. -/
def start (m : Machine) : Workbench := { machine := m.withConsole (.scripted [] "") }

/-- The lines of the transcript. -/
def transcript (w : Workbench) : List String := Text.lines w.machine.core.console.output

def tell (w : Workbench) (text : String) : Workbench := { w with notice := ⟨text, false⟩ }

def warn (w : Workbench) (text : String) : Workbench := { w with notice := ⟨text, true⟩ }

/-- Writes a text to the transcript. -/
def print (w : Workbench) (text : String) : Workbench := { w with machine := w.machine.print text }

/-- Moves the terminal to its last page. -/
def toEnd (w : Workbench) : Workbench :=
  { w with offsets := { w.offsets with terminal := Offsets.last } }

def toPresent (w : Workbench) : Workbench := { w with view := none }

def queue (w : Workbench) (line : String) : Workbench :=
  { w with machine := w.machine.withConsole (w.machine.core.console.provide line) }

/-! ### Statements -/

/-- Runs a statement and tells how it went. -/
def perform (w : Workbench) (line : String) : Workbench :=
  match w.machine.execute line with
  | (.ok (some result), m) => ({ w with machine := m }.print (m.describe result ++ "\n")).tell "Executed"
  | (.ok none, m) => { w with machine := m }.tell "Executed"
  | (.error fault, m) =>
    let failed := { w with machine := m }.print ("error: " ++ fault.message ++ "\n")
    if fault.isSyntax then failed.warn ("Not parsed: " ++ fault.message)
    else failed.warn ("Rolled back: " ++ fault.message)

/-- Runs the line of input, unless it is blank, and empties it. -/
def submit (w : Workbench) : Workbench :=
  let line := w.input
  let w := { w with input := "" }
  if line.toList.all Text.isBlank then w
  else ((w.toPresent.print ("> " ++ line ++ "\n")).perform line).toEnd

/-- Runs lines as if they were typed, up to the first that fails. Lines without a statement are
left out. -/
def runLines (w : Workbench) : List String → Workbench
  | [] => w
  | line :: lines =>
    if (Statement.clean line).isEmpty then w.runLines lines
    else
      let w := { w with input := line }.submit
      if w.notice.isError then w else w.runLines lines

def runScript (w : Workbench) (source : String) : Workbench := w.runLines (Text.lines source)

/-! ### History -/

/-- Looks at the state before the one on the screen. -/
def browseBack (w : Workbench) : Workbench :=
  match w.view.getD w.machine.latest with
  | 0 => w.tell "Oldest state"
  | position + 1 => { w with view := some position }.tell "Viewing history"

/-- Looks at the state behind the one on the screen. -/
def browseForth (w : Workbench) : Workbench :=
  match w.view with
  | none => w.tell "Already at the present"
  | some position =>
    if position + 1 < w.machine.latest then
      { w with view := some (position + 1) }.tell "Viewing history"
    else w.toPresent.tell "Back to the present"

/-- The entry to go back to: the one on the screen or else the last but one. -/
def target? (w : Workbench) : Option Nat :=
  match w.view with
  | some index => some index
  | none => if 2 ≤ w.machine.history.size then some (w.machine.history.size - 2) else none

/-- The name of an entry of the history. -/
def entryName (w : Workbench) (index : Nat) : String :=
  match w.machine.history.get? index with
  | some s => s.name
  | none => ""

/-- Goes back to the state on the screen, or undoes the last statement. -/
def revert (w : Workbench) : Workbench :=
  match w.target? with
  | none => w.warn "Nothing to revert"
  | some index =>
    match w.machine.revert index with
    | (.ok (), m) =>
      let name := "[" ++ w.entryName index ++ "]"
      let reverted := { w with machine := m }.toPresent
      (reverted.print ("reverted to " ++ name ++ "\n")).toEnd.tell ("Reverted to " ++ name)
    | (.error fault, m) => { w with machine := m }.warn fault.message

/-- Goes back from the past to the present, or else leaves the workbench. -/
def escape (w : Workbench) : Workbench :=
  if w.view.isSome then w.toPresent.tell "Back to the present" else { w with finished := true }

/-! ### Settings -/

/-- Writes the signatures of all functions to the transcript. -/
def listFunctions (w : Workbench) : Workbench :=
  let lines := Builtin.sorted.map fun f => "  " ++ f.signature ++ "\n"
  (w.print (String.join lines)).toEnd.tell (toString lines.length ++ " builtins")

def flipOrder (w : Workbench) : Workbench :=
  let o := w.machine.core.memory.order.flip
  match w.machine.setOrder o with
  | (.ok (), m) => { w with machine := m }.toPresent.tell ("Switched to " ++ o.name)
  | (.error fault, m) => { w with machine := m }.toPresent.warn fault.message

def flipPlacement (w : Workbench) : Workbench :=
  let p := w.machine.core.symbols.placement.flip
  { w with machine := w.machine.setPlacement p }.tell ("Allocation policy: " ++ p.name)

/-- The word size behind a given one, in a circle. -/
def nextWord : Nat → Nat
  | 2 => 4
  | 4 => 8
  | _ => 2

/-- Changes the word size, which resets the machine. -/
def cycleWord (w : Workbench) : Workbench :=
  let word := nextWord w.machine.core.catalog.word
  match w.machine.setWord word with
  | (.ok (), m) =>
    let reset := { w with machine := m }.toPresent
    (reset.print ("word size is now " ++ toString word ++ " bytes, machine reset\n")).toEnd.tell
      (toString (word * 8) ++ "-bit words")
  | (.error fault, m) => { w with machine := m }.toPresent.warn fault.message

/-! ### Keys -/

/-- Forgets the transcript. -/
def clear (w : Workbench) : Workbench :=
  { w with
    machine := w.machine.withConsole w.machine.core.console.clearOutput
    offsets := { w.offsets with terminal := 0 } }

/-- Moves the pane that has the focus. -/
def scroll (w : Workbench) (f : Nat → Nat) : Workbench :=
  { w with offsets := w.offsets.update w.focus f }

/-- The rows that a page key moves by. -/
def page : Nat := 10

/-- What a key does that is pressed together with the control key. -/
def control (w : Workbench) (c : Char) : Workbench :=
  if c = 'c' then { w with finished := true }
  else if c = 'z' then w.revert
  else if c = 'l' then w.clear
  else w

/-- What a function key does. -/
def function (w : Workbench) (number : Nat) : Workbench :=
  if number = 1 then w.listFunctions
  else if number = 2 then w.flipOrder
  else if number = 3 then w.flipPlacement
  else if number = 4 then w.cycleWord
  else w

/-- What a key does. -/
def press (w : Workbench) : Key → Workbench
  | .char c => { w.toPresent with input := w.input.push c }
  | .control c => w.control c
  | .enter => w.submit
  | .backspace => { w with input := String.ofList w.input.toList.dropLast }
  | .escape => w.escape
  | .tab => { w with focus := w.focus.next }
  | .backTab => { w with focus := w.focus.previous }
  | .left => w.browseBack
  | .right => w.browseForth
  | .up => w.scroll (Offsets.back 1)
  | .down => w.scroll (Offsets.forth 1)
  | .pageUp => w.scroll (Offsets.back page)
  | .pageDown => w.scroll (Offsets.forth page)
  | .function number => w.function number
  | .other => w

end Workbench

end ByteMachine
