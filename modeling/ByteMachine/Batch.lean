import ByteMachine.CommandLine
import ByteMachine.Files
import ByteMachine.Machine.Settings

/-!
# Batch runs

A batch run executes the lines of a program one after another and prints the result of each. It
ends at the first line that fails. Without a program the lines come from the input, where a
statement that asks for input takes the line behind its own. Before the machine is made the file
of the log is made and then the program read; the first of these that fails ends the run.

Key definitions: `Batch.Outcome`, `Batch.performLine`, `Batch.runLines`, `Batch.runInput`,
`Batch.run`, `Batch.start`, `Batch.prepare`.
-/

namespace ByteMachine.Batch

/-- What a batch run leaves: its exit code and what it wrote. -/
structure Outcome where
  code : Nat
  output : String
  errors : String
deriving DecidableEq, Repr, Inhabited

/-- Runs a line, unless it holds no statement, and prints its result. -/
def performLine (m : Machine) (line : String) : Except Fault Unit × Machine :=
  if (Statement.clean line).isEmpty then (.ok (), m)
  else
    match m.execute line with
    | (.ok (some result), m) => (.ok (), m.print (m.describe result ++ "\n"))
    | (.ok none, m) => (.ok (), m)
    | (.error fault, m) => (.error fault, m)

/-- Runs lines, the first of which has the given number, up to the first that fails; the failure
comes with the number of its line. -/
def runLines (m : Machine) (number : Nat) : List String → Except (Nat × Fault) Unit × Machine
  | [] => (.ok (), m)
  | line :: lines =>
    match performLine m line with
    | (.ok (), m) => runLines m (number + 1) lines
    | (.error fault, m) => (.error (number, fault), m)

/-- Runs at most `count` lines from the input of the machine. Lines that a statement reads are
not counted. -/
def runInput (number : Nat) : Nat → Machine → Except (Nat × Fault) Unit × Machine
  | 0, m => (.ok (), m)
  | count + 1, m =>
    match m.core.console.readLine "" with
    | (none, console) => (.ok (), m.withConsole console)
    | (some line, console) =>
      match performLine (m.withConsole console) line with
      | (.ok (), m) => runInput (number + 1) count m
      | (.error fault, m) => (.error (number, fault), m)

/-- The cause for which there is no machine to run on. -/
def startFailure : Fault → String
  | .invalidWordSize size => "InvalidWordSize(" ++ toString size ++ ")"
  | .invalidMemorySize size => "InvalidMemorySize(" ++ toString size ++ ")"
  | .memoryExhausted requested =>
    "MemoryExhausted \x7b requested: " ++ toString requested ++ " \x7d"
  | fault => fault.message

/-- A run that could not start. -/
def failedStart (cause : String) : Outcome := ⟨1, "", "Error: " ++ cause ++ "\n"⟩

def finish : Except (Nat × Fault) Unit × Machine → Outcome
  | (.ok (), m) => ⟨0, m.core.console.output, ""⟩
  | (.error (number, fault), m) =>
    ⟨1, m.core.console.output, "error: " ++ programMessage number fault ++ "\n"⟩

/-- A batch run on a new machine of the lines of a program, or of the input if there is none. No
input has more lines than characters. -/
def run (c : Config) (program : Option String) (input : String) : Outcome :=
  match Machine.create c (.streamed input.toList "") with
  | .error fault => failedStart (startFailure fault)
  | .ok m =>
    match program with
    | some text => finish (runLines m 1 (Text.lines text))
    | none => finish (runInput 1 input.length m)

/-- A batch run with a program that may not be readable. -/
def start (c : Config) (program : Except FileFault (Option String)) (input : String) : Outcome :=
  match program with
  | .error fault => failedStart fault.message
  | .ok program => run c program input

/-- Makes the file of the log, if there is to be one, and reads the program, if there is one. -/
def prepare (line : CommandLine) (files : Files) : Except FileFault (Option String) := do
  let files ← match line.log with
    | some path => files.create path
    | none => pure files
  match line.program with
  | some path => some <$> files.read path
  | none => return none

end ByteMachine.Batch
