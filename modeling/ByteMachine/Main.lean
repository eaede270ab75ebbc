import ByteMachine.Batch

/-!
# The program

Reads the arguments, the program and the input, makes a batch run and writes what it leaves. The
file of the log is made and stays empty.
-/

namespace ByteMachine

def usage : String :=
  "usage: --headless [--word-size N] [--endian little|big] [--memory N] [--scattered] [--seed N] " ++
    "[PROGRAM]\n"

/-- Why a file could not be read or made. The code of a failure may come negated. -/
def faultOf : IO.Error → FileFault
  | .permissionDenied _ _ _ => .denied
  | .inappropriateType _ code _ =>
    if code = 20 || code + 20 = 0 then .notDirectory else .isDirectory
  | .invalidArgument _ _ _ => .longName
  | .otherError _ _ | .userError _ => .notText
  | _ => .missing

/-- Makes the file of the log, if there is to be one, and reads the program, if there is one. -/
def prepareFiles (line : CommandLine) : IO (Except FileFault (Option String)) := do
  try
    if let some path := line.log then IO.FS.writeFile path ""
    match line.program with
    | some path => return .ok (some (← IO.FS.readFile path))
    | none => return .ok none
  catch cause => return .error (faultOf cause)

/-- Makes a batch run and writes what it leaves. -/
def runBatch (line : CommandLine) : IO UInt32 := do
  let program ← prepareFiles line
  let input ← (← IO.getStdin).readToEnd
  let outcome := Batch.start line.config program input
  IO.print outcome.output
  IO.eprint outcome.errors
  return outcome.code.toUInt32

/-- Makes the batch run that the arguments ask for. -/
def runCommand (arguments : List String) : IO UInt32 := do
  match CommandLine.parse arguments with
  | some line =>
    if line.headless then runBatch line
    else
      IO.eprint usage
      return 2
  | none =>
    IO.eprint usage
    return 2

end ByteMachine

def main (arguments : List String) : IO UInt32 := ByteMachine.runCommand arguments
