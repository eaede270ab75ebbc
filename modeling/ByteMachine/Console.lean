import ByteMachine.Text.Blank

/-!
# Consoles

Statements that print or ask for input do so on the console of the machine. A silent console
loses what is written and has no input. A scripted one holds lines of input and echoes a prompt
with the line that answers it. A streamed one reads from a text, and writes a prompt before it
looks for a line.

Key definitions: `Console`, `Console.write`, `Console.readLine`, `Console.output`.
-/

namespace ByteMachine

/-- Where a machine prints and reads. -/
inductive Console where
  | silent
  | scripted (pending : List String) (output : String)
  | streamed (pending : List Char) (output : String)
deriving DecidableEq, Repr, Inhabited

namespace Console

/-- Everything written so far. -/
def output : Console → String
  | silent => ""
  | scripted _ out => out
  | streamed _ out => out

/-- The console with a text written. -/
def write (text : String) : Console → Console
  | silent => silent
  | scripted pending out => scripted pending (out ++ text)
  | streamed pending out => streamed pending (out ++ text)

/-- The next line of input, if there is one, and the console behind it. -/
def readLine (prompt : String) : Console → Option String × Console
  | silent => (none, silent)
  | scripted [] out => (none, scripted [] out)
  | scripted (line :: pending) out => (some line, scripted pending (out ++ prompt ++ line ++ "\n"))
  | streamed [] out => (none, streamed [] (out ++ prompt))
  | streamed (c :: cs) out =>
    let (line, pending) := Text.breakLine (c :: cs)
    (some (String.ofList (Text.chompLine line)), streamed pending (out ++ prompt))

/-- The console with one more line of input waiting, if it holds lines. -/
def provide (line : String) : Console → Console
  | scripted pending out => scripted (pending ++ [line]) out
  | c => c

/-- The console with what was written forgotten. -/
def clearOutput : Console → Console
  | silent => silent
  | scripted pending _ => scripted pending ""
  | streamed pending _ => streamed pending ""

end Console

end ByteMachine
