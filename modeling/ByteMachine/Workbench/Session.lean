import ByteMachine.Screen.Display
import ByteMachine.Workbench.Drawing

/-!
# Sessions

A session is a workbench on a display. Every key is taken from a drawn screen and the screen is
drawn again behind it, until the workbench is left.

Key definitions: `Session`, `Session.start`, `Session.clear`, `Session.draw`, `Session.change`,
`Session.press`.
-/

namespace ByteMachine

open Screen

/-- A workbench on a display of a fixed size. -/
structure Session where
  workbench : Workbench
  display : Display
  width : Nat
  height : Nat
deriving DecidableEq, Repr, Inhabited

namespace Session

/-- A workbench for a machine, on an empty display. -/
def start (m : Machine) (width height : Nat) : Session :=
  ⟨.start m, .blank (width * height), width, height⟩

/-- The session with nothing on its display. -/
def clear (s : Session) : Session := { s with display := .blank (s.width * s.height) }

/-- Draws the screen. -/
def draw (s : Session) : Session :=
  let (workbench, frame) := s.workbench.draw s.width s.height
  { s with workbench := workbench, display := s.display.draw frame }

/-- Changes the workbench and draws the screen. -/
def change (s : Session) (f : Workbench → Workbench) : Session :=
  { s with workbench := f s.workbench }.draw

/-- Takes a key from a drawn screen. -/
def press (s : Session) (key : Key) : Session := s.draw.change fun w => w.press key

/-- The rows on the display. -/
def rows (s : Session) : List Row := s.display.rows s.width s.height

end Session

end ByteMachine
