import ByteMachine.Screen.Panes
import ByteMachine.Workbench

/-!
# Drawing the workbench

The last row is the status bar. Above it the left part shows memory over the terminal and the
right part the variables; memory and the left part take three fifths. Drawing shows the entry of
the history that is looked at, or else the machine as it is, and holds every scroll offset to
the last full page.

Key definitions: `Areas`, `Workbench.exhibit`, `Workbench.settle`, `Workbench.rows`,
`Workbench.draw`.
-/

namespace ByteMachine

namespace Screen

/-- The widths and heights of the panes on a screen. -/
structure Areas where
  leftWidth : Nat
  rightWidth : Nat
  memoryHeight : Nat
  terminalHeight : Nat
deriving DecidableEq, Repr

/-- Three fifths, rounded to the nearest whole number. -/
def threeFifths (n : Nat) : Nat := (6 * n + 5) / 10

/-- How a screen of the given size is divided. -/
def Areas.ofSize (width height : Nat) : Areas :=
  let left := threeFifths width
  let upper := threeFifths (height - 1)
  ⟨left, width - left, upper, height - 1 - upper⟩

/-- The height of the pane of the variables. -/
def Areas.symbolsHeight (a : Areas) : Nat := a.memoryHeight + a.terminalHeight

end Screen

namespace Workbench

open Screen

/-- The entry of the history on the screen. -/
def viewed? (w : Workbench) : Option Snapshot := w.view.bind w.machine.past?

/-- What the panes show. -/
def exhibit (w : Workbench) : Exhibit :=
  let core := w.machine.core
  match w.viewed? with
  | some s => ⟨s.memory, s.symbols, core.catalog⟩
  | none => ⟨core.memory, core.symbols, core.catalog⟩

/-- The workbench with the offsets held to the last full pages. A pane without variables has no
pages. -/
def settle (w : Workbench) (a : Areas) : Workbench :=
  let e := w.exhibit
  let o := w.offsets
  { w with offsets :=
    { terminal := clampScroll o.terminal w.transcript.length (transcriptRows a.terminalHeight)
      memory := clampScroll o.memory (memoryRows e.memory) (visibleRows a.memoryHeight)
      symbols :=
        if e.symbols.entries.isEmpty then o.symbols
        else clampScroll o.symbols e.symbols.size (visibleRows a.symbolsHeight) } }

/-- What the status bar tells. -/
def status (w : Workbench) : Status :=
  let m := w.machine
  { message := w.notice.text
    isError := w.notice.isError
    position := w.view.getD m.latest
    total := m.history.size
    viewing := w.viewed?.map Snapshot.name
    word := m.core.catalog.word
    order := w.exhibit.memory.order
    placement := m.core.symbols.placement
    dropped := m.history.evicted
    usage := m.history.usage
    limit := m.history.limit }

/-- The rows of the screen. The status bar is the last to be given up for lack of room. -/
def rows (w : Workbench) (width height : Nat) (a : Areas) : List Row :=
  let e := w.exhibit
  let memory :=
    memoryPane e (w.focus = .memory) w.offsets.memory a.leftWidth a.memoryHeight
  let terminal :=
    terminalPane w.transcript w.input w.view.isSome (w.focus = .terminal) w.offsets.terminal
      a.leftWidth a.terminalHeight
  let symbols :=
    symbolsPane e (w.focus = .symbols) w.offsets.symbols a.rightWidth a.symbolsHeight
  (beside (memory ++ terminal) symbols ++ [statusBar w.status width]).take height

/-- Draws the screen; the workbench keeps the offsets it was drawn with. -/
def draw (w : Workbench) (width height : Nat) : Workbench × List Row :=
  let a := Areas.ofSize width height
  let w := w.settle a
  (w, w.rows width height a)

end Workbench

end ByteMachine
