import ByteMachine.Screen.Cell

/-!
# Displays

A display is told only what has changed since the frame before. A cell is sent if it differs
from the one drawn there before, or if a wide character stood there and may have hidden it; the
cells that a wide character hides are not sent, so that they keep what they showed.

Key definitions: `Display`, `Display.refresh`, `Display.draw`.
-/

namespace ByteMachine.Screen

/-- The cells of the frame drawn last and the cells that are shown, row after row. -/
structure Display where
  drawn : List Cell
  shown : List Cell
deriving DecidableEq, Repr, Inhabited

namespace Display

/-- A display of so many cells with nothing on it. -/
def blank (count : Nat) : Display := ⟨Row.blank count, Row.blank count⟩

/-- What is shown after a frame: the cells of the frame, of the one before it, and what was
shown. `hidden` counts the cells that a wide character hides, `stale` those that one hid. -/
def refresh : Nat → Nat → List Cell → List Cell → List Cell → List Cell
  | hidden, stale, next :: nexts, last :: lasts, shown :: rest =>
    let isSent := hidden = 0 && (next != last || 0 < stale)
    let width := next.columns
    (if isSent then next else shown) ::
      refresh (width - 1) (max (max width last.columns) stale - 1) nexts lasts rest
  | _, _, _, _, _ => []

theorem length_refresh (hidden stale : Nat) (frame drawn shown : List Cell)
    (h : drawn.length = frame.length) (h' : shown.length = frame.length) :
    (refresh hidden stale frame drawn shown).length = frame.length := by
  induction frame generalizing hidden stale drawn shown with
  | nil => cases drawn <;> cases shown <;> simp [refresh]
  | cons c frame ih =>
    cases drawn with
    | nil => simp at h
    | cons d drawn =>
      cases shown with
      | nil => simp at h'
      | cons s shown =>
        simp only [List.length_cons, Nat.add_right_cancel_iff] at h h'
        simp [refresh, ih _ _ drawn shown h h']

/-- The display after a frame. -/
def draw (d : Display) (frame : List Row) : Display :=
  let cells := frame.flatten
  ⟨cells, refresh 0 0 cells d.drawn d.shown⟩

/-- The rows that are shown on a display of the given size. -/
def rows (d : Display) (width : Nat) : Nat → List Row
  | 0 => []
  | height + 1 => d.shown.take width :: rows { d with shown := d.shown.drop width } width height

end Display

end ByteMachine.Screen
