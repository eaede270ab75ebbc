import ByteMachine.Text.Blank
import ByteMachine.Text.Hex
import ByteMachine.Text.Width

/-!
# Cells of a character screen

A screen is a list of rows and a row a list of cells, each with a text and its colours. A style
changes the colours of a cell where it names them. Styled text is painted over a row cluster by
cluster from its left end and is cut where the row ends. A cluster of more than one column hides
the cells behind it. One without columns joins the cell before it in a list and is left out of
running text.

Key definitions: `Colour`, `Style`, `Cell`, `Span`, `Span.glyphs`, `Row.paint`, `Row.paintText`,
`beside`, `frame`.
-/

namespace ByteMachine.Screen

/-- A colour of a cell; `reset` is the one the terminal has by itself. -/
inductive Colour where
  | reset
  | black
  | rgb (red green blue : UInt8)
deriving DecidableEq, Repr, Inhabited

/-- How a colour is written: by name, or by its parts in base sixteen. -/
def Colour.name : Colour → String
  | reset => "Reset"
  | black => "Black"
  | rgb r g b => "#" ++ (String.join ([r, g, b].map fun x => Text.hexPadded 2 x.toNat)).toUpper

/-- What to change of the look of a cell. -/
structure Style where
  foreground : Option Colour := none
  background : Option Colour := none
  bold : Bool := false
  blink : Bool := false
deriving DecidableEq, Repr, Inhabited

/-- The style that changes nothing. -/
def Style.plain : Style := {}

def Style.on (foreground : Colour) : Style := { foreground := some foreground }

/-- One position of the screen. -/
structure Cell where
  symbol : String
  foreground : Colour
  background : Colour
  bold : Bool
  blink : Bool
deriving DecidableEq, Repr, Inhabited

namespace Cell

def blank : Cell := ⟨" ", .reset, .reset, false, false⟩

/-- The cell with its look changed. -/
def restyle (c : Cell) (s : Style) : Cell :=
  { c with
    foreground := s.foreground.getD c.foreground
    background := s.background.getD c.background
    bold := c.bold || s.bold
    blink := c.blink || s.blink }

/-- The columns that the text of a cell takes. -/
def columns (c : Cell) : Nat := Text.columns c.symbol.toList

/-- The name of what sets a cell off. -/
def modifier (c : Cell) : String :=
  if c.bold && c.blink then "BOLD | SLOW_BLINK"
  else if c.bold then "BOLD"
  else if c.blink then "SLOW_BLINK"
  else "NONE"

end Cell

/-- A text in one style. -/
structure Span where
  text : String
  style : Style := {}
deriving DecidableEq, Repr, Inhabited

/-- The columns that a span takes. -/
def Span.columns (s : Span) : Nat := Text.columns s.text.toList

/-- A cluster with its columns and its style. -/
structure Glyph where
  symbol : String
  columns : Nat
  style : Style
deriving DecidableEq, Repr, Inhabited

/-- The clusters of a span. A line feed is none. -/
def Span.glyphs (s : Span) : List Glyph :=
  ((Text.clusters s.text.toList).filter (· != ['\n'])).map fun cluster =>
    ⟨String.ofList cluster, Text.columns cluster, s.style⟩

/-- The columns that some spans take as running text. -/
def textColumns (spans : List Span) : Nat :=
  (spans.flatMap Span.glyphs).foldr (fun g count => g.columns + count) 0

abbrev Row := List Cell

namespace Row

def blank (width : Nat) : Row := List.replicate width Cell.blank

/-- Puts a glyph into the cell at a position. -/
def put (row : Row) (x : Nat) (g : Glyph) : Row :=
  row.modify x fun c => { c with symbol := g.symbol }.restyle g.style

/-- Adds a glyph to the text of the cell at a position. -/
def join (row : Row) (x : Nat) (g : Glyph) : Row :=
  row.modify x fun c => { c with symbol := c.symbol ++ g.symbol }.restyle g.style

/-- Blanks the cells that a glyph at a position hides. -/
def cover (row : Row) (x : Nat) (g : Glyph) : Row :=
  if g.columns < 2 then row
  else row.mapIdx fun i c => if x < i && i < x + g.columns then Cell.blank else c

/-- Paints glyphs from position `x` on, as far as they fit. As long as the first cell is not
full, all that comes joins it. -/
def paintFrom : Nat → List Glyph → Row → Row
  | _, [], row => row
  | x, g :: gs, row =>
    if row.length < x + g.columns then row
    else
      let painted :=
        if x = 0 then row.join 0 g
        else if g.columns = 0 then row.join (x - 1) g
        else row.put x g
      paintFrom (x + g.columns) gs (painted.cover x g)

/-- Paints glyphs of a list from the left end. -/
def paintGlyphs : List Glyph → Row → Row
  | [], row => row
  | g :: gs, row =>
    if row.length < g.columns then row
    else paintFrom g.columns gs ((row.put 0 g).cover 0 g)

/-- Paints the line of a list, each span over the columns it takes. -/
def paint : List Span → Row → Row
  | [], row => row
  | s :: spans, row =>
    if s.columns = 0 then paint spans row
    else
      let painted := row.paintGlyphs s.glyphs
      painted.take s.columns ++ paint spans (painted.drop s.columns)

/-- Paints running text up to the first glyph that does not fit any more; one that is wider than
`limit` is left out. A hidden cell stays as it was. -/
def paintTextFrom (limit : Nat) : List Glyph → Row → Row
  | [], row => row
  | g :: gs, row =>
    if limit < g.columns || g.columns = 0 then paintTextFrom limit gs row
    else if row.length < g.columns then row
    else
      let painted := row.put 0 g
      painted.take g.columns ++ paintTextFrom limit gs (painted.drop g.columns)

/-- Paints a line of running text. -/
def paintText (spans : List Span) (row : Row) : Row :=
  paintTextFrom row.length (spans.flatMap Span.glyphs) row

def restyle (s : Style) (row : Row) : Row := row.map fun c => c.restyle s

/-- The text of a row without the blanks at its end. -/
def text (row : Row) : String :=
  String.ofList (Text.trimEnd (String.join (row.map Cell.symbol)).toList)

end Row

/-- Rows next to each other. -/
def beside (left right : List Row) : List Row := List.zipWith (· ++ ·) left right

/-- As many rows of the given width as asked for: the given ones, then blank ones. -/
def fill (width height : Nat) (rows : List Row) : List Row :=
  rows.take height ++ List.replicate (height - rows.length) (Row.blank width)

/-- A frame of the given outer size around rows of its inner size, with a title in the upper
edge. Where there is no room for two edges, the upper and the left one are drawn. -/
def frame (title : String) (style : Style) (width height : Nat) (inner : List Row) : List Row :=
  let inside := width - 2
  let edge (left right : String) (line : Row) : Row :=
    (({ Cell.blank with symbol := left }.restyle style) ::
      (line.take inside ++ [{ Cell.blank with symbol := right }.restyle style])).take width
  let line := Row.restyle style (List.replicate inside { Cell.blank with symbol := "─" })
  let top := edge "┌" "┐" (Row.paint [⟨title, {}⟩] line)
  let bottom := edge "└" "┘" line
  (top :: ((fill inside (height - 2) inner).map (edge "│" "│") ++ [bottom])).take height

end ByteMachine.Screen
