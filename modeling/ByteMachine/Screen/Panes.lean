import ByteMachine.History
import ByteMachine.Screen.Theme
import ByteMachine.Storage.Rendering

/-!
# The panes of the workbench

Four panes show a machine: the bytes of memory with the variables that own them set apart by
colour, the registered variables with their values, the transcript with the line being typed,
and a status bar. Each is a function from what it shows to rows of cells.

Key definitions: `Exhibit`, `byteOwners`, `memoryPane`, `symbolsPane`, `terminalPane`,
`statusBar`, `humanSize`, `clampScroll`.
-/

namespace ByteMachine.Screen

/-- The state that the panes show: the present or an entry of the history. -/
structure Exhibit where
  memory : Memory
  symbols : Symbols
  catalog : Catalog

/-- The style of the frame of a pane. -/
def frameStyle (focused : Bool) : Style :=
  if focused then { foreground := some Theme.focusedFrame, bold := true }
  else .on Theme.frame

/-- A scroll offset held so that the last page stays full. -/
def clampScroll (offset total visible : Nat) : Nat := min offset (total - visible)

/-- The number of rows inside a frame of the given height, at least one. -/
def visibleRows (height : Nat) : Nat := max (height - 2) 1

/-! ### Memory -/

/-- What a byte belongs to. Neighbouring variables of a kind take turns in their shade. -/
inductive ByteOwner where
  | declared (shade : Bool)
  | heap (shade : Bool)
deriving DecidableEq, Repr

/-- The owners among variables in the order of their addresses, each with its mark; the two
flags are the shades used last. -/
def shadeOwners : Bool → Bool → List Variable → List (Variable × ByteOwner)
  | _, _, [] => []
  | declared, heap, v :: vs =>
    if v.id.isHeap then (v, .heap (!heap)) :: shadeOwners declared (!heap) vs
    else (v, .declared (!declared)) :: shadeOwners (!declared) heap vs

/-- The variables that own bytes, in the order of their addresses. -/
def owningVariables (s : Symbols) : List Variable :=
  (s.entries.filter fun v => !v.isAlias && !v.isTemporary).mergeSort
    fun v w => v.address ≤ w.address

/-- The marks with the bytes of one variable marked. -/
def markBytes (marks : List (Option ByteOwner)) (v : Variable) (mark : ByteOwner) :
    List (Option ByteOwner) :=
  marks.mapIdx fun i old => if v.address ≤ i && i < v.stop then some mark else old

/-- The owner of each of the first `size` bytes. -/
def byteOwners (s : Symbols) (size : Nat) : List (Option ByteOwner) :=
  (shadeOwners false false (owningVariables s)).foldl (fun marks p => markBytes marks p.1 p.2)
    (List.replicate size none)

/-- The style of a byte by its owner. -/
def byteStyle : Option ByteOwner → Style
  | none => .on Theme.free
  | some (.declared true) => { foreground := some Theme.primary, bold := true }
  | some (.declared false) => .on Theme.type
  | some (.heap true) => { foreground := some Theme.secondary, bold := true }
  | some (.heap false) => .on Theme.success

/-- The bytes in one row of the memory pane. -/
def rowBytes : Nat := 16

/-- A row of the memory pane: the address, the bytes with a gap in the middle, and the bytes as
characters. -/
def gridRow (base : Nat) (bytes : List (UInt8 × Option ByteOwner)) : List Span :=
  let cells := bytes.zipIdx.flatMap fun (b, i) =>
    (if i = rowBytes / 2 then [⟨" ", .plain⟩] else []) ++
      [⟨" " ++ Text.hexPadded 2 b.1.toNat, byteStyle b.2⟩]
  let shown := bytes.map fun b => if Text.isPrintable b.1 then Text.byteChar b.1 else '.'
  ⟨"0x" ++ Text.hexPadded 4 base ++ " ", .on Theme.comment⟩ ::
    (cells ++ [⟨"  " ++ String.ofList shown, .on Theme.comment⟩])

def memoryRows (m : Memory) : Nat := (m.size + rowBytes - 1) / rowBytes

/-- The memory pane, from the row `offset` on. -/
def memoryPane (e : Exhibit) (focused : Bool) (offset width height : Nat) : List Row :=
  let owners := byteOwners e.symbols e.memory.size
  let shown := min (visibleRows height) (memoryRows e.memory - offset)
  let rows := (List.range shown).map fun i =>
    let base := (offset + i) * rowBytes
    gridRow base (((e.memory.bytes.zip owners).drop base).take rowBytes)
  let title := " Memory (" ++ toString e.memory.size ++ " bytes, " ++ e.memory.order.name ++ ") "
  frame title (frameStyle focused) width height
    (rows.map fun spans => Row.paint spans (Row.blank (width - 2)))

/-! ### Symbols -/

/-- The row of one variable. -/
def symbolRow (e : Exhibit) (v : Variable) : List Span :=
  let colour :=
    if v.id.isHeap then Theme.secondary else if v.isAlias then Theme.reference else Theme.primary
  let target := match v.role with
    | .reference target => [⟨"  -> " ++ target.text, .on Theme.reference⟩]
    | _ => []
  [⟨v.id.text, .on colour⟩, ⟨" ", .plain⟩, ⟨v.type.name, .on Theme.type⟩,
    ⟨" @0x" ++ Text.hexPadded 4 v.address, .on Theme.comment⟩, ⟨" = ", .plain⟩,
    ⟨e.memory.render e.catalog v, .on Theme.text⟩] ++ target

/-- The pane of the variables, from the row `offset` on. -/
def symbolsPane (e : Exhibit) (focused : Bool) (offset width height : Nat) : List Row :=
  let title := " Symbols (" ++ toString e.symbols.size ++ ") "
  if e.symbols.entries.isEmpty then
    let ground := Row.restyle (.on Theme.comment) (Row.blank (width - 2))
    frame title (frameStyle focused) width height
      (Row.paintText [⟨"(no variables)", .plain⟩] ground :: List.replicate (height - 3) ground)
  else
    let rows := (e.symbols.entries.drop offset).take (visibleRows height)
    frame title (frameStyle focused) width height
      (rows.map fun v => Row.paint (symbolRow e v) (Row.blank (width - 2)))

/-! ### Terminal -/

/-- The colour of a line of the transcript: echoed statements stand back, errors stand out. -/
def lineColour (line : String) : Colour :=
  if line.startsWith "> " then Theme.comment
  else if line.startsWith "error: " then Theme.error
  else Theme.text

/-- The line at the bottom of the terminal. -/
def prompt (input : String) (readOnly : Bool) : List Span :=
  if readOnly then [⟨"(viewing history, Esc returns to the present)", .on Theme.comment⟩]
  else
    [⟨"> ", { foreground := some Theme.success, bold := true }⟩, ⟨input, .on Theme.text⟩,
      ⟨"_", { foreground := some Theme.text, blink := true }⟩]

/-- The number of rows of the transcript inside the frame: one is the prompt. -/
def transcriptRows (height : Nat) : Nat := max (height - 3) 1

/-- The terminal pane, its transcript from the line `offset` on. -/
def terminalPane (lines : List String) (input : String) (readOnly focused : Bool)
    (offset width height : Nat) : List Row :=
  let inside := width - 3
  let rows := ((lines.drop offset).take (transcriptRows height)).map fun line =>
    Row.paint [⟨line, .plain⟩] (Row.restyle (.on (lineColour line)) (Row.blank inside))
  let last := Row.paintText (prompt input readOnly) (Row.blank inside)
  frame " Terminal " (frameStyle focused) width height
    ((fill inside (height - 3) rows ++ [last]).map fun row => Cell.blank :: row)

/-! ### Status -/

/-- A number of bytes in the largest unit that it has at least one of, with one decimal, a tie
going to the even one, unless it is whole. -/
def humanSize (bytes : Nat) : String :=
  if bytes < 1024 then toString bytes ++ "B"
  else
    -- sizes above 2^53 count as the nearest double
    let n := (Number.Binary64.ofInt bytes).wholePart
    let (scale, unit) :=
      if n < Number.twoPow 20 then (Number.twoPow 10, "K")
      else if n < Number.twoPow 30 then (Number.twoPow 20, "M")
      else (Number.twoPow 30, "G")
    if n % scale = 0 then toString (n / scale) ++ unit
    else
      let tenths := Number.nearestEven (n * 10) scale
      toString (tenths / 10) ++ "." ++ toString (tenths % 10) ++ unit

/-- The use of the history and its limit, and how many entries were given up, if any. -/
def historyUse (usage limit dropped : Nat) : String :=
  let use := humanSize usage ++ "/" ++ humanSize limit
  if dropped = 0 then use else use ++ " (" ++ toString dropped ++ " dropped)"

/-- What the status bar tells. -/
structure Status where
  message : String
  isError : Bool
  /-- The entry of the history on the screen, from 0, and how many there are. -/
  position : Nat
  total : Nat
  /-- The name of the entry of the history on the screen, unless it is the present. -/
  viewing : Option String
  word : Nat
  order : ByteOrder
  placement : Placement
  dropped : Nat
  usage : Nat
  limit : Nat

/-- Text on the ground of the bar. -/
def onBar (colour : Colour) : Style :=
  { foreground := some colour, background := some Theme.bar }

/-- Black text on a ground of its own. -/
def badge (colour : Colour) : Style :=
  { foreground := some .black, background := some colour, bold := true }

/-- The left half of the bar: where in history, and the last message. -/
def statusLeft (s : Status) : List Span :=
  let colour :=
    if s.isError then Theme.error
    else if s.viewing.isSome then Theme.secondary else Theme.primary
  let viewing := match s.viewing with
    | some name => [⟨"[" ++ name ++ "] ", onBar Theme.secondary⟩]
    | none => []
  [⟨" State " ++ toString (s.position + 1) ++ "/" ++ toString s.total ++ " ", badge colour⟩,
    ⟨" " ++ historyUse s.usage s.limit s.dropped ++ " ", onBar Theme.comment⟩,
    ⟨" | ", onBar Theme.comment⟩] ++ viewing ++
    [⟨s.message, onBar (if s.isError then Theme.error else Theme.text)⟩]

/-- The keys that the bar names. -/
def keyHelp : List (String × String) :=
  [("F1", "builtins"), ("←/→", "history"), ("^Z", "revert"), ("F2", "endian"), ("F3", "alloc"),
    ("F4", "word"), ("^C", "quit")]

/-- The right half of the bar: the settings of the machine and the keys. -/
def statusRight (s : Status) : List Span :=
  let key : Style := { foreground := some .black, background := some Theme.comment }
  let keys := keyHelp.map fun (k, what) =>
    [⟨" " ++ k ++ " ", key⟩, ⟨" " ++ what ++ " ", onBar Theme.text⟩]
  [⟨" " ++ toString (s.word * 8) ++ "-bit ", badge Theme.type⟩,
    ⟨" " ++ s.order.name ++ " ", badge Theme.success⟩,
    ⟨" " ++ s.placement.name ++ " ", badge Theme.reference⟩, ⟨" ", onBar Theme.text⟩] ++
    ([⟨"│", onBar Theme.comment⟩] : List Span).intercalate keys

/-- The status bar: its left half, and its right half aligned to the right as far as it fits. -/
def statusBar (s : Status) (width : Nat) : Row :=
  let ground (n : Nat) := Row.restyle { background := some Theme.bar } (Row.blank n)
  let leftWidth := (width + 1) / 2
  let rightWidth := width - leftWidth
  let indent := rightWidth - textColumns (statusRight s)
  Row.paintText (statusLeft s) (ground leftWidth) ++
    (ground indent ++ Row.paintText (statusRight s) (ground (rightWidth - indent)))

end ByteMachine.Screen
