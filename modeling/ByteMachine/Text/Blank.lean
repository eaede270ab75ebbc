/-!
# Blanks, trimming and lines

Which characters count as white space, how text is trimmed of them, and how a text falls into
lines.

Key definitions: `Text.isBlank`, `Text.trimStart`, `Text.trimEnd`, `Text.dropEndWhile`,
`Text.lines`, `Text.breakLine`.
-/

namespace ByteMachine.Text

/-- White space: the characters with the Unicode property `White_Space`. -/
def isBlank (c : Char) : Bool :=
  let n := c.toNat
  (9 ≤ n && n ≤ 13) || n == 0x20 || n == 0x85 || n == 0xa0 || n == 0x1680 ||
    (0x2000 ≤ n && n ≤ 0x200a) || n == 0x2028 || n == 0x2029 || n == 0x202f ||
    n == 0x205f || n == 0x3000

/-- Every character the core library calls white space is a blank. -/
theorem isBlank_of_isWhitespace {c : Char} (h : c.isWhitespace = true) : isBlank c = true := by
  have : c.toNat = 32 ∨ c.toNat = 9 ∨ c.toNat = 13 ∨ c.toNat = 10 := by
    simp only [Char.isWhitespace, Bool.or_eq_true, decide_eq_true_eq] at h
    rcases h with ((rfl | rfl) | rfl) | rfl <;> decide
  rcases this with h | h | h | h <;> simp [isBlank, h]

/-- The text without its last elements, as long as they satisfy `p`. -/
def dropEndWhile (p : Char → Bool) (cs : List Char) : List Char :=
  (cs.reverse.dropWhile p).reverse

def trimStart (cs : List Char) : List Char := cs.dropWhile isBlank

def trimEnd (cs : List Char) : List Char := dropEndWhile isBlank cs

def trim (cs : List Char) : List Char := trimEnd (trimStart cs)

/-- The text of a line from its characters in reverse; a carriage return at its end goes. -/
def lineOfReverse : List Char → List Char
  | '\r' :: cs => cs.reverse
  | cs => cs.reverse

/-- The lines of a text, `line` being the reverse of what the first one began with. A line feed
ends a line, together with one carriage return before it; the end of the text ends the last
line unless that is empty. -/
def linesFrom (line : List Char) : List Char → List (List Char)
  | [] => if line.isEmpty then [] else [line.reverse]
  | c :: cs => if c = '\n' then lineOfReverse line :: linesFrom [] cs else linesFrom (c :: line) cs

def lines (text : String) : List String :=
  (linesFrom [] text.toList).map String.ofList

/-- The first line of a text with its line feed, and the rest. -/
def breakLine : List Char → List Char × List Char
  | [] => ([], [])
  | c :: cs => if c = '\n' then ([c], cs) else (c :: (breakLine cs).1, (breakLine cs).2)

theorem breakLine_append : ∀ cs : List Char, (breakLine cs).1 ++ (breakLine cs).2 = cs
  | [] => rfl
  | c :: cs => by
    unfold breakLine
    split
    · simp
    · simp [breakLine_append cs]

/-- A line read from a stream, without the line ends after it. -/
def chompLine (line : List Char) : List Char :=
  dropEndWhile (fun c => c = '\n' || c = '\r') line

end ByteMachine.Text
