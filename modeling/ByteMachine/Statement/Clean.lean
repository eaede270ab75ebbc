import ByteMachine.Text.Blank

/-!
# Cleaning a statement

A line of source may end in a `//` comment and in semicolons. `Statement.clean` strips them and
the blanks around the rest. Two slashes inside a string or a character literal start no comment,
so the search for the comment follows the quotes.

Key definitions: `Quoting`, `Quoting.next`, `Statement.beforeComment`, `Statement.clean`.
-/

namespace ByteMachine

/-- Where a reader of a line stands: outside of quotes, inside a pair of them, or inside and just
past a backslash. -/
inductive Quoting where
  | outside
  | inside (quote : Char)
  | escaped (quote : Char)
deriving DecidableEq, Repr, Inhabited

namespace Quoting

def isQuote (c : Char) : Bool := c = '\x22' || c = '\x27'

/-- Where the reader stands after one more character. -/
def next : Quoting → Char → Quoting
  | outside, c => if isQuote c then inside c else outside
  | escaped q, _ => inside q
  | inside q, c => if c = '\x5c' then escaped q else if c = q then outside else inside q

end Quoting

namespace Statement

/-- The part of a line before its comment. -/
def beforeComment : Quoting → List Char → List Char
  | _, [] => []
  | s, c :: cs =>
    if s = .outside ∧ c = '/' ∧ cs.head? = some '/' then []
    else c :: beforeComment (s.next c) cs

/-- A line without its comment, the blanks around it and the semicolons at its end. -/
def cleanChars (line : List Char) : List Char :=
  Text.trimEnd (Text.dropEndWhile (fun c => c = ';') (Text.trim (beforeComment .outside line)))

/-- A line without its comment, the blanks around it and the semicolons at its end. -/
def clean (line : String) : String := String.ofList (cleanChars line.toList)

end Statement

end ByteMachine
