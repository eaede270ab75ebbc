import ByteMachine.Text.Cluster
import ByteMachine.Text.WidthTable

/-!
# Columns of a text

How many columns of a character grid a text takes. Most characters take one, wide ones two, and
marks and what may be ignored none. The characters of an emoji take two together: a selector, a
skin tone or a joiner changes what the characters before it take, so that columns are counted
from the end, with what follows in mind.

Key definitions: `Text.charColumns`, `Text.Following`, `Text.columnsBefore`, `Text.columns`.
-/

namespace ByteMachine.Text

/-- Whether a character takes no column: it extends another or may be ignored, is an inner part
of a syllable of Hangul, or is one of a few signs written around others. -/
def isWeightless (c : Char) : Bool :=
  isIgnorable c || (isExtending c && !inRanges newcomers c.toNat) ||
    inRanges [(0x605, 0x605), (0x70f, 0x70f), (0x890, 0x891), (0x8e2, 0x8e2), (0x1160, 0x11ff),
      (0xa8fa, 0xa8fa), (0xd7b0, 0xd7c6), (0xd7cb, 0xd7fb), (0x1171e, 0x1171e)] c.toNat

/-- The columns of a character by itself. -/
def charColumns (c : Char) : Nat :=
  if c.toNat < 0xad then 1
  else if c.toNat = 0x115f || c.toNat = 0x17a4 then 2
  else if c.toNat = 0x17d8 then 3
  else if c.toNat = 0x2d7f then 1
  else if isWeightless c then 0
  else if inRanges wides c.toNat then 2
  else 1

/-- What the characters behind a place mean for the one before it. In an emoji that stands
behind a joiner, `joined`, the columns are counted already. -/
inductive Following where
  | plain
  | lineFeed
  | emojiSelector (joined : Bool)
  | textSelector
  | skinTone
  | emoji
  | joinedEmoji
deriving DecidableEq, Repr, Inhabited

/-- The columns of a character that nothing behind it changes, and what it means for the one
before it. -/
def columnsAlone (c : Char) : Nat × Following :=
  if c = '\n' then (1, .lineFeed)
  else if c.toNat < 0xad then (1, .plain)
  else if c.toNat = 0xfe0f then (0, .emojiSelector false)
  else if c.toNat = 0xfe0e then (0, .textSelector)
  else if isSkinTone c then (2, .skinTone)
  else if inRanges emoji c.toNat then (2, .emoji)
  else (charColumns c, .plain)

/-- The columns of a character before the given ones, and what the two mean together. -/
def columnsBefore (c : Char) (next : Following) : Nat × Following :=
  match next with
  | .plain => columnsAlone c
  | .lineFeed => if c = '\r' then (0, .plain) else columnsAlone c
  | .emojiSelector joined =>
    if inRanges selectable c.toNat then (if joined then 0 else 2, .emoji) else columnsAlone c
  | .textSelector => if inRanges textual c.toNat then (1, .plain) else columnsAlone c
  | .skinTone =>
    if inRanges modifiable c.toNat then (0, .emoji)
    else if isJoiner c then (0, .joinedEmoji)
    else columnsAlone c
  | .emoji => if isJoiner c then (0, .joinedEmoji) else columnsAlone c
  | .joinedEmoji =>
    if c.toNat = 0xfe0f then (0, .emojiSelector true)
    else if isSkinTone c then (0, .skinTone)
    else if inRanges emoji c.toNat then (0, .emoji)
    else columnsAlone c

/-- The columns of a text, and what it means for a character before it. -/
def columnsFrom : List Char → Nat × Following
  | [] => (0, .plain)
  | c :: cs =>
    let (count, next) := columnsFrom cs
    let (more, following) := columnsBefore c next
    (more + count, following)

/-- The columns that a text takes on a screen. -/
def columns (cs : List Char) : Nat := (columnsFrom cs).1

end ByteMachine.Text
