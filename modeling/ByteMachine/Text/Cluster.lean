import ByteMachine.Text.ClusterTable

/-!
# Clusters

A cluster is what a reader takes for one character: a base with its marks, a syllable of Hangul,
the two letters of a flag, a conjunct of consonants, or emoji that joiners connect. Whether a
character joins the ones before it is decided from a summary of them, their `Ending`.

Key definitions: `Text.Kind`, `Text.Ending`, `Text.Ending.joins`, `Text.Ending.add`,
`Text.clusters`.
Key theorems: `Text.flatten_clusters`, no character is lost; `Text.nil_notMem_clusters`, no
cluster is empty.
-/

namespace ByteMachine.Text

/-- What a character does at the border of a cluster. -/
inductive Kind where
  | carriageReturn
  | lineFeed
  | control
  | extending
  | joiner
  | spacing
  | prepended
  | flagLetter
  /-- The parts of Hangul: leading consonant, vowel, trailing consonant, and syllables that end in
  a vowel or in a consonant. -/
  | leading
  | vowel
  | trailing
  | openSyllable
  | closedSyllable
  | pictograph
  | conjoining
  | other
deriving DecidableEq, Repr, Inhabited

def isFlagLetter (c : Char) : Bool := 0x1f1e6 ≤ c.toNat && c.toNat ≤ 0x1f1ff

def isSkinTone (c : Char) : Bool := 0x1f3fb ≤ c.toNat && c.toNat ≤ 0x1f3ff

def isJoiner (c : Char) : Bool := c.toNat = 0x200d

def isLeading (c : Char) : Bool := inRanges [(0x1100, 0x115f), (0xa960, 0xa97c)] c.toNat

def isVowel (c : Char) : Bool :=
  inRanges [(0x1160, 0x11a7), (0xd7b0, 0xd7c6), (0x16d63, 0x16d63), (0x16d67, 0x16d6a)] c.toNat

def isTrailing (c : Char) : Bool := inRanges [(0x11a8, 0x11ff), (0xd7cb, 0xd7fb)] c.toNat

/-- The syllables of Hangul lie in blocks of twenty-eight, the first of which has no trailing
consonant. -/
def isSyllable (c : Char) : Bool := 0xac00 ≤ c.toNat && c.toNat ≤ 0xd7a3

namespace Kind

def ofChar (c : Char) : Kind :=
  if c = '\r' then carriageReturn
  else if c = '\n' then lineFeed
  else if inRanges standalone c.toNat then control
  else if c.toNat < 0xa9 then other
  else if isJoiner c then joiner
  else if isExtending c || isSkinTone c then extending
  else if isFlagLetter c then flagLetter
  else if isSyllable c then
    if (c.toNat - 0xac00) % 28 = 0 then openSyllable else closedSyllable
  else if isLeading c then leading
  else if isVowel c then vowel
  else if isTrailing c then trailing
  else if inRanges Text.spacing c.toNat then spacing
  else if inRanges Text.prepended c.toNat then prepended
  else if inRanges pictographs c.toNat then pictograph
  else if inRanges Text.conjoining c.toNat then conjoining
  else other

/-- Whether nothing joins a character of this kind, but for a line feed behind a carriage
return. -/
def isControl : Kind → Bool
  | carriageReturn | lineFeed | control => true
  | _ => false

/-- Whether the two parts of Hangul belong to one syllable. -/
def buildsSyllable : Kind → Kind → Bool
  | leading, leading | leading, vowel | leading, openSyllable | leading, closedSyllable => true
  | openSyllable, vowel | openSyllable, trailing | vowel, vowel | vowel, trailing => true
  | closedSyllable, trailing | trailing, trailing => true
  | _, _ => false

end Kind

/-- How far a text has come with connecting consonants. -/
inductive Conjunct where
  | none
  | consonant
  | linked
deriving DecidableEq, Repr, Inhabited

/-- What the end of a text tells about the next character: the kind of the last one, whether
behind a pictograph come only marks, or only marks and a joiner, whether a flag has one of its
letters, and how far a conjunct is. -/
structure Ending where
  last : Kind
  pictograph : Bool
  joined : Bool
  halfFlag : Bool
  conjunct : Conjunct
deriving DecidableEq, Repr, Inhabited

namespace Ending

/-- The end of an empty text, which nothing joins. -/
def start : Ending := ⟨.control, false, false, false, .none⟩

/-- Whether a character belongs to the cluster that a text ends with. -/
def joins (e : Ending) (c : Char) : Bool :=
  let kind := Kind.ofChar c
  if e.last.isControl || kind.isControl then e.last == .carriageReturn && kind == .lineFeed
  else if e.last.buildsSyllable kind then true
  else if e.last == .prepended then true
  else
    match kind with
    | .extending | .joiner | .spacing => true
    | .conjoining => e.conjunct == .linked
    | .pictograph => e.joined
    | .flagLetter => e.halfFlag
    | _ => false

/-- How far the conjunct is behind one more character. A non-joiner ends it. -/
def conjunctBehind (e : Ending) (c : Char) (kind : Kind) : Conjunct :=
  if kind == .conjoining then .consonant
  else if inRanges linkers c.toNat then
    if e.conjunct == .none then .none else .linked
  else if kind == .joiner || (kind == .extending && c.toNat != 0x200c) then e.conjunct
  else .none

/-- The end of the text with one more character. -/
def add (e : Ending) (c : Char) : Ending :=
  let kind := Kind.ofChar c
  { last := kind
    pictograph := kind == .pictograph || (kind == .extending && e.pictograph)
    joined := kind == .joiner && e.pictograph
    halfFlag := kind == .flagLetter && !(e.last == .flagLetter && e.halfFlag)
    conjunct := e.conjunctBehind c kind }

end Ending

/-- The rest of the cluster that a text ends with, and the clusters behind it. -/
def clustersFrom (e : Ending) : List Char → List Char × List (List Char)
  | [] => ([], [])
  | c :: cs =>
    let (rest, later) := clustersFrom (e.add c) cs
    if e.joins c then (c :: rest, later) else ([], (c :: rest) :: later)

/-- The clusters of a text. -/
def clusters (cs : List Char) : List (List Char) := (clustersFrom .start cs).2

theorem flatten_clustersFrom (e : Ending) (cs : List Char) :
    (clustersFrom e cs).1 ++ (clustersFrom e cs).2.flatten = cs := by
  induction cs generalizing e with
  | nil => rfl
  | cons c cs ih =>
    unfold clustersFrom
    have := ih (e.add c)
    by_cases h : e.joins c = true <;> simp [h, this]

/-- The empty text has no cluster for a character to join. -/
theorem clustersFrom_start (cs : List Char) : (clustersFrom .start cs).1 = [] := by
  cases cs with
  | nil => rfl
  | cons c cs =>
    have : Ending.start.joins c = false := by simp [Ending.joins, Ending.start, Kind.isControl]
    simp [clustersFrom, this]

theorem nil_notMem_clustersFrom (e : Ending) (cs : List Char) : [] ∉ (clustersFrom e cs).2 := by
  induction cs generalizing e with
  | nil => simp [clustersFrom]
  | cons c cs ih =>
    unfold clustersFrom
    by_cases h : e.joins c = true
    · simpa [h] using ih (e.add c)
    · simpa [h] using ih (e.add c)

theorem nil_notMem_clusters (cs : List Char) : [] ∉ clusters cs :=
  nil_notMem_clustersFrom .start cs

theorem flatten_clusters (cs : List Char) : (clusters cs).flatten = cs := by
  have := flatten_clustersFrom .start cs
  rwa [clustersFrom_start, List.nil_append] at this

end ByteMachine.Text
