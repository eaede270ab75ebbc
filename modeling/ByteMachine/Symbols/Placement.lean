import ByteMachine.Symbols.SplitMix

/-!
# Where new variables go

Two ways to choose an address. Aligned placement takes the first word-aligned address with
enough room behind it, from the first word on, so that no variable is at address zero. Scattered
placement draws addresses from the stream of the table and gives up after a fixed number.

Key definitions: `Placement`, `Placement.aligned?`, `Placement.scattered?`, `Placement.slot?`.
-/

namespace ByteMachine

/-- How addresses are chosen. -/
inductive Placement where
  | aligned
  | scattered
deriving DecidableEq, Repr, Inhabited

namespace Placement

/-- The other way. -/
def flip : Placement → Placement
  | aligned => scattered
  | scattered => aligned

def name : Placement → String
  | aligned => "aligned"
  | scattered => "scattered"

/-- How many addresses are drawn before giving up. -/
def attempts : Nat := 100

/-- The first of the `count` addresses `a`, `a + step`, … that is free. -/
def firstFree? (isFree : Nat → Bool) (step : Nat) : Nat → Nat → Option Nat
  | 0, _ => none
  | count + 1, a => if isFree a then some a else firstFree? isFree step count (a + step)

/-- The lowest free address that is a positive multiple of the word size and not above `last`. -/
def aligned? (isFree : Nat → Bool) (word last : Nat) : Option Nat :=
  firstFree? isFree word (last / word) word

/-- The first free one of at most `count` addresses drawn from 1 up to `last`, and the stream
behind it. -/
def scattered? (isFree : Nat → Bool) (last : Nat) : Nat → SplitMix → Option (Nat × SplitMix)
  | 0, _ => none
  | count + 1, stream =>
    let (a, behind) := stream.draw 1 last
    if isFree a then some (a, behind) else scattered? isFree last count behind

/-- An address for `size` bytes below `capacity`, and the stream behind it. -/
def slot? (p : Placement) (isFree : Nat → Bool) (stream : SplitMix) (size capacity word : Nat) :
    Option (Nat × SplitMix) :=
  if size = 0 || capacity ≤ size then none
  else
    match p with
    | aligned => (aligned? isFree word (capacity - size)).map fun a => (a, stream)
    | scattered => scattered? isFree (capacity - size) attempts stream

end Placement

end ByteMachine
