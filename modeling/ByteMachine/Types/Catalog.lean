import ByteMachine.Types.Ty

/-!
# The catalog of types

A machine numbers the types it meets in the order in which it meets them: first the scalars and
`type_t`, then `any*` and `char*`, which the built-in functions need, then whatever the
statements mention. The numbers show in listings of code; and a byte read as a `type_t` stands
only for a type that the catalog holds. A number keeps its meaning as long as the catalog only grows;
read through a catalog made anew it may stand for another type.

Key definitions: `Catalog`, `Catalog.bare`, `Catalog.standard`, `Catalog.intern`,
`Catalog.number`, `Catalog.reread`.
Key theorem: `Catalog.reread_of_prefix`, in a catalog that has grown every number means the same.
-/

namespace ByteMachine

/-- The word size of a machine and the types met so far, in order and without repetition. -/
structure Catalog where
  word : Nat
  known : List Ty
deriving DecidableEq, Repr, Inhabited

namespace Catalog

/-- The word sizes a machine may have. -/
def isWordSize (word : Nat) : Bool := word = 2 || word = 4 || word = 8

/-- The catalog of the types with a keyword. -/
def bare (word : Nat) : Catalog := ⟨word, Scalar.all.map Ty.scalar ++ [Ty.descriptor]⟩

/-- The catalog with the type added, unless it is there already. -/
def intern (c : Catalog) (t : Ty) : Catalog :=
  if t ∈ c.known then c else { c with known := c.known ++ [t] }

def internAll (c : Catalog) (ts : List Ty) : Catalog := ts.foldl intern c

/-- The catalog of a new machine. -/
def standard (word : Nat) : Catalog := (bare word).internAll [Ty.anyPointer, Ty.charPointer]

/-- The number of a type: its position in the catalog. -/
def number (c : Catalog) (t : Ty) : Nat := c.known.idxOf t

/-- What the number of a type means in another catalog. A type without a number, and one whose
number the other catalog does not have, stays. -/
def reread (c new : Catalog) (t : Ty) : Ty :=
  if t ∈ c.known then (new.known[c.number t]?).getD t else t

/-- The pointer with `stars` stars on a type that is no pointer itself, if it was met. -/
def pointer? (c : Catalog) (target : Ty) (stars : Nat) : Option Ty :=
  if target.stars = 0 && 0 < stars && target.starred stars ∈ c.known then
    some (target.starred stars)
  else none

/-- A type, if it was met. -/
def met? (c : Catalog) (t : Ty) : Option Ty := if t ∈ c.known then some t else none

def size (c : Catalog) (t : Ty) : Nat := t.size c.word

/-- The catalog after the type was decayed, which adds the pointer an array decays to. -/
def internDecay (c : Catalog) (t : Ty) : Catalog :=
  if t.isArray then
    match t.decay with
    | .pointer target => c.intern (.pointer target)
    | _ => c
  else c

/-- The catalog after two types were compared. -/
def internCompared (c : Catalog) (a b : Ty) : Catalog := (c.internDecay a).internDecay b

@[simp] theorem intern_word (c : Catalog) (t : Ty) : (c.intern t).word = c.word := by
  unfold intern; split <;> rfl

theorem mem_intern {c : Catalog} {s t : Ty} : s ∈ (c.intern t).known ↔ s ∈ c.known ∨ s = t := by
  unfold intern
  split
  · constructor
    · exact Or.inl
    · rintro (h | rfl) <;> assumption
  · simp

/-- Adding a type never moves the ones before it. -/
theorem known_prefix_intern (c : Catalog) (t : Ty) : c.known <+: (c.intern t).known := by
  unfold intern
  split
  · exact List.prefix_rfl
  · exact List.prefix_append _ _

theorem reread_of_prefix {c new : Catalog} (h : c.known <+: new.known) (t : Ty) :
    c.reread new t = t := by
  unfold reread
  split
  · next mem =>
    obtain ⟨rest, h⟩ := h
    have lt : c.number t < c.known.length := List.idxOf_lt_length_of_mem mem
    rw [← h, List.getElem?_append_left lt, List.getElem?_eq_getElem lt]
    exact List.getElem_idxOf lt
  · rfl

end Catalog

end ByteMachine
