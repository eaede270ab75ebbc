import ByteMachine.Fault
import ByteMachine.Types.Catalog

/-!
# Types in one byte

A value of type `type_t` is stored in one byte: the index of a scalar in the low five bits, the
number of stars in the next two, and the top bit for a reference. The byte `0xff` is `type_t`
itself. An array has no byte of its own and is stored as the pointer to its element.

Reading goes through the catalog: a byte stands only for a type that was met, so any other byte
was not written as a type.

Key definitions: `TypeTag.encode`, `TypeTag.resolve`.
-/

namespace ByteMachine.TypeTag

/-- The byte of `type_t`. -/
def descriptorTag : Nat := 0xff

def referenceWeight : Nat := 0x80

def starWeight : Nat := 0x20

def untaggable (t : Ty) : Except Fault Nat :=
  .error (.typeMismatch "a type with a one-byte tag" t.name)

/-- The number that stands for a type. -/
def number (t : Ty) : Except Fault Nat :=
  match t with
  | .descriptor => .ok descriptorTag
  | .scalar s => .ok s.index
  | .pointer _ =>
    match t.base with
    | .scalar s => if t.stars ≤ Ty.maxStars then .ok (t.stars * starWeight + s.index)
      else untaggable t
    | _ => untaggable t
  | .array e _ =>
    match e.base with
    | .scalar s => if e.stars < Ty.maxStars then .ok ((e.stars + 1) * starWeight + s.index)
      else untaggable t
    | _ => untaggable t
  | .reference target =>
    match number target with
    | .ok inner =>
      if inner = descriptorTag || referenceWeight ≤ inner then untaggable t
      else .ok (referenceWeight + inner)
    | .error fault => .error fault

/-- The byte that stands for a type. -/
def encode (t : Ty) : Except Fault UInt8 := (number t).map UInt8.ofNat

/-- The type that a byte stands for. -/
def resolve (c : Catalog) (tag : UInt8) : Except Fault Ty :=
  if tag.toNat = descriptorTag then .ok .descriptor
  else
    let stars := tag.toNat / starWeight % 4
    let found := do
      let s ← Scalar.ofIndex? (tag.toNat % starWeight)
      let t ← if stars = 0 then some (Ty.scalar s) else c.pointer? (.scalar s) stars
      if referenceWeight ≤ tag.toNat then c.met? (.reference t) else some t
    match found with
    | some t => .ok t
    | none => .error (.invalidTag tag)

end ByteMachine.TypeTag
