import ByteMachine.Identifier
import ByteMachine.Literal

/-!
# Variables

A variable has a name, a type and a span of bytes. An owner, be it plain, a pointer or an array,
has its bytes to itself; an alias, a reference, is registered at the address of its target and
owns nothing; a temporary is a computed value that is never registered.

Key definitions: `Role`, `Role.ofType`, `Variable`, `Variable.owner`, `Variable.stop`,
`Variable.spans`, `Variable.retype`.
-/

namespace ByteMachine

/-- What a variable was made as. -/
inductive Role where
  | plain
  | pointer
  | array (element : Ty) (count : Nat)
  | reference (target : Identifier)
  | temporary (value : Literal)
deriving DecidableEq, Repr, Inhabited

namespace Role

/-- What an owner of the given type is made as. -/
def ofType : Ty → Role
  | .pointer _ => pointer
  | .array e n => array e n
  | _ => plain

/-- The role with the types in it changed. -/
def retype (f : Ty → Ty) : Role → Role
  | array e n => array (f e) n
  | r => r

@[simp] theorem retype_id (r : Role) : r.retype (fun t => t) = r := by cases r <;> rfl

end Role

/-- A variable, or the result of a statement. -/
structure Variable where
  id : Identifier
  type : Ty
  address : Nat
  size : Nat
  role : Role
deriving DecidableEq, Repr, Inhabited

namespace Variable

/-- A variable that owns bytes for its type. -/
def owner (c : Catalog) (id : Identifier) (type : Ty) (address : Nat) : Variable :=
  ⟨id, type, address, c.size type, .ofType type⟩

def isAlias (v : Variable) : Bool :=
  match v.role with
  | .reference _ => true
  | _ => false

def isTemporary (v : Variable) : Bool :=
  match v.role with
  | .temporary _ => true
  | _ => false

/-- The address behind the last byte. -/
def stop (v : Variable) : Nat := v.address + v.size

/-- Whether `length` bytes from `address` on lie inside the variable. -/
def spans (v : Variable) (address length : Nat) : Bool :=
  v.address ≤ address && address + length ≤ v.stop

/-- The variable with its types changed; its bytes stay. -/
def retype (f : Ty → Ty) (v : Variable) : Variable :=
  { v with type := f v.type, role := v.role.retype f }

@[simp] theorem retype_id (v : Variable) : v.retype (fun t => t) = v := by simp [retype]

end Variable

end ByteMachine
