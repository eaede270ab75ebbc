import ByteMachine.Identifier
import ByteMachine.Literal

/-!
# Statements and their code

A statement is an expression, an assignment or a declaration. All binary operators bind alike
and to the left. `Expr.compile` and `Statement.compile` give the straight-line code that a
machine runs on its operand stack: each operand before its operator, arguments before the call.

Each instruction has a fixed effect on the stack:

* `push`, `pushTyped`, `pushName` push one operand;
* `addressOf`, `dereference` replace the top;
* `index`, `binary` and `assign` replace the two on top by one;
* `create` pushes the variable it makes; a scalar or a reference pops its initial value first;
* `call` pops its arguments and pushes its result, if the function has one;
* `discard` pops.

Key definitions: `Operator`, `Expr`, `Statement`, `Instr`, `Expr.compile`, `Statement.compile`,
`Instr.listing`.
-/

namespace ByteMachine

/-- The binary operators. -/
inductive Operator where
  | add
  | sub
  | mul
  | div
  | mod
deriving DecidableEq, Repr, Inhabited

namespace Operator

def symbol : Operator → Char
  | add => '+'
  | sub => '-'
  | mul => '*'
  | div => '/'
  | mod => '%'

def ofSymbol? (c : Char) : Option Operator :=
  if c = '+' then some add
  else if c = '-' then some sub
  else if c = '*' then some mul
  else if c = '/' then some div
  else if c = '%' then some mod
  else none

theorem ofSymbol?_symbol (op : Operator) : ofSymbol? op.symbol = some op := by cases op <;> rfl

end Operator

/-- An expression. -/
inductive Expr where
  | literal (value : Literal)
  | null
  /-- A type as an argument of a call. -/
  | typeName (type : Ty)
  | name (id : Identifier)
  | negate (e : Expr)
  /-- A run of stars before an expression. -/
  | dereference (levels : Nat) (e : Expr)
  | addressOf (e : Expr)
  | index (base position : Expr)
  | binary (op : Operator) (left right : Expr)
  | newObject (type : Ty)
  | newArray (type : Ty) (count : Expr)
  | delete (e : Expr)
  | call (function : String) (arguments : List Expr)
deriving Repr, Inhabited

namespace Expr

mutual

/-- Whether two expressions are the same. -/
def same : Expr → Expr → Bool
  | literal v, literal w => v = w
  | null, null => true
  | typeName t, typeName u => t = u
  | name id, name other => id = other
  | negate e, negate f => e.same f
  | dereference levels e, dereference others f => levels = others && e.same f
  | addressOf e, addressOf f => e.same f
  | index b p, index c q => b.same c && p.same q
  | binary op l r, binary other m s => op = other && l.same m && r.same s
  | newObject t, newObject u => t = u
  | newArray t e, newArray u f => t = u && e.same f
  | delete e, delete f => e.same f
  | call function es, call other fs => function = other && sameAll es fs
  | _, _ => false

def sameAll : List Expr → List Expr → Bool
  | [], [] => true
  | e :: es, f :: fs => e.same f && sameAll es fs
  | _, _ => false

end

mutual

theorem same_iff : ∀ e f : Expr, e.same f = true ↔ e = f
  | literal _, f | null, f | typeName _, f | name _, f | newObject _, f => by
    cases f <;> simp [same]
  | negate e, f => by cases f <;> simp [same, same_iff e]
  | addressOf e, f => by cases f <;> simp [same, same_iff e]
  | delete e, f => by cases f <;> simp [same, same_iff e]
  | dereference _ e, f => by cases f <;> simp [same, same_iff e]
  | newArray _ e, f => by cases f <;> simp [same, same_iff e]
  | index b p, f => by cases f <;> simp [same, same_iff b, same_iff p]
  | binary _ l r, f => by cases f <;> simp [same, same_iff l, same_iff r, and_assoc]
  | call _ es, f => by cases f <;> simp [same, sameAll_iff es]

theorem sameAll_iff : ∀ es fs : List Expr, sameAll es fs = true ↔ es = fs
  | [], fs => by cases fs <;> simp [sameAll]
  | e :: es, fs => by cases fs <;> simp [sameAll, same_iff e, sameAll_iff es]

end

instance : DecidableEq Expr := fun e f => decidable_of_iff _ (same_iff e f)

end Expr

/-- A statement. -/
inductive Statement where
  | expression (e : Expr)
  | assignment (target value : Expr)
  | scalarDeclaration (type : Ty) (id : Identifier) (initial : Option Expr)
  | referenceDeclaration (type : Ty) (id : Identifier) (source : Expr)
  | arrayDeclaration (type : Ty) (id : Identifier)
  | textDeclaration (type : Ty) (id : Identifier) (text : String)
  | listDeclaration (type : Ty) (id : Identifier) (elements : List Expr)
deriving DecidableEq, Repr, Inhabited

/-- One step of the code of a statement. -/
inductive Instr where
  | push (value : Literal)
  /-- Pushes a value with a type that is not its own: null is an `any*`. -/
  | pushTyped (value : Literal) (type : Ty)
  | pushName (id : Identifier)
  | addressOf
  | dereference (levels : Nat)
  | index
  | binary (op : Operator)
  | assign
  | create (type : Ty) (id : Identifier) (initialized : Bool)
  | call (function : String) (count : Nat)
  | discard
deriving DecidableEq, Repr, Inhabited

/-- An instruction in a listing of code. -/
def Instr.listing (c : Catalog) : Instr → String
  | push v | pushTyped v _ => "push " ++ v.listing c
  | pushName id => "push " ++ id.text
  | addressOf => "addr"
  | dereference levels => "deref " ++ toString levels
  | index => "index"
  | binary op => "binary " ++ String.singleton op.symbol
  | assign => "assign"
  | create _ id _ => "create " ++ id.text
  | call function count => "call " ++ function ++ "/" ++ toString count
  | discard => "discard"

namespace Expr

mutual

/-- The code that leaves the value of an expression on the stack. -/
def compile : Expr → List Instr
  | literal v => [.push v]
  | null => [.pushTyped (.integer 0) Ty.anyPointer]
  | typeName t => [.push (.type t)]
  | name id => [.pushName id]
  | negate e => .push (.integer 0) :: (e.compile ++ [.binary .sub])
  | dereference levels e => e.compile ++ [.dereference levels]
  | addressOf e => e.compile ++ [.addressOf]
  | index base position => base.compile ++ (position.compile ++ [.index])
  | binary op left right => left.compile ++ (right.compile ++ [.binary op])
  | newObject t => [.push (.type t), .call "new" 1]
  | newArray t count => .push (.type t) :: (count.compile ++ [.call "new[]" 2])
  | delete e => e.compile ++ [.call "delete" 1]
  | call function arguments => compileAll arguments ++ [.call function arguments.length]

/-- The code that leaves the values of some expressions on the stack, the last one on top. -/
def compileAll : List Expr → List Instr
  | [] => []
  | e :: es => e.compile ++ compileAll es

end

end Expr

namespace Statement

/-- The code that stores the elements of an initializer list from position `i` on. -/
def storeElements (id : Identifier) : Nat → List Expr → List Instr
  | _, [] => []
  | i, e :: es =>
    [.pushName id, .push (.integer i), .index] ++ (e.compile ++ [.assign, .discard]) ++
      storeElements id (i + 1) es

/-- The code of a statement. -/
def compile : Statement → List Instr
  | expression e => e.compile
  | assignment target value => target.compile ++ (value.compile ++ [.assign])
  | scalarDeclaration t id none => [.create t id false]
  | scalarDeclaration t id (some e) => e.compile ++ [.create t id true]
  | referenceDeclaration t id source => source.compile ++ [.create t id true]
  | arrayDeclaration t id => [.create t id false]
  | textDeclaration t id text =>
    [.create t id true, .pushName id, .push (.text text), .assign, .discard]
  | listDeclaration t id elements => .create t id true :: storeElements id 0 elements

end Statement

end ByteMachine
