import ByteMachine.Machine.Builtin
import ByteMachine.Statement.Tree

/-!
# What code does to the stack

Every instruction takes a number of operands from the stack and leaves a number of new ones in
their place, whatever the operands are, and so does code, whose effect is that of its instructions
one after the other. The code of an expression leaves one operand, or none if it is itself a call
of a function without a result. It takes none that was there before, unless such a call is used
as an operand inside of it: each of these takes one operand that is not the expression's own.

Key definitions: `Effect`, `Effect.andThen`, `Instr.effect`, `Code.effect`, `Expr.results`,
`Expr.misuses`, `Statement.misuses`.
Key theorems: `Effect.Turns.andThen`, `Code.effect_append`, `Expr.effect_compile`,
`Statement.effect_compile`.
-/

namespace ByteMachine

/-- How many operands are taken from a stack and how many are left in their place. -/
structure Effect where
  takes : Nat
  gives : Nat
deriving DecidableEq, Repr

namespace Effect

/-- Nothing is taken and nothing left. -/
def still : Effect := ⟨0, 0⟩

/-- One effect after another. The second takes what the first has left before it takes more. -/
def andThen (e f : Effect) : Effect :=
  ⟨e.takes + (f.takes - e.gives), f.gives + (e.gives - f.takes)⟩

@[simp] theorem still_andThen (e : Effect) : still.andThen e = e := by
  simp [andThen, still]

@[simp] theorem andThen_still (e : Effect) : e.andThen still = e := by
  simp [andThen, still]

theorem andThen_assoc (e f g : Effect) : (e.andThen f).andThen g = e.andThen (f.andThen g) := by
  simp only [andThen, mk.injEq]
  omega

/-- The stack `new` is `old` with the operands taken and others left in their place. -/
def Turns {α : Type} (e : Effect) (old new : List α) : Prop :=
  e.takes ≤ old.length ∧ ∃ ps, ps.length = e.gives ∧ new = ps ++ old.drop e.takes

/-- What lies below the operands that may be taken is still there. -/
def Spares {α : Type} (e : Effect) (old new : List α) : Prop := ∃ ps, new = ps ++ old.drop e.takes

section

variable {α : Type} {e f : Effect} {a b c : List α}

theorem turns_still (a : List α) : still.Turns a a := ⟨Nat.zero_le _, [], rfl, rfl⟩

theorem spares_refl (e : Effect) (a : List α) : e.Spares a a :=
  ⟨a.take e.takes, (List.take_append_drop _ _).symm⟩

theorem Turns.spares (h : e.Turns a b) : e.Spares a b := by
  obtain ⟨-, ps, -, rfl⟩ := h
  exact ⟨ps, rfl⟩

/-- What is spared of a stack is spared by those that may take more. -/
theorem Spares.widen (h : e.Spares a b) (f : Effect) : (e.andThen f).Spares a b := by
  obtain ⟨ps, rfl⟩ := h
  refine ⟨ps ++ (a.drop e.takes).take (f.takes - e.gives), ?_⟩
  rw [List.append_assoc, andThen, ← List.drop_drop, List.take_append_drop]

theorem Turns.andThen_spares (h : e.Turns a b) (k : f.Spares b c) : (e.andThen f).Spares a c := by
  obtain ⟨-, ps, length, rfl⟩ := h
  obtain ⟨qs, rfl⟩ := k
  refine ⟨qs ++ ps.drop f.takes, ?_⟩
  rw [List.append_assoc, List.drop_append, andThen, List.drop_drop, length]

theorem Turns.andThen (h : e.Turns a b) (k : f.Turns b c) : (e.andThen f).Turns a c := by
  obtain ⟨low, ps, length, rfl⟩ := h
  obtain ⟨low', qs, length', rfl⟩ := k
  rw [List.length_append, List.length_drop] at low'
  refine ⟨by simp only [Effect.andThen]; omega, qs ++ ps.drop f.takes, ?_, ?_⟩
  · rw [List.length_append, List.length_drop, length, length', Effect.andThen]
  · rw [List.append_assoc, List.drop_append, Effect.andThen, List.drop_drop, length]

end

end Effect

/-! ### Instructions and code -/

/-- How many operands a function leaves on the stack. -/
def Builtin.results (f : Builtin) : Nat := if f.hasResult then 1 else 0

/-- How many operands the call of a function leaves. A call of a function that there is not fails;
it counts as one with a result. -/
def resultsOf (function : String) : Nat :=
  match Builtin.ofName? function with
  | some f => f.results
  | none => 1

/-- What an instruction does to the stack. -/
def Instr.effect : Instr → Effect
  | .push _ | .pushTyped _ _ | .pushName _ => ⟨0, 1⟩
  | .addressOf | .dereference _ => ⟨1, 1⟩
  | .index | .binary _ | .assign => ⟨2, 1⟩
  | .create (.reference _) _ _ => ⟨1, 1⟩
  | .create (.array _ _) _ _ => ⟨0, 1⟩
  | .create _ _ initialized => ⟨if initialized then 1 else 0, 1⟩
  | .call function count => ⟨count, resultsOf function⟩
  | .discard => ⟨1, 0⟩

namespace Code

/-- What code does to the stack. -/
def effect : List Instr → Effect
  | [] => .still
  | i :: is => i.effect.andThen (effect is)

@[simp] theorem effect_nil : effect [] = .still := rfl

@[simp] theorem effect_cons (i : Instr) (is : List Instr) :
    effect (i :: is) = i.effect.andThen (effect is) := rfl

@[simp] theorem effect_append : ∀ is js : List Instr,
    effect (is ++ js) = (effect is).andThen (effect js)
  | [], js => (Effect.still_andThen _).symm
  | i :: is, js => by
    rw [List.cons_append, effect_cons, effect_cons, effect_append is js, Effect.andThen_assoc]

end Code

/-! ### Expressions -/

namespace Expr

/-- How many operands the value of an expression is: none for a call of a function without a
result, else one. -/
def results : Expr → Nat
  | delete _ => resultsOf "delete"
  | call function _ => resultsOf function
  | _ => 1

/-- How many operands are missing where one should be left by an expression. -/
def lack (e : Expr) : Nat := 1 - e.results

mutual

/-- How many calls without a result are used as operands, indices or arguments in an
expression. -/
def misuses : Expr → Nat
  | literal _ | null | typeName _ | name _ | newObject _ => 0
  | negate e | dereference _ e | addressOf e | newArray _ e | delete e => e.misuses + e.lack
  | index l r | binary _ l r => l.misuses + l.lack + (r.misuses + r.lack)
  | call _ arguments => misusesAll arguments

/-- The calls without a result in some expressions, each of which should leave an operand. -/
def misusesAll : List Expr → Nat
  | [] => 0
  | e :: es => e.misuses + e.lack + misusesAll es

end

theorem results_le (e : Expr) : e.results ≤ 1 := by
  have call (function : String) : resultsOf function ≤ 1 := by
    unfold resultsOf
    split
    · unfold Builtin.results
      split <;> omega
    · exact Nat.le_refl 1
  unfold results
  split
  · exact call _
  · exact call _
  · exact Nat.le_refl 1

theorem results_add_lack (e : Expr) : e.results + e.lack = 1 := by
  have := e.results_le
  unfold lack
  omega

/-- The effects of two operands and of an instruction that takes both. -/
theorem andThen_both (l r : Expr) :
    ((Effect.mk l.misuses l.results).andThen ⟨r.misuses, r.results⟩).andThen ⟨2, 1⟩ =
      ⟨l.misuses + l.lack + (r.misuses + r.lack), 1⟩ := by
  have := l.results_add_lack
  have := r.results_add_lack
  simp only [Effect.andThen, Effect.mk.injEq]
  omega

/-- The effects of an operand and of an instruction that takes it. -/
theorem andThen_one (e : Expr) (gives : Nat) :
    (Effect.mk e.misuses e.results).andThen ⟨1, gives⟩ = ⟨e.misuses + e.lack, gives⟩ := by
  have := e.results_add_lack
  simp only [Effect.andThen, Effect.mk.injEq]
  omega

/-- The effects of an operand that is always there, of one more and of an instruction that takes
both. -/
theorem andThen_second (e : Expr) :
    (Effect.mk 0 1).andThen ((Effect.mk e.misuses e.results).andThen ⟨2, 1⟩) =
      ⟨e.misuses + e.lack, 1⟩ := by
  have := e.results_add_lack
  simp only [Effect.andThen, Effect.mk.injEq]
  omega

mutual

/-- The code of an expression leaves what the expression is, and takes an operand from below for
each misuse. -/
theorem effect_compile : ∀ e : Expr, Code.effect e.compile = ⟨e.misuses, e.results⟩
  | literal _ | null | typeName _ | name _ | newObject _ => rfl
  | negate e => by
    simp only [compile, Code.effect_cons, Code.effect_append, effect_compile e, Code.effect_nil,
      Effect.andThen_still]
    exact e.andThen_second
  | newArray t e => by
    simp only [compile, Code.effect_cons, Code.effect_append, effect_compile e, Code.effect_nil,
      Effect.andThen_still]
    exact e.andThen_second
  | dereference levels e => by
    simp only [compile, Code.effect_append, effect_compile e, Code.effect_cons, Code.effect_nil,
      Effect.andThen_still]
    exact e.andThen_one 1
  | addressOf e => by
    simp only [compile, Code.effect_append, effect_compile e, Code.effect_cons, Code.effect_nil,
      Effect.andThen_still]
    exact e.andThen_one 1
  | delete e => by
    simp only [compile, Code.effect_append, effect_compile e, Code.effect_cons, Code.effect_nil,
      Effect.andThen_still]
    exact e.andThen_one _
  | index l r => by
    simp only [compile, Code.effect_append, effect_compile l, effect_compile r, Code.effect_cons,
      Code.effect_nil, Effect.andThen_still, ← Effect.andThen_assoc]
    exact l.andThen_both r
  | binary op l r => by
    simp only [compile, Code.effect_append, effect_compile l, effect_compile r, Code.effect_cons,
      Code.effect_nil, Effect.andThen_still, ← Effect.andThen_assoc]
    exact l.andThen_both r
  | call function arguments => by
    obtain ⟨few, all⟩ := effect_compileAll arguments
    rw [compile, Code.effect_append, Code.effect_cons, Code.effect_nil, Effect.andThen_still]
    simp only [Instr.effect, Effect.andThen, misuses, results, Effect.mk.injEq]
    omega

/-- The code of some expressions leaves at most one operand for each, and each that is not left
or is taken from below is a misuse. -/
theorem effect_compileAll : ∀ es : List Expr,
    (Code.effect (compileAll es)).gives ≤ es.length ∧
      (Code.effect (compileAll es)).takes +
        (es.length - (Code.effect (compileAll es)).gives) = misusesAll es
  | [] => ⟨Nat.le_refl 0, rfl⟩
  | e :: es => by
    obtain ⟨few, all⟩ := effect_compileAll es
    have := e.results_add_lack
    simp only [compileAll, Code.effect_append, effect_compile e, Effect.andThen, misusesAll,
      List.length_cons]
    omega

end

end Expr

/-! ### Statements -/

namespace Statement

/-- A declaration whose type is of the kind that it declares. -/
def Shaped : Statement → Prop
  | scalarDeclaration t _ _ => t.isReference = false ∧ t.isArray = false
  | referenceDeclaration t _ _ => t.isReference = true
  | arrayDeclaration t _ | textDeclaration t _ _ | listDeclaration t _ _ =>
    ∃ element count, t = .array element count
  | expression _ | assignment _ _ => True

/-- How many calls without a result are used for their value in a statement. -/
def misuses : Statement → Nat
  | expression e => e.misuses
  | assignment target value => target.misuses + target.lack + (value.misuses + value.lack)
  | scalarDeclaration _ _ (some e) | referenceDeclaration _ _ e => e.misuses + e.lack
  | scalarDeclaration _ _ none | arrayDeclaration _ _ | textDeclaration _ _ _ => 0
  | listDeclaration _ _ es => Expr.misusesAll es

/-- How many operands a statement leaves, at most one. -/
def results : Statement → Nat
  | expression e => e.results
  | _ => 1

/-- Each element takes and leaves nothing, but for what is missing in it. -/
theorem effect_storeElements (id : Identifier) : ∀ (i : Nat) (es : List Expr),
    Code.effect (storeElements id i es) = ⟨Expr.misusesAll es, 0⟩
  | _, [] => rfl
  | i, e :: es => by
    have := e.results_add_lack
    simp only [storeElements, Code.effect_append, Code.effect_cons, Code.effect_nil,
      e.effect_compile, effect_storeElements id (i + 1) es, Instr.effect, Expr.misusesAll,
      Effect.andThen, Effect.still, Effect.mk.injEq]
    omega

theorem effect_create_scalar {t : Ty} (plain : t.isReference = false) (single : t.isArray = false)
    (id : Identifier) (initialized : Bool) :
    (Instr.create t id initialized).effect = ⟨if initialized then 1 else 0, 1⟩ := by
  cases t with
  | reference => cases plain
  | array => cases single
  | _ => rfl

/-- What a statement leaves and takes, as for an expression; but in an initializer list the
variable itself is there to be taken first. -/
theorem effect_compile {s : Statement} (shaped : s.Shaped) : Code.effect s.compile =
    match s with
    | listDeclaration _ _ es => ⟨Expr.misusesAll es - 1, 1 - Expr.misusesAll es⟩
    | s => ⟨s.misuses, s.results⟩ := by
  cases s with
  | expression e => exact e.effect_compile
  | assignment target value =>
    simp only [compile, Code.effect_append, target.effect_compile, value.effect_compile,
      Code.effect_cons, Code.effect_nil, Effect.andThen_still, ← Effect.andThen_assoc]
    exact target.andThen_both value
  | scalarDeclaration t id initial =>
    cases initial with
    | none =>
      simp only [compile, Code.effect_cons, effect_create_scalar shaped.1 shaped.2,
        Code.effect_nil, Effect.andThen_still]
      rfl
    | some e =>
      simp only [compile, Code.effect_append, e.effect_compile, Code.effect_cons,
        effect_create_scalar shaped.1 shaped.2, Code.effect_nil, Effect.andThen_still]
      exact e.andThen_one 1
  | referenceDeclaration t id source =>
    cases t with
    | reference target =>
      simp only [compile, Code.effect_append, source.effect_compile, Code.effect_cons,
        Code.effect_nil, Effect.andThen_still]
      exact source.andThen_one 1
    | _ => cases shaped
  | arrayDeclaration t id =>
    obtain ⟨element, count, rfl⟩ := shaped
    rfl
  | textDeclaration t id text =>
    obtain ⟨element, count, rfl⟩ := shaped
    rfl
  | listDeclaration t id es =>
    obtain ⟨element, count, rfl⟩ := shaped
    simp only [compile, Code.effect_cons, effect_storeElements, Instr.effect, Effect.andThen]
    simp only [Nat.zero_add]

end Statement

end ByteMachine
