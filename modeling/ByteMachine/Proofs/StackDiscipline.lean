import ByteMachine.Proofs.Reachability
import ByteMachine.Proofs.Steadiness

/-!
# Operands of one's own

Code that succeeds takes from the stack as many operands as its effect says, and what lies below
them is spared even if it fails. For an expression in which no call without a result is used for
its value this is none: from any stack it fails or leaves one operand on top, or none if it is
such a call itself. So a statement that is committed uses no such call for its value, with one
exception. While an initializer list is stored the variable itself and the element lie on the
stack, and one call without a result among the operands of an element takes what is not its own
and leaves the statement without a result.

Key definitions: `Parser.Gives`, `Statement.declared?`, `Statement.overtakes`.
Key theorems: `Run.expression_stack`, `Run.own_operands`, `Statement.shaped_of_parse`,
`Run.result_of_declaration`, `Machine.stack_discipline`.
-/

namespace ByteMachine

open Discipline

/-! ### The types of declarations -/

namespace Parser

variable {α β : Type} {x : Parser α} {post : α → Prop}

/-- Every result of a reader is as described. -/
def Gives (x : Parser α) (post : α → Prop) : Prop := ∀ r a, (x.run.run r).1 = .ok a → post a

theorem gives_pure {a : α} (h : post a) : Gives (pure a) post := fun _ _ e => by
  cases e
  exact h

theorem gives_throw (fault : SyntaxFault) : Gives (throw fault) post := fun _ _ e => nomatch e

theorem gives_any (x : Parser α) : Gives x fun _ => True := fun _ _ _ => trivial

theorem Gives.bind {mid : α → Prop} (hx : Gives x mid) {f : α → Parser β} {post : β → Prop}
    (hf : ∀ a, mid a → Gives (f a) post) : Gives (x >>= f) post := by
  intro r b e
  rw [run_bind] at e
  rcases k : x.run.run r with ⟨fault | a, u⟩ <;> rw [k] at e
  · cases e
  · exact hf a (hx r a (by rw [k])) u b e

theorem gives_fail (cause : SyntaxCause) : Gives (fail cause) post :=
  (gives_any column).bind fun _ _ => gives_throw _

/-- What is read after anything. -/
theorem gives_bind {f : α → Parser β} {post : β → Prop} (hf : ∀ a, Gives (f a) post) :
    Gives (x >>= f) post :=
  (gives_any x).bind fun a _ => hf a

theorem built_gives {t : Except TypeFault Ty} {post : Ty → Prop} (h : ∀ u, t = .ok u → post u) :
    Gives (built t) post := by
  unfold built
  split
  · next u => exact gives_bind fun _ => gives_pure (h u rfl)
  · exact gives_fail _

/-- Neither a reference nor an array. -/
def Single (t : Ty) : Prop := t.isReference = false ∧ t.isArray = false

theorem single_pointerTo : ∀ {t u : Ty}, t.pointerTo = .ok u → Single u
  | .reference target, u, e => single_pointerTo (t := target) e
  | .scalar _, u, e | .descriptor, u, e | .pointer _, u, e | .array _ _, u, e => by
    unfold Ty.pointerTo at e
    split at e <;> cases e
    exact ⟨rfl, rfl⟩

theorem stars_gives : ∀ (fuel : Nat) {t : Ty}, Single t → Gives (stars fuel t) Single
  | 0, _, h => gives_pure h
  | fuel + 1, t, h => by
    refine gives_bind fun star => ?_
    split
    · exact (built_gives fun u e => single_pointerTo e).bind fun u k => stars_gives fuel k
    · exact gives_pure h

theorem type_gives : Gives type Single := by
  refine gives_bind fun token => ?_
  split
  · split
    · next t e =>
      have single : Single t := by
        unfold Ty.ofKeyword? at e
        split at e
        · cases e
          exact ⟨rfl, rfl⟩
        · obtain ⟨s, -, rfl⟩ := Option.map_eq_some_iff.1 e
          exact ⟨rfl, rfl⟩
      exact gives_bind fun fuel => stars_gives fuel single
    · exact gives_fail _
  · exact gives_fail _

variable {scope : Scope}

theorem arrayDeclaration_gives (element : Ty) (id : Identifier) :
    Gives (arrayDeclaration scope element id) Statement.Shaped := by
  have array (count : Nat) : Gives (built (Ty.arrayOf scope.word element count)) fun t =>
      ∃ element count, t = .array element count :=
    built_gives fun t e => ⟨element, count, Ty.arrayOf_eq_ok e⟩
  refine gives_bind fun count => gives_bind fun initialized => ?_
  split
  · split
    · exact gives_fail _
    · next count =>
      refine gives_bind fun last => ?_
      split
      · exact gives_fail _
      · exact (array count).bind fun t h => gives_pure h
  · refine gives_bind fun token => ?_
    split
    · split
      · exact gives_fail _
      · exact gives_bind fun _ => (array _).bind fun t h => gives_pure h
    · refine gives_bind fun _ => gives_bind fun fuel => gives_bind fun es => ?_
      dsimp only
      split
      · exact gives_fail _
      · exact (array _).bind fun t h => gives_pure h

theorem declaration_gives : Gives (declaration scope) Statement.Shaped := by
  refine type_gives.bind fun base single => gives_bind fun isReference => ?_
  refine gives_bind fun id => gives_bind fun bracket => ?_
  split
  · split
    · exact gives_fail _
    · exact arrayDeclaration_gives base id
  · split
    · refine gives_bind fun initialized => ?_
      split
      · refine gives_bind fun source => ?_
        have reference : Gives (built base.referenceTo) fun t => t.isReference = true :=
          built_gives fun t e => (Ty.referenceTo_eq_ok e).1 ▸ rfl
        exact reference.bind fun t h => gives_pure h
      · refine gives_bind fun last => ?_
        split
        · exact gives_throw _
        · exact gives_fail _
    · refine gives_bind fun initialized => ?_
      split
      · exact gives_bind fun e => gives_pure single
      · refine gives_bind fun last => ?_
        split
        · exact gives_pure single
        · exact gives_fail _

theorem assignmentOrExpression_gives :
    Gives (assignmentOrExpression scope) Statement.Shaped := by
  refine gives_bind fun first => gives_bind fun assigned => ?_
  split <;> exact gives_bind fun e => gives_pure trivial

theorem statement_gives {post : Statement → Prop} (declares : Gives (declaration scope) post)
    (computes : Gives (assignmentOrExpression scope) post) :
    Gives (statement scope) fun s? => ∀ s, s? = some s → post s := by
  refine gives_bind fun blank => ?_
  split
  · exact gives_pure fun _ e => nomatch e
  · refine gives_bind fun atType => ?_
    have whole {x : Parser Statement} (h : Gives x post) : Gives (do
        let s ← x
        if (← atEnd) then return some s else fail (.unexpected (← peek)))
        fun s? => ∀ s, s? = some s → post s := by
      refine h.bind fun s described => gives_bind fun last => ?_
      split
      · refine gives_pure fun _ e => ?_
        cases e
        exact described
      · exact gives_bind fun _ => gives_fail _
    split
    · exact whole declares
    · exact whole computes

end Parser

/-- What holds of all declarations and of all else that is read holds of the statement in a line. -/
theorem Statement.of_parse {post : Statement → Prop} {scope : Scope} {line : String} {s : Statement}
    (declares : Parser.Gives (Parser.declaration scope) post)
    (computes : Parser.Gives (Parser.assignmentOrExpression scope) post)
    (e : (parse scope line).1 = .ok (some s)) : post s := by
  have gives := Parser.statement_gives declares computes ⟨lexemes line, []⟩ (some s)
  unfold parse at e
  rcases k : (Parser.statement scope).run.run ⟨lexemes line, []⟩ with ⟨result, reading⟩
  rw [k] at e gives
  exact gives e s rfl

/-- A declaration that is read has a type of its kind. -/
theorem Statement.shaped_of_parse {scope : Scope} {line : String} {s : Statement}
    (e : (parse scope line).1 = .ok (some s)) : s.Shaped :=
  Statement.of_parse Parser.declaration_gives Parser.assignmentOrExpression_gives e

namespace Run

/-! ### Expressions -/

variable {s t : Core}

/-- The code of an expression takes one operand for each misuse in it and leaves its results. What
lies below is spared, also if it fails. -/
theorem expression_stack (e : Expr) (s : Core) : ∃ os,
    ((code e.compile).run.run s).2.stack = os ++ s.stack.drop e.misuses ∧
      (((code e.compile).run.run s).1 = .ok () →
        e.misuses ≤ s.stack.length ∧ os.length = e.results) := by
  obtain ⟨spares, turns⟩ := (code_steady e.compile).moves s
  rw [e.effect_compile] at spares turns
  rcases k : ((code e.compile).run.run s).1 with fault | ⟨⟨⟩⟩
  · obtain ⟨os, stack⟩ := spares
    exact ⟨os, stack, fun e => nomatch e⟩
  · obtain ⟨low, os, length, stack⟩ := turns () k
    exact ⟨os, stack, fun _ => ⟨low, length⟩⟩

/-- Before each instruction of an expression without misuses there are on top of the stack as many
operands of its own as the instruction takes. -/
theorem own_operands {e : Expr} (proper : e.misuses = 0) {is js : List Instr} {i : Instr}
    (split : e.compile = is ++ i :: js) (ok : (code is).run.run s = (.ok (), t)) :
    ∃ os, t.stack = os ++ s.stack ∧ i.effect.takes ≤ os.length := by
  have effect := e.effect_compile
  rw [split, Code.effect_append, Code.effect_cons] at effect
  have takes := congrArg Effect.takes effect
  simp only [Effect.andThen, proper] at takes
  obtain ⟨-, turns⟩ := (code_steady is).moves s
  rw [ok] at turns
  obtain ⟨-, os, length, stack⟩ := turns () rfl
  have none : (Code.effect is).takes = 0 := by omega
  rw [none, List.drop_zero] at stack
  exact ⟨os, stack, by omega⟩

/-! ### Statements -/

theorem code_append (js : List Instr) : ∀ is : List Instr,
    code (is ++ js) = do
      code is
      code js
  | [] => (pure_bind () fun _ => code js).symm
  | i :: is => by
    simp only [List.cons_append, code, code_append js is, bind_assoc]

/-- The variable that was created lies on top. -/
theorem stack_of_create {type : Ty} {id : Identifier} {initialized : Bool}
    (ok : (create type id initialized).run.run s = (.ok (), t)) :
    ∃ os, t.stack = .named id :: os := by
  obtain ⟨table, u, -, ok⟩ := run_bind_eq_ok.1 ok
  have pushed {x : Run Unit} {u : Core}
      (ok : (do x; push (.named id) : Run Unit).run.run u = (.ok (), t)) :
      ∃ os, t.stack = .named id :: os := by
    obtain ⟨_, v, -, ok⟩ := run_bind_eq_ok.1 ok
    cases ok
    exact ⟨v.stack, rfl⟩
  split at ok
  · cases ok
  · dsimp only at ok
    split at ok <;> exact pushed ok

/-- The result of a statement that succeeds is that of the operand that is left, if one is. -/
theorem result_of_statement {is : List Instr} {r : Option Variable}
    (ok : (statement is).run.run s = (.ok r, t)) : ∃ u, (code is).run.run s = (.ok (), u) ∧
      (u.stack = [] ∧ r = none ∨
        ∃ o, u.stack = [o] ∧ ∀ id, o = .named id → ∃ v, r = some v ∧ v.id = id) := by
  obtain ⟨⟨⟩, u, done, ok⟩ := run_bind_eq_ok.1 ok
  refine ⟨u, done, ?_⟩
  obtain ⟨_, _, got, ok⟩ := run_bind_eq_ok.1 ok
  cases got
  split at ok
  · next empty =>
    cases ok
    exact .inl ⟨empty, rfl⟩
  · next o one =>
    refine .inr ⟨o, one, ?_⟩
    rintro id rfl
    obtain ⟨o, w, popped, ok⟩ := run_bind_eq_ok.1 ok
    rw [run_pop, one] at popped
    cases popped
    rw [map_eq_pure_bind] at ok
    obtain ⟨v, w, found, ok⟩ := run_bind_eq_ok.1 ok
    cases ok
    exact ⟨v, rfl, (Symbols.get?_eq_some (lookup_eq_ok found).2).2⟩
  · cases ok

/-- Code that is run from the empty stack takes nothing and leaves what its effect says. -/
theorem stack_of_code {is : List Instr} {u : Core} (empty : s.stack = [])
    (done : (code is).run.run s = (.ok (), u)) :
    (Code.effect is).takes = 0 ∧ u.stack.length = (Code.effect is).gives := by
  obtain ⟨-, turns⟩ := (code_steady is).moves s
  rw [done, empty] at turns
  obtain ⟨low, os, length, stack⟩ := turns () rfl
  refine ⟨Nat.le_zero.1 low, ?_⟩
  rw [stack, List.drop_nil, List.append_nil, length]

end Run

/-! ### Declarations -/

namespace Statement

/-- The variable that a declaration makes. -/
def declared? : Statement → Option Identifier
  | expression _ | assignment _ _ => none
  | scalarDeclaration _ id _ | referenceDeclaration _ id _ | arrayDeclaration _ id
  | textDeclaration _ id _ | listDeclaration _ id _ => some id

/-- How many operands the code behind the creation of a variable takes, which leaves none. -/
def overtakes : Statement → Nat
  | listDeclaration _ _ es => Expr.misusesAll es
  | _ => 0

/-- A declaration creates its variable as its one operand, and then stores values in it. -/
theorem compile_of_declared {s : Statement} (shaped : s.Shaped) {id : Identifier}
    (declares : s.declared? = some id) : ∃ is type initialized js,
      s.compile = is ++ [.create type id initialized] ++ js ∧
      (Code.effect (is ++ [.create type id initialized])).gives = 1 ∧
      Code.effect js = ⟨s.overtakes, 0⟩ := by
  have after (e : Expr) {i : Instr} (effect : i.effect = ⟨1, 1⟩) :
      (Code.effect (e.compile ++ [i])).gives = 1 := by
    rw [Code.effect_append, e.effect_compile, Code.effect_cons, effect, Code.effect_nil,
      Effect.andThen_still, e.andThen_one]
  cases s with
  | expression | assignment => cases declares
  | scalarDeclaration type id initial =>
    cases declares
    have effect := effect_create_scalar shaped.1 shaped.2 id
    cases initial with
    | none =>
      refine ⟨[], type, false, [], rfl, ?_, rfl⟩
      rw [List.nil_append, Code.effect_cons, effect, Code.effect_nil, Effect.andThen_still]
    | some e => exact ⟨e.compile, type, true, [], by rw [compile, List.append_nil],
        after e (effect true), rfl⟩
  | referenceDeclaration type id source =>
    cases declares
    cases type with
    | reference target => exact ⟨source.compile, .reference target, true, [],
        by rw [compile, List.append_nil], after source rfl, rfl⟩
    | _ => cases shaped
  | arrayDeclaration type id =>
    cases declares
    obtain ⟨element, count, rfl⟩ := shaped
    exact ⟨[], _, false, [], rfl, rfl, rfl⟩
  | textDeclaration type id text =>
    cases declares
    obtain ⟨element, count, rfl⟩ := shaped
    exact ⟨[], _, true, [.pushName id, .push (.text text), .assign, .discard], rfl, rfl, rfl⟩
  | listDeclaration type id es =>
    cases declares
    obtain ⟨element, count, rfl⟩ := shaped
    exact ⟨[], _, true, storeElements id 0 es, rfl, rfl, effect_storeElements id 0 es⟩

end Statement

namespace Run

/-- A declaration that succeeds from the empty stack has its variable as the result, unless that
was taken for an operand that one of its elements has not left. -/
theorem result_of_declaration {d : Statement} (shaped : d.Shaped) {id : Identifier}
    (declares : d.declared? = some id) {s t : Core} (empty : s.stack = [])
    {r : Option Variable} (ok : (statement d.compile).run.run s = (.ok r, t)) :
    (d.overtakes = 0 ∧ ∃ v, r = some v ∧ v.id = id) ∨ (d.overtakes = 1 ∧ r = none) := by
  obtain ⟨is, type, initialized, js, whole, one, effect⟩ := d.compile_of_declared shaped declares
  obtain ⟨u, done, result⟩ := result_of_statement ok
  rw [whole, code_append] at done
  obtain ⟨⟨⟩, w, created, stored⟩ := run_bind_eq_ok.1 done
  -- Behind the creation the variable lies on the stack, alone.
  obtain ⟨-, length⟩ := stack_of_code empty created
  have top : w.stack = [.named id] := by
    rw [code_append] at created
    obtain ⟨⟨⟩, _, -, created⟩ := run_bind_eq_ok.1 created
    obtain ⟨⟨⟩, _, created, rest⟩ := run_bind_eq_ok.1 created
    cases rest
    obtain ⟨os, stack⟩ := stack_of_create created
    rw [one, stack] at length
    rw [stack, List.length_eq_zero_iff.1 (Nat.succ.inj length)]
  -- What follows takes it or leaves it.
  obtain ⟨-, turns⟩ := (code_steady js).moves w
  rw [stored, effect, top] at turns
  obtain ⟨low, os, none, stack⟩ := turns () rfl
  rw [List.length_eq_zero_iff.1 none, List.nil_append] at stack
  rcases k : d.overtakes with _ | _ | n <;> simp only [k] at low stack
  · refine .inl ⟨rfl, ?_⟩
    rcases result with ⟨left, -⟩ | ⟨o, left, named⟩
    · cases stack.symm.trans left
    · cases stack.symm.trans left
      exact named id rfl
  · refine .inr ⟨rfl, ?_⟩
    rcases result with ⟨-, none⟩ | ⟨o, left, -⟩
    · exact none
    · cases stack.symm.trans left
  · simp at low

/-- A statement that is no initializer list succeeds from the empty stack only without misuses. -/
theorem misuses_of_statement {d : Statement} (shaped : d.Shaped)
    (list : ∀ type id es, d ≠ .listDeclaration type id es) {s t : Core} (empty : s.stack = [])
    {r : Option Variable} (ok : (statement d.compile).run.run s = (.ok r, t)) :
    d.misuses = 0 := by
  obtain ⟨u, done, -⟩ := result_of_statement ok
  obtain ⟨none, -⟩ := stack_of_code empty done
  have effect := Statement.effect_compile shaped
  cases d with
  | listDeclaration type id es => exact absurd rfl (list type id es)
  | _ => rwa [effect] at none

end Run

namespace Machine

/-- Code that is committed has succeeded on the empty stack. -/
theorem run_of_perform {m n : Machine} {name : String} {is : List Instr} {r : Option Variable}
    (ok : m.perform name is = (.ok r, n)) : ∃ core,
      (Run.statement is).run.run { m.core with stack := [] } = (.ok r, core) := by
  unfold perform at ok
  rcases k : (Run.statement is).run.run { m.core with stack := [] } with ⟨fault | result, core⟩ <;>
    rw [k] at ok
  · dsimp only at ok
    split at ok <;> cases ok
  · cases ok
    exact ⟨core, rfl⟩

theorem declaration_of_declares {o : Except SyntaxFault (Option Statement)} {id : Identifier}
    (declares : o.toOption.join.bind Statement.declared? = some id) :
    ∃ s, o = .ok (some s) ∧ s.declared? = some id := by
  rcases o with fault | _ | s
  · cases declares
  · cases declares
  · exact ⟨s, rfl, declares⟩

theorem result_of_isSome {o : Except Fault (Option Variable) × Machine}
    (h : o.1.toOption.join.isSome = true) : ∃ v n, o = (.ok (some v), n) := by
  rcases o with ⟨fault | _ | v, n⟩
  · cases h
  · cases h
  · exact ⟨v, n, rfl⟩

/-- The code of an expression leaves its own results on what lies below, and it takes from there
only for calls without a result that are used for a value. A statement that is committed has no
such call, and the result of a declaration is its variable; but in an initializer list one such
call may stand, which takes the variable, and then there is no result. -/
theorem stack_discipline (e : Expr) (s : Core) (m : Machine) (line : String) :
    (∃ os, ((Run.code e.compile).run.run s).2.stack = os ++ s.stack.drop e.misuses ∧
      (((Run.code e.compile).run.run s).1 = .ok () →
        e.misuses ≤ s.stack.length ∧ os.length = e.results)) ∧
    (∀ (t : Core) (is js : List Instr) (i : Instr), e.misuses = 0 →
      e.compile = is ++ i :: js → (Run.code is).run.run s = (.ok (), t) →
        ∃ os, t.stack = os ++ s.stack ∧ i.effect.takes ≤ os.length) ∧
    ∀ (d : Statement) (r : Option Variable) (n : Machine),
      (Statement.parse m.scope (Statement.clean line)).1 = .ok (some d) →
      m.execute line = (.ok r, n) →
        match d with
        | .listDeclaration _ id es =>
          (Expr.misusesAll es = 0 ∧ ∃ v, r = some v ∧ v.id = id) ∨
            (Expr.misusesAll es = 1 ∧ r = none)
        | d => d.misuses = 0 ∧ ∀ id, d.declared? = some id → ∃ v, r = some v ∧ v.id = id := by
  refine ⟨Run.expression_stack e s, fun t is js i proper split ok =>
    Run.own_operands proper split ok, fun d r n read ok => ?_⟩
  have shaped := Statement.shaped_of_parse read
  rcases k : Statement.parse m.scope (Statement.clean line) with ⟨result, met⟩
  rw [k] at read
  cases read
  rw [(execute_read k).2] at ok
  obtain ⟨core, done⟩ := run_of_perform ok
  have proper := Run.misuses_of_statement shaped
  have result {id : Identifier} (declares : d.declared? = some id) :=
    Run.result_of_declaration shaped declares rfl done
  cases d with
  | listDeclaration type id es => exact result rfl
  | _ =>
    refine ⟨proper (fun _ _ _ => nofun) rfl done, fun id declares => ?_⟩
    rcases result declares with ⟨-, named⟩ | ⟨taken, -⟩
    · exact named
    · cases taken

/-- An initializer list whose elements leave all their operands. -/
def squares : String := "int a[2] = \x7b2 * 2, -3 * 3\x7d"

/-- Before the two factors are multiplied they lie on the stack, and the list is committed with its
variable as the result. -/
theorem stack_discipline_squares :
    (∃ t os, (Run.code [.push (.integer 2), .push (.integer 2)]).run.run fresh.core = (.ok (), t) ∧
      t.stack = os ++ fresh.core.stack ∧ 2 ≤ os.length) ∧
    ∃ d v n, (Statement.parse fresh.scope (Statement.clean squares)).1 = .ok (some d) ∧
      fresh.execute squares = (.ok (some v), n) ∧
      d.declared? = some (.named "a") ∧ v.id = .named "a" := by
  have disciplined := stack_discipline
    (.binary .mul (.literal (.integer 2)) (.literal (.integer 2))) fresh.core fresh squares
  constructor
  · have pushed (s : Core) : ∃ t,
        (Run.code [.push (.integer 2), .push (.integer 2)]).run.run s = (.ok (), t) := ⟨_, rfl⟩
    obtain ⟨t, done⟩ := pushed fresh.core
    obtain ⟨os, stack, enough⟩ := disciplined.2.1 t _ [] (.binary .mul) rfl rfl done
    exact ⟨t, os, done, stack, enough⟩
  · have declared : (Statement.parse fresh.scope (Statement.clean squares)).1.toOption.join.bind
        Statement.declared? = some (.named "a") := by decide +kernel
    have isSome : (fresh.execute squares).1.toOption.join.isSome = true := by decide +kernel
    obtain ⟨d, read, declares⟩ := declaration_of_declares declared
    obtain ⟨v, n, done⟩ := result_of_isSome isSome
    have kept := disciplined.2.2 d (some v) n read done
    refine ⟨d, v, n, read, done, declares, ?_⟩
    clear read done
    cases d with
    | listDeclaration type id es =>
      cases declares
      rcases kept with ⟨-, w, e, named⟩ | ⟨-, e⟩ <;> cases e
      exact named
    | _ =>
      obtain ⟨w, e, named⟩ := kept.2 _ declares
      cases e
      exact named

/-- A machine with a pointer. -/
def pointed : Machine := (fresh.runProgram "char* p = \"hi\"").2

/-- An initializer list whose element lacks an operand, since `free` leaves nothing. -/
def unfinished : String := "char a[4] = \x7bp + free(null)\x7d"

/-- The sum is that of the element and `p`. It is assigned to the array instead of the element,
and the array is taken off the stack as what the assignment has left. -/
theorem declaration_without_result : pointed.Reachable ∧ ∃ s n,
    (Statement.parse pointed.scope (Statement.clean unfinished)).1 = .ok (some s) ∧
    s.declared? = some (.named "a") ∧ s.misuses = 1 ∧
    pointed.execute unfinished = (.ok none, n) := by
  have declared : (Statement.parse pointed.scope (Statement.clean unfinished)).1.toOption.join.bind
      Statement.declared? = some (.named "a") := by decide +kernel
  have misuse : (Statement.parse pointed.scope (Statement.clean unfinished)).1.toOption.join.map
      Statement.misuses = some 1 := by decide +kernel
  have none : (pointed.execute unfinished).1 = .ok none := by decide +kernel
  obtain ⟨s, read, declares⟩ := declaration_of_declares declared
  rw [read] at misuse
  refine ⟨reachable_fresh.ran _, s, (pointed.execute unfinished).2, read, declares,
    Option.some.inj misuse, ?_⟩
  rw [← none]

end Machine

end ByteMachine
