import ByteMachine.Proofs.Statements

/-!
# Reading keeps catalogs closed

While a statement is read, types are met one by one. Each is built on types that were met before
it, so the catalog that holds them all stays closed, also where the statement then fails; and the
code of what was read mentions only types that are in it and declares only proper names.

Key definitions: `Reading.catalog`, `Reading.discipline`, `Parser.ReadsCode`.
Key theorems: `Parser.type_yields`, `Parser.term_yields`, `Parser.declaration_yields`,
`Statement.yields_parse`, `Statement.known_of_parse`, `Statement.compile_ne_nil`.
-/

namespace ByteMachine

open Discipline

namespace Reading

/-- The catalog `c` with the types that were met so far. -/
def catalog (c : Catalog) (r : Reading) : Catalog := c.internAll r.met

/-- What readers keep to, over a catalog to begin with. -/
def discipline (c : Catalog) : Discipline Reading where
  keeps := fun r => (r.catalog c).Closed
  leads := fun r u => (r.catalog c).Extends (u.catalog c)
  refl := fun _ => .refl _
  trans := .trans

/-- A reader from the reading `r` keeps to the discipline and has a result as described. -/
abbrev Yields {α : Type} (c : Catalog) (r : Reading) (x : Parser α)
    (post : Reading → α → Prop) : Prop :=
  (discipline c).Yields r x post

end Reading

namespace Parser

variable {α : Type} {c : Catalog} {r : Reading} {scope : Scope}

/-! ### Tokens -/

theorem peek_yields : r.Yields c peek fun u _ => u = r := by
  refine yields_get_bind.2 ?_
  split <;> exact yields_pure.2 fun _ => rfl

theorem column_yields : r.Yields c column fun _ _ => True := by
  refine yields_get_bind.2 ?_
  split <;> exact yields_pure.2 fun _ => trivial

theorem remaining_yields : r.Yields c remaining fun _ _ => True :=
  yields_get_bind.2 (yields_pure.2 fun _ => trivial)

theorem advance_yields : r.Yields c advance fun _ _ => True := by
  refine yields_modify fun closed => ?_
  split
  · exact ⟨.refl _, closed, trivial⟩
  · exact ⟨.refl _, closed, trivial⟩
  · exact ⟨.refl _, closed, trivial⟩

theorem next_yields : r.Yields c next fun _ _ => True :=
  .bind peek_yields fun _ _ _ _ => .bind advance_yields fun _ _ _ _ =>
    yields_pure.2 fun _ => trivial

theorem fail_yields {cause : SyntaxCause} {post : Reading → α → Prop} :
    r.Yields c (fail cause) post :=
  .bind column_yields fun _ _ _ _ => yields_throw

theorem accept_yields (char : Char) : r.Yields c (accept char) fun _ _ => True := by
  refine .bind peek_yields fun _ _ _ _ => ?_
  split
  · exact .bind advance_yields fun _ _ _ _ => yields_pure.2 fun _ => trivial
  · exact yields_pure.2 fun _ => trivial

theorem expect_yields (char : Char) (cause : SyntaxCause) :
    r.Yields c (expect char cause) fun _ _ => True := by
  refine .bind (accept_yields char) fun _ _ _ _ => ?_
  split
  · exact yields_pure.2 fun _ => trivial
  · exact fail_yields

theorem atEnd_yields : r.Yields c atEnd fun u _ => u = r :=
  .bind peek_yields fun _ _ _ same => yields_pure.2 fun _ => same

theorem atType_yields : r.Yields c atType fun _ _ => True := by
  refine yields_get_bind.2 ?_
  split <;> exact yields_pure.2 fun _ => trivial

/-! ### Types and names -/

theorem meet_yields {t : Ty} (h : (r.catalog c).Closed → (r.catalog c).Admits t) :
    r.Yields c (meet t) fun u _ => t ∈ (u.catalog c).known := by
  refine yields_modify fun closed => ?_
  have grown : Reading.catalog c { r with met := r.met ++ [t] } = (r.catalog c).intern t :=
    Catalog.internAll_append c r.met [t]
  show (r.catalog c).Extends (Reading.catalog c { r with met := r.met ++ [t] }) ∧
    (Reading.catalog c { r with met := r.met ++ [t] }).Closed ∧
      t ∈ (Reading.catalog c { r with met := r.met ++ [t] }).known
  rw [grown]
  exact ⟨Catalog.extends_intern _ t, closed.intern (h closed), Catalog.mem_intern.2 (.inr rfl)⟩

theorem built_yields {x : Except TypeFault Ty}
    (h : ∀ t, x = .ok t → (r.catalog c).Closed → (r.catalog c).Admits t) :
    r.Yields c (built x) fun u t => t ∈ (u.catalog c).known := by
  unfold built
  split
  · next t => exact .bind (meet_yields (h t rfl)) fun _ _ _ m => yields_pure.2 fun _ => m
  · exact fail_yields

theorem stars_yields : ∀ (fuel : Nat) {r : Reading} {t : Ty}, t ∈ (r.catalog c).known →
    r.Yields c (stars fuel t) fun u t => t ∈ (u.catalog c).known
  | 0, _, _, m => yields_pure.2 fun _ => m
  | fuel + 1, r, t, m => by
    refine .bind (accept_yields _) fun u star l _ => ?_
    have m := l.mem m
    split
    · refine .bind (built_yields fun p e closed => ?_) fun _ _ _ m => stars_yields fuel m
      obtain ⟨target, known, plain, rfl⟩ := closed.pointerTo m e
      exact ⟨known, plain⟩
    · exact yields_pure.2 fun _ => m

theorem ofKeyword?_known (h : c.Closed) {keyword : String} {t : Ty}
    (e : Ty.ofKeyword? keyword = some t) : t ∈ c.known := by
  unfold Ty.ofKeyword? at e
  split at e
  · cases e
    exact h.descriptor
  · obtain ⟨s, -, rfl⟩ := Option.map_eq_some_iff.1 e
    exact h.scalar s

/-- A type that was read was met. -/
theorem type_yields : r.Yields c type fun u t => t ∈ (u.catalog c).known := by
  refine .bind next_yields fun u token _ _ => ?_
  split
  · split
    · next e =>
      refine .of_keeps fun closed => .bind remaining_yields fun _ _ l _ => ?_
      exact stars_yields _ (l.mem (ofKeyword?_known closed e))
    · exact fail_yields
  · exact fail_yields

/-- The name of a new variable is one that a table may hold. -/
theorem newName_yields : r.Yields c newName fun _ id => id.Registrable := by
  refine .bind next_yields fun u token _ _ => ?_
  split
  · next name =>
    split
    · exact yields_throw
    · next kept =>
      simp only [Bool.or_eq_true, List.contains_iff_mem, not_or, Bool.not_eq_true] at kept
      split
      · next e =>
        unfold Identifier.ofName? at e
        split at e
        · next valid =>
          cases e
          exact yields_pure.2 fun _ => ⟨valid, kept⟩
        · cases e
      · exact yields_throw
  · exact fail_yields

/-! ### Expressions -/

/-- The code of what the reader reads is known to the catalog then. -/
def ReadsCode (c : Catalog) (code : α → List Instr) (x : Parser α) : Prop :=
  ∀ r : Reading, r.Yields c x fun u a => Code.Known (u.catalog c) (code a)

section

variable {term : Parser Expr} (h : ReadsCode c Expr.compile term)

include h

theorem operations_yields : ∀ (fuel : Nat) {r : Reading} {left : Expr},
    Code.Known (r.catalog c) left.compile → r.Yields c (operations term fuel left) fun u e =>
      Code.Known (u.catalog c) e.compile
  | 0, _, _, k => yields_pure.2 fun _ => k
  | fuel + 1, r, left, k => by
    refine .bind peek_yields fun u token l _ => ?_
    have k := k.grow l
    split
    · split
      · refine .bind advance_yields fun v _ l _ => .bind (h v) fun w right l' k' => ?_
        refine operations_yields fuel ?_
        simpa [Expr.compile, Instr.Known] using ⟨k.grow (l.trans l'), k'⟩
      · exact yields_pure.2 fun _ => k
    · exact yields_pure.2 fun _ => k

theorem restOfExpression_yields {left : Expr} (k : Code.Known (r.catalog c) left.compile) :
    r.Yields c (restOfExpression term left) fun u e => Code.Known (u.catalog c) e.compile :=
  .bind remaining_yields fun _ _ l _ => operations_yields h _ (k.grow l)

theorem expressionOf_yields : ReadsCode c Expr.compile (expressionOf term) := fun r =>
  .bind (h r) fun _ _ _ k => restOfExpression_yields h k

theorem argument_yields : ReadsCode c Expr.compile (argument term) := fun r => by
  refine .bind atType_yields fun u isType _ _ => ?_
  split
  · refine .bind type_yields fun _ t _ m => yields_pure.2 fun _ => ?_
    simpa [Expr.compile, Instr.Known, Literal.Known] using m
  · exact expressionOf_yields h u

theorem arguments_yields (function : String) :
    ∀ fuel, ReadsCode c Expr.compileAll (arguments term function fuel)
  | 0, _ => fail_yields
  | fuel + 1, r => by
    refine .bind (argument_yields h r) fun u first _ k => ?_
    refine .bind (accept_yields _) fun v comma l _ => ?_
    have k := k.grow l
    split
    · refine .bind (arguments_yields function fuel v) fun w rest l k' => yields_pure.2 fun _ => ?_
      simpa [Expr.compileAll] using ⟨k.grow l, k'⟩
    · refine .bind (expect_yields _ _) fun w _ l _ => yields_pure.2 fun _ => ?_
      simpa [Expr.compileAll] using k.grow l

theorem call_yields (function : String) : ReadsCode c Expr.compile (call scope term function) :=
    fun r => by
  unfold call
  split
  · exact fail_yields
  · refine .bind (accept_yields _) fun u empty _ _ => ?_
    split
    · refine yields_pure.2 fun _ => ?_
      simp [Expr.compile, Expr.compileAll, Instr.Known]
    · refine .bind remaining_yields fun v fuel _ _ => ?_
      refine .bind (arguments_yields h function fuel v) fun w es _ k => yields_pure.2 fun _ => ?_
      simpa [Expr.compile, Instr.Known] using k

theorem primary_yields : ReadsCode c Expr.compile (primary scope term) := fun r => by
  have plain : ∀ {u : Reading} {e : Expr}, Code.Known (u.catalog c) e.compile →
      u.Yields c (pure e : Parser Expr) fun u e => Code.Known (u.catalog c) e.compile :=
    fun k => yields_pure.2 fun _ => k
  refine .bind next_yields fun u token _ _ => ?_
  split
  · exact plain (by simp [Expr.compile, Instr.Known, Literal.Known])
  · exact plain (by simp [Expr.compile, Instr.Known, Literal.Known])
  · exact plain (by simp [Expr.compile, Instr.Known, Literal.Known])
  · exact plain (by simp [Expr.compile, Instr.Known, Literal.Known])
  · exact plain (by simp [Expr.compile, Instr.Known, Literal.Known])
  · split
    · refine .bind (expressionOf_yields h u) fun v e _ k => ?_
      exact .bind (expect_yields _ _) fun w _ l _ => plain (k.grow l)
    · exact fail_yields
  · split
    · refine .bind (meet_yields fun closed => ⟨closed.scalar .any, rfl⟩) fun v _ _ m => plain ?_
      simpa [Expr.compile, Instr.Known, Literal.Known] using m
    · refine .bind (accept_yields _) fun v parenthesis _ _ => ?_
      split
      · exact call_yields h _ v
      · split
        · exact fail_yields
        · split
          · exact plain (by simp [Expr.compile, Instr.Known])
          · exact yields_throw
  · exact fail_yields

theorem indices_yields : ∀ (fuel : Nat) {r : Reading} {base : Expr},
    Code.Known (r.catalog c) base.compile → r.Yields c (indices term fuel base) fun u e =>
      Code.Known (u.catalog c) e.compile
  | 0, _, _, k => yields_pure.2 fun _ => k
  | fuel + 1, r, base, k => by
    refine .bind (accept_yields _) fun u bracket l _ => ?_
    have k := k.grow l
    split
    · refine .bind (expressionOf_yields h u) fun v position l k' => ?_
      refine .bind (expect_yields _ _) fun w _ l' _ => ?_
      refine indices_yields fuel ?_
      simpa [Expr.compile, Instr.Known] using ⟨k.grow (l.trans l'), k'.grow l'⟩
    · exact yields_pure.2 fun _ => k

theorem indexed_yields : ReadsCode c Expr.compile (indexed scope term) := fun r =>
  .bind (primary_yields h r) fun _ _ _ k => .bind remaining_yields fun _ _ l _ =>
    indices_yields h _ (k.grow l)

theorem newTerm_yields : ReadsCode c Expr.compile (newTerm term) := fun r => by
  refine .bind atType_yields fun u isType _ _ => ?_
  split
  · exact fail_yields
  · refine .bind type_yields fun v t _ m => .bind (accept_yields _) fun w bracket l _ => ?_
    have m := l.mem m
    split
    · refine .bind (expressionOf_yields h w) fun x count l k => ?_
      refine .bind (expect_yields _ _) fun y _ l' _ => yields_pure.2 fun _ => ?_
      simpa [Expr.compile, Instr.Known, Literal.Known] using ⟨(l.trans l').mem m, k.grow l'⟩
    · refine yields_pure.2 fun _ => ?_
      simpa [Expr.compile, Instr.Known, Literal.Known] using m

theorem deleteTerm_yields : ReadsCode c Expr.compile (deleteTerm term) := fun r => by
  have rest : ∀ u : Reading, u.Yields c
      (do if (← atEnd) then fail .expectedAfterDelete else return .delete (← term) : Parser Expr)
      fun u e => Code.Known (u.catalog c) e.compile := by
    intro u
    refine .bind atEnd_yields fun v done _ _ => ?_
    split
    · exact fail_yields
    · refine .bind (h v) fun w e _ k => yields_pure.2 fun _ => ?_
      simpa [Expr.compile, Instr.Known] using k
  refine .bind (accept_yields _) fun u bracket _ _ => ?_
  split
  · exact .bind (expect_yields _ _) fun v _ _ _ => rest v
  · exact rest u

end

theorem starRun_yields : ∀ (fuel : Nat) {r : Reading}, r.Yields c (starRun fuel) fun _ _ => True
  | 0, _ => yields_pure.2 fun _ => trivial
  | fuel + 1, _ => by
    refine .bind (accept_yields _) fun u star _ _ => ?_
    split
    · exact .bind (starRun_yields fuel) fun _ _ _ _ => yields_pure.2 fun _ => trivial
    · exact yields_pure.2 fun _ => trivial

/-- A term of any depth: the readers of its parts read terms of less depth. -/
theorem term_yields : ∀ fuel, ReadsCode c Expr.compile (term scope fuel)
  | 0, _ => fail_yields
  | fuel + 1, r => by
    have ih := term_yields fuel
    refine .bind peek_yields fun u token _ _ => ?_
    split
    · split
      · refine .bind advance_yields fun v _ _ _ => .bind (ih v) fun w e _ k => ?_
        refine yields_pure.2 fun _ => ?_
        simpa [Expr.compile, Instr.Known, Literal.Known] using k
      · split
        · exact .bind advance_yields fun v _ _ _ => ih v
        · split
          · refine .bind remaining_yields fun v stars _ _ => ?_
            refine .bind (starRun_yields stars) fun w levels _ _ => .bind (ih w) fun x e _ k => ?_
            refine yields_pure.2 fun _ => ?_
            simpa [Expr.compile, Instr.Known] using k
          · split
            · refine .bind advance_yields fun v _ _ _ => .bind (ih v) fun w e _ k => ?_
              refine yields_pure.2 fun _ => ?_
              simpa [Expr.compile, Instr.Known] using k
            · exact indexed_yields ih u
    · split
      · exact .bind advance_yields fun v _ _ _ => newTerm_yields ih v
      · split
        · exact .bind advance_yields fun v _ _ _ => deleteTerm_yields ih v
        · exact indexed_yields ih u
    · exact indexed_yields ih u

theorem fullTerm_yields : ReadsCode c Expr.compile (fullTerm scope) := fun _ =>
  .bind remaining_yields fun u _ _ _ => term_yields _ u

theorem expression_yields : ReadsCode c Expr.compile (expression scope) :=
  expressionOf_yields fullTerm_yields

/-! ### Declarations and statements -/

/-- The elements of an initializer list, each of which has known code. -/
theorem elements_yields : ∀ (fuel : Nat) {r : Reading}, r.Yields c (elements scope fuel)
    fun u es => ∀ e ∈ es, Code.Known (u.catalog c) e.compile
  | 0, _ => fail_yields
  | fuel + 1, r => by
    refine .bind (expression_yields r) fun u first _ k => ?_
    refine .bind (accept_yields _) fun v comma l _ => ?_
    have k := k.grow l
    split
    · refine .bind (elements_yields fuel) fun w rest l k' => yields_pure.2 fun _ => ?_
      exact List.forall_mem_cons.2 ⟨k.grow l, k'⟩
    · refine .bind (expect_yields _ _) fun w _ l _ => yields_pure.2 fun _ => ?_
      exact List.forall_mem_singleton.2 (k.grow l)

theorem known_storeElements (id : Identifier) : ∀ (es : List Expr) (i : Nat),
    (∀ e ∈ es, Code.Known c e.compile) → Code.Known c (Statement.storeElements id i es)
  | [], _, _ => Code.known_nil
  | e :: es, i, k => by
    rw [List.forall_mem_cons] at k
    simpa [Statement.storeElements, Instr.Known, Literal.Known] using
      ⟨k.1, known_storeElements id es (i + 1) k.2⟩

theorem arrayLength_yields : r.Yields c arrayLength fun _ _ => True := by
  refine .bind next_yields fun u token _ _ => ?_
  have bounded : ∀ n : Nat, u.Yields c (do
      expect ']' .openLength
      if 0 < n && n < Number.addressBound then return some n else fail .lengthNotPositive)
      fun _ _ => True := by
    intro n
    refine .bind (expect_yields _ _) fun v _ _ _ => ?_
    split
    · exact yields_pure.2 fun _ => trivial
    · exact fail_yields
  split
  · split
    · exact yields_pure.2 fun _ => trivial
    · exact fail_yields
  · exact bounded _
  · exact bounded _
  · exact fail_yields

theorem builtArray_yields {element : Ty} (m : element ∈ (r.catalog c).known) (count : Nat) :
    r.Yields c (built (Ty.arrayOf scope.word element count)) fun u t => t ∈ (u.catalog c).known :=
  built_yields fun t e _ => by
    cases Ty.arrayOf_eq_ok e
    exact ⟨m, _, e⟩

theorem arrayDeclaration_yields {element : Ty} {id : Identifier}
    (m : element ∈ (r.catalog c).known) (name : id.Registrable) :
    r.Yields c (arrayDeclaration scope element id) fun u s =>
      Code.Known (u.catalog c) s.compile := by
  refine .bind arrayLength_yields fun u count l _ => .bind (accept_yields _) fun v equals l₁ _ => ?_
  have m := (l.trans l₁).mem m
  split
  · split
    · exact fail_yields
    · next count =>
      refine .bind atEnd_yields fun w done l _ => ?_
      split
      · exact fail_yields
      · refine .bind (builtArray_yields (l.mem m) count) fun x t _ m => yields_pure.2 fun _ => ?_
        simpa [Statement.compile, Instr.Known] using ⟨m, name⟩
  · refine .bind peek_yields fun w token l _ => ?_
    have m := l.mem m
    split
    · split
      · exact fail_yields
      · refine .bind advance_yields fun x _ l _ => ?_
        refine .bind (builtArray_yields (l.mem m) _) fun y t _ m => yields_pure.2 fun _ => ?_
        simpa [Statement.compile, Instr.Known, Literal.Known] using ⟨m, name⟩
    · refine .bind (expect_yields _ _) fun x _ l _ => .bind remaining_yields fun y fuel l₁ _ => ?_
      refine .bind (elements_yields fuel) fun z es l₂ k => ?_
      have m := ((l.trans l₁).trans l₂).mem m
      dsimp only
      split
      · exact fail_yields
      · refine .bind (builtArray_yields m _) fun w t l m => yields_pure.2 fun _ => ?_
        simpa [Statement.compile, Instr.Known] using
          ⟨⟨m, name⟩, known_storeElements id es 0 fun e m => (k e m).grow l⟩

theorem declaration_yields :
    ReadsCode c Statement.compile (declaration scope) := fun r => by
  refine .bind type_yields fun u base _ m => .bind (accept_yields _) fun v isReference l _ => ?_
  refine .bind newName_yields fun w id l₁ name => .bind (accept_yields _) fun x bracket l₂ _ => ?_
  have m := ((l.trans l₁).trans l₂).mem m
  split
  · split
    · exact fail_yields
    · exact arrayDeclaration_yields m name
  · split
    · refine .bind (accept_yields _) fun y equals l _ => ?_
      split
      · refine .bind (expression_yields y) fun z source l₁ k => ?_
        refine .bind (built_yields fun t e _ => ?_) fun _ t l₂ m => yields_pure.2 fun _ => ?_
        · obtain ⟨rfl, plain⟩ := Ty.referenceTo_eq_ok e
          exact ⟨(l.trans l₁).mem m, plain⟩
        · simpa [Statement.compile, Instr.Known] using ⟨k.grow l₂, m, name⟩
      · refine .bind atEnd_yields fun z done _ _ => ?_
        split
        · exact yields_throw
        · exact fail_yields
    · refine .bind (accept_yields _) fun y equals l _ => ?_
      split
      · refine .bind (expression_yields y) fun z initial l₁ k => yields_pure.2 fun _ => ?_
        simpa [Statement.compile, Instr.Known] using ⟨k, (l.trans l₁).mem m, name⟩
      · refine .bind atEnd_yields fun z done l₁ _ => ?_
        split
        · refine yields_pure.2 fun _ => ?_
          simpa [Statement.compile, Instr.Known] using ⟨(l.trans l₁).mem m, name⟩
        · exact fail_yields

theorem assignmentOrExpression_yields :
    ReadsCode c Statement.compile (assignmentOrExpression scope) := fun r => by
  refine .bind (fullTerm_yields r) fun u first _ k => .bind (accept_yields _) fun v equals l _ => ?_
  have k := k.grow l
  split
  · refine .bind (expression_yields v) fun w value l k' => yields_pure.2 fun _ => ?_
    simpa [Statement.compile, Instr.Known] using ⟨k.grow l, k'⟩
  · refine .bind (restOfExpression_yields fullTerm_yields k) fun w e _ k => ?_
    exact yields_pure.2 fun _ => k

/-- What is read up to the end is a whole statement. -/
theorem whole_yields {x : Parser Statement} (h : ReadsCode c Statement.compile x) :
    r.Yields c (do
        let s ← x
        if (← atEnd) then return some s else fail (.unexpected (← peek)))
      fun u s? => ∃ s, s? = some s ∧ Code.Known (u.catalog c) s.compile := by
  refine .bind (h r) fun u s _ k => .bind atEnd_yields fun v done l _ => ?_
  split
  · exact yields_pure.2 fun _ => ⟨s, rfl, k.grow l⟩
  · exact .bind peek_yields fun _ _ _ _ => fail_yields

/-- If there is no statement nothing was read. -/
theorem statement_yields : r.Yields c (statement scope) fun u s? =>
    (s? = none ∧ u = r) ∨ ∃ s, s? = some s ∧ Code.Known (u.catalog c) s.compile := by
  refine .bind atEnd_yields ?_
  rintro u done - rfl
  split
  · exact yields_pure.2 fun _ => .inl ⟨rfl, rfl⟩
  · refine .bind atType_yields fun v isType _ _ => ?_
    dsimp only
    split
    · exact (whole_yields declaration_yields).mono fun _ _ _ _ => .inr
    · exact (whole_yields assignmentOrExpression_yields).mono fun _ _ _ _ => .inr

end Parser

/-! ### Lines -/

namespace Statement

variable {c : Catalog} {scope : Scope} {line : String} {met : List Ty}

/-- What is known of a line that was read, over any closed catalog. -/
theorem yields_parse (h : c.Closed) {result : Except SyntaxFault (Option Statement)}
    (e : parse scope line = (result, met)) :
    (c.internAll met).Closed ∧ ∀ s?, result = .ok s? →
      (s? = none ∧ met = []) ∨ ∃ s, s? = some s ∧ Code.Known (c.internAll met) s.compile := by
  unfold parse at e
  generalize lexemes line = ahead at e
  have read : Reading.Yields c ⟨ahead, []⟩ (Parser.statement scope) _ := Parser.statement_yields
  have y := read h
  cases k : (Parser.statement scope).run.run ⟨ahead, []⟩ with
  | mk outcome reading =>
    rw [k] at y e
    cases e
    exact ⟨y.2.1, fun s? ok => (y.2.2 s? ok).imp
      (fun blank => ⟨blank.1, congrArg Reading.met blank.2⟩) id⟩

/-- The types that were met while a line was read keep a catalog closed, also if it is misread. -/
theorem closed_of_parse (h : c.Closed) {result : Except SyntaxFault (Option Statement)}
    (e : parse scope line = (result, met)) : (c.internAll met).Closed :=
  (yields_parse h e).1

/-- Of a blank line nothing is met. -/
theorem met_of_parse_none (h : c.Closed) (e : parse scope line = (.ok none, met)) :
    met = [] := by
  obtain ⟨-, blank⟩ | ⟨s, some, -⟩ := (yields_parse h e).2 none rfl
  · exact blank
  · cases some

theorem known_of_parse (h : c.Closed) {s : Statement}
    (e : parse scope line = (.ok (some s), met)) : Code.Known (c.internAll met) s.compile := by
  obtain ⟨none, -⟩ | ⟨s, some, known⟩ := (yields_parse h e).2 _ rfl
  · cases none
  · cases some
    exact known

end Statement

theorem Expr.compile_ne_nil (e : Expr) : e.compile ≠ [] := by
  cases e <;> simp [compile]

/-- Every statement has code. -/
theorem Statement.compile_ne_nil (s : Statement) : s.compile ≠ [] := by
  cases s with
  | expression e => exact e.compile_ne_nil
  | scalarDeclaration t id initial => cases initial <;> simp [compile]
  | _ => simp [compile]

end ByteMachine
