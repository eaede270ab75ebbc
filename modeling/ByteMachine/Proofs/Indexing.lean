import ByteMachine.Proofs.Assignment
import ByteMachine.Proofs.Resolution

/-!
# Indices of arrays

An index of an array is evaluated above the array, which stays registered while blocks may come
behind it. Its value is then cut to an address and compared with the number of elements. What the
cut index is within denotes the element in the bytes of the array; every other one is refused, and
nothing more happens. Below the bound of the addresses the cut changes nothing, so that there the
index itself is checked. Above it a large index passes for a small one.

Key definitions: `Machine.Starts`, `Core.Evaluates`, `Variable.ArrayOf`.
Key theorems: `Core.Evaluates.keeps`, `Variable.ArrayOf.contains`, `Run.run_operands`,
`Run.run_index_evaluated`, `Run.run_index_array`, `Machine.Reachable.array_index`,
`Machine.array_index_beyond_addresses`.
-/

namespace ByteMachine

open Discipline Number

/-! ### Where an expression is evaluated -/

/-- A state in which a statement of the machine evaluates an expression: memory and variables are
those of the machine, and the operands that lie below are held. -/
structure Machine.Starts (m : Machine) (s : Core) : Prop where
  memory : s.memory = m.core.memory
  symbols : s.symbols = m.core.symbols
  catalog : m.core.catalog.Extends s.catalog
  held : ∀ o ∈ s.stack, o.Held s.symbols

theorem Machine.Starts.fits {m : Machine} {s : Core} (starts : m.Starts s) (h : m.Sound) :
    Fits s.catalog s.memory s.symbols := by
  rw [starts.memory, starts.symbols]
  exact h.core.fits.grow starts.catalog

theorem Machine.starts_core (m : Machine) : m.Starts { m.core with stack := [] } :=
  ⟨rfl, rfl, .refl _, List.forall_mem_nil _⟩

/-- A line that was read starts from the empty stack. -/
theorem Machine.starts_meet (m : Machine) (met : List Ty) :
    m.Starts { (m.meet met).core with stack := [] } :=
  ⟨rfl, rfl, Catalog.extends_internAll met m.core.catalog, List.forall_mem_nil _⟩

/-- Above the operand `base` the expression leaves one operand, whose value is the integer `i`; with
both taken from the stack, `t` is the state that is left. -/
def Core.Evaluates (s : Core) (base : Operand) (e : Expr) (i : Int) (t : Core) : Prop :=
  ∃ o u v type,
    (Run.code e.compile).run.run { s with stack := base :: s.stack } = (.ok (), u) ∧
      u.stack = o :: base :: s.stack ∧
      (Run.read o).run.run { u with stack := s.stack } = (.ok (v, type), t) ∧
      type.isArithmetic = true ∧ type.isFloat = false ∧ v.toInteger? = some i

/-- An integer that is spelled out evaluates to itself. -/
theorem Core.evaluates_integer (s : Core) (base : Operand) (n : Int) :
    s.Evaluates base (.literal (.integer n)) n s := by
  refine ⟨.value (.integer n) (Ty.ofInteger s.catalog.word n), _, .integer n, _, rfl, rfl, rfl,
    ?_, ?_, rfl⟩
  all_goals
    unfold Ty.ofInteger
    dsimp only
    split <;> rfl

namespace Run

variable {s t u : Core}

/-- An expression that leaves one operand above the others misuses no call. -/
theorem proper_of_stack {e : Expr} {o : Operand} (ran : (code e.compile).run.run s = (.ok (), u))
    (top : u.stack = o :: s.stack) : e.misuses = 0 ∧ e.lack = 0 := by
  obtain ⟨os, stack, leaves⟩ := expression_stack e s
  rw [ran] at stack leaves
  obtain ⟨low, length⟩ := leaves rfl
  have few := e.results_le
  have total := e.results_add_lack
  have size := congrArg List.length (top.symm.trans stack)
  rw [List.length_cons, List.length_append, List.length_drop, length] at size
  omega

end Run

/-- While an index is evaluated, variables only come behind those that there are. -/
theorem Core.Evaluates.keeps {s t : Core} {base : Operand} {e : Expr} {i : Int}
    (evaluated : s.Evaluates base e i t) (held : ∀ o ∈ s.stack, o.Held s.symbols)
    (based : base.Held s.symbols) :
    s.symbols.entries <+: t.symbols.entries ∧ s.catalog.Extends t.catalog ∧ t.stack = s.stack := by
  obtain ⟨o, u, v, type, ran, top, read, -⟩ := evaluated
  obtain ⟨proper, whole⟩ := Run.proper_of_stack ran top
  have start : ∀ o ∈ ({ s with stack := base :: s.stack } : Core).stack, o.Held s.symbols :=
    List.forall_mem_cons.2 ⟨based, held⟩
  obtain ⟨⟨more, grows⟩, -⟩ :=
    (Run.expression_grows proper whole).of_run ⟨Core.Grown.refl _, start⟩ ran
  obtain ⟨grows', e⟩ := (Run.read_looks o).eq_of_run read
  rw [e]
  exact ⟨more, grows.trans grows', rfl⟩

/-! ### The element of an array -/

/-- The variable is an array of `count` elements, one behind the other in its bytes. -/
structure Variable.ArrayOf (c : Catalog) (x : Variable) (element : Ty) (count : Nat) : Prop where
  owner : x.isAlias = false
  type : x.type = .array element count
  size : x.size = c.size element * count
  plain : element.isReference = false
  single : element.isArray = false
  typed : element.isAny = false
  sized : 1 ≤ c.size element

/-- A registered variable of an array type is one that the types allow. -/
theorem Core.Sound.arrayOf {s : Core} (h : s.Sound) {x : Variable}
    (mem : x ∈ s.symbols.entries) {element : Ty} {count : Nat}
    (array : x.type = .array element count) : x.ArrayOf s.catalog element count := by
  have agrees := h.fits.agree x mem
  have owner : x.isAlias = false := by rw [agrees.kind, array]; rfl
  have size : x.size = s.catalog.size element * count := by
    rw [agrees.size_owner owner, array]
    rfl
  have some := (h.fits.table.room x mem owner).1
  obtain ⟨-, word, built⟩ := h.closed.admits _ (array ▸ agrees.known)
  have sized : 1 ≤ s.catalog.size element := Nat.pos_of_mul_pos_right (size ▸ some)
  refine ⟨owner, array, size, Ty.element_of_arrayOf built, ?_, ?_, sized⟩
  all_goals
    cases element with
    | scalar p => cases p <;> first | rfl | cases built
    | array | reference => cases built
    | _ => rfl

namespace Variable.ArrayOf

variable {c : Catalog} {x : Variable} {element : Ty} {count position : Nat}

/-- It does not matter which types were met. -/
theorem grow {d : Catalog} (h : x.ArrayOf c element count) (k : c.Extends d) :
    x.ArrayOf d element count :=
  ⟨h.owner, h.type, (k.size element).symm ▸ h.size, h.plain, h.single, h.typed,
    (k.size element).symm ▸ h.sized⟩

/-- The bytes of every element are contained in the array. -/
theorem contains (h : x.ArrayOf c element count) (low : position < count) :
    x.Contains (x.address + position * c.size element) (c.size element) := by
  have upTo : (position + 1) * c.size element ≤ x.size := by
    rw [h.size, Nat.mul_comm]
    exact Nat.mul_le_mul_left _ low
  rw [Nat.succ_mul] at upTo
  refine ⟨h.owner, Variable.spans_iff.2 ⟨Nat.le_add_right _ _, ?_⟩⟩
  rw [Variable.stop]
  omega

end Variable.ArrayOf

namespace Run

variable {s t : Core} {base : Operand} {e : Expr} {i : Int}

/-- The value of an index that was evaluated is read. -/
theorem run_readIndex {o : Operand} {v : Literal} {type : Ty}
    (read : (read o).run.run s = (.ok (v, type), t)) (number : type.isArithmetic = true)
    (whole : type.isFloat = false) (value : v.toInteger? = some i) :
    (readIndex o).run.run s = (.ok i, t) := by
  rw [readIndex, run_bind, read]
  simp only [number, whole, value, Bool.not_true, Bool.or_self, Bool.false_eq_true, if_false]
  rfl

/-- Code that ends in an instruction does what the instruction does where the rest has led. -/
theorem run_code_last {is : List Instr} {j : Instr} {u : Core}
    (ran : (code is).run.run s = (.ok (), u)) :
    (code (is ++ [j])).run.run s = (step j).run.run u := by
  rw [code_append, run_bind, ran]
  show (step j >>= fun _ => pure ()).run.run u = _
  rw [bind_pure_unit]

/-- Two expressions are evaluated, one after the other, before an instruction on both. -/
theorem run_operands {l r : Expr} {j : Instr} {u : Core}
    (left : (code l.compile).run.run s = (.ok (), t))
    (right : (code r.compile).run.run t = (.ok (), u)) :
    (code (l.compile ++ (r.compile ++ [j]))).run.run s = (step j).run.run u := by
  rw [code_append, run_bind, left]
  exact run_code_last right

/-- When base and index are evaluated, the element of an array or behind a pointer is left. -/
theorem run_index_evaluated {b : Expr}
    (pushed : (code b.compile).run.run s = (.ok (), { s with stack := base :: s.stack }))
    (evaluated : s.Evaluates base e i t) :
    (code (Expr.index b e).compile).run.run s = (do
      match ← storage? base with
      | some (address, type) =>
        match type.arrayShape? with
        | some (element, count) => push (← elementOf base address element count i)
        | none => push (← elementBehind base i)
      | none => push (← elementBehind base i) : Run Unit).run.run t := by
  obtain ⟨o, u, v, type, ran, top, read, number, whole, value⟩ := evaluated
  have both : (code (Expr.index b e).compile).run.run s = index.run.run u :=
    run_operands pushed ran
  have indexed (f : Int → Run Unit) :
      (readIndex o >>= f).run.run { u with stack := s.stack } = (f i).run.run t := by
    rw [run_bind, run_readIndex read number whole value]
  rw [both, index, run_bind, run_pop, top]
  dsimp only
  rw [run_bind, run_pop]
  exact indexed _

variable {x : Variable} {element : Ty} {count : Nat}

/-- An index of an owner is cut to an address and compared with the number of elements. -/
theorem run_elementOf {address : Nat} (found : t.symbols.get? x.id = some x)
    (owner : x.isAlias = false) :
    (elementOf (.named x.id) address element count i).run.run t =
      if i < 0 ∨ count ≤ (i % (addressBound : Int)).toNat then
        (.error (.invalidAddress ((elementAddress? address i (t.catalog.size element)).getD 0)
          (t.catalog.size element)), t)
      else
        (.ok (.place (address + (i % (addressBound : Int)).toNat * t.catalog.size element) element
          x.id), t) := by
  rw [elementOf, run_catalog_bind]
  dsimp only
  by_cases refused : i < 0 ∨ count ≤ (i % (addressBound : Int)).toNat
  · have outside : (decide (i < 0) || decide (count ≤ (i % (addressBound : Int)).toNat)) = true := by
      simpa only [Bool.or_eq_true, decide_eq_true_eq] using refused
    rw [if_pos refused, if_pos outside]
    rfl
  · have inside : ¬ (decide (i < 0) || decide (count ≤ (i % (addressBound : Int)).toNat)) = true := by
      simpa only [Bool.or_eq_true, decide_eq_true_eq] using refused
    rw [if_neg refused, if_neg inside, run_bind, run_ownerOf?_owner found owner]
    rfl

/-- An element of an array is left as a place in it, or its index is refused. -/
theorem run_index_array (table : s.symbols.Sound) (mem : x ∈ s.symbols.entries)
    (array : x.ArrayOf s.catalog element count) (held : ∀ o ∈ s.stack, o.Held s.symbols)
    (evaluated : s.Evaluates (.named x.id) e i t) :
    (code (Expr.index (.name x.id) e).compile).run.run s =
      if i < 0 ∨ count ≤ (i % (addressBound : Int)).toNat then
        (.error (.invalidAddress ((elementAddress? x.address i (s.catalog.size element)).getD 0)
          (s.catalog.size element)), t)
      else
        (.ok (), { t with
          stack := .place (x.address + (i % (addressBound : Int)).toNat * s.catalog.size element)
            element x.id :: s.stack }) := by
  obtain ⟨more, grows, stack⟩ := evaluated.keeps held ⟨x, mem, rfl⟩
  have found : t.symbols.get? x.id = some x := Symbols.get?_of_prefix more (table.get?_id mem)
  have shape : x.type.strip.arrayShape? = some (element, count) := by rw [array.type]; rfl
  rw [run_index_evaluated (run_name (table.get?_id mem)) evaluated, run_bind,
    run_storage?_named found]
  simp only [shape]
  rw [run_bind, run_elementOf found array.owner, grows.size]
  by_cases refused : i < 0 ∨ count ≤ (i % (addressBound : Int)).toNat
  · rw [if_pos refused, if_pos refused]
  · rw [if_neg refused, if_neg refused, ← stack]
    rfl

end Run

namespace Machine

variable {m : Machine} {line : String} {met : List Ty} {d : Statement}

/-- A statement whose code fails fails with the same fault, and what it has done is undone. -/
theorem Sound.execute_failed (h : m.Sound)
    (read : Statement.parse m.scope (Statement.clean line) = (.ok (some d), met)) {fault : Fault}
    {u : Core} (failed : (Run.code d.compile).run.run { (m.meet met).core with stack := [] } =
      (.error fault, u)) :
    ∃ n, m.execute line = (.error fault, n) ∧ m.Rewound n := by
  have stopped : (Run.statement d.compile).run.run { (m.meet met).core with stack := [] } =
      (.error fault, u) := by
    rw [Run.statement, run_bind, failed]
  obtain ⟨leads, -, -⟩ :=
    Run.statement_yields (Statement.known_of_parse h.core.closed read) (sound_start h read)
  rw [stopped] at leads
  rw [h.execute_undone read stopped]
  exact ⟨_, rfl, rfl, rfl, rfl, rfl, (Catalog.extends_internAll met _).trans leads.catalog⟩

/-- What indexing an array of the machine leaves, or how it fails. -/
theorem Sound.run_index (h : m.Sound) {s t : Core} (starts : m.Starts s) {x : Variable}
    (mem : x ∈ m.core.symbols.entries) {element : Ty} {count : Nat}
    (array : x.type = .array element count) {e : Expr} {i : Int}
    (evaluated : s.Evaluates (.named x.id) e i t) :
    (Run.code (Expr.index (.name x.id) e).compile).run.run s =
      if i < 0 ∨ count ≤ (i % (addressBound : Int)).toNat then
        (.error (.invalidAddress
          ((elementAddress? x.address i (m.core.catalog.size element)).getD 0)
          (m.core.catalog.size element)), t)
      else
        (.ok (), { t with
          stack := .place (x.address + (i % (addressBound : Int)).toNat *
            m.core.catalog.size element) element x.id :: s.stack }) := by
  rw [← starts.catalog.size]
  exact Run.run_index_array (starts.fits h).table (starts.symbols ▸ mem)
    ((h.core.arrayOf mem array).grow starts.catalog) starts.held evaluated

/-- An index of an array, once it has been evaluated, is cut to an address. If that is the position
of an element, what is left denotes the element, in the bytes of the array; else the index is
refused as an invalid address, nothing has happened since it was evaluated, and a line that consists
of nothing else leaves memory, variables and history as they were. An index that is no less than
zero and below the bound of the addresses is its own position. -/
theorem Reachable.array_index (h : m.Reachable) {s t : Core} (starts : m.Starts s) {x : Variable}
    (mem : x ∈ m.core.symbols.entries) {element : Ty} {count : Nat}
    (array : x.type = .array element count) {e : Expr} {i : Int}
    (evaluated : s.Evaluates (.named x.id) e i t) :
    let size := m.core.catalog.size element
    let position := (i % (addressBound : Int)).toNat
    let place := Operand.place (x.address + position * size) element x.id
    let fault := Fault.invalidAddress ((elementAddress? x.address i size).getD 0) size
    (0 ≤ i → position < count →
      (Run.code (Expr.index (.name x.id) e).compile).run.run s =
          (.ok (), { t with stack := place :: s.stack }) ∧
        t.Denotes place (x.address + position * size) element x ∧
        x.Contains (x.address + position * size) size) ∧
    (i < 0 ∨ count ≤ position →
      (Run.code (Expr.index (.name x.id) e).compile).run.run s = (.error fault, t) ∧
        ∀ line met, Statement.parse m.scope (Statement.clean line) =
            (.ok (some (.expression (.index (.name x.id) e))), met) →
          s = { (m.meet met).core with stack := [] } →
          ∃ n, m.execute line = (.error fault, n) ∧ m.Rewound n) ∧
    (0 ≤ i → i < addressBound → (position : Int) = i) := by
  intro size position place fault
  have known := h.sound.core.arrayOf mem array
  have left := h.sound.run_index starts mem array evaluated
  refine ⟨fun low high => ?_, fun outside => ?_, fun low high => ?_⟩
  · have inside : ¬ (i < 0 ∨ count ≤ position) := by omega
    rw [if_neg inside] at left
    exact ⟨left, t.denotes_place _ known.plain x, known.contains high⟩
  · rw [if_pos outside] at left
    refine ⟨left, ?_⟩
    rintro line met read rfl
    exact h.sound.execute_failed read left
  · have same : i % (addressBound : Int) = i := Int.emod_eq_of_lt low high
    show ((i % (addressBound : Int)).toNat : Int) = i
    rw [same, Int.toNat_of_nonneg low]

/-- A machine with an array of two numbers. -/
def paired : Machine := (fresh.runProgram "int a[2] = \x7b5, 6\x7d").2

/-- The array of this machine. -/
def pair : Variable := ⟨.named "a", .array Ty.int 2, 16, 8, .array Ty.int 2⟩

theorem mem_pair : pair ∈ paired.core.symbols.entries := by decide +kernel

/-- The second element of the array is denoted by the index one, and the index two is refused. -/
theorem array_index_pair :
    (Run.code (Expr.index (.name (.named "a")) (.literal (.integer 1))).compile).run.run
        { paired.core with stack := [] } =
          (.ok (), { paired.core with stack := [.place 20 Ty.int (.named "a")] }) ∧
      ∃ n, paired.execute "a[2]" = (.error (.invalidAddress 24 4), n) ∧ paired.Rewound n := by
  have reached : paired.Reachable := reachable_fresh.ran _
  have size : paired.core.catalog.size Ty.int = 4 := by decide +kernel
  have read : Statement.parse paired.scope (Statement.clean "a[2]") =
      (.ok (some (.expression (.index (.name (.named "a")) (.literal (.integer 2))))), []) := by
    decide +kernel
  have inside : (1 % (addressBound : Int)).toNat = 1 := by decide +kernel
  have outside : (2 % (addressBound : Int)).toNat = 2 := by decide +kernel
  have behind : (elementAddress? pair.address 2 4).getD 0 = 24 := by decide +kernel
  obtain ⟨second, -⟩ := reached.array_index paired.starts_core mem_pair rfl
    (Core.evaluates_integer _ (.named pair.id) 1)
  obtain ⟨-, third, -⟩ := reached.array_index (paired.starts_meet []) mem_pair rfl
    (Core.evaluates_integer _ (.named pair.id) 2)
  rw [inside, size] at second
  rw [outside, size, behind] at third
  have left := (second (by decide) (by decide)).1
  dsimp only at left
  exact ⟨left, (third (.inr (by decide))).2 _ _ read rfl⟩

/-- The bound of the addresses, which is no index of the array, is taken for zero: a line with
nothing but this element is committed, and its result is the first element. -/
theorem array_index_beyond_addresses :
    paired.Reachable ∧ paired.Starts { paired.core with stack := [] } ∧
      pair ∈ paired.core.symbols.entries ∧ pair.type = .array Ty.int 2 ∧
      Core.Evaluates { paired.core with stack := [] } (.named pair.id)
        (.literal (.integer 18446744073709551616)) 18446744073709551616
        { paired.core with stack := [] } ∧
      ¬ ((18446744073709551616 : Int) < 2) ∧
      (Run.code (Expr.index (.name pair.id)
          (.literal (.integer 18446744073709551616))).compile).run.run
        { paired.core with stack := [] } =
          (.ok (), { paired.core with stack := [.place 16 Ty.int pair.id] }) ∧
      (paired.execute "a[18446744073709551616]").1 =
        .ok (some ⟨.temporary 1, Ty.int, 16, 4, .temporary (.integer 5)⟩) := by
  have reached : paired.Reachable := reachable_fresh.ran _
  have size : paired.core.catalog.size Ty.int = 4 := by decide +kernel
  have evaluated := Core.evaluates_integer { paired.core with stack := [] } (.named pair.id)
    18446744073709551616
  have cut : (18446744073709551616 % (addressBound : Int)).toNat = 0 := by decide +kernel
  have left := reached.sound.run_index paired.starts_core mem_pair rfl evaluated
  rw [if_neg (by omega), cut, size] at left
  dsimp only at left
  exact ⟨reached, paired.starts_core, mem_pair, rfl, evaluated, by decide, left, by decide +kernel⟩

end Machine

end ByteMachine
