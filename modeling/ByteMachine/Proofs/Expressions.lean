import ByteMachine.Proofs.Elements

/-!
# What an expression means

An expression without an effect means a value with its type: wherever a statement of the machine
evaluates it, one more operand is left, and whenever that is read before the statement changes
anything it reads as the value. Literals and the names of arrays and pointers mean something by
themselves; an operator means what arithmetic makes of the values of its operands. No expression
means two things.

Key definitions: `Machine.Reads`, `Machine.Means`, `Machine.MeansInteger`.
Key theorems: `Machine.Means.unique`, `Machine.means_integer`, `Machine.means_array`,
`Machine.means_pointer`, `Machine.Means.binary`.
-/

namespace ByteMachine

open Discipline Number

/-- Other operands that are held may lie below. -/
theorem Machine.Starts.restack {m : Machine} {s : Core} (h : m.Starts s) {stack : List Operand}
    (held : ∀ o ∈ stack, o.Held s.symbols) : m.Starts { s with stack := stack } :=
  ⟨h.memory, h.symbols, h.catalog, held⟩

/-- More types may have been met. -/
theorem Machine.Starts.grow {m : Machine} {s : Core} (h : m.Starts s) {c : Catalog}
    (grows : s.catalog.Extends c) : m.Starts { s with catalog := c } :=
  ⟨h.memory, h.symbols, h.catalog.trans grows, h.held⟩

namespace Machine

variable {m : Machine} {e l r : Expr} {o : Operand} {v w x y z : Literal} {t u lt rt type : Ty}

/-- The operand reads as a value of the type, wherever a statement evaluates an expression. -/
def Reads (m : Machine) (o : Operand) (v : Literal) (t : Ty) : Prop :=
  ∀ s, m.Starts s →
    ∃ after, (Run.read o).run.run s = (.ok (v, t), after) ∧ m.Starts after ∧ after.stack = s.stack

/-- The expression leaves one operand, which reads as a value of the type. -/
def Means (m : Machine) (e : Expr) (v : Literal) (t : Ty) : Prop :=
  ∀ s, m.Starts s →
    ∃ o after, (Run.code e.compile).run.run s = (.ok (), after) ∧ m.Starts after ∧
      after.stack = o :: s.stack ∧ m.Reads o v t

/-- The expression means an integer of an integral type. -/
def MeansInteger (m : Machine) (e : Expr) (n : Int) : Prop :=
  ∃ v t, m.Means e v t ∧ t.isArithmetic = true ∧ t.isFloat = false ∧ v.toInteger? = some n

/-- An operand reads as one value of one type only. -/
theorem Reads.unique (h : m.Reads o v t) (k : m.Reads o w u) : v = w ∧ t = u := by
  obtain ⟨after, first, -⟩ := h _ m.starts_core
  obtain ⟨after', second, -⟩ := k _ m.starts_core
  have same := congrArg Prod.fst (first.symm.trans second)
  cases same
  exact ⟨rfl, rfl⟩

/-- An expression means one value of one type only. -/
theorem Means.unique (h : m.Means e v t) (k : m.Means e w u) : v = w ∧ t = u := by
  obtain ⟨o, after, ran, -, stack, reads⟩ := h _ m.starts_core
  obtain ⟨o', after', ran', -, stack', reads'⟩ := k _ m.starts_core
  have same : after = after' := congrArg Prod.snd (ran.symm.trans ran')
  subst same
  obtain ⟨rfl, -⟩ := List.cons.inj (stack.symm.trans stack')
  exact reads.unique reads'

/-- A value reads as itself. -/
theorem reads_value (m : Machine) (v : Literal) (t : Ty) : m.Reads (.value v t) v t :=
  fun s starts => ⟨s, rfl, starts, rfl⟩

/-! ### Literals and names -/

/-- An integer that is spelled out means itself. -/
theorem means_integer (m : Machine) (n : Int) :
    m.Means (.literal (.integer n)) (.integer n) (Ty.ofInteger m.core.catalog.word n) := by
  intro s starts
  refine ⟨.value (.integer n) (Ty.ofInteger s.catalog.word n), _, rfl, ?_, rfl, ?_⟩
  · exact starts.restack (List.forall_mem_cons.2 ⟨trivial, starts.held⟩)
  · rw [starts.catalog.word]
    exact m.reads_value _ _

theorem meansInteger_integer (m : Machine) (n : Int) : m.MeansInteger (.literal (.integer n)) n := by
  refine ⟨_, _, m.means_integer n, ?_, ?_, rfl⟩
  all_goals
    unfold Ty.ofInteger
    dsimp only
    split <;> rfl

/-- The name of a registered variable means what the variable reads as. -/
theorem means_name (h : m.Sound) {a : Variable} (mem : a ∈ m.core.symbols.entries)
    (reads : m.Reads (.named a.id) v t) : m.Means (.name a.id) v t := by
  intro s starts
  have found : s.symbols.get? a.id = some a := starts.symbols ▸ h.core.fits.table.get?_id mem
  refine ⟨.named a.id, _, Run.run_name found, ?_, rfl, reads⟩
  have held : (Operand.named a.id).Held s.symbols := ⟨a, starts.symbols ▸ mem, rfl⟩
  exact starts.restack (List.forall_mem_cons.2 ⟨held, starts.held⟩)

/-- An array means the address of its first element, as a pointer, if there is such a type. -/
theorem means_array (h : m.Sound) {a : Variable} (mem : a ∈ m.core.symbols.entries)
    {element : Ty} {count : Nat} (array : a.type = .array element count)
    (pointer : element.pointerTo = .ok (.pointer element)) :
    m.Means (.name a.id) (.integer a.address) (.pointer element) := by
  apply means_name h mem
  intro s starts
  have found : s.symbols.get? a.id = some a := starts.symbols ▸ h.core.fits.table.get?_id mem
  have decay : (Ty.array element count).decay = .pointer element := by
    show (element.pointerTo.toOption.getD (.array element count)) = _
    rw [pointer]
    rfl
  refine ⟨{ s with catalog := s.catalog.internDecay (.array element count) }, ?_,
    starts.grow (Catalog.extends_internDecay _ _), rfl⟩
  rw [Run.read, run_bind, Run.run_lookup, found]
  simp only [array]
  show ((.ok (.integer a.address, (Ty.array element count).decay), _) :
    Except Fault (Literal × Ty) × Core) = _
  rw [decay]
  rfl

/-- A pointer means the address that its storage holds. -/
theorem means_pointer (h : m.Sound) {p : Variable} (mem : p ∈ m.core.symbols.entries)
    {target : Ty} (type : p.type = .pointer target)
    (loaded : m.core.memory.load m.core.catalog p.address (.pointer target) = .ok v) :
    m.Means (.name p.id) v (.pointer target) := by
  apply means_name h mem
  intro s starts
  have found : s.symbols.get? p.id = some p := starts.symbols ▸ h.core.fits.table.get?_id mem
  refine ⟨s, Run.run_read_pointer found type ?_, starts, rfl⟩
  simp only [Memory.load, starts.memory, starts.catalog.word] at loaded ⊢
  exact loaded

/-! ### Operators -/

/-- An operator on values of compatible types means what arithmetic makes of them. -/
theorem Means.binary {op : Operator} (left : m.Means l x lt) (right : m.Means r y rt)
    (first : lt.isArray = false) (second : rt.isArray = false) (fits : lt.compatible rt = true)
    (result : Arithmetic.apply m.core.catalog.word op x lt y rt = .ok (z, type)) :
    m.Means (.binary op l r) z type := by
  intro s starts
  obtain ⟨o, t, ranLeft, startsLeft, stackLeft, readsLeft⟩ := left s starts
  obtain ⟨q, u, ranRight, startsRight, stackRight, readsRight⟩ := right t startsLeft
  have both : (Run.code (Expr.binary op l r).compile).run.run s = (Run.binary op).run.run u :=
    Run.run_operands ranLeft ranRight
  -- The operands are read when both have been taken from the stack.
  have taken : m.Starts { u with stack := s.stack } := by
    apply startsRight.restack
    intro o' mem
    apply startsRight.held
    rw [stackRight, stackLeft]
    exact List.mem_cons_of_mem _ (List.mem_cons_of_mem _ mem)
  obtain ⟨v, readLeft, startsV, stackV⟩ := readsLeft _ taken
  obtain ⟨w, readRight, startsW, stackW⟩ := readsRight _ startsV
  have checked : (Run.checkCompatible lt rt).run.run w = (.ok (), w) :=
    Run.run_checkCompatible_single first second fits
  have same : w.catalog.word = m.core.catalog.word := startsW.catalog.word
  have top : u.stack = q :: o :: s.stack := by rw [stackRight, stackLeft]
  refine ⟨.value z type, { w with stack := .value z type :: w.stack }, ?_, ?_, ?_, m.reads_value _ _⟩
  · rw [both, Run.run_binary top readLeft readRight checked (same ▸ result)]
    rfl
  · exact startsW.restack (List.forall_mem_cons.2 ⟨trivial, startsW.held⟩)
  · show Operand.value z type :: w.stack = Operand.value z type :: s.stack
    rw [stackW, stackV]

end Machine

end ByteMachine
