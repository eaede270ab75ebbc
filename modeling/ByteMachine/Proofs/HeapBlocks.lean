import ByteMachine.Proofs.LastingTables
import ByteMachine.Proofs.StackDiscipline

/-!
# Blocks on the heap

A block on the heap is an owner. An alias is made by a declaration only, and a line can give no
variable the name of a block; so the names of blocks are given out to blocks alone, in every table
a machine can have. No byte has two owners, so at an address at most one block starts, and looking
for it there finds it.

Key definitions: `Symbols.OwnsBlocks`.
Key theorems: `Statement.declares_compile`, `Statement.named_of_parse`, `Machine.Reachable.ownsBlocks`,
`Symbols.Sound.heapBlockAt_eq_ok`, `Symbols.Sound.heapBlockAt_of_none`.
-/

namespace ByteMachine

open Discipline

/-! ### The names that code declares -/

section

variable (declared : Identifier → Prop)

theorem Code.declares_append {is js : List Instr} :
    Code.Declares declared (is ++ js) ↔ Code.Declares declared is ∧ Code.Declares declared js :=
  List.forall_mem_append

theorem Code.declares_cons {i : Instr} {is : List Instr} :
    Code.Declares declared (i :: is) ↔ i.Declares declared ∧ Code.Declares declared is :=
  List.forall_mem_cons

theorem Code.declares_nil : Code.Declares declared [] := List.forall_mem_nil _

namespace Expr

mutual

/-- Evaluating an expression declares nothing. -/
theorem declares_compile : ∀ e : Expr, Code.Declares declared e.compile
  | literal _ | null | typeName _ | name _ => List.forall_mem_singleton.2 trivial
  | newObject _ => by
    simp only [compile, Code.declares_cons]
    exact ⟨trivial, trivial, Code.declares_nil _⟩
  | negate e | newArray _ e => by
    simp only [compile, Code.declares_cons, Code.declares_append]
    exact ⟨trivial, declares_compile e, trivial, Code.declares_nil _⟩
  | dereference _ e | addressOf e | delete e => by
    simp only [compile, Code.declares_cons, Code.declares_append]
    exact ⟨declares_compile e, trivial, Code.declares_nil _⟩
  | index l r | binary _ l r => by
    simp only [compile, Code.declares_cons, Code.declares_append]
    exact ⟨declares_compile l, declares_compile r, trivial, Code.declares_nil _⟩
  | call _ es => by
    simp only [compile, Code.declares_cons, Code.declares_append]
    exact ⟨declares_compileAll es, trivial, Code.declares_nil _⟩

theorem declares_compileAll : ∀ es : List Expr, Code.Declares declared (compileAll es)
  | [] => Code.declares_nil _
  | e :: es => by
    simp only [compileAll, Code.declares_append]
    exact ⟨declares_compile e, declares_compileAll es⟩

end

end Expr

namespace Statement

theorem declares_storeElements (id : Identifier) : ∀ (es : List Expr) (i : Nat),
    Code.Declares declared (storeElements id i es)
  | [], _ => Code.declares_nil _
  | e :: es, i => by
    simp only [storeElements, Code.declares_cons, Code.declares_append]
    exact ⟨⟨⟨trivial, trivial, trivial, Code.declares_nil _⟩, e.declares_compile declared, trivial,
      trivial, Code.declares_nil _⟩, declares_storeElements id es (i + 1)⟩

/-- The code of a statement declares no more than the variable of the declaration that it is. -/
theorem declares_compile {s : Statement} (named : ∀ id, s.declared? = some id → declared id) :
    Code.Declares declared s.compile := by
  cases s with
  | expression e => exact e.declares_compile declared
  | assignment target value =>
    simp only [compile, Code.declares_cons, Code.declares_append]
    exact ⟨target.declares_compile declared, value.declares_compile declared, trivial,
      Code.declares_nil _⟩
  | scalarDeclaration t id initial =>
    cases initial with
    | none => exact List.forall_mem_singleton.2 (named id rfl)
    | some e =>
      simp only [compile, Code.declares_cons, Code.declares_append]
      exact ⟨e.declares_compile declared, named id rfl, Code.declares_nil _⟩
  | referenceDeclaration t id source =>
    simp only [compile, Code.declares_cons, Code.declares_append]
    exact ⟨source.declares_compile declared, named id rfl, Code.declares_nil _⟩
  | arrayDeclaration t id => exact List.forall_mem_singleton.2 (named id rfl)
  | textDeclaration t id text =>
    simp only [compile, Code.declares_cons]
    exact ⟨named id rfl, trivial, trivial, trivial, trivial, Code.declares_nil _⟩
  | listDeclaration t id es =>
    simp only [compile, Code.declares_cons]
    exact ⟨named id rfl, declares_storeElements declared id es 0⟩

end Statement

end

/-! ### The names in a line -/

/-- The variable that is declared has no name of a block. -/
def Statement.Named (s : Statement) : Prop := ∀ id, s.declared? = some id → id.isHeap = false

namespace Parser

variable {scope : Scope}

theorem newName_gives : Gives newName fun id => id.isHeap = false := by
  refine gives_bind fun token => ?_
  split
  · split
    · exact gives_throw _
    · split
      · next found =>
        unfold Identifier.ofName? at found
        split at found
        · cases found
          exact gives_pure rfl
        · cases found
      · exact gives_throw _
  · exact gives_fail _

theorem arrayDeclaration_named (element : Ty) {id : Identifier} (name : id.isHeap = false) :
    Gives (arrayDeclaration scope element id) Statement.Named := by
  refine gives_bind fun count => gives_bind fun initialized => ?_
  split
  · split
    · exact gives_fail _
    · refine gives_bind fun last => ?_
      split
      · exact gives_fail _
      · refine gives_bind fun t => gives_pure fun _ e => ?_
        cases e
        exact name
  · refine gives_bind fun token => ?_
    split
    · split
      · exact gives_fail _
      · refine gives_bind fun _ => gives_bind fun t => gives_pure fun _ e => ?_
        cases e
        exact name
    · refine gives_bind fun _ => gives_bind fun fuel => gives_bind fun es => ?_
      dsimp only
      split
      · exact gives_fail _
      · refine gives_bind fun t => gives_pure fun _ e => ?_
        cases e
        exact name

theorem declaration_named : Gives (declaration scope) Statement.Named := by
  refine gives_bind fun base => gives_bind fun isReference => newName_gives.bind fun id name => ?_
  refine gives_bind fun bracket => ?_
  split
  · split
    · exact gives_fail _
    · exact arrayDeclaration_named base name
  · split
    · refine gives_bind fun initialized => ?_
      split
      · refine gives_bind fun source => gives_bind fun t => gives_pure fun _ e => ?_
        cases e
        exact name
      · refine gives_bind fun last => ?_
        split
        · exact gives_throw _
        · exact gives_fail _
    · refine gives_bind fun initialized => ?_
      split
      · refine gives_bind fun initial => gives_pure fun _ e => ?_
        cases e
        exact name
      · refine gives_bind fun last => ?_
        split
        · refine gives_pure fun _ e => ?_
          cases e
          exact name
        · exact gives_fail _

theorem assignmentOrExpression_named :
    Gives (assignmentOrExpression scope) Statement.Named := by
  refine gives_bind fun first => gives_bind fun assigned => ?_
  split <;> exact gives_bind fun e => gives_pure fun _ declares => nomatch declares

end Parser

/-- A line names no block. -/
theorem Statement.named_of_parse {scope : Scope} {line : String} {s : Statement}
    (e : (parse scope line).1 = .ok (some s)) : s.Named :=
  Statement.of_parse Parser.declaration_named Parser.assignmentOrExpression_named e

theorem declaring_named : Declaring fun id => id.isHeap = false where
  statements := by
    intro scope line s met read
    have named : s.Named := Statement.named_of_parse (congrArg Prod.fst read)
    exact Statement.declares_compile _ named
  streams := fun _ _ => rfl

/-! ### Blocks in a table -/

namespace Symbols

variable {s : Symbols} {a : Nat} {b w : Variable}

/-- No block is an alias. -/
def OwnsBlocks (s : Symbols) : Prop := ∀ v ∈ s.entries, v.id.isHeap = true → v.isAlias = false

theorem lasting_ownsBlocks : Lasting (fun id => id.isHeap = false) OwnsBlocks where
  empty := fun _ _ _ _ _ mem => nomatch mem
  placement := fun _ h => h
  change := by
    intro s t change h
    unfold OwnsBlocks at h ⊢
    cases change with
    | counted | numbered => exact h
    | placed owner _ found inserted =>
      rw [entries_of_placed found inserted, List.forall_mem_append, List.forall_mem_singleton]
      exact ⟨h, fun _ => owner⟩
    | aliased _ name _ inserted =>
      obtain ⟨-, -, rfl⟩ := insert_eq_ok inserted
      rw [List.forall_mem_append, List.forall_mem_singleton]
      exact ⟨h, fun heap => nomatch name.symm.trans heap⟩
    | removed id =>
      rw [entries_remove]
      exact fun v mem => h v (List.mem_filter.1 mem).1

/-- A block owns the byte at which it starts. -/
theorem Sound.owns_start (h : s.Sound) (mem : b ∈ s.entries) (owner : b.isAlias = false) :
    b.Owns b.address :=
  ⟨owner, Nat.le_refl _, Nat.lt_add_of_pos_right (h.room b mem owner).1⟩

/-- A block that starts at a byte of an owner is that owner. -/
theorem Sound.eq_of_block (h : s.Sound) (blocks : s.OwnsBlocks) (mem : b ∈ s.entries)
    (heap : b.id.isHeap = true) (owner : w ∈ s.entries) (owns : w.Owns b.address) : w = b :=
  h.apart w owner b mem _ owns (h.owns_start mem (blocks b mem heap))

/-- The block that starts at an address is found there. -/
theorem Sound.heapBlockAt_eq_ok (h : s.Sound) (blocks : s.OwnsBlocks) (mem : b ∈ s.entries)
    (heap : b.id.isHeap = true) : s.heapBlockAt b.address = .ok b.id := by
  unfold heapBlockAt
  cases found : (s.startingAt b.address).find? fun v => v.id.isHeap with
  | none =>
    have here : b ∈ s.startingAt b.address := h.mem_startingAt.2 ⟨mem, rfl⟩
    exact absurd heap (List.find?_eq_none.1 found b here)
  | some w =>
    obtain ⟨mw, start⟩ := h.mem_startingAt.1 (List.mem_of_find?_eq_some found)
    have heap' : w.id.isHeap = true := by simpa using List.find?_some found
    have owns : w.Owns b.address := start ▸ h.owns_start mw (blocks w mw heap')
    rw [h.eq_of_block blocks mem heap mw owns]

/-- Where no block starts none is found. -/
theorem Sound.heapBlockAt_of_none (h : s.Sound)
    (none : ∀ b ∈ s.entries, b.id.isHeap = true → b.address ≠ a) :
    s.heapBlockAt a = .error (.notHeapAddress a) := by
  unfold heapBlockAt
  rw [List.find?_eq_none.2 fun v here heap =>
    none v (h.mem_startingAt.1 here).1 heap (h.mem_startingAt.1 here).2]

end Symbols

/-- In no machine that can be reached is a block an alias. -/
theorem Machine.Reachable.ownsBlocks {m : Machine} (h : m.Reachable) : m.core.symbols.OwnsBlocks :=
  (h.carries declaring_named Symbols.lasting_ownsBlocks).present

end ByteMachine
