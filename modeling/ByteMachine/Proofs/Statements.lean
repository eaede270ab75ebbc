import ByteMachine.Proofs.Functions

/-!
# Statements keep states sound

Declarations register only what fits: an owner gets free bytes for its type, an alias the size of
the type it refers to, and both a name that a statement can declare. So each instruction whose
types were met keeps to `Core.discipline`, then by induction all code does, and with the result
that is made of the last operand a whole statement.

Key definitions: `Instr.Known`, `Code.Known`.
Key theorems: `Run.create_yields`, `Run.step_yields`, `Run.code_yields`, `Run.statement_yields`.
-/

namespace ByteMachine

open Discipline

/-- An instruction whose types were met and that declares no name but a proper one. -/
def Instr.Known (c : Catalog) : Instr → Prop
  | .push v => v.Known c
  | .pushTyped v t => v.Known c ∧ t ∈ c.known
  | .create t id _ => t ∈ c.known ∧ id.Registrable
  | _ => True

theorem Instr.Known.grow {c d : Catalog} (h : c.Extends d) {i : Instr} (k : i.Known c) :
    i.Known d := by
  cases i with
  | push v => exact Literal.Known.grow h k
  | pushTyped => exact ⟨k.1.grow h, h.mem k.2⟩
  | create => exact ⟨h.mem k.1, k.2⟩
  | _ => trivial

/-- Code all of whose instructions are known. -/
def Code.Known (c : Catalog) (is : List Instr) : Prop := ∀ i ∈ is, i.Known c

namespace Code

variable {c d : Catalog} {i : Instr} {is js : List Instr}

theorem Known.grow (h : c.Extends d) (k : Known c is) : Known d is := fun i m => (k i m).grow h

@[simp] theorem known_nil : Known c [] := List.forall_mem_nil _

@[simp] theorem known_cons : Known c (i :: is) ↔ i.Known c ∧ Known c is := List.forall_mem_cons

@[simp] theorem known_append : Known c (is ++ js) ↔ Known c is ∧ Known c js :=
  List.forall_mem_append

end Code

namespace Run

variable {s : Core}

/-! ### Declarations -/

theorem makeScalar_yields {t : Ty} {id : Identifier} {initial : Option Operand}
    (m : t ∈ s.catalog.known) (plain : t.isReference = false) (name : id.Registrable)
    (k : ∀ o, initial = some o → o.Known s.catalog) :
    s.Yields (makeScalar id t initial) fun _ _ => True := by
  refine yields_catalog_bind.2 ?_
  split
  · exact yields_throw
  · split
    · exact .bind (allocate_yields m plain name) fun _ _ _ _ => yields_pure.2 fun _ => trivial
    · next o =>
      refine .bind (read_yields (k o rfl)) fun u ⟨v, found⟩ l known => ?_
      have m := l.catalog.mem m
      refine .bind (checkCompatible_yields m known.2) fun u _ l _ => ?_
      refine .bind (allocate_yields (l.catalog.mem m) plain name) fun u address l' _ => ?_
      exact storeValue_yields (known.1.grow (l.catalog.trans l'.catalog)) _ _

theorem createScalar_yields {t : Ty} {id : Identifier} (m : t ∈ s.catalog.known)
    (plain : t.isReference = false) (name : id.Registrable) (initialized : Bool) :
    s.Yields (createScalar id t initialized) fun _ _ => True := by
  cases initialized with
  | false =>
    have initial : s.Yields (pure none : Run (Option Operand)) fun _ initial => initial = none :=
      yields_pure.2 fun _ => rfl
    refine initial.bind ?_
    rintro u _ l rfl
    exact makeScalar_yields (l.catalog.mem m) plain name fun _ e => nomatch e
  | true =>
    have initial : s.Yields (some <$> pop) fun u initial =>
        ∀ o, initial = some o → o.Known u.catalog := by
      refine pop_yields.map fun u o k _ e => ?_
      cases e
      exact k
    exact initial.bind fun u initial l k => makeScalar_yields (l.catalog.mem m) plain name k

/-- An alias of the size of the type that it refers to may be registered anywhere. -/
theorem registerAlias_yields {target : Ty} {id : Identifier}
    (m : Ty.reference target ∈ s.catalog.known) (name : id.Registrable) (address : Nat)
    (owner : Identifier) :
    s.Yields (do
      let size := (← catalog).size target.strip
      setSymbols (← lift ((← symbols).insert
        ⟨id, .reference target, address, size, .reference owner⟩))) fun _ _ => True := by
  refine yields_catalog_bind.2 (yields_symbols_bind.2 (yields_lift_bind fun table e => ?_))
  refine (setSymbols_yields (Symbols.sameSettings_insert e) fun sound => ?_).forget
  have flat : target.strip = target := Ty.strip_of_plain (sound.closed.isReference_strip m)
  exact sound.fits.insert_alias rfl ⟨m, congrArg s.catalog.size flat, rfl,
    fun plain => absurd plain (by simp [Variable.isAlias]), name⟩ e

theorem createReference_yields {target : Ty} {id : Identifier}
    (m : Ty.reference target ∈ s.catalog.known) (name : id.Registrable) :
    s.Yields (createReference id (.reference target) target.strip) fun _ _ => True := by
  refine .bind pop_yields fun t source l k => ?_
  refine .bind (storage?_yields k) fun u place l₁ known => ?_
  split
  · exact yields_throw
  · split
    · exact yields_throw
    · refine .bind (ownerOf?_yields source) fun v owner l₂ _ => ?_
      have m := ((l.catalog.trans l₁.catalog).trans l₂.catalog).mem m
      split
      · exact yields_throw
      · exact registerAlias_yields m name _ _

theorem createArray_yields {t : Ty} {id : Identifier} (m : t ∈ s.catalog.known)
    (plain : t.isReference = false) (name : id.Registrable) (initialized : Bool) :
    s.Yields (createArray id t initialized) fun _ _ => True := by
  refine .bind (allocate_yields m plain name) fun u address _ _ => ?_
  split
  · refine yields_catalog_bind.2 (yields_memory_bind.2 (yields_lift_bind fun n e => ?_))
    obtain ⟨size, order⟩ := Memory.write_eq_ok e
    exact (setMemory_yields size order).forget
  · exact yields_pure.2 fun _ => trivial

theorem create_yields {t : Ty} {id : Identifier} (m : t ∈ s.catalog.known)
    (name : id.Registrable) (initialized : Bool) :
    s.Yields (create t id initialized) fun _ _ => True := by
  refine yields_symbols_bind.2 ?_
  have pushed : ∀ u : Core, u.Yields (push (.named id)) fun _ _ => True := fun _ =>
    push_yields trivial
  split
  · exact yields_throw
  · dsimp only
    split
    · exact .bind (createReference_yields m name) fun u _ _ _ => pushed u
    · exact .bind (createArray_yields m rfl name initialized) fun u _ _ _ => pushed u
    · next scalar _ =>
      have plain : t.isReference = false := by
        cases t with
        | reference target => exact absurd rfl (scalar target)
        | _ => rfl
      exact .bind (createScalar_yields m plain name initialized) fun u _ _ _ => pushed u

/-! ### Code -/

/-- One instruction, whichever it is. -/
theorem step_yields {i : Instr} (k : i.Known s.catalog) : s.Yields (step i) fun _ _ => True := by
  cases i with
  | push v =>
    exact .bind (naturalType_yields v) fun _ _ l m =>
      pushValue_yields (Literal.Known.grow l.catalog k) m
  | pushTyped v t => exact pushValue_yields k.1 k.2
  | pushName id => exact .bind (lookup_yields id) fun _ _ _ _ => push_yields trivial
  | addressOf => exact addressOf_yields
  | dereference levels => exact dereference_yields levels
  | index => exact index_yields
  | binary op => exact binary_yields op
  | assign => exact assign_yields
  | create t id initialized => exact create_yields k.1 k.2 initialized
  | call function count => exact call_yields function count
  | discard => exact .bind pop_yields fun _ _ _ _ => yields_pure.2 fun _ => trivial

/-- All instructions of some code, in order, up to the first that fails. -/
theorem code_yields : ∀ (is : List Instr) {s : Core}, Code.Known s.catalog is →
    s.Yields (code is) fun _ _ => True
  | [], _, _ => yields_pure.2 fun _ => trivial
  | i :: is, s, k => by
    rw [Code.known_cons] at k
    exact .bind (step_yields k.1) fun t _ l _ => code_yields is (k.2.grow l.catalog)

/-! ### Results -/

theorem temporary_yields (v : Literal) (t : Ty) (address : Nat) :
    s.Yields (temporary v t address) fun _ _ => True := by
  refine yields_symbols_bind.2 ?_
  refine .bind (setSymbols_yields ⟨rfl, rfl, rfl⟩ fun sound =>
    sound.fits.congr rfl rfl rfl rfl rfl) fun _ _ _ _ => ?_
  exact yields_catalog_bind.2 (yields_pure.2 fun _ => trivial)

theorem resultOf_yields (o : Operand) : s.Yields (resultOf o) fun _ _ => True := by
  unfold resultOf
  split
  · exact (lookup_yields _).forget
  · exact yields_memory_bind.2 (yields_catalog_bind.2 (yields_lift_bind fun v _ =>
      temporary_yields v _ _))
  · exact temporary_yields _ _ _

theorem statement_yields {is : List Instr} (k : Code.Known s.catalog is) :
    s.Yields (statement is) fun _ _ => True := by
  refine .bind (code_yields is k) fun t _ _ _ => yields_get_bind.2 ?_
  split
  · exact yields_pure.2 fun _ => trivial
  · exact .bind pop_yields fun u o _ _ => (resultOf_yields o).map fun _ _ _ => trivial
  · exact yields_throw

end Run

end ByteMachine
