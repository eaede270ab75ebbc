import ByteMachine.Proofs.Instructions

/-!
# Functions keep states sound

The bodies of the built-in functions keep to `Core.discipline`, given arguments whose types were
met, and so does a call, which takes its arguments from the stack. Two of them touch the table:
a block is taken for a type that is no reference, and releasing one leaves a table that is still
sound.

Key theorems: `Run.release_yields`, `Run.typeArgument_yields`, `Run.invoke_yields`,
`Run.call_yields`.
-/

namespace ByteMachine

open Discipline

theorem Builtin.parameters_known {c : Catalog} (h : c.Closed) (f : Builtin) :
    ∀ p ∈ f.parameters, p.2 ∈ c.known := by
  cases f <;> simp only [parameters, List.forall_mem_cons, List.not_mem_nil, false_imp_iff,
    implies_true, and_true] <;>
    simp only [Ty.uint, Ty.any, Ty.double, h.scalar, h.descriptor, h.anyPointer, h.charPointer,
      and_self]

namespace Run

variable {s : Core}

/-! ### Blocks of memory -/

theorem malloc_yields {o : Operand} (k : o.Known s.catalog) :
    s.Yields (malloc o) fun _ _ => True := by
  refine .bind (readInteger_yields k) fun t n _ _ => .of_keeps fun sound => ?_
  split
  · exact yields_throw
  · refine .bind (arrayOf_yields (sound.closed.scalar .char) _) fun u array _ made => ?_
    refine .bind (allocateHeap_yields made.1 made.2) fun v address _ _ => .of_keeps fun sound => ?_
    exact pushPointer_yields (sound.closed.scalar .any) _

theorem release_yields {o : Operand} (k : o.Known s.catalog) :
    s.Yields (release o) fun _ _ => True := by
  refine .bind (read_yields k) fun t ⟨v, type⟩ _ _ => ?_
  dsimp only
  split
  · exact yields_throw
  · split
    · exact yields_pure.2 fun _ => trivial
    · refine yields_symbols_bind.2 (yields_lift_bind fun block _ => ?_)
      exact (setSymbols_yields (Symbols.sameSettings_remove _ block) fun sound =>
        sound.fits.remove block).forget

/-- A type that is given as an argument was met, has a size and is no reference. -/
theorem typeArgument_yields {o : Operand} (k : o.Known s.catalog) :
    s.Yields (typeArgument o) fun u t => t ∈ u.catalog.known ∧ t.isReference = false := by
  refine .bind (read_yields k) fun t ⟨v, type⟩ _ known => ?_
  dsimp only
  split
  · refine yields_catalog_bind.2 ?_
    split
    · exact yields_throw
    · next sized =>
      simp only [Bool.or_eq_true, not_or, Bool.not_eq_true] at sized
      exact yields_pure.2 fun _ => ⟨known.1, sized.2⟩
  · exact yields_catalog_bind.2 yields_throw

theorem newObject_yields {o : Operand} (k : o.Known s.catalog) :
    s.Yields (newObject o) fun _ _ => True := by
  refine .bind (typeArgument_yields k) fun t type _ sized => ?_
  refine .bind (allocateHeap_yields sized.1 sized.2) fun u address l _ => ?_
  exact pushPointer_yields (l.catalog.mem sized.1) _

theorem newArray_yields {type count : Operand} (k : type.Known s.catalog)
    (k' : count.Known s.catalog) : s.Yields (newArray type count) fun _ _ => True := by
  refine .bind (typeArgument_yields k) fun t element l sized => ?_
  refine .bind (readInteger_yields (k'.grow l.catalog)) fun u n l₁ _ => ?_
  split
  · exact yields_throw
  · have m := l₁.catalog.mem sized.1
    refine .bind (arrayOf_yields m _) fun v array l₂ made => ?_
    refine .bind (allocateHeap_yields made.1 made.2) fun w address l₃ _ => ?_
    exact pushPointer_yields ((l₂.catalog.trans l₃.catalog).mem m) _

/-! ### Types and printing -/

theorem reflectedType_yields {o : Operand} (k : o.Known s.catalog) :
    s.Yields (reflectedType o) fun u t => t ∈ u.catalog.known := by
  unfold reflectedType
  split
  · exact yields_pure.2 fun _ => k.1
  · exact .bind (typeOf_yields k) fun _ _ _ m => yields_pure.2 fun sound => sound.closed.strip m

theorem sizeof_yields {o : Operand} (k : o.Known s.catalog) :
    s.Yields (sizeof o) fun _ _ => True :=
  .bind (reflectedType_yields k) fun _ _ _ _ => yields_catalog_bind.2 (.of_keeps fun sound =>
    pushValue_yields trivial (sound.closed.scalar .uint))

theorem typeof_yields {o : Operand} (k : o.Known s.catalog) :
    s.Yields (typeof o) fun _ _ => True :=
  .bind (reflectedType_yields k) fun _ _ _ m => .of_keeps fun sound =>
    pushValue_yields m sound.closed.descriptor

theorem printedValue_yields {o : Operand} (k : o.Known s.catalog) :
    s.Yields (printedValue o) fun _ _ => True := by
  refine .bind (read_yields k) fun t ⟨v, type⟩ _ _ => ?_
  dsimp only
  split <;> exact yields_pure.2 fun _ => trivial

/-- A text that cannot be read is printed as a value, from the state the attempt has left. -/
theorem printable_yields {o : Operand} (k : o.Known s.catalog) :
    s.Yields (printable o) fun _ _ => True := by
  refine .bind (typeOf_yields k) fun t type l _ => ?_
  have k := k.grow l.catalog
  dsimp only
  split
  · exact .caught (readText_yields k) fun _ _ l => printedValue_yields (k.grow l.catalog)
  · exact printedValue_yields k

theorem print_yields {o : Operand} (k : o.Known s.catalog) :
    s.Yields (print o) fun _ _ => True :=
  .bind (printable_yields k) fun _ _ _ _ => setConsole_yields.forget

theorem readLine_yields (prompt : String) : s.Yields (readLine prompt) fun _ _ => True := by
  refine yields_get_bind.2 ?_
  dsimp only
  refine .bind (setConsole_yields (f := fun _ => _)) fun _ _ _ _ => ?_
  split
  · exact yields_pure.2 fun _ => trivial
  · exact yields_throw

theorem input_yields {o : Operand} (k : o.Known s.catalog) :
    s.Yields (input o) fun _ _ => True := by
  refine .bind (readText_yields k) fun t prompt _ _ => ?_
  refine .bind (readLine_yields prompt) fun u line _ _ => ?_
  refine .bind (allocateText_yields line) fun v address _ _ => .of_keeps fun sound => ?_
  exact pushPointer_yields (sound.closed.scalar .char) _

/-! ### Numbers -/

theorem strlen_yields {o : Operand} (k : o.Known s.catalog) :
    s.Yields (strlen o) fun _ _ => True :=
  .bind (readText_yields k) fun _ _ _ _ => yields_lift_bind fun _ _ => .of_keeps fun sound =>
    pushValue_yields trivial (sound.closed.scalar .uint)

theorem abs_yields {o : Operand} (k : o.Known s.catalog) :
    s.Yields (abs o) fun _ _ => True := by
  refine .bind (read_yields k) fun t ⟨v, type⟩ _ known => ?_
  dsimp only
  split
  · exact yields_throw
  · split
    · exact pushValue_yields trivial known.2
    · split
      · exact yields_word_bind.2 (pushValue_yields trivial known.2)
      · exact yields_throw

theorem sqrt_yields {o : Operand} (k : o.Known s.catalog) :
    s.Yields (sqrt o) fun _ _ => True :=
  .bind (readFloat_yields k) fun _ _ _ _ => .of_keeps fun sound =>
    pushValue_yields trivial (sound.closed.scalar .double)

theorem pow_yields {base exponent : Operand} (k : base.Known s.catalog)
    (k' : exponent.Known s.catalog) : s.Yields (pow base exponent) fun _ _ => True :=
  .bind (readFloat_yields k) fun _ _ l _ => .bind (readFloat_yields (k'.grow l.catalog))
    fun _ _ _ _ => .of_keeps fun sound => pushValue_yields trivial (sound.closed.scalar .double)

theorem converted?_known {c : Catalog} {target : Scalar} {width : Nat} {v w : Literal}
    (e : converted? target width v = some w) : w.Known c := by
  unfold converted? at e
  split at e
  · obtain ⟨x, -, rfl⟩ := Option.map_eq_some_iff.1 e
    trivial
  · obtain ⟨n, -, rfl⟩ := Option.map_eq_some_iff.1 e
    dsimp only
    split <;> trivial

theorem cast_yields (target : Scalar) {o : Operand} (k : o.Known s.catalog) :
    s.Yields (cast target o) fun _ _ => True := by
  refine .bind (read_yields k) fun t ⟨v, type⟩ _ _ => ?_
  dsimp only
  split
  · exact yields_throw
  · refine yields_word_bind.2 (.of_keeps fun sound => ?_)
    split
    · next e => exact pushValue_yields (converted?_known e) (sound.closed.scalar target)
    · exact yields_catalog_bind.2 yields_throw

/-! ### Calls -/

theorem invoke_yields (f : Builtin) {os : List Operand} (k : ∀ o ∈ os, o.Known s.catalog) :
    s.Yields (invoke f os) fun _ _ => True := by
  unfold invoke
  split
  · exact malloc_yields (k _ (.head _))
  · exact release_yields (k _ (.head _))
  · exact release_yields (k _ (.head _))
  · exact newObject_yields (k _ (.head _))
  · exact newArray_yields (k _ (.head _)) (k _ (.tail _ (.head _)))
  · exact sizeof_yields (k _ (.head _))
  · exact typeof_yields (k _ (.head _))
  · exact print_yields (k _ (.head _))
  · exact input_yields (k _ (.head _))
  · exact strlen_yields (k _ (.head _))
  · exact abs_yields (k _ (.head _))
  · exact sqrt_yields (k _ (.head _))
  · exact pow_yields (k _ (.head _)) (k _ (.tail _ (.head _)))
  · exact cast_yields _ (k _ (.head _))
  · exact yields_throw

theorem checkArguments_yields (function : String) : ∀ (ps : List (String × Ty)) {s : Core}
    {os : List Operand} (position : Nat), (∀ p ∈ ps, p.2 ∈ s.catalog.known) →
    (∀ o ∈ os, o.Known s.catalog) →
      s.Yields (checkArguments function position ps os) fun _ _ => True
  | [], _, _, _, _, _ => yields_pure.2 fun _ => trivial
  | _ :: _, _, [], _, _, _ => yields_pure.2 fun _ => trivial
  | p :: ps, s, o :: os, position, mp, mo => by
    rw [List.forall_mem_cons] at mp mo
    refine .bind (typeOf_yields mo.1) fun t found l m => ?_
    refine .bind (areCompatible_yields (l.catalog.mem mp.1) m) fun u ok l' _ => ?_
    have grown := l.catalog.trans l'.catalog
    split
    · exact yields_throw
    · exact checkArguments_yields function ps (position + 1)
        (fun p m => grown.mem (mp.2 p m)) fun o m => (mo.2 o m).grow grown

theorem call_yields (function : String) (count : Nat) :
    s.Yields (call function count) fun _ _ => True := by
  refine yields_get_bind.2 (.of_keeps fun sound => ?_)
  dsimp only
  split
  · exact yields_throw
  · refine .bind (setStack_yields (f := fun _ => s.stack.drop count) fun sound o m =>
      sound.stack o (List.mem_of_mem_drop m)) ?_
    rintro _ _ - rfl
    split
    · exact yields_throw
    · next f _ =>
      split
      · exact yields_throw
      · have known : ∀ o ∈ (s.stack.take count).reverse, o.Known s.catalog := fun o m =>
          sound.stack o (List.mem_of_mem_take (List.mem_reverse.1 m))
        refine .bind (checkArguments_yields function f.parameters 1
          (f.parameters_known sound.closed) known) fun t _ l _ => ?_
        exact invoke_yields f fun o m => (known o m).grow l.catalog

end Run

end ByteMachine
