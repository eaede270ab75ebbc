import ByteMachine.Proofs.TypeTags

/-!
# Which types may meet

Types are compared by what is read from them: a reference counts as its target, and an array as a
pointer to its element. Two of them meet if one is `any` or a pointer to it, both are `type_t`, or
each is a pointer or a type of numbers. `Ty.Meets` is this rule, `Ty.compatible` the check.

The check is the rule wherever an array has a pointer to decay to. An array of pointers with all the
stars there may be has none: it stays the array that it is and is refused where the rule admits it,
unless it meets itself, `any` or a pointer to `any`. Nothing is ever admitted against the rule.

Key definitions: `Ty.compared`, `Ty.IsAnything`, `Ty.IsQuantity`, `Ty.Meets`, `Ty.IsDeep`.
Key theorems: `Catalog.Reached.compatible_iff`, `Catalog.Reached.compatible_iff_meets`,
`Catalog.Reached.compatible_of_deep`, `Catalog.Reached.compatibility`.
-/

namespace ByteMachine

/-! ### The rule -/

namespace Ty

/-- The type as it is compared. -/
def compared (t : Ty) : Ty :=
  match t.strip with
  | array e _ => pointer e
  | u => u

/-- `any`, or a pointer to it of any depth. -/
def IsAnything (t : Ty) : Prop := ∃ stars, t = any.starred stars

/-- A pointer, or a type of numbers. -/
def IsQuantity (t : Ty) : Prop := (∃ target, t = pointer target) ∨ ∃ s, s ≠ .any ∧ t = scalar s

/-- The types may meet in an operator, an assignment or a call. -/
def Meets (a b : Ty) : Prop :=
  a.compared.IsAnything ∨ b.compared.IsAnything ∨
    (a.compared = descriptor ∧ b.compared = descriptor) ∨
    (a.compared.IsQuantity ∧ b.compared.IsQuantity)

/-- An array whose elements have all the stars that a pointer may have, or a reference to one. -/
def IsDeep (t : Ty) : Prop := ∃ e n, t.strip = array e n ∧ maxStars ≤ e.stars

variable {t : Ty}

theorem compared_ne_array (e : Ty) (n : Nat) : t.compared ≠ array e n := by
  unfold compared
  split
  · exact nofun
  · next other => exact other e n

/-! ### What the tests of the check say -/

theorem isAny_iff (plain : t.isReference = false) : t.isAny = true ↔ t = any := by
  rw [isAny, scalar?, strip_of_plain plain]
  cases t <;> simp [any]

theorem isAnything_iff_base : t.IsAnything ↔ t.base = any := by
  constructor
  · rintro ⟨stars, rfl⟩
    exact (base_starred rfl stars).1
  · intro base
    exact ⟨t.stars, by rw [← base, starred_base]⟩

/-- Both tests for `any` together, for a type without references. -/
theorem isAnything_iff (plain : t.isReference = false) (base : t.base.isReference = false) :
    (t.isAny || t.isPointerToAny) = true ↔ t.IsAnything := by
  rw [Bool.or_eq_true, isAny_iff plain, isAnything_iff_base, isPointerToAny, Bool.and_eq_true,
    strip_of_plain plain, isAny_iff base]
  constructor
  · rintro (rfl | ⟨-, same⟩)
    · rfl
    · exact same
  · intro same
    cases t with
    | pointer target => exact .inr ⟨rfl, same⟩
    | _ => exact .inl same

theorem isQuantity_iff (plain : t.isReference = false) :
    (t.isPointer || t.isArithmetic) = true ↔ t.IsQuantity := by
  rw [isPointer, isArithmetic, scalar?, strip_of_plain plain]
  cases t <;> simp [IsQuantity, Scalar.isArithmetic]

/-- A type that is neither an array nor a reference meets itself. -/
theorem isQuantity_of_single (plain : t.isReference = false) (single : ∀ e n, t ≠ array e n) :
    t.IsAnything ∨ t = descriptor ∨ t.IsQuantity := by
  cases t with
  | scalar s =>
    by_cases any : s = .any
    · exact .inl ⟨0, congrArg scalar any⟩
    · exact .inr (.inr (.inr ⟨s, any, rfl⟩))
  | descriptor => exact .inr (.inl rfl)
  | pointer target => exact .inr (.inr (.inl ⟨target, rfl⟩))
  | reference => cases plain
  | array e n => exact absurd rfl (single e n)

theorem not_isAnything_array (e : Ty) (n : Nat) : ¬ (array e n).IsAnything := by
  rw [isAnything_iff_base]
  exact nofun

theorem not_isQuantity_array (e : Ty) (n : Nat) : ¬ (array e n).IsQuantity := by
  rintro (⟨target, same⟩ | ⟨s, -, same⟩) <;> cases same

theorem compatible_comm (a b : Ty) : a.compatible b = b.compatible a := by
  unfold compatible
  rw [Bool.eq_iff_iff]
  simp only [Bool.or_eq_true, Bool.and_eq_true, beq_iff_eq, eq_comm (a := a.decay)]
  tauto

end Ty

/-! ### Types of a catalog -/

namespace Catalog

theorem Formed.admits {c : Catalog} {t : Ty} (h : c.Formed t) : c.Admits t := by
  cases t with
  | scalar | descriptor => trivial
  | pointer => exact ⟨h.1, h.2.1⟩
  | reference => exact h
  | array => exact ⟨h.1, _, h.2⟩

namespace Reached

variable {c : Catalog} {t a b : Ty}

theorem admits (h : c.Reached) (m : t ∈ c.known) : c.Admits t := by
  rcases h with ⟨word, valid, calls⟩ | ⟨machine, reached, rfl⟩
  · exact (((canonical_bare valid).calls calls).formed t m).admits
  · exact reached.sound.core.closed.admits t m

theorem isReference_base (h : c.Reached) (m : t ∈ c.known) (plain : t.isReference = false) :
    t.base.isReference = false := by
  induction t with
  | pointer t ih => exact ih (h.admits m).1 (h.admits m).2
  | _ => exact plain

theorem strip (h : c.Reached) (m : t ∈ c.known) :
    t.strip ∈ c.known ∧ t.strip.isReference = false := by
  cases t with
  | reference t => exact h.admits m
  | _ => exact ⟨m, rfl⟩

/-- The element of an array is of the catalog and no reference. -/
theorem element (h : c.Reached) (m : t ∈ c.known) {e : Ty} {n : Nat}
    (array : t.strip = .array e n) : e ∈ c.known ∧ e.isReference = false := by
  have admitted := h.admits (h.strip m).1
  rw [array] at admitted
  obtain ⟨me, word, made⟩ := admitted
  exact ⟨me, Ty.element_of_arrayOf made⟩

theorem decay_of_deep (h : c.Reached) (m : t ∈ c.known) (deep : t.IsDeep) : t.decay = t.strip := by
  obtain ⟨e, n, array, all⟩ := deep
  have full : Ty.maxStars < e.stars + 1 := Nat.lt_succ_of_le all
  simp only [Ty.decay, array, Ty.pointerTo_eq_of_plain (h.element m array).2, if_pos full]
  rfl

theorem decay_of_shallow (h : c.Reached) (m : t ∈ c.known) (shallow : ¬ t.IsDeep) :
    t.decay = t.compared := by
  cases k : t.strip with
  | array e n =>
    have room : ¬ Ty.maxStars < e.stars + 1 := fun full =>
      shallow ⟨e, n, k, Nat.le_of_lt_succ full⟩
    simp only [Ty.decay, Ty.compared, k, Ty.pointerTo_eq_of_plain (h.element m k).2, if_neg room]
    rfl
  | _ => simp only [Ty.decay, Ty.compared, k]

/-- There is no reference in a type that was decayed, but perhaps behind the element of an array. -/
theorem decay_plain (h : c.Reached) (m : t ∈ c.known) :
    t.decay.isReference = false ∧ t.decay.base.isReference = false := by
  obtain ⟨known, plain⟩ := h.strip m
  have stripped := And.intro plain (h.isReference_base known plain)
  by_cases deep : t.IsDeep
  · rw [h.decay_of_deep m deep]
    exact stripped
  · rw [h.decay_of_shallow m deep]
    unfold Ty.compared
    split
    · next e n array =>
      obtain ⟨me, plain⟩ := h.element m array
      exact ⟨rfl, h.isReference_base (t := e) me plain⟩
    · exact stripped

/-- The check in terms of the rule, for decayed types. -/
theorem compatible_iff (h : c.Reached) (ma : a ∈ c.known) (mb : b ∈ c.known) :
    a.compatible b = true ↔ a.decay.IsAnything ∨ b.decay.IsAnything ∨ a.decay = b.decay ∨
      (a.decay.IsQuantity ∧ b.decay.IsQuantity) := by
  obtain ⟨plain_a, base_a⟩ := h.decay_plain ma
  obtain ⟨plain_b, base_b⟩ := h.decay_plain mb
  rw [← Ty.isAnything_iff plain_a base_a, ← Ty.isAnything_iff plain_b base_b,
    ← Ty.isQuantity_iff plain_a, ← Ty.isQuantity_iff plain_b]
  simp only [Ty.compatible, Bool.or_eq_true, Bool.and_eq_true, beq_iff_eq]
  tauto

/-- The check is the rule for types that have a type to decay to. -/
theorem compatible_iff_meets (h : c.Reached) (ma : a ∈ c.known) (mb : b ∈ c.known)
    (shallow_a : ¬ a.IsDeep) (shallow_b : ¬ b.IsDeep) : a.compatible b = true ↔ a.Meets b := by
  have plain := (h.decay_plain ma).1
  rw [h.compatible_iff ma mb]
  rw [h.decay_of_shallow ma shallow_a] at plain ⊢
  rw [h.decay_of_shallow mb shallow_b, Ty.Meets]
  constructor
  · rintro (anything | anything | same | both)
    · exact .inl anything
    · exact .inr (.inl anything)
    · rcases Ty.isQuantity_of_single plain Ty.compared_ne_array with anything | type | quantity
      · exact .inl anything
      · exact .inr (.inr (.inl ⟨type, same ▸ type⟩))
      · exact .inr (.inr (.inr ⟨quantity, same ▸ quantity⟩))
    · exact .inr (.inr (.inr both))
  · rintro (anything | anything | ⟨left, right⟩ | both)
    · exact .inl anything
    · exact .inr (.inl anything)
    · exact .inr (.inr (.inl (left.trans right.symm)))
    · exact .inr (.inr (.inr both))

/-- An array of pointers that have all stars meets itself and what meets everything. -/
theorem compatible_of_deep (h : c.Reached) (ma : a ∈ c.known) (mb : b ∈ c.known)
    (deep : a.IsDeep) :
    a.compatible b = true ↔ b.strip = a.strip ∨ (¬ b.IsDeep ∧ b.compared.IsAnything) := by
  rw [h.compatible_iff ma mb, h.decay_of_deep ma deep]
  obtain ⟨e, n, array, all⟩ := deep
  simp only [array, Ty.not_isAnything_array, Ty.not_isQuantity_array, false_and, or_false,
    false_or]
  by_cases deep_b : b.IsDeep
  · rw [h.decay_of_deep mb deep_b]
    have ⟨e', n', array', _⟩ := deep_b
    simp [deep_b, array', Ty.not_isAnything_array, eq_comm]
  · have other : b.strip ≠ .array e n := fun same => deep_b ⟨e, n, same, all⟩
    have single : .array e n ≠ b.compared := (Ty.compared_ne_array e n).symm
    rw [h.decay_of_shallow mb deep_b]
    simp [deep_b, other, single]

theorem compatible_self (h : c.Reached) (m : t ∈ c.known) : t.compatible t = true :=
  (h.compatible_iff m m).2 (.inr (.inr (.inl rfl)))

/-- Nothing is admitted against the rule. -/
theorem meets_of_compatible (h : c.Reached) (ma : a ∈ c.known) (mb : b ∈ c.known)
    (e : a.compatible b = true) : a.Meets b := by
  have deep {a b : Ty} (ma : a ∈ c.known) (mb : b ∈ c.known) (deep : a.IsDeep)
      (e : a.compatible b = true) :
      b.compared.IsAnything ∨ (a.compared.IsQuantity ∧ b.compared.IsQuantity) := by
    have quantity {t : Ty} (array : t.IsDeep) : t.compared.IsQuantity := by
      obtain ⟨e, n, array, -⟩ := array
      simp only [Ty.compared, array]
      exact .inl ⟨e, rfl⟩
    rcases (h.compatible_of_deep ma mb deep).1 e with same | ⟨-, anything⟩
    · have deep_b : b.IsDeep := by
        unfold Ty.IsDeep at deep ⊢
        rwa [same]
      exact .inr ⟨quantity deep, quantity deep_b⟩
    · exact .inl anything
  by_cases deep_a : a.IsDeep
  · rcases deep ma mb deep_a e with anything | both
    · exact .inr (.inl anything)
    · exact .inr (.inr (.inr both))
  · by_cases deep_b : b.IsDeep
    · rcases deep mb ma deep_b (Ty.compatible_comm a b ▸ e) with anything | both
      · exact .inl anything
      · exact .inr (.inr (.inr both.symm))
    · exact (h.compatible_iff_meets ma mb deep_a deep_b).1 e

/-- An array that has a pointer to decay to meets every pointer and every type of numbers. -/
theorem compatible_of_array (h : c.Reached) (ma : a ∈ c.known) (mb : b ∈ c.known)
    (array : a.isArray = true) (shallow : ¬ a.IsDeep)
    (quantity : (b.isPointer || b.isArithmetic) = true) : a.compatible b = true := by
  obtain ⟨known, plain⟩ := h.strip mb
  have same : b.strip.IsQuantity := by
    rw [← Ty.isQuantity_iff plain, Ty.isPointer, Ty.isArithmetic, Ty.scalar?,
      Ty.strip_of_plain plain]
    exact quantity
  have single : ∀ e n, b.strip ≠ .array e n := fun e n k =>
    Ty.not_isQuantity_array e n (k ▸ same)
  have shallow_b : ¬ b.IsDeep := fun ⟨e, n, k, _⟩ => single e n k
  have quantity_b : b.compared.IsQuantity := by
    unfold Ty.compared
    split
    · next e n k => exact absurd k (single e n)
    · exact same
  obtain ⟨e, n, k⟩ : ∃ e n, a.strip = .array e n := by
    unfold Ty.isArray Ty.arrayShape? at array
    split at array
    · next e n k => exact ⟨e, n, k⟩
    · cases array
  have quantity_a : a.compared.IsQuantity := .inl ⟨e, by rw [Ty.compared, k]⟩
  exact (h.compatible_iff_meets ma mb shallow shallow_b).2
    (.inr (.inr (.inr ⟨quantity_a, quantity_b⟩)))

/-- **Compatibility.** Of types of a catalog that can be reached: where neither is an array of
pointers with all stars, the check is the rule, and so every other array is compatible with every
pointer and every type of numbers. Such an array is compatible with itself and with what is `any` or
a pointer to it. The check is reflexive and symmetric, admits nothing against the rule, and has the
same answer in whatever state it is made, of which it adds to the catalog alone. -/
theorem compatibility (h : c.Reached) (ma : a ∈ c.known) (mb : b ∈ c.known) :
    (¬ a.IsDeep → ¬ b.IsDeep → (a.compatible b = true ↔ a.Meets b)) ∧
    (a.isArray = true → ¬ a.IsDeep → (b.isPointer || b.isArithmetic) = true →
      a.compatible b = true) ∧
    (a.IsDeep → (a.compatible b = true ↔
      b.strip = a.strip ∨ (¬ b.IsDeep ∧ b.compared.IsAnything))) ∧
    a.compatible a = true ∧
    a.compatible b = b.compatible a ∧
    (a.compatible b = true → a.Meets b) ∧
    ∀ s : Core, s.catalog = c → ∃ d, c.Extends d ∧
      (Run.areCompatible a b).run.run s = (.ok (a.compatible b), { s with catalog := d }) := by
  refine ⟨h.compatible_iff_meets ma mb, h.compatible_of_array ma mb, h.compatible_of_deep ma mb,
    h.compatible_self ma, Ty.compatible_comm a b, h.meets_of_compatible ma mb, ?_⟩
  rintro s rfl
  exact ⟨s.catalog.internCompared a b, extends_internCompared s.catalog a b, rfl⟩

end Reached

/-- An array of `int` and a `double`, in a catalog that was asked for the array. -/
theorem compatibility_double :
    ((bare 4).after (.arrayOf .int 3)).Reached ∧ ¬ (Ty.array .int 3).IsDeep ∧
      (Ty.array .int 3).compatible .double = true := by
  have made : (bare 4).Calls ((bare 4).after (.arrayOf .int 3)) :=
    .call (.arrayOf .int 3) .refl (show Ty.int ∈ (bare 4).known by decide)
  have reached : ((bare 4).after (.arrayOf .int 3)).Reached := .inl ⟨4, rfl, made⟩
  have shallow : ¬ (Ty.array .int 3).IsDeep := by
    rintro ⟨e, n, same, all⟩
    cases same
    exact absurd all (by decide)
  have law := reached.compatibility (a := .array .int 3) (b := .double) (by decide) (by decide)
  exact ⟨reached, shallow, law.2.1 rfl shallow rfl⟩

/-- A catalog that was asked for `int***`, star by star, and for an array of two of them. -/
def starry : Catalog :=
  [Call.pointerTo .int, .pointerTo (.pointer .int), .pointerTo (.pointer (.pointer .int)),
    .arrayOf (Ty.int.starred 3) 2].foldl after (bare 4)

/-- An array of `int***` is refused where an `int` is expected, though by the rule they meet. -/
theorem deep_array_refused :
    starry.Reached ∧ (Ty.int.starred 3).array 2 ∈ starry.known ∧ Ty.int ∈ starry.known ∧
      ((Ty.int.starred 3).array 2).isArray = true ∧ Ty.int.isArithmetic = true ∧
      ((Ty.int.starred 3).array 2).Meets .int ∧
      ((Ty.int.starred 3).array 2).compatible .int = false := by
  have made : (bare 4).Calls starry :=
    .call (.arrayOf (Ty.int.starred 3) 2)
      (.call (.pointerTo (.pointer (.pointer .int)))
        (.call (.pointerTo (.pointer .int))
          (.call (.pointerTo .int) .refl (show Ty.int ∈ _ by decide))
          (show Ty.pointer .int ∈ _ by decide))
        (show Ty.pointer (.pointer .int) ∈ _ by decide))
      (show Ty.int.starred 3 ∈ _ by decide)
  have meet : ((Ty.int.starred 3).array 2).Meets .int :=
    .inr (.inr (.inr ⟨.inl ⟨_, rfl⟩, .inr ⟨.int, by decide, rfl⟩⟩))
  exact ⟨.inl ⟨4, rfl, made⟩, by decide, by decide, rfl, rfl, meet, by decide⟩

end Catalog

end ByteMachine
