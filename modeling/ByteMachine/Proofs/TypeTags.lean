import ByteMachine.Proofs.Canonicity
import ByteMachine.Proofs.Reachability

/-!
# Types read back from their byte

The byte of a type has three fields: the index of a scalar, the stars behind it and whether there is
a reference around them. The fields do not run into one another, and none of these bytes is that of
`type_t`; so a byte that was written tells all of them again, and in a catalog that holds the type it
is resolved to that type. An array is the exception: it goes by the byte of a pointer. The other way
around, a byte is resolved only to a type that has this byte.

Key definitions: `Catalog.Reached`, `TypeTag.Fields`.
Key theorems: `Catalog.Reached.target`, `TypeTag.number_eq_ok`, `TypeTag.found_of_fields`,
`TypeTag.resolve_of_encode`, `TypeTag.encode_of_resolve`, `Catalog.Reached.tags_round_trip`.
-/

namespace ByteMachine

open Number

namespace Catalog

/-- A catalog that asking for types makes of the one with the keywords, or that of a machine that
can be reached. -/
def Reached (c : Catalog) : Prop :=
  (∃ word, isWordSize word = true ∧ (bare word).Calls c) ∨
    ∃ m : Machine, m.Reachable ∧ m.core.catalog = c

namespace Reached

variable {c : Catalog}

theorem word (h : c.Reached) : isWordSize c.word = true := by
  rcases h with ⟨word, valid, calls⟩ | ⟨m, reached, rfl⟩
  · exact ((canonical_bare valid).calls calls).word
  · exact reached.sound.core.closed.word

/-- With a reference its target was met. -/
theorem target (h : c.Reached) {t : Ty} (m : .reference t ∈ c.known) : t ∈ c.known := by
  rcases h with ⟨word, valid, calls⟩ | ⟨machine, reached, rfl⟩
  · exact (((canonical_bare valid).calls calls).formed _ m).1
  · exact (reached.sound.core.closed.admits _ m).1

end Reached

end Catalog

/-! ### The fields of a tag -/

theorem Scalar.index_lt (s : Scalar) : s.index < 18 := by cases s <;> decide

theorem Scalar.index_of_ofIndex? {n : Nat} {s : Scalar} (e : ofIndex? n = some s) : s.index = n := by
  have indices : all.map index = List.range 18 := by decide
  have here : (all.map index)[n]? = some s.index := by
    rw [List.getElem?_map]
    exact congrArg (Option.map index) e
  rw [indices] at here
  obtain ⟨_, at_n⟩ := List.getElem?_eq_some_iff.1 here
  rw [← at_n, List.getElem_range]

namespace TypeTag

variable {c : Catalog} {t u : Ty} {s : Scalar} {stars k : Nat} {tag : UInt8}

/-- The type is the scalar behind so many stars, as many as a pointer may have. -/
structure Fields (t : Ty) (s : Scalar) (stars : Nat) : Prop where
  whole : t = (Ty.scalar s).starred stars
  few : stars ≤ Ty.maxStars

theorem Fields.of_base (base : t.base = .scalar s) (few : t.stars ≤ Ty.maxStars) :
    Fields t s t.stars := by
  refine ⟨?_, few⟩
  rw [← base, Ty.starred_base]

/-- What has a number that is neither an array nor a reference is `type_t` or has a scalar and stars
behind it, and the number puts these side by side. -/
theorem number_eq_ok (plain : t.isReference = false) (single : t.isArray = false)
    (e : number t = .ok k) :
    t = .descriptor ∧ k = descriptorTag ∨
      ∃ s stars, Fields t s stars ∧ k = stars * starWeight + s.index := by
  cases t with
  | scalar s =>
    cases e
    exact .inr ⟨s, 0, ⟨rfl, Nat.zero_le _⟩, (Nat.zero_add _).symm⟩
  | descriptor =>
    cases e
    exact .inl ⟨rfl, rfl⟩
  | pointer target =>
    unfold number at e
    split at e
    · next s base =>
      split at e
      · next few =>
        cases e
        exact .inr ⟨s, _, .of_base base few, rfl⟩
      · cases e
    · cases e
  | reference => cases plain
  | array => cases single

/-- A reference has the number of its target with the weight of a reference, and that target is no
reference. -/
theorem number_reference_eq_ok (e : number (.reference t) = .ok k) :
    ∃ inner, number t = .ok inner ∧ inner ≠ descriptorTag ∧ t.isReference = false ∧
      k = referenceWeight + inner := by
  have opened {u : Ty} {k : Nat} (e : number (.reference u) = .ok k) :
      ∃ inner, number u = .ok inner ∧ inner ≠ descriptorTag ∧ inner < referenceWeight ∧
        k = referenceWeight + inner := by
    unfold number at e
    split at e
    · next inner numbered =>
      split at e
      · cases e
      · next taggable =>
        cases e
        simp only [Bool.or_eq_true, decide_eq_true_eq, not_or, Nat.not_le] at taggable
        exact ⟨inner, numbered, taggable.1, taggable.2, rfl⟩
    · cases e
  obtain ⟨inner, numbered, other, low, rfl⟩ := opened e
  refine ⟨inner, numbered, other, ?_, rfl⟩
  cases t with
  | reference target =>
    obtain ⟨_, -, -, -, rfl⟩ := opened numbered
    omega
  | _ => rfl

/-- Such a number is below the weight of a reference. -/
theorem Fields.number_lt (h : Fields t s stars) :
    stars * starWeight + s.index < referenceWeight := by
  have low := s.index_lt
  have few : stars ≤ 3 := h.few
  unfold starWeight referenceWeight
  omega

/-- The scalar and the stars that are read from a number are those it was made of, whether or not
there is a reference around them. -/
theorem Fields.split (h : Fields t s stars) (reference : Nat) :
    Scalar.ofIndex? ((reference * referenceWeight + (stars * starWeight + s.index)) % starWeight) =
        some s ∧
      (reference * referenceWeight + (stars * starWeight + s.index)) / starWeight % 4 = stars := by
  have low := s.index_lt
  have few : stars ≤ 3 := h.few
  have index : (reference * referenceWeight + (stars * starWeight + s.index)) % starWeight =
      s.index := by
    unfold starWeight referenceWeight
    omega
  refine ⟨by rw [index, Scalar.ofIndex?_index], ?_⟩
  unfold starWeight referenceWeight
  omega

/-- In a catalog that holds the type, the scalar behind the stars is found to be the type. -/
theorem found_of_fields (h : Fields t s stars) (m : t ∈ c.known) :
    (if stars = 0 then some (Ty.scalar s) else c.pointer? (.scalar s) stars) = some t := by
  by_cases none : stars = 0
  · rw [if_pos none, h.whole, none]
    rfl
  · rw [if_neg none]
    exact Catalog.Canonical.pointer?_eq_some.2 ⟨m, rfl, Nat.pos_of_ne_zero none, h.whole⟩

/-- A tag with these fields is resolved to the type, or to the reference to it if that was met. -/
theorem resolve_of_fields (h : Fields t s stars) (m : t ∈ c.known) {reference : Nat}
    (one : reference ≤ 1)
    (number : tag.toNat = reference * referenceWeight + (stars * starWeight + s.index))
    (met : (if reference = 0 then some t else c.met? (.reference t)) = some u) :
    resolve c tag = .ok u := by
  obtain ⟨scalar, split⟩ := h.split reference
  rw [← number] at scalar split
  have below := h.number_lt
  have other : tag.toNat ≠ descriptorTag := by
    have low := s.index_lt
    have few : stars ≤ 3 := h.few
    rw [number]
    unfold starWeight referenceWeight descriptorTag
    omega
  have weight : referenceWeight ≤ tag.toNat ↔ ¬ reference = 0 := by
    rw [number]
    unfold referenceWeight at below ⊢
    omega
  have whole : (if referenceWeight ≤ tag.toNat then c.met? (.reference t) else some t) = some u := by
    by_cases direct : reference = 0
    · rw [if_neg (mt weight.1 (not_not_intro direct))]
      rwa [if_pos direct] at met
    · rw [if_pos (weight.2 direct)]
      rwa [if_neg direct] at met
  have found := found_of_fields h m
  rw [resolve, if_neg other, split, scalar]
  simp only [Option.bind_eq_bind, Option.bind_some]
  by_cases none : stars = 0
  · rw [if_pos none, Option.some_inj] at found
    rw [if_pos none, found, whole]
  · rw [if_neg none] at found
    rw [if_neg none, found, Option.bind_some, whole]

/-! ### From a type to its byte and back -/

theorem encode_eq_ok (e : encode t = .ok tag) :
    ∃ k, number t = .ok k ∧ (k < 256 → tag.toNat = k) := by
  obtain ⟨k, numbered, rfl⟩ := map_eq_ok.1 e
  exact ⟨k, numbered, fun low => UInt8.toNat_ofNat_of_lt' low⟩

/-- A type of the catalog is read back from its byte, unless it is an array or a reference to one. -/
theorem resolve_of_encode (reached : c.Reached) (m : t ∈ c.known) (single : t.isArray = false)
    (e : encode t = .ok tag) : resolve c tag = .ok t := by
  obtain ⟨k, numbered, value⟩ := encode_eq_ok e
  by_cases plain : t.isReference = false
  · rcases number_eq_ok plain single numbered with ⟨rfl, rfl⟩ | ⟨s, stars, fields, rfl⟩
    · rw [resolve, if_pos (value (by decide))]
    · have number := value (Nat.lt_trans fields.number_lt (by decide))
      exact resolve_of_fields fields m (Nat.zero_le 1)
        (by rw [number, Nat.zero_mul, Nat.zero_add]) (if_pos rfl)
  · cases t with
    | reference target =>
      obtain ⟨inner, found, other, plain, rfl⟩ := number_reference_eq_ok numbered
      have flat : target.isArray = false := by
        rw [← single, Ty.isArray, Ty.isArray, Ty.arrayShape?, Ty.arrayShape?,
          Ty.strip_of_plain plain]
        rfl
      rcases number_eq_ok plain flat found with ⟨-, same⟩ | ⟨s, stars, fields, rfl⟩
      · exact absurd same other
      · have number := value (Nat.add_lt_add_left fields.number_lt referenceWeight)
        exact resolve_of_fields fields (reached.target m) (Nat.le_refl 1)
          (by rw [number, Nat.one_mul]) (Catalog.Canonical.met?_eq_some.2 ⟨m, rfl⟩)
    | _ => exact absurd rfl plain

/-- An array has the number of the pointer to its element, and that pointer is what it decays to. -/
theorem number_array_eq_ok {element : Ty} {count : Nat} (e : number (.array element count) = .ok k) :
    number (.pointer element) = .ok k ∧ (Ty.array element count).decay = .pointer element := by
  unfold number at e
  split at e
  · next s base =>
    split at e
    · next few =>
      cases e
      have deep : ¬ Ty.maxStars < element.stars + 1 := Nat.not_lt.2 few
      refine ⟨?_, ?_⟩
      · unfold number
        simp only [Ty.base, Ty.stars, base]
        exact if_pos few
      · cases element with
        | reference => cases base
        | _ => simp only [Ty.decay, Ty.strip, Ty.pointerTo, if_neg deep]; rfl
    · cases e
  · cases e

/-- In a catalog that holds the pointer to its element, an array is read back as that pointer. -/
theorem resolve_of_encode_array (reached : c.Reached) {element : Ty} {count : Nat}
    (m : .pointer element ∈ c.known) (e : encode (.array element count) = .ok tag) :
    resolve c tag = .ok (.pointer element) := by
  obtain ⟨k, numbered, rfl⟩ := map_eq_ok.1 e
  exact resolve_of_encode reached m rfl (map_eq_ok.2 ⟨k, (number_array_eq_ok numbered).1, rfl⟩)

/-! ### From a byte to its type and back -/

theorem Fields.number (h : Fields t s stars) :
    number t = .ok (stars * starWeight + s.index) := by
  obtain ⟨rfl, few⟩ := h
  cases stars with
  | zero => rw [Nat.zero_mul, Nat.zero_add]; rfl
  | succ n =>
    obtain ⟨base, deep⟩ := Ty.base_starred (t := .scalar s) rfl n
    unfold TypeTag.number
    simp only [Ty.starred, Ty.base, Ty.stars, base, deep]
    exact if_pos few

theorem Fields.number_reference (h : Fields t s stars) :
    TypeTag.number (.reference t) = .ok (referenceWeight + (stars * starWeight + s.index)) := by
  have below := h.number_lt
  have other : stars * starWeight + s.index ≠ descriptorTag :=
    Nat.ne_of_lt (Nat.lt_trans below (by decide))
  unfold TypeTag.number
  simp only [h.number]
  rw [if_neg (by simp [other, below])]

/-- What a byte is resolved to has the fields of the byte. -/
theorem fields_of_resolve (e : resolve c tag = .ok t) (other : tag.toNat ≠ descriptorTag) :
    ∃ s stars u, Fields u s stars ∧
      (tag.toNat = stars * starWeight + s.index ∧ t = u ∨
        tag.toNat = referenceWeight + (stars * starWeight + s.index) ∧ t = .reference u) := by
  have low : tag.toNat < 256 := tag.toNat_lt
  rw [resolve, if_neg other] at e
  dsimp only at e
  split at e
  · next found =>
    cases e
    obtain ⟨s, index, found⟩ := Option.bind_eq_some_iff.1 found
    have index := Scalar.index_of_ofIndex? index
    have few : tag.toNat / starWeight % 4 ≤ Ty.maxStars := Nat.le_of_lt_succ (Nat.mod_lt _ (by decide))
    -- The two branches of the definition differ in the type behind the reference only.
    have whole {u : Ty} (fields : Fields u s (tag.toNat / starWeight % 4))
        (e : (if referenceWeight ≤ tag.toNat then c.met? (.reference u) else some u) = some t) :
        ∃ s stars u, Fields u s stars ∧
          (tag.toNat = stars * starWeight + s.index ∧ t = u ∨
            tag.toNat = referenceWeight + (stars * starWeight + s.index) ∧ t = .reference u) := by
      refine ⟨s, _, u, fields, ?_⟩
      rw [index]
      split at e
      · next high =>
        refine .inr ⟨?_, (Catalog.Canonical.met?_eq_some.1 e).2.symm⟩
        unfold referenceWeight starWeight at *
        omega
      · next high =>
        refine .inl ⟨?_, (Option.some_inj.1 e).symm⟩
        unfold referenceWeight starWeight at *
        omega
    split at found
    · next none => exact whole ⟨by rw [none]; rfl, few⟩ found
    · obtain ⟨u, behind, found⟩ := Option.bind_eq_some_iff.1 found
      exact whole ⟨(Catalog.Canonical.pointer?_eq_some.1 behind).2.2.2, few⟩ found
  · cases e

/-- A byte is resolved only to a type that has this byte. -/
theorem encode_of_resolve (e : resolve c tag = .ok t) : encode t = .ok tag := by
  have encoded {k : Nat} (numbered : number t = .ok k) (value : tag.toNat = k) :
      encode t = .ok tag :=
    map_eq_ok.2 ⟨k, numbered, by rw [← value, UInt8.ofNat_toNat]⟩
  by_cases whole : tag.toNat = descriptorTag
  · rw [resolve, if_pos whole] at e
    cases e
    exact encoded rfl whole
  · obtain ⟨s, stars, u, fields, ⟨value, rfl⟩ | ⟨value, rfl⟩⟩ := fields_of_resolve e whole
    · exact encoded fields.number value
    · exact encoded fields.number_reference value

end TypeTag

/-- Types and their bytes in a catalog that can be reached. A type that is neither an array nor a
reference to one is read back from its byte, so no two of these share a byte; an array is read back
as the pointer it decays to, once that pointer was met; and a byte that is resolved is the byte of
what it is resolved to. -/
theorem Catalog.Reached.tags_round_trip {c : Catalog} (reached : c.Reached) :
    (∀ t ∈ c.known, t.isArray = false →
      ∀ tag, TypeTag.encode t = .ok tag → TypeTag.resolve c tag = .ok t) ∧
    (∀ t ∈ c.known, ∀ u ∈ c.known, t.isArray = false → u.isArray = false →
      ∀ tag, TypeTag.encode t = .ok tag → TypeTag.encode u = .ok tag → t = u) ∧
    (∀ element count, .array element count ∈ c.known →
      ∀ tag, TypeTag.encode (.array element count) = .ok tag →
        (Ty.array element count).decay = .pointer element ∧
        (.pointer element ∈ c.known → TypeTag.resolve c tag = .ok (.pointer element))) ∧
    (∀ tag t, TypeTag.resolve c tag = .ok t → TypeTag.encode t = .ok tag) := by
  refine ⟨fun t m single tag e => TypeTag.resolve_of_encode reached m single e, ?_, ?_,
    fun tag t e => TypeTag.encode_of_resolve e⟩
  · intro t mt u mu single_t single_u tag et eu
    have read_t := TypeTag.resolve_of_encode reached mt single_t et
    have read_u := TypeTag.resolve_of_encode reached mu single_u eu
    exact Except.ok.inj (read_t.symm.trans read_u)
  · intro element count _ tag e
    obtain ⟨k, numbered, -⟩ := TypeTag.encode_eq_ok e
    exact ⟨(TypeTag.number_array_eq_ok numbered).2,
      fun m => TypeTag.resolve_of_encode_array reached m e⟩

/-- A catalog that was asked for `char*` and for `char[4]`: both types go by one byte, which is read
as the pointer. -/
theorem Catalog.tags_round_trip_array :
    (((bare 4).after (.pointerTo .char)).after (.arrayOf .char 4)).Reached ∧
      TypeTag.encode (.array .char 4) = .ok 0x21 ∧
      TypeTag.resolve (((bare 4).after (.pointerTo .char)).after (.arrayOf .char 4)) 0x21 =
        .ok Ty.charPointer := by
  have made : (bare 4).Calls (((bare 4).after (.pointerTo .char)).after (.arrayOf .char 4)) :=
    .call (.arrayOf .char 4) (.call (.pointerTo .char) .refl (show Ty.char ∈ _ by decide))
      (show Ty.char ∈ _ by decide)
  have reached : (((bare 4).after (.pointerTo .char)).after (.arrayOf .char 4)).Reached :=
    .inl ⟨4, rfl, made⟩
  have encoded : TypeTag.encode (.array .char 4) = .ok 0x21 := by decide
  have law := (Catalog.Reached.tags_round_trip reached).2.2.1 .char 4 (by decide) 0x21 encoded
  exact ⟨reached, encoded, law.2 (by decide)⟩

end ByteMachine
