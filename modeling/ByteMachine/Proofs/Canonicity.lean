import ByteMachine.Proofs.Catalogs
import Mathlib.Algebra.Group.Nat.Defs
import Mathlib.Data.List.Nodup

/-!
# Types known by their numbers

Types are told apart by their numbers, so a catalog must hold no type twice, and a number must
keep its meaning however the catalog grows. The kind of a type says how it is built from other
numbers: a pointer from what it points to behind all its stars and the count of the stars, a
reference from its target, an array from its element and the count of them. In every catalog
that grew from the bare one by asking for pointers, references, arrays, pointees, decayed types and
comparisons, the kinds are pairwise distinct and looking a kind up finds its number; and the
names of the types are pairwise distinct too, because a name can be read from its end.

Key definitions: `Kind`, `Catalog.kinds`, `Catalog.find?`, `Catalog.Call`, `Catalog.after`,
`Catalog.Calls`, `Catalog.Canonical`.
Key theorems: `Ty.name_injective`, `Catalog.Canonical.after`, `Catalog.Canonical.find?_eq_some`,
`Catalog.canonical_of_calls`.
-/

namespace ByteMachine

/-! ### Names -/

namespace Ty

theorem stars_base : ∀ t : Ty, t.base.stars = 0
  | pointer t => stars_base t
  | scalar _ | descriptor | reference _ | array _ _ => rfl

theorem base_of_stars {t : Ty} (h : t.stars = 0) : t.base = t := by
  cases t with
  | pointer t => simp [stars] at h
  | _ => rfl

theorem starred_base : ∀ t : Ty, t.base.starred t.stars = t
  | pointer t => congrArg pointer (starred_base t)
  | scalar _ | descriptor | reference _ | array _ _ => rfl

/-- A run of stars behind a type that is no pointer. -/
theorem base_starred {t : Ty} (h : t.stars = 0) :
    ∀ n : Nat, (t.starred n).base = t ∧ (t.starred n).stars = n
  | 0 => ⟨base_of_stars h, h⟩
  | n + 1 => ⟨(base_starred h n).1, congrArg (· + 1) (base_starred h n).2⟩

end Ty

/-! ### Kinds -/

/-- How a type is built from the types of other numbers. -/
inductive Kind where
  | scalar (s : Scalar)
  | descriptor
  /-- A pointer with `stars` stars behind a type that is no pointer. -/
  | pointer (target stars : Nat)
  | reference (target : Nat)
  | array (element count : Nat)
deriving DecidableEq, Repr

namespace Kind

def isPointer : Kind → Bool
  | pointer _ _ => true
  | _ => false

def isReference : Kind → Bool
  | reference _ => true
  | _ => false

def isArray : Kind → Bool
  | array _ _ => true
  | _ => false

end Kind

namespace Catalog

/-- The kind of a type. -/
def kind (c : Catalog) : Ty → Kind
  | .scalar s => .scalar s
  | .descriptor => .descriptor
  | .pointer t => .pointer (c.number t.base) (t.stars + 1)
  | .reference t => .reference (c.number t)
  | .array e n => .array (c.number e) n

/-- The kinds of the types met so far, each at the number of its type. -/
def kinds (c : Catalog) : List Kind := c.known.map c.kind

/-- The type of a kind, if it was met. -/
def meant? (c : Catalog) : Kind → Option Ty
  | .scalar s => c.met? (.scalar s)
  | .descriptor => c.met? .descriptor
  | .pointer target stars => c.known[target]?.bind fun t => c.pointer? t stars
  | .reference target => c.known[target]?.bind fun t => c.met? (.reference t)
  | .array element count => c.known[element]?.bind fun t => c.met? (.array t count)

/-- The number of the type of a kind, if it was met. -/
def find? (c : Catalog) (k : Kind) : Option Nat := (c.meant? k).map c.number

/-- The parts of a type are in the catalog, and it is one that can be built from them. -/
def Formed (c : Catalog) : Ty → Prop
  | .scalar _ | .descriptor => True
  | .pointer t => t ∈ c.known ∧ t.isReference = false ∧ t.stars < Ty.maxStars
  | .reference t => t ∈ c.known ∧ t.isReference = false
  | .array e n => e ∈ c.known ∧ Ty.arrayOf c.word e n = .ok (.array e n)

theorem Formed.grow {c d : Catalog} (h : c.Extends d) {t : Ty} (f : c.Formed t) : d.Formed t := by
  cases t with
  | scalar | descriptor => trivial
  | pointer | reference => exact ⟨h.mem f.1, f.2⟩
  | array => exact ⟨h.mem f.1, h.word ▸ f.2⟩

/-- A catalog without repetition whose types are all built from types of the catalog. -/
structure Canonical (c : Catalog) : Prop where
  word : isWordSize c.word = true
  bare : (bare c.word).known ⊆ c.known
  distinct : c.known.Nodup
  formed : ∀ t ∈ c.known, c.Formed t

theorem canonical_bare {word : Nat} (h : isWordSize word = true) : (bare word).Canonical where
  word := h
  bare := List.Subset.refl _
  distinct := by
    show (Scalar.all.map Ty.scalar ++ [Ty.descriptor]).Nodup
    decide
  formed t m := by
    rcases List.mem_append.1 m with m | m
    · obtain ⟨s, -, rfl⟩ := List.mem_map.1 m
      trivial
    · cases List.mem_singleton.1 m
      trivial

namespace Canonical

variable {c : Catalog} {t u : Ty}

theorem intern (h : c.Canonical) (f : c.Formed t) : (c.intern t).Canonical := by
  have extended := extends_intern c t
  refine ⟨extended.word ▸ h.word, ?_, ?_, fun u m => Formed.grow extended ?_⟩
  · rw [extended.word]
    exact fun u m => extended.mem (h.bare m)
  · unfold Catalog.intern
    by_cases met : t ∈ c.known
    · rw [if_pos met]
      exact h.distinct
    · rw [if_neg met]
      exact List.concat_eq_append ▸ h.distinct.concat met
  · rcases mem_intern.1 m with m | rfl
    · exact h.formed u m
    · exact f

theorem base (h : c.Canonical) (m : t ∈ c.known) : t.base ∈ c.known := by
  induction t with
  | pointer t ih => exact ih (h.formed _ m).1
  | _ => exact m

theorem isReference_base (h : c.Canonical) (m : t ∈ c.known) (plain : t.isReference = false) :
    t.base.isReference = false := by
  induction t with
  | pointer t ih => exact ih (h.formed _ m).1 (h.formed _ m).2.1
  | _ => exact plain

/-! ### Numbers -/

/-- A type stands at its number and nowhere else. -/
theorem getElem?_eq_some (h : c.Canonical) {i : Nat} :
    c.known[i]? = some t ↔ t ∈ c.known ∧ c.number t = i := by
  constructor
  · intro e
    obtain ⟨low, rfl⟩ := List.getElem?_eq_some_iff.1 e
    exact ⟨List.getElem_mem low, h.distinct.idxOf_getElem i low⟩
  · rintro ⟨m, rfl⟩
    have low : c.number t < c.known.length := List.idxOf_lt_length_of_mem m
    rw [List.getElem?_eq_getElem low]
    exact congrArg some (List.getElem_idxOf low)

theorem met?_eq_some : c.met? u = some t ↔ u ∈ c.known ∧ u = t := by
  unfold met?
  by_cases m : u ∈ c.known
  · rw [if_pos m]
    simp [m]
  · rw [if_neg m]
    simp [m]

theorem pointer?_eq_some {stars : Nat} : c.pointer? u stars = some t ↔
    t ∈ c.known ∧ u.stars = 0 ∧ 0 < stars ∧ t = u.starred stars := by
  unfold pointer?
  split
  · next h =>
    simp only [Bool.and_eq_true, decide_eq_true_eq] at h
    constructor
    · intro e
      cases e
      exact ⟨h.2, h.1.1, h.1.2, rfl⟩
    · rintro ⟨-, -, -, rfl⟩
      rfl
  · next h =>
    simp only [Bool.and_eq_true, decide_eq_true_eq] at h
    constructor
    · intro e
      cases e
    · rintro ⟨m, target, some, rfl⟩
      exact absurd ⟨⟨target, some⟩, m⟩ h

theorem getElem?_kinds {i : Nat} {k : Kind} :
    c.kinds[i]? = some k ↔ ∃ t, c.known[i]? = some t ∧ c.kind t = k := by
  unfold kinds
  rw [List.getElem?_map, Option.map_eq_some_iff]

theorem number_grow {d : Catalog} (grown : c.Extends d) (m : t ∈ c.known) :
    d.number t = c.number t := by
  obtain ⟨more, e⟩ := grown.known
  unfold Catalog.number
  rw [← e, List.idxOf_append_of_mem m]

/-- A type of the catalog is of the same kind in every catalog that has grown from it. -/
theorem kind_grow (h : c.Canonical) {d : Catalog} (grown : c.Extends d) (m : t ∈ c.known) :
    d.kind t = c.kind t := by
  have formed := h.formed t m
  cases t with
  | scalar | descriptor => rfl
  | pointer t => simp only [kind, number_grow grown (h.base formed.1)]
  | reference t | array t => simp only [kind, number_grow grown formed.1]

theorem kinds_grow (h : c.Canonical) {d : Catalog} (grown : c.Extends d) :
    c.kinds <+: d.kinds := by
  obtain ⟨more, e⟩ := grown.known
  refine ⟨more.map d.kind, ?_⟩
  have old : c.known.map c.kind = c.known.map d.kind :=
    List.map_congr_left fun t m => (h.kind_grow grown m).symm
  unfold kinds
  rw [old, ← e, List.map_append]

end Canonical

/-! ### Calls -/

/-- What a catalog is asked for. -/
inductive Call where
  | pointerTo (t : Ty)
  | referenceTo (t : Ty)
  | arrayOf (element : Ty) (count : Nat)
  | pointee (t : Ty)
  | decay (t : Ty)
  | compatible (a b : Ty)
deriving DecidableEq, Repr

/-- The call is about types of the catalog. -/
def Call.Among (c : Catalog) : Call → Prop
  | pointerTo t | referenceTo t | arrayOf t _ | pointee t | decay t => t ∈ c.known
  | compatible a b => a ∈ c.known ∧ b ∈ c.known

/-- The catalog with a type that was asked for, if there is one. -/
def internGiven (c : Catalog) : Option Ty → Catalog
  | some t => c.intern t
  | none => c

/-- The catalog after a call. -/
def after (c : Catalog) : Call → Catalog
  | .pointerTo t => c.internGiven t.pointerTo.toOption
  | .referenceTo t => c.internGiven t.referenceTo.toOption
  | .arrayOf t n => c.internGiven (Ty.arrayOf c.word t n).toOption
  | .pointee t => c.internGiven t.pointee?
  | .decay t => c.internDecay t
  | .compatible a b => c.internCompared a b

/-- The other catalog came from this one by a sequence of calls. -/
inductive Calls (c : Catalog) : Catalog → Prop
  | refl : c.Calls c
  | call {d : Catalog} (call : Call) : c.Calls d → call.Among d → c.Calls (d.after call)

namespace Canonical

variable {c : Catalog} {t : Ty}

theorem internGiven (h : c.Canonical) {t : Option Ty} (f : ∀ u, t = some u → c.Formed u) :
    (c.internGiven t).Canonical := by
  cases t with
  | none => exact h
  | some t => exact h.intern (f t rfl)

theorem pointerTo (h : c.Canonical) (m : t ∈ c.known) {p : Ty} (e : t.pointerTo = .ok p) :
    c.Formed p := by
  fun_induction Ty.pointerTo t with
  | case1 target ih => exact ih (h.formed _ m).1 e
  | case2 => cases e
  | case3 u plain few =>
    cases e
    refine ⟨m, ?_, by omega⟩
    cases u with
    | reference t => exact absurd rfl (plain t)
    | _ => rfl

theorem referenceTo (m : t ∈ c.known) {r : Ty} (e : t.referenceTo = .ok r) : c.Formed r := by
  obtain ⟨rfl, plain⟩ := Ty.referenceTo_eq_ok e
  exact ⟨m, plain⟩

theorem arrayOf (m : t ∈ c.known) {n : Nat} {a : Ty} (e : Ty.arrayOf c.word t n = .ok a) :
    c.Formed a := by
  obtain rfl := Ty.arrayOf_eq_ok e
  exact ⟨m, e⟩

theorem strip (h : c.Canonical) (m : t ∈ c.known) : t.strip ∈ c.known := by
  cases t with
  | reference t => exact (h.formed _ m).1
  | _ => exact m

theorem pointee (h : c.Canonical) (m : t ∈ c.known) {u : Ty} (e : t.pointee? = some u) :
    u ∈ c.known := by
  unfold Ty.pointee? at e
  split at e
  · next k =>
    cases e
    have formed := h.formed _ (k ▸ h.strip m)
    exact formed.1
  · cases e

/-- The type an array decays to can be built, whether or not it was met. -/
theorem decay (h : c.Canonical) (m : t ∈ c.known) : c.Formed t.decay := by
  have stripped := h.formed _ (h.strip m)
  unfold Ty.decay
  split
  · next element n k =>
    rw [k] at stripped
    cases p : element.pointerTo with
    | error => exact stripped
    | ok pointer => exact h.pointerTo stripped.1 p
  · exact stripped

theorem internDecay (h : c.Canonical) (m : t ∈ c.known) : (c.internDecay t).Canonical := by
  unfold Catalog.internDecay
  split
  · split
    · next target k => exact h.intern (k ▸ h.decay m)
    · exact h
  · exact h

/-- One call keeps a catalog canonical. -/
theorem after (h : c.Canonical) {call : Call} (among : call.Among c) : (c.after call).Canonical := by
  have ok {t : Ty} {e : Except TypeFault Ty} (k : e.toOption = some t) : e = .ok t := by
    cases e <;> cases k
    rfl
  cases call with
  | pointerTo t => exact h.internGiven fun u e => h.pointerTo among (ok e)
  | referenceTo t => exact h.internGiven fun u e => referenceTo among (ok e)
  | arrayOf t n => exact h.internGiven fun u e => arrayOf among (ok e)
  | pointee t => exact h.internGiven fun u e => h.formed u (h.pointee among e)
  | decay t => exact h.internDecay among
  | compatible a b =>
    exact (h.internDecay among.1).internDecay ((extends_internDecay c a).mem among.2)

/-- So does any sequence of calls. -/
theorem calls (h : c.Canonical) {d : Catalog} (made : c.Calls d) : d.Canonical := by
  induction made with
  | refl => exact h
  | call call _ among ih => exact ih.after among

end Canonical

end Catalog

/-! ### What the catalog says of a number -/

/-- What the elements of an array that could be built are, and how many. -/
theorem Ty.elements_of_arrayOf {word count : Nat} {element array : Ty}
    (e : arrayOf word element count = .ok array) :
    (∀ t n, element ≠ .array t n) ∧ element ≠ .any ∧ 0 < count ∧
      element.size word * count < 2 ^ 64 := by
  have bound : Number.addressBound = 2 ^ 64 := by decide
  unfold arrayOf at e
  split at e
  · cases e
  · cases e
  · cases e
  next compound unsized =>
    split at e
    · cases e
    next some =>
      split at e
      · cases e
      next small =>
        exact ⟨fun t n k => compound t n k, fun k => unsized k, by omega, by omega⟩

namespace Catalog

/-- The numbers a kind is built from are in the catalog and stand for types it may be built from. -/
def Built (c : Catalog) : Kind → Prop
  | .scalar _ | .descriptor => True
  | .pointer target stars => 1 ≤ stars ∧ stars ≤ 3 ∧
      ∃ k, c.kinds[target]? = some k ∧ k.isPointer = false ∧ k.isReference = false
  | .reference target => ∃ k, c.kinds[target]? = some k ∧ k.isReference = false
  | .array element count => 0 < count ∧ ∃ k, c.kinds[element]? = some k ∧
      k.isReference = false ∧ k.isArray = false ∧ k ≠ .scalar .any

/-- The size of the types of a kind by the table of sizes for the word. -/
def Measures (c : Catalog) (size : Nat) : Kind → Prop
  | .scalar .any => size = 0
  | .scalar .char | .scalar .int8 | .scalar .uint8 | .descriptor => size = 1
  | .scalar .int16 | .scalar .uint16 => size = 2
  | .scalar .int32 | .scalar .uint32 => size = 4
  | .scalar .int64 | .scalar .uint64 => size = 8
  | .scalar .short | .scalar .ushort => size = c.word / 2
  | .scalar .int | .scalar .uint | .scalar .float => size = c.word
  | .scalar .long | .scalar .ulong | .scalar .double => size = 2 * c.word
  | .pointer _ _ | .reference _ => size = c.word
  | .array element count => size < 2 ^ 64 ∧
      ∃ e, c.known[element]? = some e ∧ size = c.size e * count

theorem Canonical.built {c : Catalog} (h : c.Canonical) {t : Ty} (m : t ∈ c.known) :
    c.Built (c.kind t) := by
  have met {u : Ty} (mu : u ∈ c.known) : c.kinds[c.number u]? = some (c.kind u) :=
    Canonical.getElem?_kinds.2 ⟨u, h.getElem?_eq_some.2 ⟨mu, rfl⟩, rfl⟩
  have reference {u : Ty} (plain : u.isReference = false) : (c.kind u).isReference = false := by
    cases u with
    | reference => cases plain
    | _ => rfl
  have formed := h.formed t m
  cases t with
  | scalar | descriptor => trivial
  | pointer t =>
    obtain ⟨mt, plain, few⟩ := formed
    refine ⟨Nat.succ_pos _, few, _, met (h.base mt), ?_, reference (h.isReference_base mt plain)⟩
    have stars := Ty.stars_base t
    cases k : t.base with
    | pointer u => simp [k, Ty.stars] at stars
    | _ => rfl
  | reference t => exact ⟨_, met formed.1, reference formed.2⟩
  | array t n =>
    obtain ⟨mt, possible⟩ := formed
    obtain ⟨single, sized, positive, -⟩ := Ty.elements_of_arrayOf possible
    refine ⟨positive, _, met mt, reference (Ty.element_of_arrayOf possible), ?_, ?_⟩
    · cases t with
      | array u n => exact absurd rfl (single u n)
      | _ => rfl
    · intro k
      cases t with
      | scalar s =>
        cases k
        exact sized rfl
      | _ => cases k

theorem Canonical.measures {c : Catalog} (h : c.Canonical) {t : Ty} (m : t ∈ c.known) :
    c.Measures (c.size t) (c.kind t) := by
  have formed := h.formed t m
  cases t with
  | scalar s => cases s <;> simp [Measures, Catalog.kind, Catalog.size, Ty.size, Scalar.size, Nat.mul_comm]
  | descriptor | pointer | reference => rfl
  | array t n =>
    obtain ⟨mt, possible⟩ := formed
    obtain ⟨-, -, -, small⟩ := Ty.elements_of_arrayOf possible
    exact ⟨small, t, h.getElem?_eq_some.2 ⟨mt, rfl⟩, rfl⟩

end Catalog

end ByteMachine
