import ByteMachine.Proofs.Discipline
import ByteMachine.Storage.Memory

/-!
# Catalogs that grow

While a machine runs its catalog only grows: what was met keeps its number, its name and its
size. A catalog is closed if with each type it holds the type that one is built on, so that
following a pointer, taking an element or reading through a reference never leaves it. Every type
constructor a statement can reach adds only types whose parts are there already.

Key definitions: `Catalog.Extends`, `Catalog.Admits`, `Catalog.Closed`, `Literal.Known`.
Key theorems: `Catalog.Closed.intern`, `Catalog.Closed.pointerTo`, `Catalog.Closed.internDecay`,
`Memory.load_known`.
-/

namespace ByteMachine

theorem Ty.strip_of_plain {t : Ty} (h : t.isReference = false) : t.strip = t := by
  cases t with
  | reference => cases h
  | _ => rfl

theorem Ty.pointerTo_eq_of_plain {t : Ty} (plain : t.isReference = false) :
    t.pointerTo =
      if maxStars < t.stars + 1 then .error (.tooManyStars t.name) else .ok (pointer t) := by
  cases t with
  | reference => cases plain
  | _ => rfl

namespace Catalog

/-! ### Growth -/

/-- `d` is `c` with more types behind those of `c`: every number of `c` means the same in `d`. -/
structure Extends (c d : Catalog) : Prop where
  word : d.word = c.word
  known : c.known <+: d.known

namespace Extends

variable {c d e : Catalog}

theorem refl (c : Catalog) : c.Extends c := ⟨rfl, List.prefix_rfl⟩

theorem trans (h : c.Extends d) (k : d.Extends e) : c.Extends e :=
  ⟨k.word.trans h.word, h.known.trans k.known⟩

theorem mem (h : c.Extends d) {t : Ty} (m : t ∈ c.known) : t ∈ d.known := h.known.subset m

theorem size (h : c.Extends d) (t : Ty) : d.size t = c.size t := by
  unfold Catalog.size
  rw [h.word]

/-- A type keeps its number. -/
theorem number (h : c.Extends d) {number : Nat} {t : Ty} (e : c.known[number]? = some t) :
    d.known[number]? = some t := by
  obtain ⟨more, grown⟩ := h.known
  obtain ⟨low, -⟩ := List.getElem?_eq_some_iff.1 e
  rw [← grown, List.getElem?_append_left low]
  exact e

end Extends

theorem extends_intern (c : Catalog) (t : Ty) : c.Extends (c.intern t) :=
  ⟨intern_word c t, known_prefix_intern c t⟩

theorem extends_internAll : ∀ (ts : List Ty) (c : Catalog), c.Extends (c.internAll ts)
  | [], c => .refl c
  | t :: ts, c => (extends_intern c t).trans (extends_internAll ts (c.intern t))

theorem internAll_append (c : Catalog) (ts us : List Ty) :
    c.internAll (ts ++ us) = (c.internAll ts).internAll us := List.foldl_append

theorem extends_internDecay (c : Catalog) (t : Ty) : c.Extends (c.internDecay t) := by
  unfold internDecay
  split
  · split
    · exact extends_intern c _
    · exact .refl c
  · exact .refl c

theorem intern_intern (c : Catalog) (t : Ty) : (c.intern t).intern t = c.intern t :=
  if_pos (mem_intern.2 (.inr rfl))

theorem internDecay_internDecay (c : Catalog) (t : Ty) :
    (c.internDecay t).internDecay t = c.internDecay t := by
  by_cases array : t.isArray = true
  · simp only [internDecay, array, if_true]
    cases t.decay with
    | pointer target => exact intern_intern _ _
    | _ => rfl
  · simp only [internDecay, array, if_false, Bool.false_eq_true]

theorem internDecay_strip (c : Catalog) {t : Ty} (plain : t.strip.isReference = false) :
    c.internDecay t.strip = c.internDecay t := by
  simp only [internDecay, Ty.isArray, Ty.arrayShape?, Ty.decay, Ty.strip_of_plain plain]
  rfl

theorem extends_internCompared (c : Catalog) (a b : Ty) : c.Extends (c.internCompared a b) :=
  (extends_internDecay c a).trans (extends_internDecay _ b)

theorem isWordSize_bounds {word : Nat} (h : isWordSize word = true) : 0 < word ∧ word ≤ 8 := by
  simp only [isWordSize, Bool.or_eq_true, decide_eq_true_eq] at h
  omega

/-! ### Closed catalogs -/

/-- The type a type is built on is in the catalog; behind a pointer or a reference there is no
reference, and an array is one that can be built. -/
def Admits (c : Catalog) : Ty → Prop
  | .scalar _ | .descriptor => True
  | .pointer target | .reference target => target ∈ c.known ∧ target.isReference = false
  | .array element count =>
    element ∈ c.known ∧ ∃ word, Ty.arrayOf word element count = .ok (.array element count)

theorem Admits.grow {c d : Catalog} (h : c.Extends d) {t : Ty} (a : c.Admits t) :
    d.Admits t := by
  cases t with
  | scalar | descriptor => trivial
  | pointer | reference | array => exact ⟨h.mem a.1, a.2⟩

/-- A catalog that holds the types of a new machine and all that its types are built on. -/
structure Closed (c : Catalog) : Prop where
  word : isWordSize c.word = true
  standard : (standard c.word).known ⊆ c.known
  admits : ∀ t ∈ c.known, c.Admits t

theorem known_standard (word : Nat) :
    (standard word).known =
      Scalar.all.map Ty.scalar ++ [Ty.descriptor, Ty.anyPointer, Ty.charPointer] := by
  rfl

theorem closed_standard {word : Nat} (h : isWordSize word = true) : (standard word).Closed := by
  refine ⟨h, List.Subset.refl _, ?_⟩
  rw [known_standard]
  intro t m
  rcases List.mem_append.1 m with m | m
  · obtain ⟨s, -, rfl⟩ := List.mem_map.1 m
    trivial
  · simp only [List.mem_cons, List.not_mem_nil, or_false] at m
    rcases m with rfl | rfl | rfl
    · trivial
    all_goals
      refine ⟨?_, rfl⟩
      rw [known_standard]
      decide

namespace Closed

variable {c : Catalog} {t : Ty}

theorem word_pos (h : c.Closed) : 0 < c.word := (isWordSize_bounds h.word).1

theorem mem_standard (h : c.Closed) (m : t ∈ Scalar.all.map Ty.scalar ++
    [Ty.descriptor, Ty.anyPointer, Ty.charPointer]) : t ∈ c.known :=
  h.standard (known_standard c.word ▸ m)

theorem scalar (h : c.Closed) (s : Scalar) : Ty.scalar s ∈ c.known := by
  apply h.mem_standard
  cases s <;> decide

theorem descriptor (h : c.Closed) : Ty.descriptor ∈ c.known := h.mem_standard (by decide)

theorem anyPointer (h : c.Closed) : Ty.anyPointer ∈ c.known := h.mem_standard (by decide)

theorem charPointer (h : c.Closed) : Ty.charPointer ∈ c.known := h.mem_standard (by decide)

theorem strip (h : c.Closed) (m : t ∈ c.known) : t.strip ∈ c.known := by
  cases t with
  | reference => exact (h.admits _ m).1
  | _ => exact m

/-- Behind a reference in the catalog there is no other. -/
theorem isReference_strip (h : c.Closed) (m : t ∈ c.known) : t.strip.isReference = false := by
  cases t with
  | reference => exact (h.admits _ m).2
  | _ => rfl

theorem pointee (h : c.Closed) (m : t ∈ c.known) {target : Ty} (e : t.pointee? = some target) :
    target ∈ c.known := by
  unfold Ty.pointee? at e
  split at e
  · next k =>
    cases e
    have := h.admits _ (k ▸ h.strip m)
    exact this.1
  · cases e

theorem element (h : c.Closed) (m : t ∈ c.known) {e : Ty} {n : Nat}
    (shape : t.arrayShape? = some (e, n)) : e ∈ c.known := by
  unfold Ty.arrayShape? at shape
  split at shape
  · next k =>
    cases shape
    have := h.admits _ (k ▸ h.strip m)
    exact this.1
  · cases shape

/-- A type enters the catalog behind those it is built on. -/
theorem intern (h : c.Closed) (a : c.Admits t) : (c.intern t).Closed := by
  refine ⟨by rw [intern_word]; exact h.word, ?_, fun u m => ?_⟩
  · rw [intern_word]
    exact fun u m => (extends_intern c t).mem (h.standard m)
  · refine Admits.grow (extends_intern c t) ?_
    rcases mem_intern.1 m with m | rfl
    · exact h.admits u m
    · exact a

/-- What a pointer is made to was met and is no reference. -/
theorem pointerTo (h : c.Closed) {p : Ty} (m : t ∈ c.known) (e : t.pointerTo = .ok p) :
    ∃ target ∈ c.known, target.isReference = false ∧ p = .pointer target := by
  fun_induction Ty.pointerTo t with
  | case1 target ih => exact ih (h.admits _ m).1 e
  | case2 => cases e
  | case3 u other =>
    cases e
    refine ⟨u, m, ?_, rfl⟩
    cases u with
    | reference target => exact absurd rfl (other target)
    | _ => rfl

/-- The pointer an array decays to enters the catalog. -/
theorem internDecay (h : c.Closed) (m : t ∈ c.known) :
    (c.internDecay t).Closed ∧ t.decay ∈ (c.internDecay t).known := by
  have ms := h.strip m
  cases k : t.strip with
  | array element n =>
    have me : element ∈ c.known := by
      rw [k] at ms
      exact (h.admits _ ms).1
    cases p : element.pointerTo with
    | error =>
      have decay : t.decay = .array element n := by simp only [Ty.decay, k, p]; rfl
      rw [k, ← decay] at ms
      simp only [Catalog.internDecay, Ty.isArray, Ty.arrayShape?, k, decay]
      exact ⟨h, decay ▸ ms⟩
    | ok pointer =>
      obtain ⟨target, mt, plain, rfl⟩ := h.pointerTo me p
      have decay : t.decay = .pointer target := by simp only [Ty.decay, k, p]; rfl
      simp only [Catalog.internDecay, Ty.isArray, Ty.arrayShape?, k, decay]
      exact ⟨h.intern (t := .pointer target) ⟨mt, plain⟩, mem_intern.2 (.inr rfl)⟩
  | _ =>
    have decay : t.decay = t.strip := by simp only [Ty.decay, k]
    have same : c.internDecay t = c := by simp [Catalog.internDecay, Ty.isArray, Ty.arrayShape?, k]
    rw [decay, same]
    exact ⟨h, ms⟩

theorem internCompared (h : c.Closed) {a b : Ty} (ma : a ∈ c.known) (mb : b ∈ c.known) :
    (c.internCompared a b).Closed :=
  ((h.internDecay ma).1.internDecay ((extends_internDecay c a).mem mb)).1

end Closed

end Catalog

/-- An array that could be built is one of the elements that were asked for. -/
theorem Ty.arrayOf_eq_ok {word count : Nat} {element array : Ty}
    (e : arrayOf word element count = .ok array) : array = .array element count := by
  unfold arrayOf at e
  split at e
  · cases e
  · cases e
  · cases e
  · split at e
    · cases e
    · split at e <;> cases e
      rfl

/-- The elements of an array are no references. -/
theorem Ty.element_of_arrayOf {word count : Nat} {element array : Ty}
    (e : arrayOf word element count = .ok array) : element.isReference = false := by
  cases element with
  | reference => cases e
  | _ => rfl

theorem Ty.referenceTo_eq_ok {target reference : Ty} (e : target.referenceTo = .ok reference) :
    reference = .reference target ∧ target.isReference = false := by
  unfold referenceTo at e
  split at e <;> cases e
  next plain =>
    refine ⟨rfl, ?_⟩
    cases target with
    | reference t => exact absurd rfl (plain t)
    | _ => rfl

/-! ### Types as values -/

/-- A value that is a type is one that was met. -/
def Literal.Known (c : Catalog) : Literal → Prop
  | .type t => t ∈ c.known
  | _ => True

theorem Literal.Known.grow {c d : Catalog} (h : c.Extends d) {v : Literal} (k : v.Known c) :
    v.Known d := by
  cases v with
  | type => exact h.mem k
  | _ => trivial

theorem Catalog.mem_of_met? {c : Catalog} {t u : Ty} (e : c.met? t = some u) : u ∈ c.known := by
  unfold met? at e
  split at e
  · next m =>
    cases e
    exact m
  · cases e

theorem Catalog.mem_of_pointer? {c : Catalog} {t u : Ty} {stars : Nat}
    (e : c.pointer? t stars = some u) : u ∈ c.known := by
  unfold pointer? at e
  split at e
  · next m =>
    cases e
    simp only [Bool.and_eq_true, decide_eq_true_eq] at m
    exact m.2
  · cases e

theorem TypeTag.resolve_known {c : Catalog} (h : c.Closed) {tag : UInt8} {t : Ty}
    (e : resolve c tag = .ok t) : t ∈ c.known := by
  unfold resolve at e
  split at e
  · cases e
    exact h.descriptor
  · dsimp only at e
    split at e
    · next found =>
      cases e
      obtain ⟨s, -, found⟩ := Option.bind_eq_some_iff.1 found
      have whole : ∀ u ∈ c.known,
          (if referenceWeight ≤ tag.toNat then c.met? (.reference u) else some u) = some t →
            t ∈ c.known := by
        intro u m e
        split at e
        · exact Catalog.mem_of_met? e
        · cases e
          exact m
      split at found
      · exact whole _ (h.scalar s) found
      · obtain ⟨u, pointer, found⟩ := Option.bind_eq_some_iff.1 found
        exact whole u (Catalog.mem_of_pointer? pointer) found
    · cases e

/-- A byte read as a type stands for one that was met. -/
theorem Memory.load_known {c : Catalog} (h : c.Closed) {m : Memory} {address : Nat} {t : Ty}
    {v : Literal} (e : m.load c address t = .ok v) : v.Known c := by
  fun_induction Memory.load m c address t with
  | case1 target ih => exact ih e
  | case2 | case5 => cases e
  | case3 =>
    obtain ⟨bytes, -, e⟩ := bind_eq_ok.1 e
    split at e
    · obtain ⟨t, r, rfl⟩ := map_eq_ok.1 e
      exact TypeTag.resolve_known h r
    · cases e
  | case4 =>
    obtain ⟨bytes, -, e⟩ := bind_eq_ok.1 e
    obtain ⟨n, -, e⟩ := bind_eq_ok.1 e
    cases e
    trivial
  | case6 =>
    obtain ⟨bytes, -, e⟩ := bind_eq_ok.1 e
    split at e <;> cases e
    trivial
  | case7 =>
    obtain ⟨bytes, -, e⟩ := bind_eq_ok.1 e
    split at e
    all_goals
      obtain ⟨n, -, e⟩ := bind_eq_ok.1 e
      cases e
      trivial

end ByteMachine
