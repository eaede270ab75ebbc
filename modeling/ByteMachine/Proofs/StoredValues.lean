import ByteMachine.Proofs.Operands
import ByteMachine.Proofs.Ranges
import ByteMachine.Proofs.TypeTags

/-!
# Storing a value and loading it

A store turns a value into the bytes of a type and writes them; a load reads these bytes as the type.
The two directions are written apart, and for integers, characters, addresses and types they mirror
each other: what is loaded is what the type keeps of the value that was stored, for a type the type
itself as long as its byte tells it. No other byte is touched. A store fails exactly if the bytes do
not lie in memory, if the value is of another kind, or if it is a type without a byte of its own; then
nothing is written.

Key definitions: `Ty.isWhole`, `Literal.Taggable`, `Memory.Accepts`.
Key theorems: `Memory.decode_encode`, `Memory.encode_isOk`, `Memory.store_isOk`, `Memory.store_frame`,
`Run.run_store`, `Memory.load_of_store`.
-/

namespace ByteMachine

open Discipline Number

/-- The types whose values are integers, characters, addresses or types. -/
def Ty.isWhole : Ty → Bool
  | .scalar s => s.isIntegral
  | .pointer _ | .descriptor => true
  | _ => false

/-- A type among the values is one that has a byte. -/
def Literal.Taggable (v : Literal) : Prop :=
  ∀ u, v = .type u → ∃ tag, TypeTag.encode u = .ok tag

theorem Ty.isReference_of_isWhole {t : Ty} (whole : t.isWhole = true) : t.isReference = false := by
  cases t with
  | reference => cases whole
  | _ => rfl

/-- But for `type_t`, these types hold integers. -/
theorem Ty.integers?_of_isWhole {t : Ty} (whole : t.isWhole = true) (word : Nat) :
    t = .descriptor ∨ ∃ width signed, t.integers? word = some (width, signed) := by
  cases t with
  | scalar s => exact .inr ⟨_, _, integers?_of_isIntegral word whole⟩
  | pointer => exact .inr ⟨word, false, rfl⟩
  | descriptor => exact .inl rfl
  | _ => cases whole

/-- What holds integers keeps something of exactly the values that have an integer. -/
theorem Ty.kept?_isSome {word width : Nat} {signed : Bool} {t : Ty} {v : Literal}
    (kind : t.integers? word = some (width, signed)) :
    (t.kept? word v).isSome = v.toInteger?.isSome := by
  cases t with
  | scalar s => cases s <;> exact Option.isSome_map
  | pointer => exact Option.isSome_map
  | _ => cases kind

namespace Memory

variable {m n : Memory} {c : Catalog} {o : ByteOrder} {a b : Nat} {t : Ty} {v w : Literal}
  {bs : List UInt8}

/-! ### Bytes of a value -/

theorem encode_strip (o : ByteOrder) (c : Catalog) (v : Literal) (t : Ty) :
    encode o c v t = encode o c v t.strip := by
  cases t <;> rfl

theorem store_strip (m : Memory) (c : Catalog) (a : Nat) (t : Ty) (v : Literal) :
    m.store c a t v = m.store c a t.strip v := by
  rw [store, store, encode_strip]

/-- The bytes of a value are read as what the type keeps of it. -/
theorem decode_encode (reached : c.Reached) (whole : t.isWhole = true) (known : v.Known c)
    (single : ∀ u, v = .type u → u.isArray = false) (e : encode o c v t = .ok bs) :
    ∃ w, t.kept? c.word v = some w ∧ decode o c bs t = .ok w := by
  rcases Ty.integers?_of_isWhole whole c.word with rfl | ⟨width, signed, kind⟩
  · cases v with
    | type u =>
      obtain ⟨tag, tagged, rfl⟩ := map_eq_ok.1 e
      have resolved := TypeTag.resolve_of_encode reached known (single u rfl) tagged
      refine ⟨.type u, rfl, ?_⟩
      show (TypeTag.resolve c tag).map Literal.type = _
      rw [resolved]
      rfl
    | _ => cases e
  · obtain ⟨i, number⟩ :=
      Option.isSome_iff_exists.1 ((encode_integer_isOk reached.word kind).1 ⟨bs, e⟩)
    exact decode_encode_integer reached.word kind number e

/-- Exactly a value that the type keeps something of has bytes; a type among the values has to be
one that has a byte. -/
theorem encode_isOk (word : Catalog.isWordSize c.word = true) (whole : t.isWhole = true) :
    (∃ bs, encode o c v t = .ok bs) ↔ (t.kept? c.word v).isSome = true ∧ v.Taggable := by
  rcases Ty.integers?_of_isWhole whole c.word with rfl | ⟨width, signed, kind⟩
  · cases v with
    | type u =>
      constructor
      · rintro ⟨bs, e⟩
        obtain ⟨tag, tagged, -⟩ := map_eq_ok.1 e
        refine ⟨rfl, fun u same => ?_⟩
        cases same
        exact ⟨tag, tagged⟩
      · rintro ⟨-, taggable⟩
        obtain ⟨tag, tagged⟩ := taggable u rfl
        exact ⟨[tag], map_eq_ok.2 ⟨tag, tagged, rfl⟩⟩
    | _ => exact ⟨fun ⟨_, e⟩ => (nomatch e), fun ⟨kept, _⟩ => (nomatch kept)⟩
  · rw [Ty.kept?_isSome kind, encode_integer_isOk word kind]
    -- A value with an integer is no type.
    refine ⟨fun number => ⟨number, ?_⟩, And.left⟩
    rintro u rfl
    cases number

/-! ### Stores -/

theorem write_isOk : (∃ n, m.write a bs = .ok n) ↔ a + bs.length ≤ m.size := by
  unfold write
  by_cases inside : a + bs.length ≤ m.size
  · simp [inside]
  · simp [inside]

/-- A store succeeds exactly if the value has bytes and these have room. -/
theorem store_isOk_iff (plain : t.isReference = false) :
    (∃ n, m.store c a t v = .ok n) ↔
      (∃ bs, encode m.order c v t = .ok bs) ∧ a + c.size t ≤ m.size := by
  constructor
  · rintro ⟨n, e⟩
    obtain ⟨bs, encoded, written⟩ := bind_eq_ok.1 e
    exact ⟨⟨bs, encoded⟩, length_encode plain encoded ▸ write_isOk.1 ⟨n, written⟩⟩
  · rintro ⟨⟨bs, encoded⟩, inside⟩
    exact store_of_inside plain encoded inside

/-- The address has room for the type, whose values are of the kind of the value, and a type among
the values has a byte. -/
structure Accepts (m : Memory) (c : Catalog) (a : Nat) (t : Ty) (v : Literal) : Prop where
  inside : a + c.size t.strip ≤ m.size
  kind : (t.strip.kept? c.word v).isSome = true
  taggable : v.Taggable

/-- A store succeeds exactly if it is accepted. -/
theorem store_isOk (word : Catalog.isWordSize c.word = true) (whole : t.strip.isWhole = true) :
    (∃ n, m.store c a t v = .ok n) ↔ m.Accepts c a t v := by
  rw [store_strip, store_isOk_iff (Ty.isReference_of_isWhole whole), encode_isOk word whole]
  constructor
  · rintro ⟨⟨kind, taggable⟩, inside⟩
    exact ⟨inside, kind, taggable⟩
  · rintro ⟨inside, kind, taggable⟩
    exact ⟨⟨kind, taggable⟩, inside⟩

/-- A store touches only the bytes that the type has without a reference around it. -/
theorem store_frame (plain : t.strip.isReference = false) (e : m.store c a t v = .ok n)
    (outside : b < a ∨ a + c.size t.strip ≤ b) : n.bytes[b]? = m.bytes[b]? := by
  rw [store_strip] at e
  obtain ⟨bs, encoded, written⟩ := bind_eq_ok.1 e
  rw [← length_encode plain encoded] at outside
  exact getElem?_write_outside written outside

end Memory

/-- A statement that stores a value goes on from the new memory, or fails where it was. -/
theorem Run.run_store (s : Core) (a : Nat) (t : Ty) (v : Literal) :
    (do setMemory (← lift ((← memory).store (← catalog) a t v)) : Run Unit).run.run s =
      match s.memory.store s.catalog a t v with
      | .ok n => (.ok (), { s with memory := n })
      | .error fault => (.error fault, s) := by
  rw [run_memory_bind, run_catalog_bind, run_bind, run_lift]
  cases s.memory.store s.catalog a t v <;> rfl

namespace Memory

variable {c : Catalog} {t : Ty} {v : Literal}

/-- What a store of any value at a type of integers, characters, addresses or types does, in either
byte order. If it succeeds, order, size and all bytes outside of those of the type are as they were,
and the address is read as what the type keeps of the value, unless that is an array or a reference to
one. It fails exactly if it is not accepted, and a statement that fails in it has changed nothing. -/
theorem load_of_store (reached : c.Reached) (m : Memory) (a : Nat) (whole : t.strip.isWhole = true)
    (known : v.Known c) :
    (∀ n, m.store c a t v = .ok n →
      n.order = m.order ∧ n.size = m.size ∧
        (∀ b, b < a ∨ a + c.size t.strip ≤ b → n.bytes[b]? = m.bytes[b]?) ∧
        ((∀ u, v = .type u → u.isArray = false) →
          ∃ w, t.strip.kept? c.word v = some w ∧ n.load c a t = .ok w)) ∧
      ((∃ fault, m.store c a t v = .error fault) ↔
        m.size < a + c.size t.strip ∨ t.strip.kept? c.word v = none ∨
          ∃ u fault, v = .type u ∧ TypeTag.encode u = .error fault) ∧
      ∀ fault s, m.store c a t v = .error fault → s.memory = m → s.catalog = c →
        (do Run.setMemory (← Run.lift ((← Run.memory).store (← Run.catalog) a t v)) :
          Run Unit).run.run s = (.error fault, s) := by
  have plain := Ty.isReference_of_isWhole whole
  have accepts := store_isOk (m := m) (a := a) (v := v) reached.word whole
  refine ⟨fun n e => ?_, ?_, ?_⟩
  · obtain ⟨size, order⟩ := store_eq_ok e
    refine ⟨order, size, fun b => store_frame plain e, fun single => ?_⟩
    rw [store_strip] at e
    obtain ⟨bs, encoded, loaded⟩ := load_eq_decode plain e
    obtain ⟨w, keeps, decoded⟩ := decode_encode reached whole known single encoded
    exact ⟨w, keeps, by rw [load_strip, loaded, decoded]⟩
  · have refused : (∃ fault, m.store c a t v = .error fault) ↔ ¬ m.Accepts c a t v := by
      rw [← accepts]
      cases m.store c a t v <;> simp
    rw [refused]
    constructor
    · intro refused
      by_contra accepted
      simp only [not_or, Nat.not_lt, not_exists, not_and] at accepted
      obtain ⟨inside, kind, tagged⟩ := accepted
      refine refused ⟨inside, Option.isSome_iff_ne_none.2 kind, fun u same => ?_⟩
      cases e : TypeTag.encode u with
      | ok tag => exact ⟨tag, rfl⟩
      | error fault => exact absurd e (tagged u fault same)
    · rintro (outside | other | ⟨u, fault, same, untaggable⟩) accepted
      · exact Nat.not_le.2 outside accepted.inside
      · have kind := accepted.kind
        rw [other] at kind
        cases kind
      · obtain ⟨tag, tagged⟩ := accepted.taggable u same
        rw [untaggable] at tagged
        cases tagged
  · rintro fault s failed rfl rfl
    rw [Run.run_store, failed]

/-- Minus one in an unsigned number of two bytes is 65535, also through a reference; the byte in front
is still zero. -/
theorem load_of_store_minus_one :
    ∃ n, (zeroed 32 .big).store Machine.fresh.core.catalog 4 (.reference (.scalar .uint16))
        (.integer (-1)) = .ok n ∧ n.bytes[3]? = some 0 ∧
      n.load Machine.fresh.core.catalog 4 (.reference (.scalar .uint16)) =
        .ok (.integer 65535) := by
  have reached : Machine.fresh.core.catalog.Reached :=
    .inr ⟨Machine.fresh, Machine.reachable_fresh, rfl⟩
  obtain ⟨stored, fails, -⟩ := load_of_store (t := .reference (.scalar .uint16))
    (v := .integer (-1)) reached (zeroed 32 .big) 4 (by decide) trivial
  cases e : (zeroed 32 .big).store Machine.fresh.core.catalog 4 (.reference (.scalar .uint16))
      (.integer (-1)) with
  | ok n =>
    obtain ⟨-, -, frame, loaded⟩ := stored n e
    obtain ⟨w, keeps, found⟩ := loaded nofun
    cases keeps
    exact ⟨n, rfl, frame 3 (.inl (by decide)), found⟩
  | error fault =>
    rcases fails.1 ⟨fault, e⟩ with outside | other | ⟨u, _, same, -⟩
    · exact absurd outside (by decide)
    · cases other
    · cases same

end Memory

end ByteMachine
