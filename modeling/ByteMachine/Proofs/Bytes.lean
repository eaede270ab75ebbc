import ByteMachine.Proofs.Instructions

/-!
# Memory byte by byte

What an access does to each byte: a write replaces the bytes of its range and no other, so they
can be read back, and turning a range around puts each of its bytes where its mirror image was.
A value is decided by its bytes and the byte order, and a number whose bytes are turned around
together with the order is the same number; so is a number that is written and read back, up to
the width it is kept in.

Key definitions: `Covers`, `turn`, `Memory.decode`.
Key theorems: `Memory.read_iff`, `Memory.getElem?_write`, `Memory.read_write`,
`Memory.getElem?_reverse`, `ByteOrder.decodeInt_encodeInt`, `Memory.load_eq`,
`Memory.decode_flip`, `Memory.length_encode`, `Memory.load_stored_address`.
-/

namespace ByteMachine

open Number

/-- The address is one of a run of bytes, given by its first address and its length. -/
def Covers (run : Nat × Nat) (a : Nat) : Prop := run.1 ≤ a ∧ a < run.1 + run.2

instance (run : Nat × Nat) (a : Nat) : Decidable (Covers run a) :=
  inferInstanceAs (Decidable (_ ∧ _))

/-- Where a byte of a run goes when the run is turned around. -/
def turn (run : Nat × Nat) (a : Nat) : Nat := run.1 + (run.1 + run.2 - 1 - a)

theorem covers_turn {run : Nat × Nat} {a : Nat} (h : Covers run a) : Covers run (turn run a) := by
  simp only [Covers, turn] at h ⊢
  omega

theorem turn_turn {run : Nat × Nat} {a : Nat} (h : Covers run a) : turn run (turn run a) = a := by
  simp only [Covers, turn] at h ⊢
  omega

namespace Memory

variable {m n : Memory} {a b length : Nat} {bs : List UInt8}

theorem ext_bytes (order : n.order = m.order) (bytes : ∀ a : Nat, n.bytes[a]? = m.bytes[a]?) :
    n = m := by
  cases m
  cases n
  cases order
  exact congrArg (Memory.mk · _) (List.ext_getElem? bytes)

/-! ### Reading -/

/-- What is read are the bytes of the range, one by one. -/
theorem read_iff : m.read a length = .ok bs ↔
    a + length ≤ m.size ∧ bs.length = length ∧ ∀ i < length, bs[i]? = m.bytes[a + i]? := by
  have whole : a + length ≤ m.size → ((m.bytes.drop a).take length).length = length := by
    intro inside
    simp only [size] at inside
    simp only [List.length_take, List.length_drop]
    omega
  have each : ∀ i < length, ((m.bytes.drop a).take length)[i]? = m.bytes[a + i]? := fun i low => by
    rw [List.getElem?_take_of_lt low, List.getElem?_drop]
  unfold read
  split
  · next inside =>
    constructor
    · intro e
      cases e
      exact ⟨inside, whole inside, each⟩
    · rintro ⟨-, same, bytes⟩
      refine congrArg Except.ok (List.ext_getElem? fun i => ?_)
      by_cases low : i < length
      · rw [bytes i low, each i low]
      · rw [List.getElem?_eq_none (by have := whole inside; omega),
          List.getElem?_eq_none (by omega)]
  · next outside =>
    constructor
    · intro e
      cases e
    · exact fun h => absurd h.1 outside

theorem read_of_inside (inside : a + length ≤ m.size) : ∃ bs, m.read a length = .ok bs :=
  ⟨_, if_pos inside⟩

/-- Ranges with the same bytes read the same. -/
theorem read_congr (inside : a + length ≤ m.size) (inside' : b + length ≤ n.size)
    (same : ∀ i < length, n.bytes[b + i]? = m.bytes[a + i]?) :
    n.read b length = m.read a length := by
  obtain ⟨bs, e⟩ := read_of_inside inside
  obtain ⟨-, len, bytes⟩ := read_iff.1 e
  rw [e]
  exact read_iff.2 ⟨inside', len, fun i low => (bytes i low).trans (same i low).symm⟩

/-! ### Writing -/

theorem write_of_inside (inside : a + bs.length ≤ m.size) : ∃ n, m.write a bs = .ok n :=
  ⟨_, if_pos inside⟩

/-- A write replaces the bytes of its range and no other. -/
theorem getElem?_write (e : m.write a bs = .ok n) (b : Nat) :
    n.bytes[b]? = if a ≤ b ∧ b < a + bs.length then bs[b - a]? else m.bytes[b]? := by
  unfold write at e
  split at e
  · next inside =>
    cases e
    simp only [size] at inside
    have front : (m.bytes.take a).length = a := List.length_take_of_le (by omega)
    rcases Nat.lt_or_ge b a with before | behind
    · rw [if_neg (by omega), List.append_assoc, List.getElem?_append_left (by omega),
        List.getElem?_take_of_lt before]
    · rw [List.append_assoc, List.getElem?_append_right (by omega), front]
      by_cases within : b < a + bs.length
      · rw [if_pos ⟨behind, within⟩, List.getElem?_append_left (by omega)]
      · rw [if_neg (by omega), List.getElem?_append_right (by omega), List.getElem?_drop]
        congr 1
        omega
  · cases e

theorem getElem?_write_outside (e : m.write a bs = .ok n) (outside : b < a ∨ a + bs.length ≤ b) :
    n.bytes[b]? = m.bytes[b]? := by
  rw [getElem?_write e, if_neg (by omega)]

/-- What was written is read back. -/
theorem read_write (e : m.write a bs = .ok n) : n.read a bs.length = .ok bs := by
  have inside : a + bs.length ≤ m.size := by
    unfold write at e
    split at e
    · assumption
    · cases e
  refine read_iff.2 ⟨(write_eq_ok e).1 ▸ inside, rfl, fun i low => ?_⟩
  rw [getElem?_write e, if_pos (by omega), Nat.add_sub_cancel_left]

/-! ### Turning around -/

/-- Turning a range around puts each byte of it where its mirror image was. -/
theorem getElem?_reverse (e : m.reverse a length = .ok n) (b : Nat) :
    n.bytes[b]? = m.bytes[if Covers (a, length) b then turn (a, length) b else b]? := by
  obtain ⟨bs, found, e⟩ := bind_eq_ok.1 e
  obtain ⟨-, len, bytes⟩ := read_iff.1 found
  rw [getElem?_write e, List.length_reverse, len]
  by_cases within : Covers (a, length) b
  · have range : a ≤ b ∧ b < a + length := within
    rw [if_pos range, if_pos within, List.getElem?_reverse (by omega), bytes _ (by omega)]
    simp only [turn]
    congr 1
    omega
  · have range : ¬ (a ≤ b ∧ b < a + length) := within
    rw [if_neg range, if_neg within]

/-- The bytes of a range in reverse order, wherever they are found. -/
theorem read_reversed (e : m.read a length = .ok bs) (inside : b + length ≤ n.size)
    (mirrored : ∀ i < length, n.bytes[b + i]? = m.bytes[a + (length - 1 - i)]?) :
    n.read b length = .ok bs.reverse := by
  obtain ⟨-, len, bytes⟩ := read_iff.1 e
  refine read_iff.2 ⟨inside, by rw [List.length_reverse, len], fun i low => ?_⟩
  rw [List.getElem?_reverse (by omega), len, bytes _ (by omega), mirrored i low]

end Memory

/-! ### Numbers and their bytes -/

namespace ByteOrder

theorem arrange_flip (o : ByteOrder) (bs : List UInt8) : o.flip.arrange bs.reverse = o.arrange bs := by
  cases o <;> simp [flip, arrange]

@[simp] theorem length_arrange (o : ByteOrder) (bs : List UInt8) :
    (o.arrange bs).length = bs.length := by
  cases o <;> simp [arrange]

theorem decodeInt_flip (o : ByteOrder) (bs : List UInt8) (signed : Bool) :
    o.flip.decodeInt bs.reverse signed = o.decodeInt bs signed := by
  simp only [decodeInt, List.length_reverse, arrange_flip]

theorem decodeFloat_flip (o : ByteOrder) (bs : List UInt8) :
    o.flip.decodeFloat bs.reverse = o.decodeFloat bs := by
  simp only [decodeFloat, List.length_reverse, arrange_flip]

theorem length_encodeInt {o : ByteOrder} {value : Int} {width : Nat} {bs : List UInt8}
    (e : o.encodeInt value width = .ok bs) : bs.length = width := by
  unfold encodeInt at e
  split at e <;> cases e
  rw [length_arrange, Bytes.length_ofNat]

theorem length_encodeFloat {o : ByteOrder} {value : Number.Binary64} {width : Nat}
    {bs : List UInt8} (e : o.encodeFloat value width = .ok bs) : bs.length = width := by
  unfold encodeFloat at e
  split at e <;> cases e
  all_goals rw [length_arrange, Bytes.length_ofNat]

theorem isIntWidth_word {word : Nat} (h : Catalog.isWordSize word = true) :
    isIntWidth word = true := by
  simp only [Catalog.isWordSize, Bool.or_eq_true, decide_eq_true_eq] at h
  rcases h with (rfl | rfl) | rfl <;> rfl

/-- A number reads back as it was written, brought to the width it was written in. -/
theorem decodeInt_encodeInt {o : ByteOrder} {value : Int} {width : Nat} {bs : List UInt8}
    (narrow : width < 16) (e : o.encodeInt value width = .ok bs) (signed : Bool) :
    o.decodeInt bs signed = .ok (wrap value width signed) := by
  unfold encodeInt at e
  split at e
  · next valid =>
    cases e
    have pos : (0 : Int) < byteRange width := by exact_mod_cast twoPow_pos _
    have digits : ((Bytes.toNat (Bytes.ofNat width (value % byteRange width).toNat) : Nat) : Int) =
        value % byteRange width := by
      have low := Int.emod_nonneg value (Int.ne_of_gt pos)
      have high := Int.emod_lt_of_pos value pos
      rw [Bytes.toNat_ofNat, Nat.mod_eq_of_lt (by omega), Int.toNat_of_nonneg low]
    simp only [decodeInt, length_arrange, Bytes.length_ofNat, valid, if_true, arrange_arrange,
      digits, wrap]
    rw [if_neg (Nat.not_le.2 narrow)]
    cases signed with
    | true => simp
    | false => simp [Nat.ne_of_lt narrow]
  · cases e

end ByteOrder

namespace Memory

variable {m n : Memory} {c : Catalog} {a b : Nat} {t : Ty} {bs : List UInt8}

theorem load_strip (m : Memory) (c : Catalog) (a : Nat) (t : Ty) :
    m.load c a t = m.load c a t.strip := by
  cases t <;> rfl

/-- The value of some bytes as the given type. -/
def decode (o : ByteOrder) (c : Catalog) (bs : List UInt8) : Ty → Except Fault Literal
  | .reference target => decode o c bs target
  | .array e n => .error (.typeMismatch "a scalar type" (Ty.array e n).name)
  | .descriptor => (TypeTag.resolve c (bs.headD 0)).map .type
  | .pointer _ => (o.decodeInt bs false).map .integer
  | .scalar .any => .error (.typeMismatch "a scalar type" Scalar.any.name)
  | .scalar .char => .ok (.char (bs.headD 0))
  | .scalar s =>
    if s.isFloat then (o.decodeFloat bs).map .float
    else (o.decodeInt bs s.isSigned).map .integer

/-- A value is decided by its bytes and the byte order. -/
theorem load_eq (plain : t.isReference = false) (e : m.read a (c.size t) = .ok bs) :
    m.load c a t = decode m.order c bs t := by
  have single : bs.length = 1 → ∃ x, bs = [x] := List.length_eq_one_iff.1
  have len : bs.length = c.size t := (read_iff.1 e).2.1
  cases t with
  | reference => cases plain
  | array => rfl
  | descriptor =>
    obtain ⟨x, rfl⟩ := single len
    replace e : m.read a 1 = .ok [x] := e
    simp only [load, e, decode]
    rfl
  | pointer =>
    replace e : m.read a c.word = .ok bs := e
    simp only [load, e, decode]
    rfl
  | scalar s =>
    replace e : m.read a (s.size c.word) = .ok bs := e
    cases s with
    | any => rfl
    | char =>
      obtain ⟨x, rfl⟩ := single len
      replace e : m.read a 1 = .ok [x] := e
      simp only [load, e]
      rfl
    | _ =>
      simp only [load, e, decode]
      rfl

/-- A number whose bytes are turned around together with the byte order is the same number. -/
theorem decode_flip (o : ByteOrder) (plain : t.isReference = false) (len : bs.length = c.size t) :
    decode o.flip c bs.reverse t = decode o c bs t := by
  -- A single byte is its own mirror image, so types of one byte need no order.
  have single : bs.length = 1 → bs.reverse = bs := fun one => by
    obtain ⟨x, rfl⟩ := List.length_eq_one_iff.1 one
    rfl
  cases t with
  | reference => cases plain
  | array => rfl
  | descriptor => simp only [decode, single len]
  | pointer => simp only [decode, ByteOrder.decodeInt_flip]
  | scalar s =>
    cases s with
    | any => rfl
    | char => simp only [decode, single len]
    | _ => simp only [decode, ByteOrder.decodeInt_flip, ByteOrder.decodeFloat_flip]

/-- A value is stored in as many bytes as its type has. -/
theorem length_encode {o : ByteOrder} {c : Catalog} {value : Literal} {t : Ty}
    {bs : List UInt8} (plain : t.isReference = false) (e : encode o c value t = .ok bs) :
    bs.length = c.size t := by
  cases t with
  | reference => cases plain
  | array => cases e
  | descriptor =>
    unfold encode at e
    split at e
    · obtain ⟨tag, -, rfl⟩ := map_eq_ok.1 e
      rfl
    · cases e
  | pointer =>
    unfold encode at e
    split at e
    · exact ByteOrder.length_encodeInt e
    · cases e
  | scalar s =>
    unfold encode at e
    split at e
    · cases e
    · split at e
      · split at e
        · exact ByteOrder.length_encodeFloat e
        · cases e
      · split at e
        · exact ByteOrder.length_encodeInt e
        · cases e

/-- A value that has bytes can be stored wherever these are inside of memory. -/
theorem store_of_inside {value : Literal} (plain : t.isReference = false)
    (e : encode m.order c value t = .ok bs) (inside : a + c.size t ≤ m.size) :
    ∃ n, m.store c a t value = .ok n := by
  obtain ⟨n, written⟩ := write_of_inside (length_encode plain e ▸ inside)
  exact ⟨n, bind_eq_ok.2 ⟨bs, e, written⟩⟩

/-- An address that was stored in a pointer reads back without what does not fit in a word. -/
theorem load_stored_address {target : Ty} {address : Nat} (word : Catalog.isWordSize c.word = true)
    (e : m.store c a (.pointer target) (.integer address) = .ok n) :
    n.load c a (.pointer target) = .ok (.integer (address % byteRange c.word : Nat)) := by
  obtain ⟨bs, encoded, written⟩ := bind_eq_ok.1 e
  have narrow : c.word < 16 := by have := (Catalog.isWordSize_bounds word).2; omega
  have length : bs.length = c.size (.pointer target) := length_encode rfl encoded
  have found : n.read a (c.size (.pointer target)) = .ok bs := length ▸ read_write written
  replace encoded : m.order.encodeInt address c.word = .ok bs := encoded
  rw [load_eq rfl found, decode, (write_eq_ok written).2,
    ByteOrder.decodeInt_encodeInt narrow encoded]
  simp only [wrap, if_neg (Nat.not_le.2 narrow)]
  rfl

end Memory

end ByteMachine
