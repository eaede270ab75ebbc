import ByteMachine.Machine.Arithmetic
import ByteMachine.Proofs.Bytes

/-!
# The integers of a type

An integral type holds the integers that its bytes can show: with a sign in two's complement,
without one from zero on, and sixteen bytes always with a sign. A pointer holds what a word can
show. `Number.kept` is what so many bytes keep of an integer, which is in range and equal to it
exactly if that is; so a value is stored at its type and read back as an equal integer exactly if it
is in the range of the type. The values that arithmetic makes are wrapped to the width of their type
and so in its range.

Key definitions: `Number.InRange`, `Number.kept`, `Scalar.isIntegral`, `Ty.integers?`, `Ty.Holds`,
`Literal.whole?`, `Arithmetic.Computed`.
Key theorems: `Number.kept_eq_iff`, `Number.inRange_wrap`, `Memory.load_stored`,
`Memory.load_stored_iff`, `Memory.holds_of_load`, `Arithmetic.apply_computed`.
-/

namespace ByteMachine

open Number

namespace Number

/-! ### Ranges -/

/-- So many bytes can show the integer, with a sign or without. Sixteen bytes always have a sign. -/
def InRange (width : Nat) (signed : Bool) (n : Int) : Prop :=
  if signed || width = 16 then -(twoPow (8 * width - 1)) ≤ n ∧ n < twoPow (8 * width - 1)
  else 0 ≤ n ∧ n < byteRange width

instance (width : Nat) (signed : Bool) (n : Int) : Decidable (InRange width signed n) := by
  unfold InRange
  infer_instance

/-- What so many bytes keep of an integer. -/
def kept (width : Nat) (signed : Bool) (n : Int) : Int :=
  if signed || width = 16 then Int.bmod n (byteRange width) else n % byteRange width

variable {width : Nat} {signed : Bool} {n : Int}

theorem byteRange_pos (width : Nat) : 0 < byteRange width := twoPow_pos _

/-- Half of the integers of so many bytes are negative, if there is a sign. -/
theorem byteRange_eq_two_mul (pos : 0 < width) : byteRange width = 2 * twoPow (8 * width - 1) := by
  rw [byteRange, ← twoPow_succ]
  congr 1
  omega

theorem inRange_kept (pos : 0 < width) (signed : Bool) (n : Int) :
    InRange width signed (kept width signed n) := by
  have some := byteRange_pos width
  have half := byteRange_eq_two_mul pos
  unfold InRange kept
  split
  · have low := Int.le_bmod (x := n) some
    have high := Int.bmod_lt (x := n) some
    omega
  · exact ⟨Int.emod_nonneg _ (by omega), Int.emod_lt_of_pos _ (by omega)⟩

/-- Exactly the integers in range are kept as they are. -/
theorem kept_eq_iff (pos : 0 < width) : kept width signed n = n ↔ InRange width signed n := by
  constructor
  · intro same
    rw [← same]
    exact inRange_kept pos signed n
  · have half := byteRange_eq_two_mul pos
    unfold InRange kept
    split
    · rintro ⟨low, high⟩
      exact Int.bmod_eq_of_le (by omega) (by omega)
    · rintro ⟨low, high⟩
      exact Int.emod_eq_of_lt low high

theorem fitsWide_iff : fitsWide n = true ↔ InRange 16 signed n := by
  simp [fitsWide, InRange]

/-- The machine computes with integers of sixteen bytes. -/
theorem fitsWide_narrow (n : Int) : fitsWide (narrow n) = true :=
  fitsWide_iff.2 (inRange_kept (by decide : 0 < 16) true n)

/-- What the machine computes with is not narrowed. -/
theorem narrow_of_fitsWide (h : fitsWide n = true) : narrow n = n := by
  have range : InRange 16 true n := fitsWide_iff.1 h
  exact (kept_eq_iff (by decide)).2 range

/-- Below sixteen bytes an integer is wrapped to what the bytes keep of it. -/
theorem wrap_eq_kept (low : width < 16) (signed : Bool) (n : Int) :
    wrap n width signed = kept width signed n := by
  have other : ¬ width = 16 := by omega
  unfold wrap kept
  rw [if_neg (Nat.not_le.2 low)]
  cases signed <;> simp [other]

/-- An integer is wrapped by a multiple of what so many bytes count. -/
theorem wrap_emod (width : Nat) (signed : Bool) (n : Int) :
    wrap n width signed % byteRange width = n % byteRange width := by
  unfold wrap
  split
  · rfl
  · split
    · exact Int.bmod_emod
    · exact Int.emod_emod_of_dvd _ (Int.dvd_refl _)

/-- Up to sixteen bytes what the machine computes with is wrapped to what the bytes keep of it. -/
theorem wrap_eq_kept_of_fitsWide (few : width ≤ 16) (signed : Bool) (wide : fitsWide n = true) :
    wrap n width signed = kept width signed n := by
  by_cases low : width < 16
  · exact wrap_eq_kept low signed n
  · obtain rfl : width = 16 := by omega
    exact ((kept_eq_iff (by decide)).2 (fitsWide_iff.1 wide)).symm

/-- A wrapped integer is in range; one of sixteen bytes has to be to begin with. -/
theorem inRange_wrap (valid : ByteOrder.isIntWidth width = true) (signed : Bool)
    (wide : width = 16 → fitsWide n = true) : InRange width signed (wrap n width signed) := by
  simp only [ByteOrder.isIntWidth, Bool.or_eq_true, decide_eq_true_eq] at valid
  by_cases sixteen : width = 16
  · subst sixteen
    exact fitsWide_iff.1 (wide rfl)
  · rw [wrap_eq_kept (by omega)]
    exact inRange_kept (by omega) signed n

/-- Wrapping keeps to what the machine computes with. -/
theorem fitsWide_wrap (h : fitsWide n = true) (width : Nat) (signed : Bool) :
    fitsWide (wrap n width signed) = true := by
  unfold wrap
  split
  · exact h
  · next narrow =>
    have pos := byteRange_pos width
    have less : byteRange width ≤ twoPow 127 := twoPow_le_twoPow (by omega)
    simp only [fitsWide, Bool.and_eq_true, decide_eq_true_eq]
    split
    · have low := Int.le_bmod (x := n) pos
      have high := Int.bmod_lt (x := n) pos
      omega
    · have low := Int.emod_nonneg n (Int.ofNat_ne_zero.2 (Nat.pos_iff_ne_zero.1 pos))
      have high := Int.emod_lt_of_pos n (Int.natCast_pos.2 pos)
      omega

/-- A float is cut to an integer of sixteen bytes. -/
theorem Binary64.fitsWide_toInt (x : Binary64) : fitsWide x.toInt = true := by
  have pos : 0 < twoPow 127 := twoPow_pos _
  simp only [fitsWide, Bool.and_eq_true, decide_eq_true_eq]
  unfold toInt
  split
  · omega
  · split
    · split <;> omega
    · split <;> omega

/-- What so many bytes can show, sixteen can. -/
theorem InRange.fitsWide (h : InRange width signed n) (low : 0 < width) (high : width ≤ 16) :
    fitsWide n = true := by
  have half := byteRange_eq_two_mul low
  have grows : twoPow (8 * width - 1) ≤ twoPow 127 := twoPow_le_twoPow (by omega)
  simp only [Number.fitsWide, Bool.and_eq_true, decide_eq_true_eq]
  unfold InRange at h
  split at h
  · omega
  · next unsigned =>
    simp only [Bool.or_eq_true, decide_eq_true_eq, not_or] at unsigned
    have less : byteRange width ≤ twoPow 127 := twoPow_le_twoPow (by omega)
    omega

end Number

/-! ### Types -/

/-- The scalars that hold integers. -/
def Scalar.isIntegral (s : Scalar) : Bool := s.isArithmetic && !s.isFloat

theorem Scalar.isIntegral_iff {s : Scalar} : s.isIntegral = true ↔ s ≠ .any ∧ s.isFloat = false := by
  simp only [isIntegral, isArithmetic, Bool.and_eq_true, bne_iff_ne, Bool.not_eq_true']

/-- The width in bytes of the integers of a type and whether they have a sign, for integral scalars
and pointers. -/
def Ty.integers? (word : Nat) : Ty → Option (Nat × Bool)
  | .scalar s => if s = .any || s.isFloat then none else some (s.size word, s.isSigned)
  | .pointer _ => some (word, false)
  | _ => none

/-- The integer is in the range of the type, if that has one. -/
def Ty.Holds (word : Nat) (t : Ty) (n : Int) : Prop :=
  ∀ width signed, t.integers? word = some (width, signed) → InRange width signed n

theorem Scalar.isIntWidth_size {word : Nat} (h : Catalog.isWordSize word = true) {s : Scalar}
    (sized : s ≠ .any) (integral : s.isFloat = false) : ByteOrder.isIntWidth (s.size word) = true := by
  simp only [Catalog.isWordSize, Bool.or_eq_true, decide_eq_true_eq] at h
  rcases h with (rfl | rfl) | rfl <;> revert sized integral <;> cases s <;> decide

theorem Ty.integers?_scalar {word width : Nat} {signed : Bool} {s : Scalar}
    (kind : (scalar s).integers? word = some (width, signed)) :
    s ≠ .any ∧ s.isFloat = false ∧ width = s.size word ∧ signed = s.isSigned := by
  by_cases other : (decide (s = .any) || s.isFloat) = true
  · rw [integers?, if_pos other] at kind
    cases kind
  · rw [integers?, if_neg other] at kind
    simp only [Bool.or_eq_true, decide_eq_true_eq, not_or, Bool.not_eq_true] at other
    cases kind
    exact ⟨other.1, other.2, rfl, rfl⟩

theorem Ty.integers?_of_isIntegral (word : Nat) {s : Scalar} (integral : s.isIntegral = true) :
    (scalar s).integers? word = some (s.size word, s.isSigned) := by
  obtain ⟨sized, whole⟩ := Scalar.isIntegral_iff.1 integral
  have other : ¬ (decide (s = .any) || s.isFloat) = true := by simp [sized, whole]
  exact if_neg other

theorem Ty.isIntWidth_of_integers? {word : Nat} (h : Catalog.isWordSize word = true) {t : Ty}
    {width : Nat} {signed : Bool} (kind : t.integers? word = some (width, signed)) :
    ByteOrder.isIntWidth width = true := by
  cases t with
  | scalar s =>
    obtain ⟨sized, integral, rfl, -⟩ := integers?_scalar kind
    exact Scalar.isIntWidth_size h sized integral
  | pointer =>
    cases kind
    exact ByteOrder.isIntWidth_word h
  | _ => cases kind

theorem ByteOrder.isIntWidth_bounds {width : Nat} (valid : isIntWidth width = true) :
    0 < width ∧ width ≤ 16 := by
  simp only [isIntWidth, Bool.or_eq_true, decide_eq_true_eq] at valid
  omega

/-! ### Bytes -/

namespace ByteOrder

/-- A number reads back as what its bytes keep of it. -/
theorem decodeInt_of_encodeInt {o : ByteOrder} {value : Int} {width : Nat} {bs : List UInt8}
    (e : o.encodeInt value width = .ok bs) (signed : Bool) :
    o.decodeInt bs signed = .ok (kept width signed value) := by
  unfold encodeInt at e
  split at e
  · next valid =>
    cases e
    have pos : (0 : Int) < byteRange width := by exact_mod_cast byteRange_pos width
    have digits : ((Bytes.toNat (Bytes.ofNat width (value % byteRange width).toNat) : Nat) : Int) =
        value % byteRange width := by
      have low := Int.emod_nonneg value (Int.ne_of_gt pos)
      have high := Int.emod_lt_of_pos value pos
      rw [Bytes.toNat_ofNat, Nat.mod_eq_of_lt (by omega), Int.toNat_of_nonneg low]
    simp only [decodeInt, length_arrange, Bytes.length_ofNat, valid, if_true, arrange_arrange,
      digits, kept, Int.emod_bmod]
  · cases e

/-- Wrapped to a width or not, a number has the same bytes there. -/
theorem encodeInt_wrap (o : ByteOrder) (value : Int) (width : Nat) (signed : Bool) :
    o.encodeInt (wrap value width signed) width = o.encodeInt value width := by
  unfold encodeInt
  rw [wrap_emod]

/-- What some bytes read as is in the range of their width. -/
theorem inRange_of_decodeInt {o : ByteOrder} {bs : List UInt8} {signed : Bool} {n : Int}
    (e : o.decodeInt bs signed = .ok n) : InRange bs.length signed n := by
  unfold decodeInt at e
  split at e
  · next valid =>
    have pos := (isIntWidth_bounds valid).1
    have high := Bytes.toNat_lt (o.arrange bs)
    rw [length_arrange] at high
    have whole : n = kept bs.length signed (Bytes.toNat (o.arrange bs)) := by
      cases e
      unfold kept
      split
      · rfl
      · exact (Int.emod_eq_of_lt (Int.natCast_nonneg _) (by exact_mod_cast high)).symm
    rw [whole]
    exact inRange_kept pos signed _
  · cases e

end ByteOrder

namespace Literal

/-- A byte is in the range of characters. -/
theorem inRange_signedByte (b : UInt8) : InRange 1 true (signedByte b) :=
  inRange_wrap (by decide) true fun other => nomatch other

end Literal

/-- What storage of a type keeps of a value of a kind that it takes: of an integer what its bytes can
show, as a character the lowest byte, and of a type all. -/
def Ty.kept? (word : Nat) : Ty → Literal → Option Literal
  | .scalar .char, v => v.toInteger?.map fun n => .char (UInt8.ofNat (n % 256).toNat)
  | .scalar s, v => v.toInteger?.map fun n => .integer (kept (s.size word) s.isSigned n)
  | .pointer _, v => v.toInteger?.map fun n => .integer (n % byteRange word)
  | .descriptor, .type t => some (.type t)
  | _, _ => none

namespace Memory

variable {m n : Memory} {c : Catalog} {o : ByteOrder} {a : Nat} {t : Ty} {v w : Literal} {k : Int}
  {width : Nat} {signed : Bool} {bs : List UInt8}

/-- What was stored is read from the bytes that were made of it. -/
theorem load_eq_decode (plain : t.isReference = false) (e : m.store c a t v = .ok n) :
    ∃ bs, encode m.order c v t = .ok bs ∧ n.load c a t = decode m.order c bs t := by
  obtain ⟨bs, encoded, written⟩ := bind_eq_ok.1 e
  have found : n.read a (c.size t) = .ok bs := length_encode plain encoded ▸ read_write written
  exact ⟨bs, encoded, by rw [load_eq plain found, (write_eq_ok written).2]⟩

/-- At a type of integers, the bytes of an integer are those of its width. -/
theorem encode_integer (kind : t.integers? c.word = some (width, signed))
    (whole : v.toInteger? = some k) : encode o c v t = o.encodeInt k width := by
  cases t with
  | scalar s =>
    obtain ⟨sized, integral, rfl, rfl⟩ := Ty.integers?_scalar kind
    simp only [encode, sized, integral, whole, if_false, Bool.false_eq_true,
      ByteOrder.encodeInt_wrap]
  | pointer =>
    cases kind
    simp only [encode, whole]
  | _ => cases kind

/-- Exactly the integers have bytes at such a type. -/
theorem encode_integer_isOk (word : Catalog.isWordSize c.word = true)
    (kind : t.integers? c.word = some (width, signed)) :
    (∃ bs, encode o c v t = .ok bs) ↔ v.toInteger?.isSome = true := by
  cases k : v.toInteger? with
  | some i =>
    rw [encode_integer kind k]
    exact ⟨fun _ => rfl, fun _ => ⟨_, if_pos (Ty.isIntWidth_of_integers? word kind)⟩⟩
  | none =>
    cases t with
    | scalar s =>
      obtain ⟨sized, integral, -⟩ := Ty.integers?_scalar kind
      simp [encode, sized, integral, k]
    | pointer => simp [encode, k]
    | _ => cases kind

/-- The bytes of an integer are read as what its type keeps of it. -/
theorem decode_encode_integer (word : Catalog.isWordSize c.word = true)
    (kind : t.integers? c.word = some (width, signed)) (whole : v.toInteger? = some k)
    (e : encode o c v t = .ok bs) : ∃ w, t.kept? c.word v = some w ∧ decode o c bs t = .ok w := by
  rw [encode_integer kind whole] at e
  have decoded := ByteOrder.decodeInt_of_encodeInt e signed
  cases t with
  | pointer target =>
    cases kind
    have few := (Catalog.isWordSize_bounds word).2
    have other : ¬ c.word = 16 := by omega
    simp only [kept, other, Bool.false_or, decide_false, Bool.false_eq_true, if_false] at decoded
    refine ⟨_, by rw [Ty.kept?, whole, Option.map_some], ?_⟩
    rw [decode, decoded]
    rfl
  | scalar s =>
    obtain ⟨sized, integral, rfl, rfl⟩ := Ty.integers?_scalar kind
    cases s with
    | any => exact absurd rfl sized
    | float | double => cases integral
    | char =>
      -- A character is read as its byte, which is the lowest one of the integer.
      refine ⟨_, by rw [Ty.kept?, whole, Option.map_some], ?_⟩
      have byte : bs = [UInt8.ofNat (k % 256).toNat] := by
        have one : o.arrange (Bytes.ofNat 1 (k % (256 : Nat)).toNat) = bs := by
          cases e
          rfl
        rw [← one]
        have low := Int.emod_lt_of_pos k (show (0 : Int) < 256 by decide)
        have same : (k % 256).toNat % 256 = (k % 256).toNat := Nat.mod_eq_of_lt (by omega)
        cases o <;> simp [ByteOrder.arrange, Bytes.ofNat, same]
      rw [byte]
      rfl
    | _ =>
      refine ⟨_, by rw [Ty.kept?, whole, Option.map_some]; simp, ?_⟩
      simp only [decode, decoded, integral]
      rfl
  | _ => cases kind

/-- An integer that is read is in the range of its type. -/
theorem holds_of_load (plain : t.isReference = false)
    (e : m.load c a t = .ok (.integer k)) : t.Holds c.word k ∧ fitsWide k = true := by
  have read {bs : List UInt8} {length : Nat} {signed : Bool} (found : m.read a length = .ok bs)
      (decoded : m.order.decodeInt bs signed = .ok k) :
      InRange length signed k ∧ fitsWide k = true := by
    have range := ByteOrder.inRange_of_decodeInt decoded
    have valid : ByteOrder.isIntWidth bs.length = true := by
      unfold ByteOrder.decodeInt at decoded
      split at decoded
      · assumption
      · cases decoded
    obtain ⟨low, high⟩ := ByteOrder.isIntWidth_bounds valid
    rw [(read_iff.1 found).2.1] at range low high
    exact ⟨range, range.fitsWide low high⟩
  fun_induction load m c a t with
  | case1 => cases plain
  | case2 | case5 => cases e
  | case3 =>
    obtain ⟨bytes, -, e⟩ := bind_eq_ok.1 e
    split at e
    · obtain ⟨u, -, made⟩ := map_eq_ok.1 e
      cases made
    · cases e
  | case4 =>
    obtain ⟨bytes, found, e⟩ := bind_eq_ok.1 e
    obtain ⟨n, decoded, e⟩ := bind_eq_ok.1 e
    cases e
    obtain ⟨range, wide⟩ := read found decoded
    refine ⟨fun width signed kind => ?_, wide⟩
    cases kind
    exact range
  | case6 =>
    obtain ⟨bytes, -, e⟩ := bind_eq_ok.1 e
    split at e <;> cases e
  | case7 _ s =>
    obtain ⟨bytes, found, e⟩ := bind_eq_ok.1 e
    split at e
    · obtain ⟨x, -, e⟩ := bind_eq_ok.1 e
      cases e
    · obtain ⟨n, decoded, e⟩ := bind_eq_ok.1 e
      cases e
      obtain ⟨range, wide⟩ := read found decoded
      refine ⟨fun width signed kind => ?_, wide⟩
      obtain ⟨-, -, rfl, rfl⟩ := Ty.integers?_scalar kind
      exact range

end Memory

/-! ### Arithmetic -/

namespace Arithmetic

variable {word : Nat} {op : Operator} {l r v : Literal} {lt rt t : Ty}

/-- A value that is computed: a float of a scalar type, or an integer in the range of its type. -/
def Computed (word : Nat) (v : Literal) (t : Ty) : Prop :=
  (∃ x s, v = .float x ∧ t = .scalar s) ∨ ∃ n, v = .integer n ∧ fitsWide n = true ∧ t.Holds word n

/-- An integer that is wrapped to the width of its type. -/
theorem computed_wrap (h : Catalog.isWordSize word = true) {n : Int} (wide : fitsWide n = true)
    {s : Scalar} (arithmetic : s.isArithmetic = true) (integral : s.isFloat = false) :
    Computed word (.integer (wrap n (s.size word) s.isSigned)) (.scalar s) := by
  have sized : s ≠ .any := by simpa [Scalar.isArithmetic] using arithmetic
  have valid := Scalar.isIntWidth_size h sized integral
  obtain ⟨low, high⟩ := ByteOrder.isIntWidth_bounds valid
  have range := inRange_wrap valid s.isSigned fun _ => wide
  refine .inr ⟨_, rfl, range.fitsWide low high, fun width signed kind => ?_⟩
  obtain ⟨-, -, rfl, rfl⟩ := Ty.integers?_scalar kind
  exact range

theorem fitsWide_integers {a b n : Int} (e : integers op a b = .ok n) : fitsWide n = true := by
  unfold integers at e
  split at e
  · cases e
    exact fitsWide_narrow _
  · cases e
    exact fitsWide_narrow _
  · cases e
    exact fitsWide_narrow _
  · split at e <;> cases e
    exact fitsWide_narrow _
  · split at e <;> cases e
    exact fitsWide_narrow _

theorem scalar?_eq_some {t : Ty} {s : Scalar} (e : scalar? t = some s) : s.isArithmetic = true := by
  obtain ⟨-, arithmetic⟩ := Option.filter_eq_some_iff.1 e
  exact arithmetic

theorem numbers_computed (h : Catalog.isWordSize word = true)
    (e : numbers word op l lt r rt = .ok (v, t)) : Computed word v t ∧ ∃ s, t = .scalar s := by
  unfold numbers at e
  split at e
  · next p q left right =>
    split at e
    · split at e <;> cases e
      exact ⟨.inl ⟨_, _, rfl, rfl⟩, _, rfl⟩
    · next integral =>
      split at e
      · obtain ⟨n, computed, e⟩ := bind_eq_ok.1 e
        cases e
        simp only [Bool.or_eq_true, not_or, Bool.not_eq_true] at integral
        -- The wider type is one of the two operands' or `int`.
        have promoted : (promote word p q).isArithmetic = true ∧
            (promote word p q).isFloat = false := by
          have int : Scalar.int.isArithmetic = true ∧ Scalar.int.isFloat = false := ⟨rfl, rfl⟩
          have first := And.intro (scalar?_eq_some left) integral.1
          have second := And.intro (scalar?_eq_some right) integral.2
          unfold promote
          dsimp only
          by_cases wide : outranks word p .int = true
          · rw [if_pos wide]
            split
            · exact second
            · exact first
          · rw [if_neg wide]
            split
            · exact second
            · exact int
        exact ⟨computed_wrap h (fitsWide_integers computed) promoted.1 promoted.2, _, rfl⟩
      · cases e
  · cases e

theorem inRange_word (h : Catalog.isWordSize word = true) (signed : Bool) (n : Int) :
    InRange word signed (wrap n word signed) ∧ fitsWide (wrap n word signed) = true := by
  obtain ⟨low, high⟩ := Catalog.isWordSize_bounds h
  have range := inRange_wrap (ByteOrder.isIntWidth_word h) signed (n := n) fun wide => by omega
  exact ⟨range, range.fitsWide low (by omega)⟩

/-- A pointer that is moved keeps its type. -/
theorem offset_computed (h : Catalog.isWordSize word = true) (pointer : lt.isPointer = true)
    (e : offset word op l lt r rt = .ok (v, t)) : Computed word v t ∧ t = lt := by
  unfold offset refused at e
  split at e
  · cases e
  · split at e
    · cases e
    · split at e <;> cases e
      obtain ⟨range, wide⟩ := inRange_word h false _
      refine ⟨.inr ⟨_, rfl, wide, fun width signed kind => ?_⟩, rfl⟩
      cases lt with
      | pointer =>
        cases kind
        exact range
      | scalar => cases pointer
      | _ => cases kind

theorem distance_computed (h : Catalog.isWordSize word = true)
    (e : distance word op l lt r = .ok (v, t)) : Computed word v t ∧ t = Ty.int := by
  unfold distance refused at e
  split at e
  · cases e
  · split at e
    · cases e
      obtain ⟨range, wide⟩ := inRange_word h true _
      refine ⟨.inr ⟨_, rfl, wide, fun width signed kind => ?_⟩, rfl⟩
      cases kind
      exact range
    · cases e

/-- An operator gives a float or an integer in the range of its type, which is a scalar or the type
of a pointer it was given. -/
theorem apply_computed (h : Catalog.isWordSize word = true)
    (e : apply word op l lt r rt = .ok (v, t)) :
    Computed word v t ∧ (t = lt ∨ t = rt ∨ ∃ s, t = .scalar s) := by
  unfold apply at e
  split at e
  · obtain ⟨computed, rfl⟩ := distance_computed h e
    exact ⟨computed, .inr (.inr ⟨_, rfl⟩)⟩
  · next left _ =>
    obtain ⟨computed, rfl⟩ := offset_computed h left e
    exact ⟨computed, .inl rfl⟩
  · next right =>
    split at e
    · obtain ⟨computed, rfl⟩ := offset_computed h right e
      exact ⟨computed, .inr (.inl rfl)⟩
    · cases e
  · obtain ⟨computed, s, rfl⟩ := numbers_computed h e
    exact ⟨computed, .inr (.inr ⟨s, rfl⟩)⟩

end Arithmetic

end ByteMachine
