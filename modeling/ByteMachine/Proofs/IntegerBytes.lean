import ByteMachine.Proofs.Ranges

/-!
# Integers and their bytes

Writing an integer and reading it back wraps it to the width of its bytes, and reading bytes and
writing the integer gives the bytes again, at every width and in both orders; the one order is the
other one turned around. Below sixteen bytes the wrapped integer is the only one in range that is
congruent to what was written. A processor finds it by a mask and the highest bit that the mask
leaves, which is what `Number.masked` does on words of 128 bits.

Key definitions: `Number.masked`.
Key theorems: `Number.eq_wrap_iff`, `Number.toInt_masked`, `Bytes.ofNat_toNat`,
`ByteOrder.encodeInt_of_decodeInt`, `ByteOrder.encodeInt_big`, `ByteOrder.integers_round_trip`.
-/

namespace ByteMachine

open Number

namespace Number

variable {width : Nat} {signed : Bool} {n v : Int}

/-! ### The only integer in range -/

/-- Two integers in range that agree modulo what so many bytes count are the same. -/
theorem InRange.eq_of_emod_eq {m : Int} (pos : 0 < width) (first : InRange width signed m)
    (second : InRange width signed n) (same : m % byteRange width = n % byteRange width) : m = n := by
  rw [← (kept_eq_iff pos).2 first, ← (kept_eq_iff pos).2 second]
  unfold kept
  split
  · rw [← Int.emod_bmod m, same, Int.emod_bmod]
  · exact same

/-- The wrapped integer is the only one in range that is congruent to the integer. -/
theorem eq_wrap_iff (pos : 0 < width) (low : width < 16) :
    n = wrap v width signed ↔
      InRange width signed n ∧ n % byteRange width = v % byteRange width := by
  have range : InRange width signed (wrap v width signed) :=
    wrap_eq_kept low signed v ▸ inRange_kept pos signed v
  constructor
  · rintro rfl
    exact ⟨range, wrap_emod width signed v⟩
  · rintro ⟨inside, congruent⟩
    exact inside.eq_of_emod_eq pos range (congruent.trans (wrap_emod width signed v).symm)

/-! ### The same on words of 128 bits -/

/-- The lowest bytes of a word of 128 bits. With a sign, the highest bit that is left counts
negatively. -/
def masked (v : BitVec 128) (width : Nat) (signed : Bool) : BitVec 128 :=
  if 16 ≤ width then v
  else
    let bits := 8 * width
    let low := v &&& ((1#128 <<< bits) - 1#128)
    if signed && low &&& (1#128 <<< (bits - 1)) != 0#128 then low - (1#128 <<< bits) else low

theorem toNat_one_shiftLeft {k : Nat} (few : k < 128) : (1#128 <<< k).toNat = twoPow k := by
  have less : twoPow k < twoPow 128 := Nat.pow_lt_pow_right (by decide) few
  rw [BitVec.toNat_shiftLeft, Nat.shiftLeft_eq]
  show 1 * twoPow k % twoPow 128 = twoPow k
  rw [Nat.one_mul, Nat.mod_eq_of_lt less]

/-- The mask leaves the remainder. -/
theorem toNat_and_mask {k : Nat} (few : k < 128) (x : BitVec 128) :
    (x &&& ((1#128 <<< k) - 1#128)).toNat = x.toNat % twoPow k := by
  have pos := twoPow_pos k
  have mask : ((1#128 <<< k) - 1#128).toNat = twoPow k - 1 := by
    rw [BitVec.toNat_sub_of_le (BitVec.le_def.2 (by rw [toNat_one_shiftLeft few]; exact pos)),
      toNat_one_shiftLeft few]
    rfl
  rw [BitVec.toNat_and, mask]
  exact Nat.and_two_pow_sub_one_eq_mod _ _

/-- The highest of so many bits is set in the upper half of the numbers they show. -/
theorem and_bit_eq_zero_iff {k : Nat} (few : k < 128) {x : BitVec 128}
    (h : x.toNat < 2 * twoPow k) : x &&& (1#128 <<< k) = 0#128 ↔ x.toNat < twoPow k := by
  have pos := twoPow_pos k
  have bit : x.getLsbD k = decide (twoPow k ≤ x.toNat) := by
    have two : x.toNat / twoPow k < 2 := Nat.div_lt_of_lt_mul (Nat.mul_comm 2 _ ▸ h)
    have upper : x.toNat / twoPow k = 1 ↔ twoPow k ≤ x.toNat := by
      rw [← Nat.one_le_div_iff pos]
      omega
    rw [BitVec.getLsbD, Nat.testBit_eq_decide_div_mod_eq]
    show decide (x.toNat / twoPow k % 2 = 1) = _
    rw [Nat.mod_eq_of_lt two]
    exact decide_eq_decide.2 upper
  have some : 1#128 <<< k ≠ 0#128 := fun none => by
    have zero := congrArg BitVec.toNat none
    rw [toNat_one_shiftLeft few] at zero
    exact Nat.ne_of_gt pos zero
  rw [← BitVec.twoPow_eq, BitVec.and_twoPow, bit]
  by_cases upper : twoPow k ≤ x.toNat <;> simp [upper, BitVec.twoPow_eq, some]
  omega

/-- A word below the middle counts as what it is without a sign. -/
theorem toInt_eq_toNat_of_le {x : BitVec 128} (h : x.toNat ≤ twoPow 64) : x.toInt = x.toNat := by
  have less : 2 * twoPow 64 < twoPow 128 := by decide
  exact BitVec.toInt_eq_toNat_of_lt (show 2 * x.toNat < twoPow 128 by omega)

/-- The mask and the highest bit give the wrapped integer. -/
theorem toInt_masked (valid : ByteOrder.isIntWidth width = true) (wide : fitsWide v = true) :
    (masked (BitVec.ofInt 128 v) width signed).toInt = wrap v width signed := by
  unfold masked
  split
  · next high =>
    rw [wrap, if_pos high, BitVec.toInt_ofInt]
    exact narrow_of_fitsWide wide
  · next high =>
    have few : 8 * width ≤ 64 := by
      simp only [ByteOrder.isIntWidth, Bool.or_eq_true, decide_eq_true_eq] at valid
      omega
    have pos := (ByteOrder.isIntWidth_bounds valid).1
    have less : byteRange width ≤ twoPow 64 := twoPow_le_twoPow few
    rw [wrap_eq_kept (Nat.not_le.1 high)]
    extract_lets bits low
    have half : byteRange width = 2 * twoPow (bits - 1) := byteRange_eq_two_mul pos
    have lowest : (low.toNat : Int) = v % byteRange width := by
      have dvd : byteRange width ∣ twoPow 128 := Nat.pow_dvd_pow 2 (by omega)
      rw [toNat_and_mask (by omega), BitVec.toNat_ofInt, Int.natCast_emod,
        Int.toNat_of_nonneg (Int.emod_nonneg v (by decide))]
      exact Int.emod_emod_of_dvd v (Int.natCast_dvd_natCast.2 dvd)
    have lt : low.toNat < byteRange width := by
      have high := Int.emod_lt_of_pos v (Int.natCast_pos.2 (byteRange_pos width))
      omega
    have plain : low.toInt = v % byteRange width := by
      rw [toInt_eq_toNat_of_le (by omega), lowest]
    have bound : (1#128 <<< bits).toInt = byteRange width := by
      have number : (1#128 <<< bits).toNat = byteRange width := toNat_one_shiftLeft (by omega)
      rw [toInt_eq_toNat_of_le (by omega), number]
    have upper : low &&& (1#128 <<< (bits - 1)) = 0#128 ↔ low.toNat < twoPow (bits - 1) :=
      and_bit_eq_zero_iff (by omega) (by omega)
    cases signed with
    | false =>
      have other : ¬ width = 16 := by omega
      simp [kept, other, plain]
    | true =>
      simp only [kept, Bool.true_and, bne_iff_ne, ne_eq, upper, Bool.true_or, if_true, Int.bmod_def]
      split
      · rw [BitVec.toInt_sub, plain, bound, if_neg (by omega)]
        have small : twoPow 64 < twoPow 127 := by decide
        exact narrow_of_fitsWide (by
          simp only [fitsWide, Bool.and_eq_true, decide_eq_true_eq]
          omega)
      · rw [plain, if_pos (by omega)]

end Number

/-! ### Bytes -/

/-- The digits of a number that was read from digits. -/
theorem Bytes.ofNat_toNat (bs : List UInt8) : ofNat bs.length (toNat bs) = bs := by
  induction bs with
  | nil => rfl
  | cons b bs ih =>
    have byte : b.toNat < 256 := b.toNat_lt
    have digit : (b.toNat + 256 * toNat bs) % 256 = b.toNat := by omega
    have rest : (b.toNat + 256 * toNat bs) / 256 = toNat bs := by omega
    simp only [List.length_cons, toNat, ofNat, digit, rest, ih, UInt8.ofNat_toNat]

namespace ByteOrder

variable {o : ByteOrder} {width : Nat} {signed : Bool} {v : Int} {bs : List UInt8}

/-- Every integer has bytes at these widths. -/
theorem encodeInt_of_valid (valid : isIntWidth width = true) (o : ByteOrder) (v : Int) :
    ∃ bs, o.encodeInt v width = .ok bs :=
  ⟨_, if_pos valid⟩

/-- What is read from so many bytes is written as these bytes again. -/
theorem encodeInt_of_decodeInt (e : o.decodeInt bs signed = .ok v) :
    o.encodeInt v bs.length = .ok bs := by
  unfold decodeInt at e
  split at e
  · next valid =>
    have high := Bytes.toNat_lt (o.arrange bs)
    rw [length_arrange] at high
    -- With a sign or without, the integer is congruent to the number of the digits.
    have digits : v % byteRange bs.length = Bytes.toNat (o.arrange bs) := by
      cases e
      split
      · rw [Int.bmod_emod]
        exact Int.emod_eq_of_lt (Int.natCast_nonneg _) (by exact_mod_cast high)
      · exact Int.emod_eq_of_lt (Int.natCast_nonneg _) (by exact_mod_cast high)
    have back := Bytes.ofNat_toNat (o.arrange bs)
    rw [length_arrange] at back
    rw [encodeInt, if_pos valid, digits, Int.toNat_natCast, back, arrange_arrange]
  · cases e

/-- The bytes of an integer in the one order are those in the other order turned around. -/
theorem encodeInt_big (v : Int) (width : Nat) :
    big.encodeInt v width = (little.encodeInt v width).map List.reverse := by
  unfold encodeInt
  split <;> rfl

/-- At every width of an integer, in both orders and with a sign or without, each integer of 128 bits
is read back from its bytes as wrapped to the width, which is what the mask and the highest bit give
and, below sixteen bytes, the only integer in range that is congruent to it; all bytes are written
again as they were read; and the bytes of the one order are those of the other turned around. -/
theorem integers_round_trip (valid : isIntWidth width = true) (o : ByteOrder) (signed : Bool) :
    (∀ v : Int, fitsWide v = true →
      (∃ bs, o.encodeInt v width = .ok bs ∧ bs.length = width ∧
        o.decodeInt bs signed = .ok (wrap v width signed)) ∧
      (masked (BitVec.ofInt 128 v) width signed).toInt = wrap v width signed ∧
      (width < 16 → ∀ n, n = wrap v width signed ↔
        InRange width signed n ∧ n % byteRange width = v % byteRange width) ∧
      big.encodeInt v width = (little.encodeInt v width).map List.reverse) ∧
    ∀ bs : List UInt8, bs.length = width →
      ∃ v, o.decodeInt bs signed = .ok v ∧ fitsWide v = true ∧
        o.encodeInt v width = .ok bs := by
  obtain ⟨pos, few⟩ := isIntWidth_bounds valid
  refine ⟨fun v wide => ⟨?_, toInt_masked valid wide, fun low n => eq_wrap_iff pos low,
    encodeInt_big v width⟩, ?_⟩
  · obtain ⟨bs, written⟩ := encodeInt_of_valid valid o v
    have read := decodeInt_of_encodeInt written signed
    rw [← wrap_eq_kept_of_fitsWide few signed wide] at read
    exact ⟨bs, written, length_encodeInt written, read⟩
  · rintro bs rfl
    obtain ⟨v, read⟩ : ∃ v, o.decodeInt bs signed = .ok v := ⟨_, if_pos valid⟩
    exact ⟨v, read, (inRange_of_decodeInt read).fitsWide pos few, encodeInt_of_decodeInt read⟩

/-- Two bytes of the integer -2, the lower one behind. -/
theorem integers_round_trip_minus_two :
    isIntWidth 2 = true ∧ fitsWide (-2) = true ∧ big.encodeInt (-2) 2 = .ok [0xff, 0xfe] ∧
      big.decodeInt [0xff, 0xfe] true = .ok (wrap (-2) 2 true) ∧
      (masked (BitVec.ofInt 128 (-2)) 2 false).toInt = 65534 := by
  have two : isIntWidth 2 = true := rfl
  obtain ⟨bs, written, -, read⟩ := ((integers_round_trip two big true).1 (-2) rfl).1
  obtain ⟨-, word, -⟩ := (integers_round_trip two big false).1 (-2) rfl
  cases written
  exact ⟨rfl, rfl, rfl, read, word⟩

end ByteOrder

end ByteMachine
