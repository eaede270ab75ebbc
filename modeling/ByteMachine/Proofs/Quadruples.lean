import ByteMachine.Number.Binary64
import ByteMachine.Number.Binary128

/-!
# Doubles in quadruple precision

A pattern is three fields side by side: a sign, an exponent and a fraction. Widened to quadruple
precision a double keeps its sign, its exponent is moved by the difference of the biases and its
fraction gets more digits at the end; only a subnormal one is shifted until its leading one is hidden.
Cut back to double precision each field is what it was. A NaN alone may change: it comes back quiet.

Key definitions: `Number.packed`, `Binary64.isSignalling`, `Binary64.quiet`, `Binary128.Widens`,
`Binary128.cutBack`.
Key theorems: `Number.packed_fields`, `Number.leading_one`, `Binary128.ofDouble_packed`, `Binary128.Widens.cutBack_eq`,
`Binary128.ofDouble_lt`, `Binary128.toDouble_ofDouble`.
-/

namespace ByteMachine.Number

/-! ### Fields -/

/-- The pattern with the given sign, exponent and fraction, of which the last two have so many bits. -/
def packed (exponentBits fractionBits sign exponent fraction : Nat) : Nat :=
  sign * twoPow (exponentBits + fractionBits) + exponent * twoPow fractionBits + fraction

section

variable {exponentBits fractionBits sign exponent fraction : Nat}

variable (sign) in
/-- The fields of a pattern are read back. -/
theorem packed_fields (low : exponent < twoPow exponentBits) (few : fraction < twoPow fractionBits) :
    let pattern := packed exponentBits fractionBits sign exponent fraction
    pattern / twoPow (exponentBits + fractionBits) = sign ∧
      pattern / twoPow fractionBits % twoPow exponentBits = exponent ∧
      pattern % twoPow fractionBits = fraction := by
  intro pattern
  have some := twoPow_pos fractionBits
  have whole : pattern =
      (sign * twoPow exponentBits + exponent) * twoPow fractionBits + fraction := by
    show sign * twoPow (exponentBits + fractionBits) + _ + _ = _
    rw [twoPow_add, Nat.add_mul, Nat.mul_assoc]
  have upper : pattern / twoPow fractionBits = sign * twoPow exponentBits + exponent := by
    rw [whole, Nat.add_comm, Nat.add_mul_div_right _ _ some, Nat.div_eq_of_lt few, Nat.zero_add]
  refine ⟨?_, ?_, ?_⟩
  · rw [Nat.add_comm exponentBits, twoPow_add, ← Nat.div_div_eq_div_mul, upper, Nat.add_comm,
      Nat.add_mul_div_right _ _ (twoPow_pos _), Nat.div_eq_of_lt low, Nat.zero_add]
  · rw [upper, Nat.add_comm, Nat.add_mul_mod_self_right, Nat.mod_eq_of_lt low]
  · rw [whole, Nat.add_comm, Nat.add_mul_mod_self_right, Nat.mod_eq_of_lt few]

/-- A pattern with a sign of one bit has one bit more than its other fields. -/
theorem packed_lt (one : sign ≤ 1) (low : exponent < twoPow exponentBits)
    (few : fraction < twoPow fractionBits) :
    packed exponentBits fractionBits sign exponent fraction <
      twoPow (exponentBits + fractionBits + 1) := by
  have upTo : (exponent + 1) * twoPow fractionBits ≤ twoPow exponentBits * twoPow fractionBits :=
    Nat.mul_le_mul_right _ low
  have most : sign * twoPow (exponentBits + fractionBits) ≤
      1 * twoPow (exponentBits + fractionBits) := Nat.mul_le_mul_right _ one
  rw [Nat.succ_mul] at upTo
  rw [Nat.one_mul] at most
  unfold packed
  rw [twoPow_succ, twoPow_add] at *
  omega

/-- A pattern is made of its fields. -/
theorem packed_of_fields (exponentBits fractionBits pattern : Nat) :
    packed exponentBits fractionBits (pattern / twoPow (exponentBits + fractionBits))
      (pattern / twoPow fractionBits % twoPow exponentBits) (pattern % twoPow fractionBits) =
        pattern := by
  have first := Nat.div_add_mod pattern (twoPow fractionBits)
  have second := Nat.div_add_mod (pattern / twoPow fractionBits) (twoPow exponentBits)
  have sign : pattern / twoPow (exponentBits + fractionBits) =
      pattern / twoPow fractionBits / twoPow exponentBits := by
    rw [Nat.add_comm, twoPow_add, Nat.div_div_eq_div_mul]
  unfold packed
  calc pattern / twoPow (exponentBits + fractionBits) * twoPow (exponentBits + fractionBits) +
          pattern / twoPow fractionBits % twoPow exponentBits * twoPow fractionBits +
          pattern % twoPow fractionBits
      = (twoPow exponentBits * (pattern / twoPow fractionBits / twoPow exponentBits) +
          pattern / twoPow fractionBits % twoPow exponentBits) * twoPow fractionBits +
          pattern % twoPow fractionBits := by
        rw [sign, twoPow_add, Nat.add_mul, ← Nat.mul_assoc, Nat.mul_comm (twoPow exponentBits)]
    _ = twoPow fractionBits * (pattern / twoPow fractionBits) + pattern % twoPow fractionBits := by
        rw [second, Nat.mul_comm]
    _ = pattern := first

end

/-- The leading one of a number is brought to a place in front of it. -/
theorem leading_one {n k : Nat} (some : n ≠ 0) (low : Nat.log2 n ≤ k) :
    twoPow k ≤ n * twoPow (k - Nat.log2 n) ∧ n * twoPow (k - Nat.log2 n) < 2 * twoPow k := by
  have lower : twoPow (Nat.log2 n) ≤ n := Nat.log2_self_le some
  have upper : n < twoPow (Nat.log2 n + 1) := Nat.lt_log2_self
  have whole : twoPow (Nat.log2 n) * twoPow (k - Nat.log2 n) = twoPow k := by
    rw [← twoPow_add, Nat.add_sub_cancel' low]
  constructor
  · rw [← whole]
    exact Nat.mul_le_mul_right _ lower
  · rw [← whole, ← Nat.mul_assoc, ← twoPow_succ]
    exact Nat.mul_lt_mul_of_pos_right upper (twoPow_pos _)

namespace Binary64

/-- A NaN whose first digit of the fraction is zero. -/
def isSignalling (x : Binary64) : Prop :=
  x.bits.toNat / twoPow 52 % twoPow 11 = 2047 ∧ 0 < x.bits.toNat % twoPow 52 ∧
    x.bits.toNat % twoPow 52 < twoPow 51

instance (x : Binary64) : Decidable x.isSignalling := inferInstanceAs (Decidable (_ ∧ _))

/-- The number with a NaN made quiet. -/
def quiet (x : Binary64) : Binary64 :=
  if x.isSignalling then ⟨x.bits + UInt64.ofNat (twoPow 51)⟩ else x

theorem quiet_of_not_signalling {x : Binary64} (h : ¬ x.isSignalling) : x.quiet = x := if_neg h

end Binary64

/-! ### Widening and cutting back -/

namespace Binary128

variable {sign exponent fraction e f : Nat}

/-- What the exponent and the fraction of a double become: those of an infinity or a NaN, of zero, of
a subnormal number, whose leading one is brought to the front and hidden, and of a normal one. -/
inductive Widens : Nat → Nat → Nat → Nat → Prop
  | special (fraction : Nat) : Widens 2047 fraction 32767 (fraction * twoPow 60)
  | zero : Widens 0 0 0 0
  | subnormal {fraction shift : Nat} (few : shift ≤ 52) (some : 1 ≤ shift)
      (front : twoPow 52 ≤ fraction * twoPow shift) (high : fraction * twoPow shift < 2 * twoPow 52) :
      Widens 0 fraction (15361 - shift) ((fraction * twoPow shift - twoPow 52) * twoPow 60)
  | normal {exponent : Nat} (fraction : Nat) (low : 1 ≤ exponent) (high : exponent < 2047) :
      Widens exponent fraction (exponent + 15360) (fraction * twoPow 60)

/-- The leading one of a subnormal fraction is brought to the front by no more places than the
fraction has. -/
theorem widens_subnormal (some : 0 < fraction) (few : fraction < twoPow 52) :
    Widens 0 fraction (15361 - (52 - Nat.log2 fraction))
      (fraction * twoPow (52 - Nat.log2 fraction) % twoPow 52 * twoPow 60) := by
  have other : fraction ≠ 0 := Nat.ne_of_gt some
  have low : Nat.log2 fraction < 52 := (Nat.log2_lt other).2 few
  obtain ⟨front, high⟩ := leading_one other (Nat.le_of_lt low)
  rw [Nat.mod_eq_sub_mod front, Nat.mod_eq_of_lt (by omega)]
  exact .subnormal (by omega) (by omega) front high

/-- The fields fit into those of a quadruple. -/
theorem Widens.lt (h : Widens exponent fraction e f) (few : fraction < twoPow 52) :
    e < twoPow 15 ∧ f < twoPow 112 := by
  have exponents : twoPow 15 = 32768 := by decide
  have front : twoPow 52 * twoPow 60 = twoPow 112 := (twoPow_add 52 60).symm
  have widen {n : Nat} (short : n < twoPow 52) : n * twoPow 60 < twoPow 112 := by
    rw [← front]
    exact Nat.mul_lt_mul_of_pos_right short (twoPow_pos _)
  cases h with
  | special => exact ⟨by omega, widen few⟩
  | zero => exact ⟨by omega, twoPow_pos _⟩
  | subnormal _ _ front high => exact ⟨by omega, widen (by omega)⟩
  | normal _ low high => exact ⟨by omega, widen few⟩

/-- Widening moves the fields one by one. -/
theorem ofDouble_packed (sign : Nat) (low : exponent < twoPow 11) (few : fraction < twoPow 52) :
    ∃ e f, Widens exponent fraction e f ∧
      ofDouble (packed 11 52 sign exponent fraction) = packed 15 112 sign e f := by
  obtain ⟨signs, exponents, fractions⟩ := packed_fields sign low few
  replace signs : packed 11 52 sign exponent fraction / twoPow 63 = sign := signs
  have most : twoPow 11 = 2048 := by decide
  unfold ofDouble
  dsimp only
  rw [signs, exponents, fractions]
  by_cases special : exponent = 2047
  · subst special
    rw [if_pos rfl, Nat.mul_comm (twoPow 112)]
    exact ⟨_, _, .special fraction, rfl⟩
  · rw [if_neg special]
    by_cases small : exponent = 0
    · subst small
      rw [if_pos rfl]
      by_cases zero : fraction = 0
      · subst zero
        refine ⟨_, _, .zero, ?_⟩
        simp [packed]
      · rw [if_neg zero]
        exact ⟨_, _, widens_subnormal (Nat.pos_of_ne_zero zero) few, rfl⟩
    · rw [if_neg small]
      exact ⟨_, _, .normal fraction (by omega) (by omega), rfl⟩

/-- What the last fields of a quadruple are cut back to, without the sign. -/
def cutBack (exponent fraction : Nat) : Nat :=
  if exponent = 32767 then
    if fraction = 0 then twoPow 52 * 2047
    else twoPow 52 * 2047 + twoPow 51 + fraction / twoPow 60 % twoPow 51
  else if exponent ≤ 15308 then 0
  else if exponent ≤ 15360 then (twoPow 52 + fraction / twoPow 60) / twoPow (15361 - exponent)
  else if 17407 ≤ exponent then twoPow 52 * 2047
  else (exponent - 15360) * twoPow 52 + fraction / twoPow 60

theorem toDouble_packed (sign : Nat) (low : e < twoPow 15) (few : f < twoPow 112) :
    toDouble (packed 15 112 sign e f) = sign * twoPow 63 + cutBack e f := by
  obtain ⟨signs, exponents, fractions⟩ := packed_fields sign low few
  replace signs : packed 15 112 sign e f / twoPow 127 = sign := signs
  unfold toDouble cutBack
  dsimp only
  rw [signs, exponents, fractions]
  repeat' split
  all_goals simp only [Nat.add_assoc, Nat.add_zero]

/-- Cutting back undoes widening, but that the first digit of the fraction of a NaN is set. -/
theorem Widens.cutBack_eq (h : Widens exponent fraction e f) (few : fraction < twoPow 52) :
    cutBack e f = exponent * twoPow 52 + fraction +
      if exponent = 2047 ∧ 0 < fraction ∧ fraction < twoPow 51 then twoPow 51 else 0 := by
  have some := twoPow_pos 60
  have halves : twoPow 52 = 2 * twoPow 51 := twoPow_succ 51
  unfold cutBack
  cases h with
  | special =>
    rw [if_pos rfl, Nat.mul_div_cancel _ some]
    by_cases zero : fraction = 0
    · have plain : ¬ ((2047 : Nat) = 2047 ∧ 0 < fraction ∧ fraction < twoPow 51) := by omega
      rw [if_neg plain, if_pos (by rw [zero, Nat.zero_mul]), zero, Nat.mul_comm, Nat.add_zero]
    · have positive : fraction * twoPow 60 ≠ 0 := Nat.mul_ne_zero zero (Nat.ne_of_gt some)
      rw [if_neg positive]
      by_cases signals : fraction < twoPow 51
      · have signalling : (2047 : Nat) = 2047 ∧ 0 < fraction ∧ fraction < twoPow 51 := by omega
        rw [if_pos signalling, Nat.mod_eq_of_lt signals]
        omega
      · have plain : ¬ ((2047 : Nat) = 2047 ∧ 0 < fraction ∧ fraction < twoPow 51) := by omega
        rw [if_neg plain, Nat.mod_eq_sub_mod (Nat.not_lt.1 signals), Nat.mod_eq_of_lt (by omega)]
        omega
  | zero => simp
  | @subnormal _ shift least most front high =>
    have plain : ¬ ((0 : Nat) = 2047 ∧ 0 < fraction ∧ fraction < twoPow 51) := by omega
    have places : 15361 - (15361 - shift) = shift := by omega
    rw [if_neg plain, if_neg (by omega), if_neg (by omega), if_pos (by omega),
      Nat.mul_div_cancel _ some, Nat.add_sub_cancel' front, places,
      Nat.mul_div_cancel _ (twoPow_pos _)]
    omega
  | normal _ low high =>
    have plain : ¬ (exponent = 2047 ∧ 0 < fraction ∧ fraction < twoPow 51) := by omega
    rw [if_neg plain, if_neg (by omega), if_neg (by omega), if_neg (by omega), if_neg (by omega),
      Nat.mul_div_cancel _ some, Nat.add_sub_cancel]
    omega

section

variable (x : Binary64)

/-- The pattern of a double has eight bytes. -/
theorem toNat_bits_lt : x.bits.toNat < byteRange 8 := x.bits.toNat_lt

/-- The fields of the pattern of a double. -/
theorem fields_of_double :
    x.bits.toNat / twoPow 63 ≤ 1 ∧ x.bits.toNat / twoPow 52 % twoPow 11 < twoPow 11 ∧
      x.bits.toNat % twoPow 52 < twoPow 52 ∧
      packed 11 52 (x.bits.toNat / twoPow 63) (x.bits.toNat / twoPow 52 % twoPow 11)
        (x.bits.toNat % twoPow 52) = x.bits.toNat := by
  have low : x.bits.toNat < twoPow 64 := toNat_bits_lt x
  have twice : twoPow 64 = 2 * twoPow 63 := twoPow_succ 63
  have one : x.bits.toNat / twoPow 63 < 2 := (Nat.div_lt_iff_lt_mul (twoPow_pos _)).2 (twice ▸ low)
  exact ⟨Nat.le_of_lt_succ one, Nat.mod_lt _ (twoPow_pos _), Nat.mod_lt _ (twoPow_pos _),
    packed_of_fields 11 52 _⟩

/-- A quadruple has sixteen bytes. -/
theorem ofDouble_lt : ofDouble x.bits.toNat < byteRange 16 := by
  obtain ⟨one, low, few, whole⟩ := fields_of_double x
  obtain ⟨e, f, widens, same⟩ := ofDouble_packed (x.bits.toNat / twoPow 63) low few
  obtain ⟨low', few'⟩ := widens.lt few
  rw [← whole, same]
  exact packed_lt one low' few'

/-- The pattern that is cut back is the one that was widened, but that the first digit of the fraction of a
NaN is set. -/
theorem toDouble_ofDouble_bits : toDouble (ofDouble x.bits.toNat) = x.bits.toNat +
    if x.isSignalling then twoPow 51 else 0 := by
  obtain ⟨-, low, few, whole⟩ := fields_of_double x
  obtain ⟨e, f, widens, same⟩ := ofDouble_packed (x.bits.toNat / twoPow 63) low few
  obtain ⟨low', few'⟩ := widens.lt few
  rw [whole] at same
  rw [same, toDouble_packed _ low' few', widens.cutBack_eq few, ← Nat.add_assoc, ← Nat.add_assoc]
  exact congrArg (· + _) whole

/-- Widened and cut back, a double is what it was, but that a NaN comes back quiet. -/
theorem toDouble_ofDouble :
    (⟨UInt64.ofNat (toDouble (ofDouble x.bits.toNat))⟩ : Binary64) = x.quiet := by
  rw [toDouble_ofDouble_bits, Binary64.quiet]
  by_cases signals : x.isSignalling
  · rw [if_pos signals, if_pos signals, UInt64.ofNat_add, UInt64.ofNat_toNat]
  · rw [if_neg signals, if_neg signals, Nat.add_zero, UInt64.ofNat_toNat]

end

end Binary128

end ByteMachine.Number
