import ByteMachine.Proofs.Quadruples
import ByteMachine.Proofs.Denotation

/-!
# Widening a double loses nothing

A double and the quadruple it is widened to stand for the same number, and every double that is a number
or infinite is cut back to its own pattern. On machine words both ways are shifts, masks and sums of
biased exponents, each of which has a range that it must not leave: the count of leading zeros less 75,
the places of a shift, the exponents in 64 bits. `Binary128.widen?` and `Binary128.cut?` compute the
patterns with these operations and give nothing where one leaves its range, which never happens.

Key definitions: `Word.shiftLeft?`, `Word.shiftRight?`, `Word.difference?`, `Word.long?`,
`Binary128.widen?`, `Binary128.cut?`.
Key theorems: `Binary128.widen?_eq`, `Binary128.cut?_eq`, `Binary128.Widens.read_eq`,
`Binary128.denoted_ofDouble`, `Binary128.lossless`.
-/

namespace ByteMachine.Number

/-! ### Operations that may leave their range -/

namespace Word

/-- A word of so many bits shifted up. What is shifted out of it is lost. -/
def shiftLeft? (bits x : Nat) (places : Int) : Option Nat :=
  if 0 ≤ places ∧ places < bits then some (x * twoPow places.toNat % twoPow bits) else none

/-- A word of so many bits shifted down. -/
def shiftRight? (bits x : Nat) (places : Int) : Option Nat :=
  if 0 ≤ places ∧ places < bits then some (x / twoPow places.toNat) else none

/-- A difference without a sign. -/
def difference? (x y : Nat) : Option Nat := if y ≤ x then some (x - y) else none

/-- The result of a sum or a difference of 64 bits with a sign. -/
def long? (n : Int) : Option Int := if -(twoPow 63) ≤ n ∧ n < twoPow 63 then some n else none

/-- An integer brought to a word of so many bits. -/
def ofInt (bits : Nat) (n : Int) : Nat := (n % twoPow bits).toNat

/-- How many bits of a word come before its leading one. -/
def leadingZeros (bits x : Nat) : Nat := if x = 0 then bits else bits - 1 - Nat.log2 x

variable {bits x y : Nat}

theorem shiftLeft?_eq {places : Int} (low : 0 ≤ places) (few : places < bits)
    (fits : x * twoPow places.toNat < twoPow bits) :
    shiftLeft? bits x places = some (x * twoPow places.toNat) := by
  rw [shiftLeft?, if_pos ⟨low, few⟩, Nat.mod_eq_of_lt fits]

/-- A single digit fits wherever it is put. -/
theorem shiftLeft?_one {places : Int} (low : 0 ≤ places) (few : places < bits) :
    shiftLeft? bits 1 places = some (twoPow places.toNat) := by
  have fits : twoPow places.toNat < twoPow bits := Nat.pow_lt_pow_right (by decide) (by omega)
  rw [shiftLeft?_eq low few (by rwa [Nat.one_mul]), Nat.one_mul]

theorem shiftRight?_eq {places : Int} (low : 0 ≤ places) (few : places < bits) :
    shiftRight? bits x places = some (x / twoPow places.toNat) := if_pos ⟨low, few⟩

theorem difference?_eq (h : y ≤ x) : difference? x y = some (x - y) := if_pos h

theorem long?_eq (n : Int) (low : -40000 ≤ n) (high : n ≤ 40000) : long? n = some n := by
  have wide : twoPow 63 = 9223372036854775808 := by decide
  exact if_pos (by omega)

theorem ofInt_natCast (fits : x < twoPow bits) : ofInt bits x = x := by
  rw [ofInt, Int.emod_eq_of_lt (Int.natCast_nonneg _) (Int.ofNat_lt.2 fits), Int.toNat_natCast]

theorem and_mask (x k : Nat) : x &&& (twoPow k - 1) = x % twoPow k :=
  Nat.and_two_pow_sub_one_eq_mod x k

/-- Digits in front of others are added to them. -/
theorem or_eq_add {k : Nat} (few : y < twoPow k) : x * twoPow k ||| y = x * twoPow k + y := by
  rw [Nat.mul_comm]
  exact (Nat.two_pow_add_eq_or_of_lt few x).symm

/-- A digit that may be there already. -/
theorem or_digit {k : Nat} (few : y < 2 * twoPow k) :
    twoPow k ||| y = twoPow k + y % twoPow k := by
  have low := Nat.mod_lt y (twoPow_pos k)
  have front : twoPow k ||| y % twoPow k = twoPow k + y % twoPow k := by
    simpa using or_eq_add (x := 1) low
  have digit : y / twoPow k < 2 := Nat.div_lt_of_lt_mul (Nat.mul_comm 2 _ ▸ few)
  have whole := Nat.div_add_mod' y (twoPow k)
  obtain none | one : y / twoPow k = 0 ∨ y / twoPow k = 1 := Nat.le_one_iff_eq_zero_or_eq_one.1
    (Nat.le_of_lt_succ digit)
  · rw [none, Nat.zero_mul, Nat.zero_add] at whole
    rw [whole] at front ⊢
    exact front
  · rw [one, Nat.one_mul, ← front] at whole
    calc twoPow k ||| y = twoPow k ||| (twoPow k ||| y % twoPow k) := by rw [whole]
      _ = twoPow k ||| y % twoPow k := by rw [← Nat.or_assoc, Nat.or_self]
      _ = twoPow k + y % twoPow k := front

/-- Fields are put side by side. -/
theorem or_fields {exponentBits fractionBits exponent fraction : Nat} (sign : Nat)
    (low : exponent < twoPow exponentBits) (few : fraction < twoPow fractionBits) :
    sign * twoPow (exponentBits + fractionBits) ||| exponent * twoPow fractionBits ||| fraction =
      packed exponentBits fractionBits sign exponent fraction := by
  have front : sign * twoPow (exponentBits + fractionBits) + exponent * twoPow fractionBits =
      (sign * twoPow exponentBits + exponent) * twoPow fractionBits := by
    rw [twoPow_add, Nat.add_mul, Nat.mul_assoc]
  have short : exponent * twoPow fractionBits < twoPow (exponentBits + fractionBits) := by
    rw [twoPow_add]
    exact Nat.mul_lt_mul_of_pos_right low (twoPow_pos _)
  rw [or_eq_add short, front, or_eq_add few, ← front, packed]

end Word

namespace Binary128

open Word

/-! ### The conversions on words -/

/-- A quadruple of a sign in its place, an exponent and the first 52 digits of a fraction. -/
def assemble? (sign exponent fraction : Nat) : Option Nat := do
  return sign ||| (← shiftLeft? 128 exponent 112) ||| (← shiftLeft? 128 fraction 60)

/-- The quadruple of a double on words of 64 and of 128 bits. -/
def widen? (double : Nat) : Option Nat := do
  let sign ← shiftLeft? 128 (← shiftRight? 64 double 63) 127
  let exponent := (← shiftRight? 64 double 52) &&& (twoPow 11 - 1)
  let fraction := double &&& (twoPow 52 - 1)
  if exponent = 2047 then assemble? sign 32767 fraction
  else if exponent = 0 then
    if fraction = 0 then return sign
    else
      let shift ← difference? (leadingZeros 128 fraction) 75
      let mask ← difference? (← shiftLeft? 128 1 52) 1
      let normalized := (← shiftLeft? 128 fraction shift) &&& mask
      let biased ← long? ((← long? ((← long? (1 - 1023)) - shift)) + 16383)
      assemble? sign (ofInt 128 biased) normalized
  else
    let biased ← long? ((← long? (exponent - 1023)) + 16383)
    assemble? sign (ofInt 128 biased) fraction

/-- A subnormal double of a sign in its place, the exponent it has in 64 bits and the first digits of the
fraction, among which the hidden one is counted. -/
def subnormal? (sign : Nat) (biased : Int) (high : Nat) : Option Nat := do
  return sign ||| (← shiftRight? 64 ((← shiftLeft? 64 1 52) ||| high) (← long? (1 - biased)))

/-- A normal double of a sign in its place, an exponent and a fraction. -/
def normal? (sign : Nat) (biased : Int) (high : Nat) : Option Nat := do
  return sign ||| (← shiftLeft? 64 (ofInt 64 biased) 52) ||| high

/-- The double of a quadruple on words of 128 and of 64 bits. -/
def cut? (quad : Nat) : Option Nat := do
  let sign ← shiftLeft? 64 (← shiftRight? 128 quad 127) 63
  let exponent := (← shiftRight? 128 quad 112) &&& (twoPow 15 - 1)
  let fraction := quad &&& (← difference? (← shiftLeft? 128 1 112) 1)
  let high := ofInt 64 (← shiftRight? 128 fraction 60)
  if exponent = 32767 then
    if fraction = 0 then return sign ||| 2047 * twoPow 52
    else return sign ||| 2047 * twoPow 52 ||| ((← shiftLeft? 64 1 51) ||| high)
  else
    let biased ← long? ((← long? (exponent - 16383)) + 1023)
    if exponent = 0 ∨ biased ≤ -52 then return sign
    else if biased ≤ 0 then subnormal? sign biased high
    else if 2047 ≤ biased then return sign ||| 2047 * twoPow 52
    else normal? sign biased high

/-- There is room for the sign in front. -/
theorem shiftLeft?_sign (places : Nat) {sign : Nat} (one : sign ≤ 1) :
    shiftLeft? (places + 1) sign places = some (sign * twoPow places) := by
  have fits : sign * twoPow places < twoPow (places + 1) := by
    have most := Nat.mul_le_mul_right (twoPow places) one
    have pos := twoPow_pos places
    rw [twoPow_succ]
    omega
  exact shiftLeft?_eq (Int.natCast_nonneg _) (by omega) fits

/-- Fields that are short enough for a quadruple are put into one. -/
theorem assemble?_eq (sign : Nat) {exponent fraction : Nat} (low : exponent < twoPow 15)
    (few : fraction < twoPow 52) : assemble? (sign * twoPow 127) exponent fraction =
      some (sign * twoPow 127 + exponent * twoPow 112 + fraction * twoPow 60) := by
  have whole : twoPow 15 * twoPow 112 = twoPow 127 := (twoPow_add 15 112).symm
  have digits : twoPow 52 * twoPow 60 = twoPow 112 := (twoPow_add 52 60).symm
  have exponents : exponent * twoPow 112 < twoPow 127 :=
    whole ▸ Nat.mul_lt_mul_of_pos_right low (twoPow_pos _)
  have fractions : fraction * twoPow 60 < twoPow 112 :=
    digits ▸ Nat.mul_lt_mul_of_pos_right few (twoPow_pos _)
  have wide (k : Nat) (h : k < 128) : twoPow k < twoPow 128 := Nat.pow_lt_pow_right (by decide) h
  have first : shiftLeft? 128 exponent 112 = some (exponent * twoPow 112) :=
    shiftLeft?_eq (by decide) (by decide) (exponents.trans (wide 127 (by decide)))
  have second : shiftLeft? 128 fraction 60 = some (fraction * twoPow 60) :=
    shiftLeft?_eq (by decide) (by decide) (fractions.trans (wide 112 (by decide)))
  rw [assemble?, first, second]
  exact congrArg some (or_fields sign low fractions)

/-- The leading one of a subnormal fraction is found and brought to the front. -/
theorem normalized_eq {fraction : Nat} (some : fraction ≠ 0) (few : fraction < twoPow 52) :
    difference? (leadingZeros 128 fraction) 75 = Option.some (52 - Nat.log2 fraction) ∧
      shiftLeft? 128 fraction (52 - Nat.log2 fraction : Nat) =
        Option.some (fraction * twoPow (52 - Nat.log2 fraction)) := by
  have low : Nat.log2 fraction < 52 := (Nat.log2_lt some).2 few
  have zeros : leadingZeros 128 fraction = 127 - Nat.log2 fraction := if_neg some
  have places : 127 - Nat.log2 fraction - 75 = 52 - Nat.log2 fraction := by omega
  have fits : fraction * twoPow (52 - Nat.log2 fraction) < twoPow 128 := by
    have most : twoPow (52 - Nat.log2 fraction) ≤ twoPow 52 := twoPow_le_twoPow (Nat.sub_le _ _)
    calc fraction * twoPow (52 - Nat.log2 fraction) ≤ fraction * twoPow 52 :=
          Nat.mul_le_mul_left _ most
      _ < twoPow 52 * twoPow 52 := Nat.mul_lt_mul_of_pos_right few (twoPow_pos _)
      _ = twoPow 104 := (twoPow_add 52 52).symm
      _ ≤ twoPow 128 := twoPow_le_twoPow (by decide)
  refine ⟨?_, shiftLeft?_eq (Int.natCast_nonneg _) (by omega) fits⟩
  rw [zeros, difference?_eq (by omega), places]

theorem ofInt_exponent {exponent : Nat} (low : exponent < twoPow 15) :
    ofInt 128 exponent = exponent :=
  ofInt_natCast (low.trans (Nat.pow_lt_pow_right (by decide) (by decide)))

/-- Widening leaves no range. -/
theorem widen?_eq {double : Nat} (low : double < byteRange 8) :
    widen? double = some (ofDouble double) := by
  have one : double / twoPow 63 ≤ 1 := by
    have twice : byteRange 8 = twoPow 63 * 2 := rfl
    exact Nat.le_of_lt_succ (Nat.div_lt_of_lt_mul (twice ▸ low))
  have exponents : double / twoPow 52 % twoPow 11 < 2048 := Nat.mod_lt _ (twoPow_pos _)
  have fractions : double % twoPow 52 < twoPow 52 := Nat.mod_lt _ (twoPow_pos _)
  have top : twoPow 15 = 32768 := by decide
  have signRead : shiftRight? 64 double 63 = some (double / twoPow 63) :=
    shiftRight?_eq (by decide) (by decide)
  have exponentRead : shiftRight? 64 double 52 = some (double / twoPow 52) :=
    shiftRight?_eq (by decide) (by decide)
  have signs : shiftLeft? 128 (double / twoPow 63) 127 = some (double / twoPow 63 * twoPow 127) :=
    shiftLeft?_sign 127 one
  unfold widen? ofDouble
  rw [signRead, exponentRead, and_mask]
  generalize double / twoPow 63 = sign at *
  generalize double / twoPow 52 = upper at *
  generalize double % twoPow 52 = fraction at *
  simp -implicitDefEqProofs only [signs, and_mask, Option.bind_eq_bind, Option.bind_some,
    Option.pure_def]
  generalize upper % twoPow 11 = exponent at *
  split
  · rw [assemble?_eq sign (by decide) fractions, Nat.mul_comm (twoPow 112)]
  · split
    · split
      · rfl
      · next zero =>
        obtain ⟨places, moved⟩ := normalized_eq zero fractions
        have unit : shiftLeft? 128 1 52 = some (twoPow 52) := shiftLeft?_one (by decide) (by decide)
        have mask : difference? (twoPow 52) 1 = some (twoPow 52 - 1) := difference?_eq (twoPow_pos 52)
        have few : 52 - Nat.log2 fraction ≤ 52 := Nat.sub_le _ _
        generalize 52 - Nat.log2 fraction = shift at *
        have biased : (1 : Int) - 1023 - shift + 16383 = (15361 - shift : Nat) := by omega
        have first : long? (1 - 1023) = some (1 - 1023 : Int) := rfl
        have second : long? (1 - 1023 - shift) = some (1 - 1023 - shift : Int) :=
          long?_eq _ (by omega) (by omega)
        have third : long? ((15361 - shift : Nat) : Int) = some ((15361 - shift : Nat) : Int) :=
          long?_eq _ (by omega) (by omega)
        have digits := Nat.mod_lt (fraction * twoPow shift) (twoPow_pos 52)
        simp -implicitDefEqProofs only [places, moved, unit, mask, Option.bind_some, and_mask, first,
          second, biased, third, ofInt_exponent (show 15361 - shift < twoPow 15 by omega)]
        exact assemble?_eq sign (by omega) digits
    · have biased : (exponent : Int) - 1023 + 16383 = (exponent + 15360 : Nat) := by omega
      have first : long? (exponent - 1023) = some (exponent - 1023 : Int) :=
        long?_eq _ (by omega) (by omega)
      have second : long? ((exponent + 15360 : Nat) : Int) = some ((exponent + 15360 : Nat) : Int) :=
        long?_eq _ (by omega) (by omega)
      simp -implicitDefEqProofs only [first, biased, second, Option.bind_some,
        ofInt_exponent (show exponent + 15360 < twoPow 15 by omega)]
      exact assemble?_eq sign (by omega) fractions

/-- The largest exponent of a double in front of a fraction. -/
theorem special_eq (sign : Nat) {fraction : Nat} (few : fraction < twoPow 52) :
    sign * twoPow 63 ||| 2047 * twoPow 52 ||| fraction =
      sign * twoPow 63 + twoPow 52 * 2047 + fraction := by
  rw [Nat.mul_comm (twoPow 52)]
  exact or_fields sign (show 2047 < twoPow 11 by decide) few

theorem infinite_eq (sign : Nat) :
    sign * twoPow 63 ||| 2047 * twoPow 52 = sign * twoPow 63 + twoPow 52 * 2047 := by
  have none := special_eq sign (twoPow_pos 52)
  rwa [Nat.or_zero, Nat.add_zero] at none

/-- Fewer places than the fraction has are dropped. -/
theorem subnormal?_eq (sign : Nat) {exponent high : Nat} (low : 15308 < exponent)
    (up : exponent ≤ 15360) (few : high < twoPow 52) :
    subnormal? (sign * twoPow 63) (exponent - 15360) high =
      some (sign * twoPow 63 + (twoPow 52 + high) / twoPow (15361 - exponent)) := by
  have front : shiftLeft? 64 1 52 = some (twoPow 52) := shiftLeft?_one (by decide) (by decide)
  have whole : twoPow 52 ||| high = twoPow 52 + high := by
    simpa using or_eq_add (x := 1) few
  have places : (1 : Int) - (exponent - 15360) = (15361 - exponent : Nat) := by omega
  have amount : long? ((15361 - exponent : Nat) : Int) = some ((15361 - exponent : Nat) : Int) :=
    long?_eq _ (by omega) (by omega)
  have moved : shiftRight? 64 (twoPow 52 + high) ((15361 - exponent : Nat) : Int) =
      some ((twoPow 52 + high) / twoPow (15361 - exponent)) := shiftRight?_eq (by omega) (by omega)
  have short : (twoPow 52 + high) / twoPow (15361 - exponent) < twoPow 63 := by
    have grows : twoPow 53 ≤ twoPow 63 := twoPow_le_twoPow (by decide)
    have twice : twoPow 53 = 2 * twoPow 52 := twoPow_succ 52
    exact Nat.lt_of_le_of_lt (Nat.div_le_self _ _) (by omega)
  simp -implicitDefEqProofs only [subnormal?, front, whole, places, amount, moved,
    Option.bind_eq_bind, Option.bind_some, Option.pure_def, or_eq_add short]

theorem normal?_eq (sign : Nat) {exponent high : Nat} (low : 15360 < exponent)
    (up : exponent < 17407) (few : high < twoPow 52) :
    normal? (sign * twoPow 63) (exponent - 15360) high =
      some (sign * twoPow 63 + (exponent - 15360) * twoPow 52 + high) := by
  have biased : (exponent : Int) - 15360 = (exponent - 15360 : Nat) := by omega
  have short : exponent - 15360 < twoPow 11 := by
    have top : twoPow 11 = 2048 := by decide
    omega
  have word : ofInt 64 (exponent - 15360 : Nat) = exponent - 15360 :=
    ofInt_natCast (short.trans (Nat.pow_lt_pow_right (by decide) (by decide)))
  have fits : (exponent - 15360) * twoPow 52 < twoPow 64 := by
    have whole : twoPow 12 * twoPow 52 = twoPow 64 := (twoPow_add 12 52).symm
    have grows : twoPow 11 < twoPow 12 := by decide
    exact whole ▸ Nat.mul_lt_mul_of_pos_right (short.trans grows) (twoPow_pos _)
  have moved : shiftLeft? 64 (exponent - 15360) 52 = some ((exponent - 15360) * twoPow 52) :=
    shiftLeft?_eq (by decide) (by decide) fits
  rw [normal?, biased, word, moved]
  exact congrArg some (or_fields sign short few)

/-- Cutting back leaves no range. -/
theorem cut?_eq {quad : Nat} (low : quad < byteRange 16) : cut? quad = some (toDouble quad) := by
  have one : quad / twoPow 127 ≤ 1 := by
    have twice : byteRange 16 = twoPow 127 * 2 := rfl
    exact Nat.le_of_lt_succ (Nat.div_lt_of_lt_mul (twice ▸ low))
  have exponents : quad / twoPow 112 % twoPow 15 < 32768 := Nat.mod_lt _ (twoPow_pos _)
  have fractions : quad % twoPow 112 < twoPow 112 := Nat.mod_lt _ (twoPow_pos _)
  have signRead : shiftRight? 128 quad 127 = some (quad / twoPow 127) :=
    shiftRight?_eq (by decide) (by decide)
  have exponentRead : shiftRight? 128 quad 112 = some (quad / twoPow 112) :=
    shiftRight?_eq (by decide) (by decide)
  have digitsRead (x : Nat) : shiftRight? 128 x 60 = some (x / twoPow 60) :=
    shiftRight?_eq (by decide) (by decide)
  have signs : shiftLeft? 64 (quad / twoPow 127) 63 = some (quad / twoPow 127 * twoPow 63) :=
    shiftLeft?_sign 63 one
  have unit : shiftLeft? 128 1 112 = some (twoPow 112) := shiftLeft?_one (by decide) (by decide)
  have mask : difference? (twoPow 112) 1 = some (twoPow 112 - 1) := difference?_eq (twoPow_pos 112)
  have high : quad % twoPow 112 / twoPow 60 < twoPow 52 := by
    have digits : twoPow 60 * twoPow 52 = twoPow 112 := (twoPow_add 60 52).symm
    exact Nat.div_lt_of_lt_mul (digits ▸ fractions)
  have word : ofInt 64 (quad % twoPow 112 / twoPow 60 : Nat) = quad % twoPow 112 / twoPow 60 :=
    ofInt_natCast (high.trans (Nat.pow_lt_pow_right (by decide) (by decide)))
  unfold cut? toDouble
  simp -implicitDefEqProofs only [signRead, exponentRead, digitsRead, signs, unit, mask, and_mask, word,
    Option.bind_eq_bind, Option.bind_some, Option.pure_def]
  generalize quad / twoPow 127 = sign at *
  generalize quad / twoPow 112 % twoPow 15 = exponent at *
  generalize quad % twoPow 112 = fraction at *
  generalize fraction / twoPow 60 = digits at *
  have halves : twoPow 52 = 2 * twoPow 51 := twoPow_succ 51
  split
  · split
    · rw [infinite_eq]
    · have bit : shiftLeft? 64 1 51 = some (twoPow 51) := shiftLeft?_one (by decide) (by decide)
      have few : twoPow 51 + digits % twoPow 51 < twoPow 52 := by
        have rest := Nat.mod_lt digits (twoPow_pos 51)
        omega
      rw [bit, Option.bind_some, or_digit (by omega), special_eq sign few, ← Nat.add_assoc]
  · have rebased : (exponent : Int) - 16383 + 1023 = exponent - 15360 := by omega
    have first : long? (exponent - 16383) = some (exponent - 16383 : Int) :=
      long?_eq _ (by omega) (by omega)
    have second : long? (exponent - 15360) = some (exponent - 15360 : Int) :=
      long?_eq _ (by omega) (by omega)
    simp -implicitDefEqProofs only [first, rebased, second, Option.bind_some]
    by_cases small : exponent ≤ 15308
    · rw [if_pos (by omega), if_pos small]
    · rw [if_neg (by omega), if_neg small]
      by_cases subnormal : exponent ≤ 15360
      · rw [if_pos (by omega), if_pos subnormal, subnormal?_eq sign (by omega) subnormal high]
      · rw [if_neg (by omega), if_neg subnormal]
        by_cases large : 17407 ≤ exponent
        · rw [if_pos (by omega), if_pos large, infinite_eq]
        · rw [if_neg (by omega), if_neg large, normal?_eq sign (by omega) (by omega) high]

/-! ### The number of a widened double -/

/-- The multiple of the smallest double becomes one of the smallest quadruple. -/
theorem Widens.units_eq {exponent fraction e f : Nat} (h : Widens exponent fraction e f)
    (finite : exponent ≠ 2047) (few : fraction < twoPow 52) :
    Format.quadruple.units (e * twoPow 112 + f) =
      Format.double.units (exponent * twoPow 52 + fraction) * twoPow 15420 := by
  obtain ⟨-, short⟩ := h.lt few
  have digits : twoPow 112 = twoPow 52 * twoPow 60 := twoPow_add 52 60
  have total : twoPow 15420 = twoPow 60 * twoPow 15360 := twoPow_add 60 15360
  cases h with
  | special => exact absurd rfl finite
  | zero => rw [Nat.zero_mul, Nat.zero_mul, Format.units_zero, Format.units_zero, Nat.zero_mul]
  | @subnormal _ shift most some front high =>
    have first : Format.quadruple.units
        ((15361 - shift) * twoPow 112 + (fraction * twoPow shift - twoPow 52) * twoPow 60) =
          ((fraction * twoPow shift - twoPow 52) * twoPow 60 + twoPow 112) *
            twoPow (15361 - shift - 1) := Format.units_normal (by omega) short
    have second : Format.double.units (0 * twoPow 52 + fraction) = fraction := by
      rw [Nat.zero_mul, Nat.zero_add]
      exact Format.units_subnormal few
    have restored : (fraction * twoPow shift - twoPow 52) * twoPow 60 + twoPow 112 =
        fraction * twoPow shift * twoPow 60 := by
      rw [digits, ← Nat.add_mul, Nat.sub_add_cancel front]
    have sum : shift + (15361 - shift - 1) = 15360 := by omega
    have places : twoPow 15360 = twoPow shift * twoPow (15361 - shift - 1) := by
      rw [← twoPow_add, sum]
    rw [first, second, restored, total, places]
    ring
  | normal _ low high =>
    have first : Format.quadruple.units ((exponent + 15360) * twoPow 112 + fraction * twoPow 60) =
        (fraction * twoPow 60 + twoPow 112) * twoPow (exponent + 15360 - 1) :=
      Format.units_normal (by omega) short
    have second : Format.double.units (exponent * twoPow 52 + fraction) =
        (fraction + twoPow 52) * twoPow (exponent - 1) := Format.units_normal low few
    have places : exponent + 15360 - 1 = exponent - 1 + 15360 := by omega
    rw [first, second, digits, places, twoPow_add, total]
    ring

/-- A widened double stands for the same, and for no number if the double does. -/
theorem Widens.read_eq {exponent fraction e f : Nat} (h : Widens exponent fraction e f)
    (few : fraction < twoPow 52) :
    Format.quadruple.read (e * twoPow 112 + f) =
      Format.double.read (exponent * twoPow 52 + fraction) := by
  obtain ⟨-, short⟩ := h.lt few
  by_cases special : exponent = 2047
  · subst special
    have top : Format.double.infinity = 2047 * twoPow 52 := by decide
    have wide : Format.quadruple.infinity = 32767 * twoPow 112 := by decide
    cases h with
    | special =>
      rw [← top, ← wide, Format.double.read_special few, Format.quadruple.read_special short]
      simp only [Nat.mul_eq_zero, Nat.ne_of_gt (twoPow_pos 60), or_false]
    | normal _ _ high => omega
  · have top : twoPow 11 = 2048 ∧ twoPow 15 = 32768 := by decide
    have low : exponent + 1 < twoPow 11 ∧ e + 1 < twoPow 15 := by
      cases h <;> omega
    have scales : Format.double.minScale = Format.quadruple.minScale + (15420 : Nat) := by decide
    have finite : exponent * twoPow 52 + fraction < Format.double.infinity :=
      Format.double.fields_lt_infinity low.1 few
    have finite' : e * twoPow 112 + f < Format.quadruple.infinity :=
      Format.quadruple.fields_lt_infinity low.2 short
    rw [Format.read_of_lt finite, Format.read_of_lt finite',
      Format.value_eq_of_units scales (h.units_eq special few)]

/-- A double and the quadruple it is widened to stand for the same. -/
theorem denoted_ofDouble (x : Binary64) :
    Format.quadruple.denoted (ofDouble x.bits.toNat) = Format.double.denoted x.bits.toNat := by
  obtain ⟨one, low, few, whole⟩ := fields_of_double x
  obtain ⟨e, f, widens, same⟩ := ofDouble_packed (x.bits.toNat / twoPow 63) low few
  obtain ⟨low', few'⟩ := widens.lt few
  rw [whole] at same
  generalize x.bits.toNat / twoPow 63 = sign at *
  generalize x.bits.toNat / twoPow 52 % twoPow 11 = exponent at *
  generalize x.bits.toNat % twoPow 52 = fraction at *
  have double : Format.double.denoted (packed 11 52 sign exponent fraction) = _ :=
    Format.double.denoted_packed one low few
  have quadruple : Format.quadruple.denoted (packed 15 112 sign e f) = _ :=
    Format.quadruple.denoted_packed one low' few'
  have read : Format.quadruple.read (e * twoPow Format.quadruple.fraction + f) = _ :=
    widens.read_eq few
  rw [same, quadruple, read, ← whole, double]
  rfl

/-- The pattern without sign is the other two fields. -/
theorem magnitude_of_double (x : Binary64) : x.magnitude =
    x.bits.toNat / twoPow 52 % twoPow 11 * twoPow 52 + x.bits.toNat % twoPow 52 := by
  obtain ⟨-, low, few, whole⟩ := fields_of_double x
  have short : x.bits.toNat / twoPow 52 % twoPow 11 * twoPow 52 + x.bits.toNat % twoPow 52 <
      twoPow (11 + 52) := Format.double.fields_lt_signWeight low few
  have same := congrArg (· % twoPow 63) whole
  rw [packed, Nat.add_assoc, Nat.add_comm, Nat.add_mul_mod_self_right, Nat.mod_eq_of_lt short] at same
  exact same.symm

/-- A signalling NaN is a NaN. -/
theorem isNaN_of_isSignalling {x : Binary64} (h : x.isSignalling) : x.isNaN = true := by
  have top : Format.double.infinity = 2047 * twoPow 52 := by decide
  obtain ⟨special, some, -⟩ := h
  rw [Binary64.isNaN, magnitude_of_double, special, top]
  exact decide_eq_true (by omega)

/-- Every double that is a number or infinite is widened to a quadruple that stands for the same, is cut
back to its own bits, and neither way leaves a range. -/
theorem lossless (x : Binary64) (number : x.isNaN = false) :
    widen? x.bits.toNat = some (ofDouble x.bits.toNat) ∧
      ofDouble x.bits.toNat < byteRange 16 ∧
      cut? (ofDouble x.bits.toNat) = some x.bits.toNat ∧
      toDouble (ofDouble x.bits.toNat) = x.bits.toNat ∧
      Format.quadruple.denoted (ofDouble x.bits.toNat) = Format.double.denoted x.bits.toNat ∧
      Format.double.denoted x.bits.toNat ≠ .nan := by
  have plain : ¬ x.isSignalling := fun signals => by
    rw [isNaN_of_isSignalling signals] at number
    cases number
  have back : toDouble (ofDouble x.bits.toNat) = x.bits.toNat := by
    rw [toDouble_ofDouble_bits, if_neg plain, Nat.add_zero]
  have low := ofDouble_lt x
  refine ⟨widen?_eq (toNat_bits_lt x), low, ?_, back, denoted_ofDouble x, ?_⟩
  · rw [cut?_eq low, back]
  · exact fun nan => of_decide_eq_false number (Format.denoted_eq_nan_iff.1 nan)

/-- The smallest double, whose quadruple is normal. -/
theorem lossless_least :
    (⟨1⟩ : Binary64).isNaN = false ∧ widen? 1 = some (15309 * twoPow 112) ∧
      cut? (15309 * twoPow 112) = some 1 := by
  have number : (⟨1⟩ : Binary64).isNaN = false := by decide
  have wide : ofDouble 1 = 15309 * twoPow 112 := by decide
  obtain ⟨widened, -, back, -⟩ := lossless ⟨1⟩ number
  exact ⟨number, wide ▸ widened, wide ▸ back⟩

end Binary128

end ByteMachine.Number
