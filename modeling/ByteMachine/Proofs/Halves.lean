import ByteMachine.Proofs.Denotation
import ByteMachine.Proofs.FloatBytes
import Mathlib.Tactic.NormNum

/-!
# Rounding to half precision

Going from single to half precision drops thirteen digits of the fraction or, for what is subnormal as a
half, more. Half of the last place that is kept is added before, so the half is the nearest one, away
from zero if two are as near, and a carry out of the fraction gives the next exponent and at the end
infinity. In multiples of the smallest single this is one statement for all exponents: twice the number
is not below the sum of the half and the one before it, and below the sum of the half and the one behind
it (`Binary16.Rounds`).

Key definitions: `Binary16.rounded`, `Binary16.Rounds`, `Binary16.widened`.
Key theorems: `Binary16.ofSingle_packed`, `Binary16.rounds_rounded`, `Binary16.Rounds.outcome`,
`Binary16.read_widened`, `Binary16.ofSingle_toSingle`, `Binary16.nearest_of_single`,
`Binary16.ofSingle_toSingle_of_number`, `Binary16.rounds_to_nearest`.
-/

namespace ByteMachine.Number.Binary16

variable {sign exponent fraction p v : Nat}

/-- The last fields of the half that a single is rounded to. -/
def rounded (exponent fraction : Nat) : Nat :=
  if exponent = 255 then twoPow 10 * 31 + if fraction = 0 then 0 else twoPow 9
  else if 143 ≤ exponent then twoPow 10 * 31
  else if exponent < 102 then 0
  else if exponent ≤ 112 then
    (fraction + twoPow 23 + twoPow (126 - exponent - 1)) / twoPow (126 - exponent)
  else (exponent - 112) * twoPow 10 + fraction / twoPow 13 + fraction / twoPow 12 % 2

/-- Rounding keeps the sign. -/
theorem ofSingle_packed (sign : Nat) (low : exponent < twoPow 8) (few : fraction < twoPow 23) :
    ofSingle (packed 8 23 sign exponent fraction) = sign * twoPow 15 + rounded exponent fraction := by
  obtain ⟨signs, exponents, fractions⟩ := packed_fields sign low few
  replace signs : packed 8 23 sign exponent fraction / twoPow 31 = sign := signs
  unfold ofSingle rounded
  dsimp only
  rw [signs, exponents, fractions]
  repeat' split
  all_goals simp only [Nat.add_assoc, Nat.add_zero]

/-- In multiples of the smallest single, the number lies between the middles from a half to the one
before it and the one behind it; infinity counts as the half that would come next, and has none behind
it. -/
structure Rounds (v p : Nat) : Prop where
  finite : p ≤ 31744
  below : p = 0 ∨ (Format.half.units (p - 1) + Format.half.units p) * twoPow 125 ≤ 2 * v
  above : p < 31744 → 2 * v < (Format.half.units p + Format.half.units (p + 1)) * twoPow 125

/-- The multiple of a half that has this exponent and fraction, after a carry too. -/
theorem units_half {e r : Nat} (some : 1 ≤ e) (few : r ≤ 1024) :
    Format.half.units (e * 1024 + r) = (r + 1024) * twoPow (e - 1) := by
  rcases Nat.lt_or_eq_of_le few with less | rfl
  · exact Format.units_normal (f := Format.half) some less
  · have next : e * 1024 + 1024 = (e + 1) * 1024 + 0 := by omega
    have first : Format.half.units ((e + 1) * 1024 + 0) = (0 + 1024) * twoPow (e + 1 - 1) :=
      Format.units_normal (f := Format.half) (by omega) (by decide)
    obtain ⟨k, rfl⟩ := Nat.exists_eq_add_of_le' some
    rw [next, first, Nat.add_sub_cancel, Nat.add_sub_cancel, twoPow_succ]
    omega

/-- Below a half with this exponent the next one is one unit of its last place away, or less if the
fraction is zero. -/
theorem units_half_before {e r : Nat} (some : 1 ≤ e) (few : r ≤ 1024) :
    Format.half.units (e * 1024 + r - 1) + Format.half.units (e * 1024 + r) ≤
      (2 * r + 2047 + if r = 0 then 1 else 0) * twoPow (e - 1) := by
  have whole := units_half some few
  cases r with
  | zero =>
    have less := Format.half.units_strictMono.monotone (Nat.sub_le (e * 1024 + 0) 1)
    rw [whole] at less ⊢
    rw [if_pos rfl]
    linarith
  | succ k =>
    have last : Format.half.units (e * 1024 + k) = (k + 1024) * twoPow (e - 1) :=
      units_half some (by omega)
    rw [whole, ← Nat.add_assoc, Nat.add_sub_cancel, last, if_neg (by omega)]
    exact Nat.le_of_eq (by ring)

/-- Above it the next one is at least one unit of its last place away. -/
theorem units_half_behind {e r : Nat} (some : 1 ≤ e) (few : r ≤ 1024) :
    (2 * r + 2049) * twoPow (e - 1) ≤
      Format.half.units (e * 1024 + r) + Format.half.units (e * 1024 + r + 1) := by
  have grows : e - 1 ≤ (e * 1024 + r) / 1024 - 1 := by omega
  have more : twoPow (e - 1) ≤ twoPow ((e * 1024 + r) / 1024 - 1) := twoPow_le_twoPow grows
  rw [Format.units_succ, units_half some few]
  show _ ≤ (r + 1024) * twoPow (e - 1) +
    ((r + 1024) * twoPow (e - 1) + twoPow ((e * 1024 + r) / 1024 - 1))
  linarith

/-- What is subnormal as a half is counted by its pattern. -/
theorem units_half_subnormal (few : p ≤ 2048) : Format.half.units p = p := by
  rcases Nat.lt_or_ge p 1024 with less | more
  · exact Format.units_subnormal less
  · obtain ⟨r, rfl⟩ := Nat.exists_eq_add_of_le more
    have normal := units_half (e := 1) (r := r) (by decide) (by omega)
    rw [Nat.one_mul] at normal
    rw [normal, Nat.sub_self, twoPow_zero]
    omega

/-! ### The ranges of the exponent -/

theorem units_single (some : 1 ≤ exponent) (few : fraction < twoPow 23) :
    Format.single.units (exponent * twoPow 23 + fraction) =
      (fraction + twoPow 23) * twoPow (exponent - 1) :=
  Format.units_normal (f := Format.single) some few

/-- What is less than half of the smallest half becomes zero. -/
theorem rounds_of_small (low : exponent < 102) (few : fraction < twoPow 23) :
    Rounds (Format.single.units (exponent * twoPow 23 + fraction)) 0 := by
  have half : Format.single.units (exponent * twoPow 23 + fraction) <
      Format.single.units (102 * twoPow 23 + 0) := by
    apply Format.single.units_strictMono
    have next : exponent * twoPow 23 + twoPow 23 ≤ 102 * twoPow 23 := by
      rw [← Nat.succ_mul]
      exact Nat.mul_le_mul_right _ low
    omega
  rw [units_single (by decide) (twoPow_pos 23)] at half
  have middle : 2 * ((0 + twoPow 23) * twoPow (102 - 1)) = twoPow 125 := by decide
  refine ⟨by decide, .inl rfl, fun _ => ?_⟩
  rw [units_half_subnormal (by decide), units_half_subnormal (by decide)]
  omega

/-- What is subnormal as a half is shifted down. -/
theorem rounds_of_subnormal (low : 102 ≤ exponent) (up : exponent ≤ 112)
    (few : fraction < twoPow 23) :
    Rounds (Format.single.units (exponent * twoPow 23 + fraction))
      ((fraction + twoPow 23 + twoPow (126 - exponent - 1)) / twoPow (126 - exponent)) := by
  rw [units_single (by omega) few]
  have digits : twoPow 23 = 8388608 := by decide
  -- Half of the last place that is kept.
  obtain ⟨h, half⟩ : ∃ h, twoPow (126 - exponent - 1) = h := ⟨_, rfl⟩
  obtain ⟨w, weight⟩ : ∃ w, twoPow (exponent - 1) = w := ⟨_, rfl⟩
  have place : twoPow (126 - exponent) = 2 * h := by
    rw [← half, ← twoPow_succ]
    congr 1
    omega
  have least : 8192 ≤ h := by
    rw [← half]
    exact twoPow_le_twoPow (m := 13) (by omega)
  have unit : twoPow 125 = h * (2 * w) := by
    rw [← half, ← weight, ← twoPow_succ, ← twoPow_add]
    congr 1
    omega
  rw [half, weight, place]
  obtain ⟨p, quotient⟩ : ∃ p, (fraction + twoPow 23 + h) / (2 * h) = p := ⟨_, rfl⟩
  have under : p * (2 * h) ≤ fraction + twoPow 23 + h := quotient ▸ Nat.div_mul_le_self _ _
  have above : fraction + twoPow 23 + h < 2 * h * (p + 1) :=
    quotient ▸ Nat.lt_mul_div_succ _ (by omega)
  have short : p ≤ 1024 := by
    by_contra large
    have most : 1025 * (2 * h) ≤ p * (2 * h) := Nat.mul_le_mul_right _ (by omega)
    omega
  rw [quotient]
  refine ⟨by omega, p.eq_zero_or_pos.imp_right fun some => ?_, fun _ => ?_⟩
  · obtain ⟨k, rfl⟩ := Nat.exists_eq_add_of_le' some
    rw [units_half_subnormal (by omega), units_half_subnormal (by omega), Nat.add_sub_cancel, unit]
    have middle : (k + (k + 1)) * h ≤ fraction + twoPow 23 := by linarith
    calc (k + (k + 1)) * (h * (2 * w)) = (k + (k + 1)) * h * (2 * w) := by ring
      _ ≤ (fraction + twoPow 23) * (2 * w) := Nat.mul_le_mul_right _ middle
      _ = 2 * ((fraction + twoPow 23) * w) := by ring
  · rw [units_half_subnormal (by omega), units_half_subnormal (by omega), unit]
    have middle : fraction + twoPow 23 < (p + (p + 1)) * h := by linarith
    have some : 0 < 2 * w := by
      have pos := twoPow_pos (exponent - 1)
      omega
    calc 2 * ((fraction + twoPow 23) * w) = (fraction + twoPow 23) * (2 * w) := by ring
      _ < (p + (p + 1)) * h * (2 * w) := Nat.mul_lt_mul_of_pos_right middle some
      _ = (p + (p + 1)) * (h * (2 * w)) := by ring

/-- The fraction of what is normal as a half is rounded to ten digits. -/
theorem rounds_of_normal (low : 113 ≤ exponent) (up : exponent ≤ 142) (few : fraction < twoPow 23) :
    Rounds (Format.single.units (exponent * twoPow 23 + fraction))
      ((exponent - 112) * twoPow 10 + fraction / twoPow 13 + fraction / twoPow 12 % 2) := by
  rw [units_single (by omega) few]
  have digits : twoPow 10 = 1024 ∧ twoPow 12 = 4096 ∧ twoPow 13 = 8192 ∧ twoPow 23 = 8388608 := by
    decide
  simp only [digits] at few ⊢
  obtain ⟨e, rfl⟩ : ∃ e, exponent = e + 112 := Nat.exists_eq_add_of_le' (by omega)
  -- The digits that are kept, with a carry.
  obtain ⟨r, kept⟩ : ∃ r, fraction / 8192 + fraction / 4096 % 2 = r := ⟨_, rfl⟩
  have halved : fraction / 8192 = fraction / 4096 / 2 := (Nat.div_div_eq_div_mul _ 4096 2).symm
  rw [halved] at kept
  have under : 8192 * r ≤ fraction + 4096 := by omega
  have above : fraction < 8192 * r + 4096 := by omega
  have before := units_half_before (e := e) (r := r) (by omega) (by omega)
  have behind := units_half_behind (e := e) (r := r) (by omega) (by omega)
  have unit : twoPow 125 * twoPow (e - 1) = 8192 * twoPow (e + 112 - 1) := by
    have same : 125 + (e - 1) = 13 + (e + 112 - 1) := by omega
    rw [← twoPow_add, same, twoPow_add, digits.2.2.1]
  have exponents : e + 112 - 112 = e := Nat.add_sub_cancel ..
  have some : 0 < twoPow (e + 112 - 1) := twoPow_pos _
  rw [exponents, Nat.add_assoc, halved, kept]
  generalize twoPow (e - 1) = u at *
  generalize twoPow (e + 112 - 1) = w at *
  have scaled (m : Nat) : m * u * twoPow 125 = 8192 * m * w := by
    calc m * u * twoPow 125 = m * (twoPow 125 * u) := by ring
      _ = 8192 * m * w := by rw [unit]; ring
  refine ⟨by omega, .inr ?_, fun _ => ?_⟩
  · have digits : 8192 * (2 * r + 2047 + if r = 0 then 1 else 0) ≤ 2 * (fraction + 8388608) := by
      split <;> omega
    calc (Format.half.units (e * 1024 + r - 1) + Format.half.units (e * 1024 + r)) * twoPow 125
        ≤ (2 * r + 2047 + if r = 0 then 1 else 0) * u * twoPow 125 := Nat.mul_le_mul_right _ before
      _ = 8192 * (2 * r + 2047 + if r = 0 then 1 else 0) * w := scaled _
      _ ≤ 2 * (fraction + 8388608) * w := Nat.mul_le_mul_right _ digits
      _ = 2 * ((fraction + 8388608) * w) := Nat.mul_assoc ..
  · calc 2 * ((fraction + 8388608) * w) = 2 * (fraction + 8388608) * w := (Nat.mul_assoc ..).symm
      _ < 8192 * (2 * r + 2049) * w := Nat.mul_lt_mul_of_pos_right (by omega) some
      _ = (2 * r + 2049) * u * twoPow 125 := (scaled _).symm
      _ ≤ _ := Nat.mul_le_mul_right _ behind

/-- What is too large becomes infinity. -/
theorem rounds_of_large (low : 143 ≤ exponent) (fraction : Nat) :
    Rounds (Format.single.units (exponent * twoPow 23 + fraction)) (twoPow 10 * 31) := by
  have least : Format.single.units (143 * twoPow 23 + 0) ≤
      Format.single.units (exponent * twoPow 23 + fraction) := by
    apply Format.single.units_strictMono.monotone
    exact Nat.add_le_add (Nat.mul_le_mul_right _ low) (Nat.zero_le _)
  rw [units_single (by decide) (twoPow_pos 23)] at least
  have middle : (Format.half.units (31744 - 1) + Format.half.units 31744) * twoPow 125 ≤
      2 * ((0 + twoPow 23) * twoPow (143 - 1)) := by decide
  exact ⟨by decide, .inr (middle.trans (Nat.mul_le_mul_left 2 least)), fun less => absurd less (by decide)⟩

/-- A finite single is rounded to the half whose middles it lies between. -/
theorem rounds_rounded (finite : exponent < 255) (few : fraction < twoPow 23) :
    Rounds (Format.single.units (exponent * twoPow 23 + fraction)) (rounded exponent fraction) := by
  unfold rounded
  rw [if_neg (by omega)]
  split
  · next large => exact rounds_of_large large fraction
  · split
    · next small => exact rounds_of_small small few
    · split
      · next subnormal => exact rounds_of_subnormal (by omega) subnormal few
      · exact rounds_of_normal (by omega) (by omega) few

/-! ### Nearest halves -/

section

variable {m : Nat}

theorem minScale_half : Format.half.minScale = Format.single.minScale + (125 : Nat) := by decide

/-- Where the halves end: the middle between the largest one and the one that would come next. -/
theorem values_at_infinity : Format.half.value 31743 + Format.half.value 31744 = 2 * 65520 := by
  have last : Format.half.units 31743 = 2047 * 536870912 := by decide
  have next : Format.half.units 31744 = 2048 * 536870912 := by decide
  have scale : Format.half.minScale = -24 := by decide
  rw [Format.value_eq, Format.value_eq, last, next, scale]
  norm_num

/-- The middles of a half in numbers. -/
theorem Rounds.values (h : Rounds (Format.single.units m) p) :
    (p = 0 ∨ Format.half.value (p - 1) + Format.half.value p ≤ 2 * Format.single.value m) ∧
      (p < 31744 →
        2 * Format.single.value m < Format.half.value p + Format.half.value (p + 1)) := by
  have smallest : (0 : ℚ) < 2 ^ Format.single.minScale := by positivity
  have sum (q r : Nat) : Format.half.value q + Format.half.value r =
      ((Format.half.units q + Format.half.units r) * twoPow 125 : Nat) *
        2 ^ Format.single.minScale := by
    rw [Format.value_eq_mul minScale_half, Format.value_eq_mul minScale_half, ← add_mul,
      ← Nat.cast_add, Nat.add_mul]
  have twice : 2 * Format.single.value m =
      (2 * Format.single.units m : Nat) * 2 ^ Format.single.minScale := by
    rw [Format.value_eq, Nat.cast_mul, Nat.cast_ofNat, mul_assoc]
  rw [sum, sum, twice]
  exact ⟨h.below.imp_right fun below => mul_le_mul_of_nonneg_right (Nat.cast_le.2 below) smallest.le,
    fun low => mul_lt_mul_of_pos_right (Nat.cast_lt.2 (h.above low)) smallest⟩

/-- Exactly what is not below the last middle becomes infinity. -/
theorem Rounds.infinite_iff (h : Rounds (Format.single.units m) p) :
    p = 31744 ↔ 65520 ≤ Format.single.value m := by
  obtain ⟨below, above⟩ := h.values
  have last := values_at_infinity
  constructor
  · rintro rfl
    have middle := below.resolve_left (by decide)
    linarith
  · intro large
    by_contra other
    have low : p < 31744 := lt_of_le_of_ne h.finite other
    have first := Format.half.value_strictMono.monotone (show p ≤ 31743 by omega)
    have second := Format.half.value_strictMono.monotone (show p + 1 ≤ 31744 by omega)
    have middle := above low
    linarith

/-- What a finite single becomes, with its sign: infinity from the last middle on, and a nearest half
before it. -/
theorem Rounds.outcome (h : Rounds (Format.single.units m) p) (one : sign ≤ 1) {x : ℚ}
    (e : x = if sign = 1 then -Format.single.value m else Format.single.value m) :
    (Format.half.denoted (sign * twoPow 15 + p) = .infinity (decide (x < 0)) ↔ 65520 ≤ |x|) ∧
      (|x| < 65520 → Format.half.Nearest x (sign * twoPow 15 + p)) := by
  have positive := Format.single.value_nonneg m
  have top : Format.half.infinity = 31744 := by decide
  have weight : Format.half.infinity < Format.half.signWeight := by decide
  have size : |x| = Format.single.value m := by
    rw [e]
    split <;> simp only [abs_neg, abs_of_nonneg positive]
  obtain ⟨below, above⟩ := h.values
  rw [size, ← h.infinite_iff]
  refine ⟨⟨fun infinite => ?_, ?_⟩, fun low => ?_⟩
  · by_contra other
    have low : p < Format.half.infinity := top ▸ lt_of_le_of_ne h.finite other
    have number : Format.half.denoted (sign * twoPow 15 + p) = _ :=
      Format.denoted_finite one low weight
    rw [number] at infinite
    cases infinite
  · intro infinite
    have large := h.infinite_iff.1 infinite
    have read : Format.half.denoted (sign * twoPow 15 + p) = _ :=
      Format.denoted_signed one (show p < Format.half.signWeight from infinite ▸ weight)
    have last : Format.half.read p = .infinity false := by
      rw [infinite, ← top]
      exact Format.half.read_special (twoPow_pos _)
    rw [read, last, e]
    split
    · exact congrArg Denoted.infinity (decide_eq_true (by linarith)).symm
    · exact congrArg Denoted.infinity (decide_eq_false (by linarith)).symm
  · have finite : p < 31744 := lt_of_le_of_ne h.finite fun infinite =>
      absurd (h.infinite_iff.1 infinite) (not_le.2 low)
    rw [e]
    exact Format.nearest_of_middles one (top ▸ finite) weight positive below (above finite)

end

/-! ### Halves in single precision -/

/-- The last fields of the single of a half. -/
def widened (exponent fraction : Nat) : Nat :=
  if exponent = 0 then Format.single.round fraction (twoPow 24)
  else if exponent = 31 then twoPow 23 * 255 + fraction * twoPow 13
  else (exponent + 112) * twoPow 23 + fraction * twoPow 13

theorem toSingle_packed (sign : Nat) (low : exponent < twoPow 5) (few : fraction < twoPow 10) :
    toSingle (packed 5 10 sign exponent fraction) = sign * twoPow 31 + widened exponent fraction := by
  obtain ⟨signs, exponents, fractions⟩ := packed_fields sign low few
  replace signs : packed 5 10 sign exponent fraction / twoPow 15 = sign := signs
  unfold toSingle widened
  dsimp only
  rw [signs, exponents, fractions]
  repeat' split
  all_goals simp only [Nat.add_assoc]

theorem nearestEven_mul (n : Nat) {d : Nat} (some : 0 < d) : nearestEven (n * d) d = n := by
  rw [nearestEven, Nat.mul_mod_left, Nat.mul_div_cancel n some, if_pos some]

theorem log2_lt (some : fraction ≠ 0) (few : fraction < twoPow 10) : Nat.log2 fraction < 10 :=
  (Nat.log2_lt some).2 few

/-- What is scaled by a power of two that is not negative. -/
theorem scaled_natCast (n d k : Nat) : Format.scaled n d (k : Int) = (n * twoPow k, d) :=
  if_pos (Int.natCast_nonneg k)

theorem binaryExponent_subnormal (some : fraction ≠ 0) (few : fraction < twoPow 10) :
    Format.binaryExponent fraction (twoPow 24) = Nat.log2 fraction - 24 := by
  have low := log2_lt some few
  have unit : Nat.log2 (twoPow 24) = 24 := by decide
  have places : -((Nat.log2 fraction : Int) - (24 : Nat)) = (24 - Nat.log2 fraction : Nat) := by omega
  have front := (leading_one some (show Nat.log2 fraction ≤ 24 by omega)).1
  rw [Format.binaryExponent, unit]
  dsimp only
  rw [places, scaled_natCast]
  exact if_neg (Nat.not_lt.2 front)

/-- The leading one of a subnormal half becomes the hidden one of a single. -/
theorem round_subnormal (some : fraction ≠ 0) (few : fraction < twoPow 10) :
    Format.single.round fraction (twoPow 24) =
      (Nat.log2 fraction + 102) * twoPow 23 + fraction * twoPow (23 - Nat.log2 fraction) := by
  have low := log2_lt some few
  have scale : Format.single.minExponent = -126 ∧ Format.single.minScale = -149 := by decide
  have steps : ((Nat.log2 fraction : Int) - 24 - -126).toNat = Nat.log2 fraction + 102 := by omega
  have places : -((-149 : Int) + (Nat.log2 fraction + 102 : Nat)) =
      (23 - Nat.log2 fraction + 24 : Nat) := by omega
  have finite : (Nat.log2 fraction + 102) * twoPow 23 + fraction * twoPow (23 - Nat.log2 fraction) ≤
      Format.single.infinity := by
    have high := (leading_one some (show Nat.log2 fraction ≤ 23 by omega)).2
    have top : Format.single.infinity = 255 * 8388608 := by decide
    have digits : twoPow 23 = 8388608 := by decide
    rw [digits] at high ⊢
    omega
  rw [Format.round, if_neg some, binaryExponent_subnormal some few, scale.1, scale.2, steps]
  dsimp only
  rw [places, scaled_natCast, twoPow_add, ← Nat.mul_assoc]
  dsimp only
  rw [nearestEven_mul _ (twoPow_pos 24)]
  exact Nat.min_eq_left finite

theorem fraction_widened_lt (few : fraction < twoPow 10) : fraction * twoPow 13 < twoPow 23 := by
  have digits : twoPow 23 = twoPow 10 * twoPow 13 := twoPow_add 10 13
  rw [digits]
  exact Nat.mul_lt_mul_of_pos_right few (twoPow_pos _)

/-- The multiple of the smallest half becomes one of the smallest single. -/
theorem units_widened (finite : exponent < 31) (few : fraction < twoPow 10) :
    Format.single.units (widened exponent fraction) =
        Format.half.units (exponent * twoPow 10 + fraction) * twoPow 125 ∧
      widened exponent fraction < Format.single.infinity := by
  have digits : twoPow 23 = twoPow 10 * twoPow 13 := twoPow_add 10 13
  have top : twoPow 8 = 256 := by decide
  unfold widened
  split
  · next zero =>
    subst zero
    have small : fraction ≤ 2048 := Nat.le_of_lt (few.trans (by decide))
    rw [Nat.zero_mul, Nat.zero_add, units_half_subnormal small]
    by_cases none : fraction = 0
    · subst none
      exact ⟨by rw [Nat.zero_mul]; exact Format.single.units_zero, by decide⟩
    · have low := log2_lt none few
      obtain ⟨front, high⟩ := leading_one none (show Nat.log2 fraction ≤ 23 by omega)
      have hidden : (Nat.log2 fraction + 102) * twoPow 23 + fraction * twoPow (23 - Nat.log2 fraction) =
          (Nat.log2 fraction + 103) * twoPow 23 +
            (fraction * twoPow (23 - Nat.log2 fraction) - twoPow 23) := by
        rw [Nat.succ_mul (Nat.log2 fraction + 102)]
        omega
      have short : fraction * twoPow (23 - Nat.log2 fraction) - twoPow 23 < twoPow 23 := by omega
      have places : 23 - Nat.log2 fraction + (Nat.log2 fraction + 103 - 1) = 125 := by omega
      rw [round_subnormal none few, hidden, units_single (by omega) short, Nat.sub_add_cancel front,
        Nat.mul_assoc, ← twoPow_add, places]
      have below : Nat.log2 fraction + 103 + 1 < twoPow 8 := by omega
      exact ⟨rfl, Format.single.fields_lt_infinity below short⟩
  · next some =>
    rw [if_neg (by omega)]
    have short := fraction_widened_lt few
    have below : exponent + 112 + 1 < twoPow 8 := by omega
    have first : Format.half.units (exponent * twoPow 10 + fraction) =
        (fraction + twoPow 10) * twoPow (exponent - 1) :=
      Format.units_normal (f := Format.half) (by omega) few
    have places : exponent + 112 - 1 = exponent - 1 + 112 := by omega
    have total : twoPow 125 = twoPow 13 * twoPow 112 := twoPow_add 13 112
    refine ⟨?_, Format.single.fields_lt_infinity below short⟩
    rw [units_single (by omega) short, first, places, digits, twoPow_add, total]
    ring

/-- A half stands for the same in single precision, and for no number if it does. -/
theorem read_widened (low : exponent < twoPow 5) (few : fraction < twoPow 10) :
    Format.single.read (widened exponent fraction) =
      Format.half.read (exponent * twoPow 10 + fraction) := by
  have top : twoPow 5 = 32 := by decide
  by_cases special : exponent = 31
  · subst special
    have half : Format.half.infinity = 31 * twoPow 10 := by decide
    have single : Format.single.infinity = twoPow 23 * 255 := by decide
    rw [widened, if_neg (by decide), if_pos rfl, ← half, ← single, Format.half.read_special few,
      Format.single.read_special (fraction_widened_lt few)]
    simp only [Nat.mul_eq_zero, Nat.ne_of_gt (twoPow_pos 13), or_false]
  · obtain ⟨same, finite⟩ := units_widened (show exponent < 31 by omega) few
    have finite' : exponent * twoPow 10 + fraction < Format.half.infinity :=
      Format.half.fields_lt_infinity (show exponent + 1 < twoPow 5 by omega) few
    rw [Format.read_of_lt finite, Format.read_of_lt finite',
      Format.value_eq_of_units minScale_half same]

/-- There is room for the sign in front. -/
theorem widened_lt (low : exponent < twoPow 5) (few : fraction < twoPow 10) :
    widened exponent fraction < Format.single.signWeight := by
  have top : twoPow 5 = 32 := by decide
  by_cases special : exponent = 31
  · rw [special, widened, if_neg (by decide), if_pos rfl, Nat.mul_comm (twoPow 23)]
    exact Format.single.fields_lt_signWeight (show 255 < twoPow 8 by decide) (fraction_widened_lt few)
  · obtain ⟨-, finite⟩ := units_widened (show exponent < 31 by omega) few
    exact finite.trans (by decide)

/-- A half lies between its own middles only. -/
theorem Rounds.eq_of_units {m : Nat} (h : Rounds (Format.half.units m * twoPow 125) p)
    (finite : m < 31744) : p = m := by
  have pos := twoPow_pos 125
  rcases Nat.lt_trichotomy p m with less | same | more
  · have first := Format.half.units_strictMono less
    have second := Format.half.units_strictMono.monotone (show p + 1 ≤ m from less)
    have above := h.above (by omega)
    have middle : 2 * Format.half.units m < Format.half.units p + Format.half.units (p + 1) := by
      apply Nat.lt_of_mul_lt_mul_right (a := twoPow 125)
      rwa [Nat.mul_assoc]
    omega
  · exact same
  · have first := Format.half.units_strictMono more
    have second := Format.half.units_strictMono.monotone (show m ≤ p - 1 by omega)
    have below := h.below.resolve_left (by omega)
    have middle : Format.half.units (p - 1) + Format.half.units p ≤ 2 * Format.half.units m := by
      apply Nat.le_of_mul_le_mul_right _ pos
      rwa [Nat.mul_assoc]
    have third := Format.half.units_strictMono (show p - 1 < p by omega)
    omega

/-- A half is rounded to itself, but that a NaN becomes the quiet one without other digits. -/
theorem ofSingle_toSingle (sign : Nat) (low : exponent < twoPow 5) (few : fraction < twoPow 10) :
    ofSingle (toSingle (packed 5 10 sign exponent fraction)) =
      sign * twoPow 15 + if exponent = 31 ∧ fraction ≠ 0 then twoPow 10 * 31 + twoPow 9
        else exponent * twoPow 10 + fraction := by
  have top : twoPow 5 = 32 := by decide
  have short := fraction_widened_lt few
  have below := widened_lt low few
  obtain ⟨e, f, high, digits, same⟩ : ∃ e f, e < twoPow 8 ∧ f < twoPow 23 ∧
      widened exponent fraction = e * twoPow 23 + f :=
    ⟨_, _, Nat.div_lt_of_lt_mul below, Nat.mod_lt _ (twoPow_pos 23), (Nat.div_add_mod' _ _).symm⟩
  have whole : sign * twoPow 31 + (e * twoPow 23 + f) = packed 8 23 sign e f :=
    (Nat.add_assoc ..).symm
  rw [toSingle_packed sign low few, same, whole, ofSingle_packed sign high digits]
  congr 1
  by_cases special : exponent = 31
  · subst special
    rw [widened, if_neg (by decide), if_pos rfl, Nat.mul_comm (twoPow 23)] at same
    have equal : packed 8 23 0 255 (fraction * twoPow 13) = packed 8 23 0 e f := by
      simp only [packed, Nat.zero_mul, Nat.zero_add, same]
    obtain ⟨-, exponents, fractions⟩ := packed_fields 0 (show 255 < twoPow 8 by decide) short
    obtain ⟨-, exponents', fractions'⟩ := packed_fields 0 high digits
    rw [equal] at exponents fractions
    obtain rfl : e = 255 := exponents'.symm.trans exponents
    obtain rfl : f = fraction * twoPow 13 := fractions'.symm.trans fractions
    have pos := Nat.ne_of_gt (twoPow_pos 13)
    rw [rounded, if_pos rfl]
    by_cases none : fraction = 0
    · subst none
      decide
    · have some : fraction * twoPow 13 ≠ 0 := Nat.mul_ne_zero none pos
      rw [if_neg some, if_pos ⟨rfl, none⟩]
  · obtain ⟨units, finite⟩ := units_widened (show exponent < 31 by omega) few
    have top : Format.single.infinity = 255 * 8388608 := by decide
    have digits' : twoPow 10 = 1024 ∧ twoPow 23 = 8388608 := by decide
    rw [same] at units finite
    have rounds := rounds_rounded (show e < 255 by rw [digits'.2] at finite; omega) digits
    rw [units] at rounds
    rw [rounds.eq_of_units (by rw [digits'.1] at few ⊢; omega), if_neg fun both => special both.1]

/-! ### Rounding every single -/

/-- What a single of the largest exponent stands for, and the half that it becomes. -/
theorem denoted_special (one : sign ≤ 1) (few : fraction < twoPow 23) :
    Format.single.denoted (packed 8 23 sign 255 fraction) =
        (if fraction = 0 then .infinity (decide (sign = 1)) else .nan) ∧
      Format.half.denoted (sign * twoPow 15 + rounded 255 fraction) =
        (if fraction = 0 then .infinity (decide (sign = 1)) else .nan) := by
  have single : Format.single.infinity = 255 * twoPow 23 := by decide
  have half : Format.half.infinity = twoPow 10 * 31 := by decide
  have room : Format.single.infinity + fraction < Format.single.signWeight := by
    rw [single]
    exact Format.single.fields_lt_signWeight (show 255 < twoPow 8 by decide) few
  constructor
  · rw [packed, Nat.add_assoc, ← single]
    exact Format.denoted_special one few room
  · rw [rounded, if_pos rfl, ← half]
    by_cases zero : fraction = 0
    · rw [if_pos zero, if_pos zero]
      exact Format.denoted_special (f := Format.half) one (twoPow_pos _) (by decide)
    · rw [if_neg zero, if_neg zero]
      exact (Format.denoted_special (f := Format.half) one (show twoPow 9 < twoPow 10 by decide)
        (by decide)).trans (if_neg (by decide))

theorem denoted_finite (one : sign ≤ 1) (finite : exponent < 255) (few : fraction < twoPow 23) :
    Format.single.denoted (packed 8 23 sign exponent fraction) =
      .number (if sign = 1 then -Format.single.value (exponent * twoPow 23 + fraction)
        else Format.single.value (exponent * twoPow 23 + fraction)) := by
  have top : twoPow 8 = 256 := by decide
  have low : exponent * twoPow 23 + fraction < Format.single.infinity :=
    Format.single.fields_lt_infinity (show exponent + 1 < twoPow 8 by omega) few
  rw [packed, Nat.add_assoc]
  exact Format.denoted_finite one low (by decide)

theorem rounded_lt (low : exponent < twoPow 8) (few : fraction < twoPow 23) :
    rounded exponent fraction < twoPow 15 := by
  have top : twoPow 8 = 256 ∧ twoPow 9 = 512 ∧ twoPow 10 = 1024 ∧ twoPow 15 = 32768 := by decide
  by_cases special : exponent = 255
  · rw [rounded, if_pos special]
    split <;> omega
  · have finite := (rounds_rounded (show exponent < 255 by omega) few).finite
    omega

/-- A single that is a number or infinite keeps its sign; what is infinite stays so, and a number goes
to infinity if it is not below the middle of the largest half and the next power of two, and else to
a half that no other is nearer to. -/
theorem nearest_of_single {single : Nat} (low : single < byteRange 4)
    (number : Format.single.denoted single ≠ .nan) :
    ofSingle single < byteRange 2 ∧ ofSingle single / twoPow 15 = single / twoPow 31 ∧
      (∀ negative, Format.single.denoted single = .infinity negative →
        Format.half.denoted (ofSingle single) = .infinity negative) ∧
      ∀ x, Format.single.denoted single = .number x →
        (Format.half.denoted (ofSingle single) = .infinity (decide (x < 0)) ↔ 65520 ≤ |x|) ∧
        (|x| < 65520 → Format.half.Nearest x (ofSingle single)) := by
  have inside := ofSingle_lt low
  have room : byteRange 4 = 2 * Format.single.signWeight := by decide
  obtain ⟨sign, exponent, fraction, one, high, few, rfl⟩ : ∃ sign exponent fraction, sign ≤ 1 ∧
      exponent < twoPow 8 ∧ fraction < twoPow 23 ∧ single = packed 8 23 sign exponent fraction :=
    Format.single.exists_fields (room ▸ low)
  have front : packed 8 23 sign exponent fraction / twoPow 31 = sign :=
    (packed_fields sign high few).1
  have kept : (sign * twoPow 15 + rounded exponent fraction) / twoPow 15 = sign := by
    rw [Nat.add_comm, Nat.add_mul_div_right _ _ (twoPow_pos 15),
      Nat.div_eq_of_lt (rounded_lt high few), Nat.zero_add]
  rw [ofSingle_packed sign high few] at inside ⊢
  refine ⟨inside, kept.trans front.symm, ?_⟩
  by_cases special : exponent = 255
  · subst special
    obtain ⟨before, behind⟩ := denoted_special one few
    rw [before] at number ⊢
    rw [behind]
    split
    · exact ⟨fun negative e => e, fun x e => nomatch e⟩
    · next some => exact absurd (if_neg some) number
  · have top : twoPow 8 = 256 := by decide
    have finite : exponent < 255 := by omega
    have rounds := rounds_rounded finite few
    rw [denoted_finite one finite few]
    exact ⟨fun negative e => (nomatch e),
      fun x e => rounds.outcome one (Denoted.number.inj e).symm⟩

/-- A half that is a number or infinite stands for the same in single precision and is rounded to
itself. -/
theorem ofSingle_toSingle_of_number {half : Nat} (low : half < byteRange 2)
    (number : Format.half.denoted half ≠ .nan) :
    Format.single.denoted (toSingle half) = Format.half.denoted half ∧
      ofSingle (toSingle half) = half := by
  have room : byteRange 2 = 2 * Format.half.signWeight := by decide
  obtain ⟨sign, exponent, fraction, one, high, few, rfl⟩ : ∃ sign exponent fraction, sign ≤ 1 ∧
      exponent < twoPow 5 ∧ fraction < twoPow 10 ∧ half = packed 5 10 sign exponent fraction :=
    Format.half.exists_fields (room ▸ low)
  have own : Format.half.denoted (packed 5 10 sign exponent fraction) = _ :=
    Format.half.denoted_packed one high few
  have wide : Format.single.denoted (sign * twoPow 31 + widened exponent fraction) = _ :=
    Format.denoted_signed one (widened_lt high few)
  have plain : ¬ (exponent = 31 ∧ fraction ≠ 0) := by
    rintro ⟨rfl, some⟩
    have top : Format.half.infinity = 31 * twoPow 10 := by decide
    have nan : Format.half.read (31 * twoPow Format.half.fraction + fraction) = .nan :=
      top ▸ (Format.half.read_special few).trans (if_neg some)
    rw [own, nan] at number
    exact number (ite_self _)
  refine ⟨?_, ?_⟩
  · rw [toSingle_packed sign high few, wide, read_widened high few, own]
    rfl
  · rw [ofSingle_toSingle sign high few, if_neg plain, packed, Nat.add_assoc]

/-- Every single that is a number or infinite is rounded to a half with its sign: infinite if it is not
below the middle of the largest half and the next power of two, and else a half that no other is nearer to
than, away from zero if two are as near. Every half that is a number or infinite stands for the same in
single precision and is rounded to itself. -/
theorem rounds_to_nearest :
    (∀ single < byteRange 4, Format.single.denoted single ≠ .nan →
      ofSingle single < byteRange 2 ∧ ofSingle single / twoPow 15 = single / twoPow 31 ∧
      (∀ negative, Format.single.denoted single = .infinity negative →
        Format.half.denoted (ofSingle single) = .infinity negative) ∧
      ∀ x, Format.single.denoted single = .number x →
        (Format.half.denoted (ofSingle single) = .infinity (decide (x < 0)) ↔ 65520 ≤ |x|) ∧
        (|x| < 65520 → Format.half.Nearest x (ofSingle single))) ∧
    ∀ half < byteRange 2, Format.half.denoted half ≠ .nan →
      Format.single.denoted (toSingle half) = Format.half.denoted half ∧
      ofSingle (toSingle half) = half :=
  ⟨fun _ low number => nearest_of_single low number,
    fun _ low number => ofSingle_toSingle_of_number low number⟩

/-- A single in the middle between zero and the smallest half is rounded away from zero. -/
theorem rounds_to_nearest_middle :
    855638016 < byteRange 4 ∧ Format.single.denoted 855638016 ≠ .nan ∧
      Format.half.Nearest (Format.single.value 855638016) 1 ∧ Format.half.denoted 1 ≠ .nan ∧
      ofSingle (toSingle 1) = 1 := by
  have stands : Format.single.denoted 855638016 = .number (Format.single.value 855638016) := rfl
  have number : Format.single.denoted 855638016 ≠ .nan := by
    rw [stands]
    exact fun e => nomatch e
  have half : Format.half.denoted 1 = .number (Format.half.value 1) := rfl
  have rounded : ofSingle 855638016 = 1 := by decide
  have number' : Format.half.denoted 1 ≠ .nan := by
    rw [half]
    exact fun e => nomatch e
  obtain ⟨infinite, nearest⟩ :=
    (rounds_to_nearest.1 855638016 (by decide) number).2.2.2 _ stands
  rw [rounded, half] at infinite
  rw [rounded] at nearest
  have small := not_le.1 (mt infinite.2 fun e => nomatch e)
  exact ⟨by decide, number, nearest small, number', (rounds_to_nearest.2 1 (by decide) number').2⟩

end ByteMachine.Number.Binary16
