import ByteMachine.Proofs.Quadruples
import Mathlib.Algebra.Order.Field.Rat
import Mathlib.Algebra.Order.Field.Power
import Mathlib.Algebra.Order.Group.Unbundled.Abs
import Mathlib.Order.Monotone.Basic
import Mathlib.Tactic.Linarith
import Mathlib.Tactic.Ring

/-!
# What the patterns of a format stand for

A finite pattern stands for a rational number, and all of them without a sign for multiples of the
smallest positive one. From one pattern to the next the multiple grows by the weight of the last place,
so patterns are ordered as their numbers are, and what lies between the middles to the next patterns on
both sides has no nearer number in the format.

Key definitions: `Format.quadruple`, `Format.units`, `Format.value`, `Denoted`, `Format.denoted`,
`Format.Nearest`.
Key theorems: `Format.value_eq`, `Format.units_succ`, `Format.units_strictMono`,
`Format.nearest_of_middles`.
-/

namespace ByteMachine.Number

/-- What a pattern stands for. -/
inductive Denoted where
  | number (value : ℚ)
  | infinity (negative : Bool)
  | nan

/-- The same on the other side of zero. -/
def Denoted.negate : Denoted → Denoted
  | number value => number (-value)
  | infinity negative => infinity !negative
  | nan => nan

namespace Format

def quadruple : Format := ⟨112, 15⟩

/-- A finite pattern without sign as a multiple of the smallest positive number. -/
def units (f : Format) (pattern : Nat) : Nat :=
  f.significand pattern * twoPow (pattern / twoPow f.fraction - 1)

/-- The number of a finite pattern without sign. -/
def value (f : Format) (pattern : Nat) : ℚ := f.significand pattern * 2 ^ f.scale pattern

/-- What a pattern without sign stands for. -/
def read (f : Format) (pattern : Nat) : Denoted :=
  if f.infinity < pattern then .nan
  else if pattern = f.infinity then .infinity false
  else .number (f.value pattern)

/-- What a pattern stands for. -/
def denoted (f : Format) (pattern : Nat) : Denoted :=
  if f.signWeight ≤ pattern then (f.read (pattern % f.signWeight)).negate
  else f.read (pattern % f.signWeight)

/-- A pattern of a number that no other number of the format is nearer to `x` than; one that is as near
is not larger. -/
def Nearest (f : Format) (x : ℚ) (pattern : Nat) : Prop :=
  ∃ y, f.denoted pattern = .number y ∧ ∀ other z, f.denoted other = .number z →
    |y - x| < |z - x| ∨ |y - x| = |z - x| ∧ |z| ≤ |y|

variable {f g : Format} {sign exponent fraction pattern m n : Nat}

/-! ### Multiples of the smallest number -/

theorem cast_twoPow (n : Nat) : (twoPow n : ℚ) = 2 ^ (n : ℤ) := by
  rw [zpow_natCast]
  exact Nat.cast_pow 2 n

theorem value_eq (f : Format) (pattern : Nat) : f.value pattern = f.units pattern * 2 ^ f.minScale := by
  rw [value, scale, units, zpow_add₀ two_ne_zero, Nat.cast_mul, cast_twoPow]
  ring

theorem value_nonneg (f : Format) (pattern : Nat) : 0 ≤ f.value pattern := by
  rw [value_eq]
  positivity

/-- A subnormal pattern is a multiple of the smallest number by itself. -/
theorem units_subnormal (small : pattern < twoPow f.fraction) : f.units pattern = pattern := by
  rw [units, significand, Nat.div_eq_of_lt small, if_pos rfl]
  exact Nat.mul_one _

theorem units_zero (f : Format) : f.units 0 = 0 := units_subnormal (twoPow_pos _)

/-- The multiple of a normal pattern from its fields. -/
theorem units_normal (some : 1 ≤ exponent) (few : fraction < twoPow f.fraction) :
    f.units (exponent * twoPow f.fraction + fraction) =
      (fraction + twoPow f.fraction) * twoPow (exponent - 1) := by
  have quotient : (exponent * twoPow f.fraction + fraction) / twoPow f.fraction = exponent := by
    rw [Nat.add_comm, Nat.add_mul_div_right _ _ (twoPow_pos _), Nat.div_eq_of_lt few, Nat.zero_add]
  have rest : (exponent * twoPow f.fraction + fraction) % twoPow f.fraction = fraction := by
    rw [Nat.add_comm, Nat.add_mul_mod_self_right, Nat.mod_eq_of_lt few]
  rw [units, significand, quotient, rest, if_neg (by omega)]

/-- The next pattern stands for more by the weight of the last place. -/
theorem units_succ (f : Format) (pattern : Nat) :
    f.units (pattern + 1) = f.units pattern + twoPow (pattern / twoPow f.fraction - 1) := by
  have pos := twoPow_pos f.fraction
  obtain ⟨exponent, fraction, few, rfl⟩ : ∃ exponent fraction, fraction < twoPow f.fraction ∧
      pattern = exponent * twoPow f.fraction + fraction :=
    ⟨_, _, Nat.mod_lt pattern pos, (Nat.div_add_mod' _ _).symm⟩
  have quotient : (exponent * twoPow f.fraction + fraction) / twoPow f.fraction = exponent := by
    rw [Nat.add_comm, Nat.add_mul_div_right _ _ pos, Nat.div_eq_of_lt few, Nat.zero_add]
  rw [quotient]
  cases exponent with
  | zero =>
    rw [Nat.zero_mul, Nat.zero_add, units_subnormal few]
    by_cases last : fraction + 1 < twoPow f.fraction
    · rw [units_subnormal last]
      rfl
    · have first : fraction + 1 = 1 * twoPow f.fraction + 0 := by omega
      rw [first, units_normal (le_refl 1) pos]
      simp only [Nat.sub_self, Nat.zero_sub, twoPow_zero]
      omega
  | succ e =>
    rw [units_normal (by omega) few, Nat.add_sub_cancel, ← Nat.succ_mul]
    by_cases last : fraction + 1 < twoPow f.fraction
    · rw [Nat.add_assoc, units_normal (by omega) last, Nat.add_sub_cancel]
      congr 1
      omega
    · -- The fraction starts again with the next exponent.
      have next : (e + 1) * twoPow f.fraction + fraction + 1 = (e + 2) * twoPow f.fraction + 0 := by
        rw [Nat.succ_mul (e + 1)]
        omega
      have whole : fraction + twoPow f.fraction + 1 = 2 * twoPow f.fraction := by omega
      rw [next, units_normal (by omega) pos, Nat.succ_eq_add_one, whole]
      show (0 + twoPow f.fraction) * twoPow (e + 1) = _
      rw [twoPow_succ]
      ring

theorem units_strictMono (f : Format) : StrictMono f.units :=
  strictMono_nat_of_lt_succ fun pattern => by
    rw [units_succ]
    exact Nat.lt_add_of_pos_right (twoPow_pos _)

/-- The number of a pattern as a multiple of the smallest number of a format with smaller ones. -/
theorem value_eq_mul {k : Nat} (scales : f.minScale = g.minScale + k) (pattern : Nat) :
    f.value pattern = (f.units pattern * twoPow k : Nat) * 2 ^ g.minScale := by
  rw [value_eq, scales, Nat.cast_mul, cast_twoPow, zpow_add₀ two_ne_zero]
  ring

/-- Patterns of two formats whose multiples differ by what the smallest numbers do. -/
theorem value_eq_of_units {k : Nat} (scales : f.minScale = g.minScale + k)
    (h : g.units n = f.units m * twoPow k) : g.value n = f.value m := by
  rw [value_eq_mul scales, value_eq, h]

/-! ### Fields -/

/-- The largest exponent is that of infinity and of what is no number. -/
theorem read_special (f : Format) (few : fraction < twoPow f.fraction) :
    f.read (f.infinity + fraction) = if fraction = 0 then .infinity false else .nan := by
  unfold read
  by_cases zero : fraction = 0
  · subst zero
    simp
  · rw [if_pos (by omega), if_neg zero]

theorem read_of_lt (low : pattern < f.infinity) : f.read pattern = .number (f.value pattern) := by
  rw [read, if_neg (by omega), if_neg (by omega)]

/-- A pattern with a lower exponent is finite. -/
theorem fields_lt_infinity (f : Format) (low : exponent + 1 < twoPow f.exponent)
    (few : fraction < twoPow f.fraction) : exponent * twoPow f.fraction + fraction < f.infinity := by
  have next : (exponent + 1) * twoPow f.fraction ≤ f.infinity :=
    Nat.mul_le_mul_right _ (by omega)
  rw [Nat.succ_mul] at next
  omega

/-- The fields after the sign are less than its weight. -/
theorem fields_lt_signWeight (f : Format) (low : exponent < twoPow f.exponent)
    (few : fraction < twoPow f.fraction) : exponent * twoPow f.fraction + fraction < f.signWeight := by
  have next : (exponent + 1) * twoPow f.fraction ≤ twoPow f.exponent * twoPow f.fraction :=
    Nat.mul_le_mul_right _ low
  rw [Nat.succ_mul] at next
  rw [signWeight, twoPow_add]
  omega

/-- A pattern with one bit more than the exponent and the fraction is a sign and these two. -/
theorem exists_fields (f : Format) (low : pattern < 2 * f.signWeight) :
    ∃ sign exponent fraction, sign ≤ 1 ∧ exponent < twoPow f.exponent ∧
      fraction < twoPow f.fraction ∧ pattern = packed f.exponent f.fraction sign exponent fraction :=
  ⟨_, _, _, Nat.le_of_lt_succ (Nat.div_lt_of_lt_mul (Nat.mul_comm 2 _ ▸ low)),
    Nat.mod_lt _ (twoPow_pos _), Nat.mod_lt _ (twoPow_pos _), (packed_of_fields _ _ _).symm⟩

/-- The sign of a pattern comes before all of the rest. -/
theorem denoted_signed (one : sign ≤ 1) (low : pattern < f.signWeight) :
    f.denoted (sign * f.signWeight + pattern) =
      if sign = 1 then (f.read pattern).negate else f.read pattern := by
  have rest : (sign * f.signWeight + pattern) % f.signWeight = pattern := by
    rw [Nat.add_comm, Nat.add_mul_mod_self_right, Nat.mod_eq_of_lt low]
  unfold denoted
  rw [rest]
  obtain rfl | rfl : sign = 0 ∨ sign = 1 := by omega
  · rw [if_neg (by omega), if_neg (by decide)]
  · rw [if_pos (by omega), if_pos rfl]

/-- What a pattern stands for, by its fields. -/
theorem denoted_packed (f : Format) (one : sign ≤ 1) (low : exponent < twoPow f.exponent)
    (few : fraction < twoPow f.fraction) :
    f.denoted (packed f.exponent f.fraction sign exponent fraction) =
      if sign = 1 then (f.read (exponent * twoPow f.fraction + fraction)).negate
      else f.read (exponent * twoPow f.fraction + fraction) := by
  rw [packed, Nat.add_assoc]
  exact denoted_signed one (f.fields_lt_signWeight low few)

/-- A pattern below that of infinity stands for a number on its side of zero. -/
theorem denoted_finite (one : sign ≤ 1) (low : pattern < f.infinity)
    (weight : f.infinity < f.signWeight) : f.denoted (sign * f.signWeight + pattern) =
      .number (if sign = 1 then -f.value pattern else f.value pattern) := by
  rw [denoted_signed one (low.trans weight), read_of_lt low]
  split <;> rfl

/-- A pattern from that of infinity on stands for infinity or no number. -/
theorem denoted_special (one : sign ≤ 1) (few : fraction < twoPow f.fraction)
    (room : f.infinity + fraction < f.signWeight) :
    f.denoted (sign * f.signWeight + (f.infinity + fraction)) =
      if fraction = 0 then .infinity (decide (sign = 1)) else .nan := by
  rw [denoted_signed one room, f.read_special few]
  by_cases negative : sign = 1 <;> by_cases zero : fraction = 0 <;>
    simp [negative, zero, Denoted.negate]

theorem denoted_eq_nan_iff : f.denoted pattern = .nan ↔ f.infinity < pattern % f.signWeight := by
  unfold denoted read
  generalize pattern % f.signWeight = m
  by_cases large : f.infinity < m
  · simp [large, Denoted.negate]
  · by_cases top : m = f.infinity <;> by_cases negative : f.signWeight ≤ pattern <;>
      simp [large, top, negative, Denoted.negate]

/-! ### Nearest numbers -/

theorem value_strictMono (f : Format) : StrictMono f.value := fun m n less => by
  rw [value_eq, value_eq]
  exact mul_lt_mul_of_pos_right (Nat.cast_lt.2 (f.units_strictMono less)) (by positivity)

/-- A number of a format is without its sign that of a pattern without one. -/
theorem abs_of_denoted {x : ℚ} (h : f.denoted pattern = .number x) : ∃ m, |x| = f.value m := by
  have each {m : Nat} {y : ℚ} (e : f.read m = .number y) : y = f.value m := by
    unfold read at e
    split at e
    · cases e
    · split at e <;> cases e
      rfl
  unfold denoted at h
  generalize pattern % f.signWeight = m at h
  refine ⟨m, ?_⟩
  split at h
  · cases e : f.read m <;> rw [e] at h <;> cases h
    rw [each e, abs_neg, abs_of_nonneg (f.value_nonneg m)]
  · rw [each h, abs_of_nonneg (f.value_nonneg m)]

/-- Between the middles to the next patterns no number is nearer, and in the lower middle the larger of
the two was chosen. -/
theorem value_nearest {v : ℚ} (below : pattern = 0 ∨ f.value (pattern - 1) + f.value pattern ≤ 2 * v)
    (above : 2 * v < f.value pattern + f.value (pattern + 1)) (other : Nat) :
    |f.value pattern - v| < |f.value other - v| ∨
      |f.value pattern - v| = |f.value other - v| ∧ f.value other ≤ f.value pattern := by
  rcases Nat.lt_trichotomy other pattern with less | rfl | more
  · have next : f.value other ≤ f.value (pattern - 1) := f.value_strictMono.monotone (by omega)
    have grows := f.value_strictMono less
    have middle : f.value (pattern - 1) + f.value pattern ≤ 2 * v := below.resolve_left (by omega)
    have far : |f.value other - v| = v - f.value other := by
      rw [abs_sub_comm, abs_of_nonneg (by linarith)]
    have near : |f.value pattern - v| ≤ |f.value other - v| := by
      rw [far, abs_le]
      constructor <;> linarith
    exact near.lt_or_eq.imp_right fun tie => ⟨tie, grows.le⟩
  · exact .inr ⟨rfl, le_refl _⟩
  · have next : f.value (pattern + 1) ≤ f.value other := f.value_strictMono.monotone more
    have grows := f.value_strictMono more
    left
    rw [abs_of_nonneg (show 0 ≤ f.value other - v by linarith), abs_lt]
    constructor <;> linarith

/-- What lies between the middles to the next patterns has no nearer number in the format, whatever its
sign. -/
theorem nearest_of_middles {v : ℚ} (one : sign ≤ 1) (low : pattern < f.infinity)
    (weight : f.infinity < f.signWeight) (positive : 0 ≤ v)
    (below : pattern = 0 ∨ f.value (pattern - 1) + f.value pattern ≤ 2 * v)
    (above : 2 * v < f.value pattern + f.value (pattern + 1)) :
    f.Nearest (if sign = 1 then -v else v) (sign * f.signWeight + pattern) := by
  refine ⟨_, denoted_finite one low weight, fun other z stands => ?_⟩
  obtain ⟨m, size⟩ := abs_of_denoted stands
  have own : |(if sign = 1 then -f.value pattern else f.value pattern) -
      (if sign = 1 then -v else v)| = |f.value pattern - v| := by
    split
    · rw [← neg_sub', abs_neg, sub_eq_add_neg]
    · rfl
  have whole : |if sign = 1 then -f.value pattern else f.value pattern| = f.value pattern := by
    split <;> simp only [abs_neg, abs_of_nonneg (f.value_nonneg pattern)]
  have given : |if sign = 1 then -v else v| = v := by
    split <;> simp only [abs_neg, abs_of_nonneg positive]
  -- Without the signs the two numbers are no further apart.
  have apart := abs_abs_sub_abs_le z (if sign = 1 then -v else v)
  rw [size, given] at apart
  rw [own, size, whole]
  rcases value_nearest below above m with near | ⟨tie, smaller⟩
  · exact .inl (near.trans_le apart)
  · exact (tie.trans_le apart).lt_or_eq.imp_right fun same => ⟨same, smaller⟩

end Format

end ByteMachine.Number
