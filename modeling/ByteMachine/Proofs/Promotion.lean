import ByteMachine.Proofs.Elements
import ByteMachine.Proofs.Ranges

/-!
# Arithmetic on integers

Two integers are computed with at the widest of `int` and their types, without a sign as soon as one
of the widest has none. The machine computes on sixteen bytes and then wraps to the width of that
type, and neither step loses more than a multiple of what so many bytes can count; so the result is
the one integer in the range of its type that is congruent to the exact one. Nothing fails but a
division by zero.

Key definitions: `Operator.exact`, `Operator.Divides`, `Arithmetic.Widest`.
Key theorems: `Arithmetic.widest_promote`, `Arithmetic.integers_eq`, `Number.wrap_narrow_emod`,
`Arithmetic.apply_integral`, `Run.binary_integral`.
-/

namespace ByteMachine

open Discipline Number

/-- The integer that an operator stands for; a quotient is cut toward zero, and the remainder is
what that leaves. -/
def Operator.exact : Operator → Int → Int → Int
  | .add, a, b => a + b
  | .sub, a, b => a - b
  | .mul, a, b => a * b
  | .div, a, b => a.tdiv b
  | .mod, a, b => a.tmod b

/-- The operators that divide. -/
def Operator.Divides (op : Operator) : Prop := op = .div ∨ op = .mod

instance (op : Operator) : Decidable op.Divides := inferInstanceAs (Decidable (_ ∨ _))

/-! ### The type of a result -/

namespace Arithmetic

variable {word : Nat} {p q k : Scalar}

/-- The candidate `k` has the largest size, and no sign exactly if one of the candidates of that
size has none. -/
structure Widest (word : Nat) (candidates : List Scalar) (k : Scalar) : Prop where
  mem : k ∈ candidates
  size : ∀ c ∈ candidates, c.size word ≤ k.size word
  sign : k.isSigned = false ↔ ∃ c ∈ candidates, c.size word = k.size word ∧ c.isSigned = false

theorem outranks_iff : outranks word p q = true ↔
    q.size word < p.size word ∨
      p.size word = q.size word ∧ q.isSigned = true ∧ p.isSigned = false := by
  simp only [outranks, Bool.or_eq_true, Bool.and_eq_true, decide_eq_true_eq, Bool.not_eq_true',
    and_assoc]

/-- Among candidates, the widest does not lose to a further one that it is not outranked by, and one
that outranks it takes its place. -/
theorem Widest.concat {candidates : List Scalar} (h : Widest word candidates k) (q : Scalar) :
    Widest word (candidates ++ [q]) (if outranks word q k then q else k) := by
  by_cases outranked : outranks word q k = true
  · rw [if_pos outranked]
    have higher := outranks_iff.1 outranked
    refine ⟨by simp, fun c mem => ?_, fun unsigned => ⟨q, by simp, rfl, unsigned⟩, ?_⟩
    · rcases List.mem_append.1 mem with mem | mem
      · have := h.size c mem
        omega
      · rw [List.mem_singleton.1 mem]
    · rintro ⟨c, mem, same, unsigned⟩
      rcases higher with wider | ⟨-, -, without⟩
      · -- Whatever is as wide as the wider candidate is that candidate.
        rcases List.mem_append.1 mem with mem | mem
        · have := h.size c mem
          omega
        · rw [← List.mem_singleton.1 mem, unsigned]
      · exact without
  · rw [if_neg outranked]
    have lower := mt outranks_iff.2 outranked
    refine ⟨by simp [h.mem], fun c mem => ?_, fun unsigned => ⟨k, by simp [h.mem], rfl, unsigned⟩, ?_⟩
    · rcases List.mem_append.1 mem with mem | mem
      · exact h.size c mem
      · rw [List.mem_singleton.1 mem]
        omega
    · rintro ⟨c, mem, same, unsigned⟩
      rcases List.mem_append.1 mem with mem | mem
      · exact h.sign.2 ⟨c, mem, same, unsigned⟩
      · rw [List.mem_singleton.1 mem] at same unsigned
        exact Bool.eq_false_iff.2 fun signed => lower (.inr ⟨same, signed, unsigned⟩)

/-- A result has the widest type of `int` and those of the operands. -/
theorem widest_promote (word : Nat) (p q : Scalar) :
    Widest word [.int, p, q] (promote word p q) := by
  have int : Widest word [.int] .int :=
    { mem := List.mem_singleton.2 rfl
      size := fun c mem => by rw [List.mem_singleton.1 mem]
      sign := by simp [Scalar.isSigned] }
  exact (int.concat p).concat q

/-- The widest of integral types is one. -/
theorem Widest.isIntegral (h : Widest word [.int, p, q] k) (left : p.isIntegral = true)
    (right : q.isIntegral = true) : k.isIntegral = true := by
  have mem := h.mem
  simp only [List.mem_cons, List.not_mem_nil, or_false] at mem
  rcases mem with rfl | rfl | rfl
  · rfl
  · exact left
  · exact right

/-- On sixteen bytes an operator gives the exact integer, narrowed; only a division by zero is
refused. -/
theorem integers_eq (op : Operator) (a b : Int) :
    integers op a b =
      if op.Divides ∧ b = 0 then .error .divisionByZero else .ok (narrow (op.exact a b)) := by
  cases op with
  | add | sub | mul => rfl
  | div | mod =>
    by_cases zero : b = 0
    · simp [integers, Operator.Divides, zero]
    · simp [integers, Operator.Divides, Operator.exact, divWide, remWide, zero]

end Arithmetic

/-! ### What is lost of a result -/

namespace Number

variable {width : Nat} {signed : Bool}

/-- So many bytes divide the sixteen that the machine computes with. -/
theorem byteRange_dvd_wide (few : width ≤ 16) : (byteRange width : Int) ∣ (twoPow 128 : Nat) := by
  have whole : twoPow 128 = byteRange width * twoPow (128 - 8 * width) := by
    rw [byteRange, ← twoPow_add]
    congr 1
    omega
  exact Int.natCast_dvd_natCast.2 ⟨_, whole⟩

/-- What is narrowed is changed by a multiple of what so many bytes count. -/
theorem narrow_emod (few : width ≤ 16) (n : Int) :
    narrow n % byteRange width = n % byteRange width := by
  have wide : narrow n % (twoPow 128 : Nat) = n % (twoPow 128 : Nat) := Int.bmod_emod
  calc narrow n % byteRange width
      = narrow n % (twoPow 128 : Nat) % byteRange width :=
        (Int.emod_emod_of_dvd _ (byteRange_dvd_wide few)).symm
    _ = n % (twoPow 128 : Nat) % byteRange width := by rw [wide]
    _ = n % byteRange width := Int.emod_emod_of_dvd _ (byteRange_dvd_wide few)

/-- A result that is narrowed and wrapped is congruent to the exact one and in the range of its
width. -/
theorem wrap_narrow_emod (valid : ByteOrder.isIntWidth width = true) (signed : Bool) (n : Int) :
    wrap (narrow n) width signed % byteRange width = n % byteRange width ∧
      InRange width signed (wrap (narrow n) width signed) := by
  constructor
  · rw [wrap_emod, narrow_emod (ByteOrder.isIntWidth_bounds valid).2]
  · exact inRange_wrap valid signed fun _ => fitsWide_narrow n

end Number

/-! ### An operator on two integers -/

namespace Arithmetic

variable {word : Nat} {op : Operator} {x y : Literal} {lt rt : Ty} {p q : Scalar} {a b : Int}

/-- The type of a scalar is neither a pointer nor an array, and arithmetic knows it as that scalar. -/
theorem scalar?_of_isIntegral {t : Ty} (kind : t.scalar? = some p) (integral : p.isIntegral = true) :
    scalar? t = some p ∧ t.isPointer = false ∧ t.isArray = false := by
  have number : p.isArithmetic = true := (Bool.and_eq_true_iff.1 integral).1
  refine ⟨?_, ?_, ?_⟩
  · rw [scalar?, kind, Option.filter_some, if_pos number]
  all_goals
    unfold Ty.scalar? at kind
    split at kind
    · next same => simp only [Ty.isPointer, Ty.isArray, Ty.arrayShape?, same, Option.isSome_none]
    · cases kind

/-- An operator on two integers gives the exact integer, narrowed and wrapped to the promoted type. -/
theorem apply_integral (left : lt.scalar? = some p) (right : rt.scalar? = some q)
    (first : p.isIntegral = true) (second : q.isIntegral = true) (xa : x.toInteger? = some a)
    (yb : y.toInteger? = some b) :
    apply word op x lt y rt =
      if op.Divides ∧ b = 0 then .error .divisionByZero
      else .ok (.integer (wrap (narrow (op.exact a b)) ((promote word p q).size word)
        (promote word p q).isSigned), .scalar (promote word p q)) := by
  obtain ⟨leftScalar, leftFlat, -⟩ := scalar?_of_isIntegral left first
  obtain ⟨rightScalar, rightFlat, -⟩ := scalar?_of_isIntegral right second
  have whole : (p.isFloat || q.isFloat) = false := by
    rw [(Scalar.isIntegral_iff.1 first).2, (Scalar.isIntegral_iff.1 second).2]
    rfl
  have opened : apply word op x lt y rt = integers op a b >>= fun n =>
      return (.integer (wrap n ((promote word p q).size word) (promote word p q).isSigned),
        .scalar (promote word p q)) := by
    simp only [apply, leftFlat, rightFlat, numbers, leftScalar, rightScalar, whole, xa, yb,
      Bool.false_eq_true, if_false]
  rw [opened, integers_eq]
  by_cases zero : op.Divides ∧ b = 0
  · rw [if_pos zero, if_pos zero]
    rfl
  · rw [if_neg zero, if_neg zero]
    rfl

/-- Integers are compatible. -/
theorem compatible_integral (left : lt.scalar? = some p) (right : rt.scalar? = some q)
    (first : p.isIntegral = true) (second : q.isIntegral = true) : lt.compatible rt = true := by
  have decayed {t : Ty} {s : Scalar} (kind : t.scalar? = some s) (integral : s.isIntegral = true) :
      (t.decay.isPointer || t.decay.isArithmetic) = true := by
    have number : t.isArithmetic = true := by
      rw [Ty.isArithmetic, kind]
      exact (Bool.and_eq_true_iff.1 integral).1
    rw [(Ty.decay_of_isArithmetic number).2, Bool.or_true]
  exact Ty.compatible_of_decay (decayed left first) (decayed right second)

end Arithmetic

namespace Run

variable {l r : Operand} {rest : List Operand} {s t u : Core} {x y : Literal}
  {lt rt : Ty} {p q : Scalar} {a b : Int}

/-- The operands on top are read as integers `a` and `b` of integral types `p` and `q`. A division by
zero is refused, exactly, and nothing but that fails; else the result has the widest type of `int`,
`p` and `q`, is congruent to the exact result up to what the bytes of its type count, and lies in the
range of its type. -/
theorem binary_integral (op : Operator) (word : Catalog.isWordSize s.catalog.word = true)
    (top : s.stack = r :: l :: rest)
    (left : (read l).run.run { s with stack := rest } = (.ok (x, lt), t))
    (right : (read r).run.run t = (.ok (y, rt), u))
    (lp : lt.scalar? = some p) (rq : rt.scalar? = some q)
    (first : p.isIntegral = true) (second : q.isIntegral = true)
    (xa : x.toInteger? = some a) (yb : y.toInteger? = some b) :
    (((binary op).run.run s).1 = .error .divisionByZero ↔ op.Divides ∧ b = 0) ∧
      (op.Divides ∧ b = 0 → (binary op).run.run s = (.error .divisionByZero, u)) ∧
      (¬ (op.Divides ∧ b = 0) → ∃ k n,
        (binary op).run.run s =
          (.ok (), { u with stack := .value (.integer n) (.scalar k) :: u.stack }) ∧
        Arithmetic.Widest s.catalog.word [.int, p, q] k ∧
        n % byteRange (k.size s.catalog.word) = op.exact a b % byteRange (k.size s.catalog.word) ∧
        InRange (k.size s.catalog.word) k.isSigned n) := by
  have met : u.catalog.word = s.catalog.word := by
    obtain ⟨first, -⟩ := (read_looks l).eq_of_run left
    obtain ⟨second, -⟩ := (read_looks r).eq_of_run right
    exact second.word.trans first.word
  have single := (Arithmetic.scalar?_of_isIntegral lp first).2.2
  have single' := (Arithmetic.scalar?_of_isIntegral rq second).2.2
  have checked : (checkCompatible lt rt).run.run u = (.ok (), u) :=
    run_checkCompatible_single single single' (Arithmetic.compatible_integral lp rq first second)
  have ran := run_binary_read op top left right checked
  rw [Arithmetic.apply_integral lp rq first second xa yb, met] at ran
  by_cases zero : op.Divides ∧ b = 0
  · rw [if_pos zero] at ran
    replace ran : (binary op).run.run s = (.error .divisionByZero, u) := ran
    exact ⟨⟨fun _ => zero, fun _ => by rw [ran]⟩, fun _ => ran, fun other => absurd zero other⟩
  · rw [if_neg zero] at ran
    let k := Arithmetic.promote s.catalog.word p q
    have widest := Arithmetic.widest_promote s.catalog.word p q
    have integral := Scalar.isIntegral_iff.1 (widest.isIntegral first second)
    have width := Scalar.isIntWidth_size word integral.1 integral.2
    obtain ⟨congruent, range⟩ := wrap_narrow_emod width k.isSigned (op.exact a b)
    replace ran : (binary op).run.run s = (.ok (), { u with
      stack := .value (.integer (wrap (narrow (op.exact a b)) (k.size s.catalog.word) k.isSigned))
        (.scalar k) :: u.stack }) := ran
    refine ⟨⟨fun failed => ?_, fun some => absurd some zero⟩, fun some => absurd some zero,
      fun _ => ⟨k, _, ran, widest, congruent, range⟩⟩
    rw [ran] at failed
    cases failed

/-- The least `int` of four bytes divided by minus one is itself: of its type there is one integer
congruent to the exact quotient, which is out of range. -/
theorem binary_integral_least :
    (binary .div).run.run ⟨.standard 4, .zeroed 32 .little, default, default,
        [.value (.integer (-1)) Ty.int, .value (.integer (-2147483648)) Ty.int]⟩ =
      (.ok (), ⟨.standard 4, .zeroed 32 .little, default, default,
        [.value (.integer (-2147483648)) Ty.int]⟩) := by
  obtain ⟨-, -, exact⟩ := binary_integral .div
    (s := ⟨.standard 4, .zeroed 32 .little, default, default,
      [.value (.integer (-1)) Ty.int, .value (.integer (-2147483648)) Ty.int]⟩)
    (by decide) rfl rfl rfl rfl rfl rfl rfl rfl rfl
  obtain ⟨k, n, ran, widest, congruent, range⟩ := exact (by decide)
  obtain rfl : k = .int := by simpa using widest.mem
  replace congruent : n % 4294967296 = 2147483648 % 4294967296 := congruent
  replace range : -2147483648 ≤ n ∧ n < 2147483648 := range
  obtain rfl : n = -2147483648 := by omega
  exact ran

end Run

end ByteMachine
