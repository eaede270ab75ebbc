import ByteMachine.Proofs.Bytes
import ByteMachine.Proofs.Quadruples

/-!
# Floats in bytes

A float of two, four, eight or sixteen bytes is the pattern of the format of that size. Every pattern
that is written has no more digits than the bytes can show, so the bytes tell the whole pattern; what
is read back is what the format holds of the float.

Key definitions: `Number.Binary64.held`.
Key theorems: `Number.Binary64.toSingle_lt`, `Number.Binary16.ofSingle_lt`, `Number.Binary64.held_eq`,
`ByteOrder.decodeFloat_encodeFloat`.
-/

namespace ByteMachine

open Number

/-! ### Patterns -/

namespace Number

theorem Format.round_le (f : Format) (n d : Nat) : f.round n d ≤ f.infinity := by
  unfold Format.round
  split
  · exact Nat.zero_le _
  · exact Nat.min_le_right _ _

/-- A single precision pattern has four bytes. -/
theorem Binary64.toSingle_lt (x : Binary64) : x.toSingle < byteRange 4 := by
  have weight : Format.single.signWeight = 2147483648 := by decide
  have infinity : Format.single.infinity = 2139095040 := by decide
  have digits : twoPow 22 = 4194304 := by decide
  have all : byteRange 4 = 4294967296 := by decide
  have rounded : Format.single.roundScaled x.significand x.scale ≤ Format.single.infinity :=
    Format.round_le _ _ _
  have rest := Nat.mod_lt (x.magnitude / twoPow 29) (twoPow_pos 22)
  have sign : (if x.isNegative then Format.single.signWeight else 0) ≤ 2147483648 := by
    split <;> omega
  unfold toSingle
  dsimp only
  split
  · omega
  · split <;> omega

/-- A subnormal half is the fraction with its leading one, shifted down by fourteen places or more. -/
theorem Binary16.shifted_lt {fraction shift : Nat} (few : fraction < twoPow 23)
    (places : 14 ≤ shift) :
    (fraction + twoPow 23 + twoPow (shift - 1)) / twoPow shift < 32768 := by
  have least : twoPow 14 ≤ twoPow shift := twoPow_le_twoPow places
  have half : twoPow (shift - 1) ≤ twoPow shift := twoPow_le_twoPow (Nat.sub_le _ _)
  have weights : twoPow 14 = 16384 ∧ twoPow 23 = 8388608 := by decide
  apply Nat.div_lt_of_lt_mul
  omega

/-- A half precision pattern has two bytes. -/
theorem Binary16.ofSingle_lt {single : Nat} (low : single < byteRange 4) :
    ofSingle single < byteRange 2 := by
  have all : byteRange 2 = 65536 ∧ byteRange 4 = 2147483648 * 2 := by decide
  have exponents := Nat.mod_lt (single / twoPow 23) (twoPow_pos 8)
  have fractions := Nat.mod_lt single (twoPow_pos 23)
  have sign : single / 2147483648 < 2 := Nat.div_lt_of_lt_mul (all.2 ▸ low)
  unfold ofSingle
  dsimp only
  generalize single / twoPow 23 % twoPow 8 = e at exponents
  generalize single % twoPow 23 = f at fractions
  have subnormal (few : e ≤ 112) := shifted_lt fractions (show 14 ≤ 126 - e by omega)
  simp only [show twoPow 8 = 256 from rfl, show twoPow 9 = 512 from rfl,
    show twoPow 10 = 1024 from rfl, show twoPow 12 = 4096 from rfl, show twoPow 13 = 8192 from rfl,
    show twoPow 15 = 32768 from rfl, show twoPow 23 = 8388608 from rfl,
    show twoPow 31 = 2147483648 from rfl] at *
  split
  · split <;> omega
  · split
    · omega
    · split
      · omega
      · split
        · next few =>
          have := subnormal few
          omega
        · omega

/-- What so many bytes hold of a float. -/
def Binary64.held (width : Nat) (x : Binary64) : Binary64 :=
  match width with
  | 2 => ofSingle (Binary16.toSingle (Binary16.ofSingle x.toSingle))
  | 4 => x.roundToSingle
  | 16 => x.quiet
  | _ => x

/-- Four bytes hold the float in single precision, and more hold it all, but for a signalling NaN in
sixteen. -/
theorem Binary64.held_eq {width : Nat} {x : Binary64}
    (wide : width = 4 ∨ width = 8 ∨ width = 16 ∧ ¬ x.isSignalling) :
    x.held width = if width = 4 then x.roundToSingle else x := by
  rcases wide with rfl | rfl | ⟨rfl, quiet⟩
  · rfl
  · rfl
  · exact quiet_of_not_signalling quiet

end Number

/-! ### Bytes -/

namespace ByteOrder

/-- A pattern is read back from its bytes. -/
theorem toNat_arranged (o : ByteOrder) {width n : Nat} (low : n < byteRange width) :
    Bytes.toNat (o.arrange (o.arrange (Bytes.ofNat width n))) = n := by
  rw [arrange_arrange, Bytes.toNat_ofNat, Nat.mod_eq_of_lt low]

/-- A float reads back as what its bytes hold of it. -/
theorem decodeFloat_encodeFloat {o : ByteOrder} {x : Binary64} {width : Nat} {bs : List UInt8}
    (e : o.encodeFloat x width = .ok bs) : o.decodeFloat bs = .ok (x.held width) := by
  unfold encodeFloat at e
  split at e
  · cases e
    have back := o.toNat_arranged (Binary16.ofSingle_lt x.toSingle_lt)
    simp only [decodeFloat, length_arrange, Bytes.length_ofNat, back]
    rfl
  · cases e
    have back := o.toNat_arranged x.toSingle_lt
    simp only [decodeFloat, length_arrange, Bytes.length_ofNat, back]
    rfl
  · cases e
    have back := o.toNat_arranged (Binary128.toNat_bits_lt x)
    simp only [decodeFloat, length_arrange, Bytes.length_ofNat, back, UInt64.ofNat_toNat]
    rfl
  · cases e
    have back := o.toNat_arranged (Binary128.ofDouble_lt x)
    simp only [decodeFloat, length_arrange, Bytes.length_ofNat, back, Binary128.toDouble_ofDouble]
    rfl
  · cases e

end ByteOrder

end ByteMachine
