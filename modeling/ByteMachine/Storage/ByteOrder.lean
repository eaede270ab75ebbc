import ByteMachine.Fault
import ByteMachine.Number.Binary16
import ByteMachine.Number.Binary128

/-!
# Bytes of numbers

How numbers are laid out in bytes. An integer of 1, 2, 4, 8 or 16 bytes is written in base 256,
least digit first or, in the other byte order, last; a float of 2, 4, 8 or 16 bytes is the bit
pattern of the IEEE format of that size.

Key definitions: `ByteOrder`, `Bytes.ofNat`, `Bytes.toNat`, `ByteOrder.arrange`,
`ByteOrder.encodeInt`, `ByteOrder.decodeInt`, `ByteOrder.encodeFloat`, `ByteOrder.decodeFloat`.
-/

namespace ByteMachine

open Number

namespace Bytes

/-- The lowest `width` digits of `n` in base 256, least first. -/
def ofNat : Nat → Nat → List UInt8
  | 0, _ => []
  | width + 1, n => UInt8.ofNat (n % 256) :: ofNat width (n / 256)

/-- The number with the given digits in base 256, least first. -/
def toNat : List UInt8 → Nat
  | [] => 0
  | b :: bs => b.toNat + 256 * toNat bs

@[simp] theorem length_ofNat : ∀ width n : Nat, (ofNat width n).length = width
  | 0, _ => rfl
  | width + 1, n => by simp [ofNat, length_ofNat width]

theorem toNat_lt : ∀ bs : List UInt8, toNat bs < byteRange bs.length
  | [] => by simp [toNat]
  | b :: bs => by
    have hb : b.toNat < 256 := b.toNat_lt
    have := toNat_lt bs
    simp only [toNat, List.length_cons, byteRange_succ]
    omega

theorem toNat_ofNat : ∀ width n : Nat, toNat (ofNat width n) = n % byteRange width
  | 0, n => by simp [ofNat, toNat, Nat.mod_one]
  | width + 1, n => by
    simp only [ofNat, toNat, toNat_ofNat width]
    rw [byteRange_succ, Nat.mod_mul]
    simp

end Bytes

/-- The order of the bytes of a number. -/
inductive ByteOrder where
  | little
  | big
deriving DecidableEq, Repr, Inhabited

namespace ByteOrder

/-- The other order. -/
def flip : ByteOrder → ByteOrder
  | little => big
  | big => little

def name : ByteOrder → String
  | little => "little-endian"
  | big => "big-endian"

/-- Bytes with the least digit first brought to the order, or back. -/
def arrange : ByteOrder → List UInt8 → List UInt8
  | little, bs => bs
  | big, bs => bs.reverse

@[simp] theorem arrange_arrange (o : ByteOrder) (bs : List UInt8) :
    o.arrange (o.arrange bs) = bs := by
  cases o <;> simp [arrange]

/-- The widths an integer may have. -/
def isIntWidth (width : Nat) : Bool :=
  width = 1 || width = 2 || width = 4 || width = 8 || width = 16

/-- The bytes of an integer in two's complement. -/
def encodeInt (o : ByteOrder) (value : Int) (width : Nat) : Except Fault (List UInt8) :=
  if isIntWidth width then
    .ok (o.arrange (Bytes.ofNat width (value % byteRange width).toNat))
  else .error (.unsupportedWidth "integer" width)

/-- The integer of some bytes. Sixteen bytes always count as signed. -/
def decodeInt (o : ByteOrder) (bytes : List UInt8) (signed : Bool) : Except Fault Int :=
  if isIntWidth bytes.length then
    let n : Int := Bytes.toNat (o.arrange bytes)
    .ok (if signed || bytes.length = 16 then Int.bmod n (byteRange bytes.length) else n)
  else .error (.unsupportedWidth "integer" bytes.length)

/-- The bytes of a float rounded to the format of the given width. -/
def encodeFloat (o : ByteOrder) (value : Binary64) (width : Nat) : Except Fault (List UInt8) :=
  match width with
  | 2 => .ok (o.arrange (Bytes.ofNat 2 (Binary16.ofSingle value.toSingle)))
  | 4 => .ok (o.arrange (Bytes.ofNat 4 value.toSingle))
  | 8 => .ok (o.arrange (Bytes.ofNat 8 value.bits.toNat))
  | 16 => .ok (o.arrange (Bytes.ofNat 16 (Binary128.ofDouble value.bits.toNat)))
  | _ => .error (.unsupportedWidth "float" width)

/-- The float of some bytes. -/
def decodeFloat (o : ByteOrder) (bytes : List UInt8) : Except Fault Binary64 :=
  let n := Bytes.toNat (o.arrange bytes)
  match bytes.length with
  | 2 => .ok (Binary64.ofSingle (Binary16.toSingle n))
  | 4 => .ok (Binary64.ofSingle n)
  | 8 => .ok ⟨UInt64.ofNat n⟩
  | 16 => .ok ⟨UInt64.ofNat (Binary128.toDouble n)⟩
  | _ => .error (.unsupportedWidth "float" bytes.length)

end ByteOrder

end ByteMachine
