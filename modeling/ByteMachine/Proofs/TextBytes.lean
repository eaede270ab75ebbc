import ByteMachine.Proofs.Bytes
import Mathlib.Data.List.TakeWhile

/-!
# Texts in memory

A text takes one byte for each of its characters and a zero byte behind them. The characters up to
U+00FF are just those that have a byte and come back from it, and NUL is the one whose byte is zero.
So what is read of a text that lies in memory is the text up to its first NUL, whatever stands behind
its end, and it stays so as long as its bytes do.

Key definitions: `Text.beforeNul`, `Text.IsLatin`, `Text.latinByte`, `Memory.Holds`.
Key theorems: `Text.IsLatin.textBytes`, `Text.IsLatin.ofBytes`, `Memory.Holds.frame`,
`Memory.Holds.loadText`, `Memory.Holds.present`.
-/

namespace ByteMachine

namespace Text

/-- A text up to its first NUL. -/
def beforeNul (t : String) : String := String.ofList (t.toList.takeWhile fun c => c != '\x00')

/-- All characters of the text are up to U+00FF. -/
def IsLatin (t : String) : Prop := ∀ c ∈ t.toList, c.toNat ≤ 0xff

instance (t : String) : Decidable (IsLatin t) := List.decidableBAll _ _

/-- The byte of a character up to U+00FF. -/
def latinByte (c : Char) : UInt8 := UInt8.ofNat c.toNat

theorem beforeNul_of_not_mem {t : String} (h : '\x00' ∉ t.toList) : beforeNul t = t := by
  have whole : t.toList.takeWhile (fun c => c != '\x00') = t.toList :=
    List.takeWhile_eq_self_iff.2 fun c mem => bne_iff_ne.2 fun nul => h (nul ▸ mem)
  rw [beforeNul, whole, String.ofList_toList]

theorem IsLatin.beforeNul {t : String} (h : IsLatin t) : IsLatin (beforeNul t) := by
  intro c mem
  rw [Text.beforeNul, String.toList_ofList] at mem
  exact h c ((List.takeWhile_sublist _).mem mem)

theorem byteChar_latinByte {c : Char} (low : c.toNat ≤ 0xff) : byteChar (latinByte c) = c := by
  have kept : (latinByte c).toNat = c.toNat := Nat.mod_eq_of_lt (Nat.lt_succ_of_le low)
  rw [byteChar, kept, Char.ofNat_toNat]

/-- Only NUL has the byte zero. -/
theorem latinByte_eq_zero {c : Char} (low : c.toNat ≤ 0xff) : latinByte c = 0 ↔ c = '\x00' := by
  constructor
  · intro zero
    rw [← byteChar_latinByte low, zero]
    rfl
  · rintro rfl
    rfl

/-- Every character of such a text has its byte. -/
theorem latinBytes_eq_map : ∀ {cs : List Char}, (∀ c ∈ cs, c.toNat ≤ 0xff) →
    latinBytes cs = .ok (cs.map latinByte)
  | [], _ => rfl
  | c :: cs, low => by
    have first : c.toNat < 256 := Nat.lt_succ_of_le (low c List.mem_cons_self)
    rw [latinBytes, if_pos first, latinBytes_eq_map fun d mem => low d (.tail _ mem)]
    rfl

theorem IsLatin.textBytes {t : String} (h : IsLatin t) :
    ByteMachine.textBytes t = .ok (t.toList.map latinByte) :=
  latinBytes_eq_map h

/-- Before the first zero byte are the characters before the first NUL. -/
theorem map_takeWhile_latinByte : ∀ {cs : List Char}, (∀ c ∈ cs, c.toNat ≤ 0xff) →
    ((cs.map latinByte).takeWhile fun b => b != 0).map byteChar =
      cs.takeWhile fun c => c != '\x00'
  | [], _ => rfl
  | c :: cs, low => by
    have first := low c List.mem_cons_self
    have rest := map_takeWhile_latinByte fun d mem => low d (.tail _ mem)
    rw [List.map_cons, List.takeWhile_cons, List.takeWhile_cons]
    by_cases nul : c = '\x00'
    · subst nul
      rfl
    · have some : latinByte c ≠ 0 := fun zero => nul ((latinByte_eq_zero first).1 zero)
      rw [if_pos (bne_iff_ne.2 some), if_pos (bne_iff_ne.2 nul), List.map_cons,
        byteChar_latinByte first, rest]

/-- The bytes of a text up to the first zero are read as the text up to its first NUL. -/
theorem IsLatin.ofBytes {t : String} (h : IsLatin t) :
    Text.ofBytes ((t.toList.map latinByte).takeWhile fun b => b != 0) = Text.beforeNul t := by
  rw [Text.ofBytes, map_takeWhile_latinByte h, Text.beforeNul]

end Text

namespace Memory

variable {m n : Memory} {c : Catalog} {a length : Nat} {bs bytes : List UInt8} {t : Ty}

/-- The bytes lie in memory from an address on, with a zero byte behind them. -/
def Holds (m : Memory) (a : Nat) (bytes : List UInt8) : Prop :=
  m.read a (bytes.length + 1) = .ok (bytes ++ [0])

theorem holds_of_write (e : m.write a (bytes ++ [0]) = .ok n) : n.Holds a bytes := by
  have found := read_write e
  rwa [List.length_append, List.length_singleton] at found

namespace Holds

/-- They stay there as long as none of them is changed. -/
theorem frame (h : m.Holds a bytes) (size : n.size = m.size)
    (same : ∀ b, a ≤ b → b < a + (bytes.length + 1) → n.bytes[b]? = m.bytes[b]?) :
    n.Holds a bytes := by
  have inside := (read_iff.1 h).1
  refine (read_congr inside (size ▸ inside) fun i low => ?_).trans h
  exact same (a + i) (by omega) (by omega)

/-- More bytes from the same address on start with these and the zero byte. -/
theorem read_longer (h : m.Holds a bytes) (more : bytes.length < length)
    (e : m.read a length = .ok bs) : ∃ rest, bs = bytes ++ 0 :: rest := by
  have start : bytes ++ [0] <+: bs := by
    unfold Holds read at h
    unfold read at e
    split at h
    · split at e
      · cases e
        rw [← Except.ok.inj h]
        exact List.take_prefix_take_left more
      · cases e
    · cases h
  obtain ⟨rest, rfl⟩ := start
  exact ⟨rest, by rw [List.append_assoc, List.singleton_append]⟩

/-- What is read up to the first zero byte does not depend on how many bytes were asked for. -/
theorem takeWhile_longer (h : m.Holds a bytes) (more : bytes.length < length)
    (e : m.read a length = .ok bs) :
    0 ∈ bs ∧ (bs.takeWhile fun b => b != 0) = bytes.takeWhile fun b => b != 0 := by
  obtain ⟨rest, rfl⟩ := h.read_longer more e
  refine ⟨List.mem_append_right _ List.mem_cons_self, ?_⟩
  rw [List.takeWhile_append]
  split
  · next whole =>
    rw [List.takeWhile_cons, if_neg (by simp), List.append_nil]
    exact ((List.takeWhile_prefix _).eq_of_length whole).symm
  · rfl

theorem loadText (h : m.Holds a bytes) (nonzero : a ≠ 0) :
    m.loadText a = .ok (Text.ofBytes (bytes.takeWhile fun b => b != 0)) := by
  have inside := (read_iff.1 h).1
  obtain ⟨tail, e⟩ : ∃ tail, m.read a (m.size - a) = .ok tail := read_of_inside (by omega)
  obtain ⟨ends, same⟩ := h.takeWhile_longer (by omega) e
  rw [Memory.loadText, if_neg nonzero, e]
  show (if 0 ∈ tail then _ else _) = _
  rw [if_pos ends, same]

/-- An array of characters that holds the text with its end is shown as the text. -/
theorem present {count : Nat} (h : m.Holds a bytes) (array : t.strip = .array Ty.char count)
    (more : bytes.length < count) (inside : a + count ≤ m.size) :
    m.present c a t = .ok (.text (Text.ofBytes (bytes.takeWhile fun b => b != 0))) := by
  have other : t.isCharPointer = false := by rw [Ty.isCharPointer, array]
  have chars : t.isCharArray = true := by rw [Ty.isCharArray, array]; rfl
  have size : t.strip.size c.word = count := by rw [array]; exact Nat.one_mul _
  obtain ⟨bs, e⟩ : ∃ bs, m.read a count = .ok bs := read_of_inside inside
  rw [Memory.present, other, if_neg Bool.false_ne_true, if_pos chars, size, e]
  show Except.ok (Literal.text (Text.ofBytes (bs.takeWhile _))) = _
  rw [(h.takeWhile_longer more e).2]

end Holds

/-- A pointer to characters that is not null is shown as the text it leads to. -/
theorem present_charPointer {v : Literal} {b : Nat} (loaded : m.load c a Ty.charPointer = .ok v)
    (address : v.toAddress? = some b) (nonzero : b ≠ 0) :
    m.present c a Ty.charPointer = (m.loadText b).map .text := by
  have follows : Ty.charPointer.isCharPointer = true := rfl
  rw [present, if_pos follows, loaded]
  obtain ⟨b, rfl⟩ := Nat.exists_eq_succ_of_ne_zero nonzero
  simp only [bind, Except.bind, address]
  cases m.loadText (b + 1) <;> rfl

end Memory

end ByteMachine
