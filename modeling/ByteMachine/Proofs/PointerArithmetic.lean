import ByteMachine.Proofs.Expressions
import ByteMachine.Proofs.WriteThrough

/-!
# Pointers that are moved and subtracted

An integer moves a pointer by so many steps of the size of its target, and the new address is wrapped
to a word without a sign; the difference of two pointers is counted in such steps and wrapped to an
`int`, which is as wide but has a sign. Within a block of a memory whose addresses fit into a word the
first wrapping only ever meets the end of the block: where that is the end of all addresses, it becomes
the null pointer. So moving forth and back always leads to the start. The differences are exact as long
as they are in the range of `int`, which leaves out only blocks of single bytes that are larger than
half of the addresses.

Key definitions: `Machine.Block`.
Key theorems: `Arithmetic.apply_forth`, `Arithmetic.apply_back`, `Arithmetic.apply_distance`,
`Machine.Block.inRange_difference`, `Machine.Reachable.pointer_arithmetic`,
`Machine.execute_arrayDeclaration`, `Machine.pointer_distance_wraps`.
-/

namespace ByteMachine

open Discipline Number

/-! ### Steps and distances -/

namespace Arithmetic

variable {word start i j : Nat} {element type : Ty} {v : Literal}

/-- Reduced before or after what was added is taken from it again, a sum leaves what it was added
to. -/
theorem sub_of_reduced {all way : Nat} (first : start < all) :
    (((start + way) % all : Nat) - (way : Nat) : Int) % all = start := by
  calc (((start + way) % all : Nat) - (way : Nat) : Int) % all
      = (((start + way : Nat) : Int) - (way : Nat)) % all := by
        rw [Int.natCast_emod, Int.emod_sub_emod]
    _ = (start : Int) % all := by
        rw [show ((start + way : Nat) : Int) - (way : Nat) = start by omega]
    _ = start := Int.emod_eq_of_lt (Int.natCast_nonneg _) (Int.ofNat_lt.2 first)

theorem stride_pos (word : Nat) (element : Ty) : 0 < stride word (.pointer element) :=
  Nat.lt_of_lt_of_le Nat.one_pos (Nat.le_max_right _ _)

/-- So many steps from an address on, up to the end of the addresses, stay in what the machine
computes with. -/
theorem mulWide_steps (valid : Catalog.isWordSize word = true) {step : Nat}
    (low : start + i * step ≤ byteRange word) :
    mulWide i step = (i * step : Nat) ∧
      fitsWide ((start + i * step : Nat) : Int) = true := by
  have most := byteRange_le_addressBound valid
  have inside : fitsWide ((i * step : Nat) : Int) = true := Layout.fitsWide_of_le (by omega)
  refine ⟨?_, Layout.fitsWide_of_le (by omega)⟩
  rw [mulWide, ← Int.natCast_mul, narrow_of_fitsWide inside]

/-- A pointer that is moved forth gets the address of the step it is moved to, up to a word. -/
theorem apply_forth (valid : Catalog.isWordSize word = true) (number : type.isArithmetic = true)
    (whole : type.isFloat = false) (value : v.toInteger? = some (i : Int))
    (low : start + i * stride word (.pointer element) ≤ byteRange word) :
    apply word .add (.integer start) (.pointer element) v type =
      .ok (.integer ((start + i * stride word (.pointer element)) % byteRange word : Nat),
        .pointer element) := by
  obtain ⟨steps, fits⟩ := mulWide_steps valid low
  have few := (Catalog.isWordSize_bounds valid).2
  have sum : addWide start (i * stride word (.pointer element) : Nat) =
      (start + i * stride word (.pointer element) : Nat) := by
    rw [addWide, ← Int.natCast_add, narrow_of_fitsWide fits]
  have moved : apply word .add (.integer start) (.pointer element) v type = _ :=
    apply_pointer_add number whole value
  rw [show max (element.size word) 1 = stride word (.pointer element) from rfl, steps, sum] at moved
  rw [moved, wrap, if_neg (by omega), if_neg Bool.false_ne_true, ← Int.natCast_emod]

/-- A pointer that was moved forth is moved back to where it was. -/
theorem apply_back (valid : Catalog.isWordSize word = true) (number : type.isArithmetic = true)
    (whole : type.isFloat = false) (value : v.toInteger? = some (i : Int))
    (first : start < byteRange word)
    (low : start + i * stride word (.pointer element) ≤ byteRange word) :
    apply word .sub
        (.integer ((start + i * stride word (.pointer element)) % byteRange word : Nat))
        (.pointer element) v type = .ok (.integer start, .pointer element) := by
  obtain ⟨steps, -⟩ := mulWide_steps valid low
  have few := (Catalog.isWordSize_bounds valid).2
  have most : byteRange word ≤ twoPow 64 := byteRange_le_addressBound valid
  have less : twoPow 64 < twoPow 127 := by decide
  have reduced := Nat.mod_le (start + i * stride word (.pointer element)) (byteRange word)
  have moved : apply word .sub
      (.integer ((start + i * stride word (.pointer element)) % byteRange word : Nat))
      (.pointer element) v type = _ := apply_pointer_offset (.inr rfl) number whole value
  rw [show max (element.size word) 1 = stride word (.pointer element) from rfl, steps] at moved
  generalize i * stride word (.pointer element) = way at low reduced moved ⊢
  have fits : fitsWide (((start + way) % byteRange word : Nat) - (way : Nat) : Int) = true := by
    simp only [fitsWide, Bool.and_eq_true, decide_eq_true_eq]
    omega
  rw [moved, if_pos rfl, subWide, narrow_of_fitsWide fits, wrap, if_neg (by omega),
    if_neg Bool.false_ne_true, sub_of_reduced first]

/-- The difference of two pointers that were moved from one address is that of their steps, as far
as an `int` can show it. -/
theorem apply_distance (valid : Catalog.isWordSize word = true) (start i j : Nat) (element : Ty) :
    apply word .sub (.integer (start + i * stride word (.pointer element) : Nat)) (.pointer element)
        (.integer (start + j * stride word (.pointer element) : Nat)) (.pointer element) =
      .ok (.integer (kept word true (i - j)), Ty.int) := by
  have few := (Catalog.isWordSize_bounds valid).2
  have some : (stride word (.pointer element) : Int) ≠ 0 :=
    Int.natCast_ne_zero.2 (Nat.ne_of_gt (stride_pos word element))
  have apart : (((start + i * stride word (.pointer element) : Nat) : Int) -
      (start + j * stride word (.pointer element) : Nat)) =
        (i - j) * stride word (.pointer element) := by
    push_cast
    rw [Int.sub_mul]
    omega
  show Except.ok (Literal.integer (wrap (Int.tdiv (_ - _) _) word true), Ty.int) = _
  rw [apart, Int.mul_tdiv_cancel _ some, wrap_eq_kept (by omega)]

end Arithmetic

/-! ### Blocks -/

namespace Machine

open Arithmetic

variable {m n : Machine} {x : Variable} {element : Ty} {count i j : Nat} {p e f : Expr}

/-- A registered owner has room for `count` steps of a pointer to the element type. -/
structure Block (m : Machine) (x : Variable) (element : Ty) (count : Nat) : Prop where
  mem : x ∈ m.core.symbols.entries
  owner : x.isAlias = false
  room : count * stride m.core.catalog.word (.pointer element) ≤ x.size

/-- An array, declared or on the heap, is a block of its elements. -/
theorem block_of_array (h : m.Sound) (mem : x ∈ m.core.symbols.entries)
    (array : x.type = .array element count) : m.Block x element count := by
  have known := h.core.arrayOf mem array
  have step : stride m.core.catalog.word (.pointer element) = m.core.catalog.size element :=
    Nat.max_eq_left known.sized
  refine ⟨mem, known.owner, ?_⟩
  rw [step, known.size, Nat.mul_comm]

/-- An owner that is no array is a block of one element. -/
theorem block_of_owner (h : m.Sound) (mem : x ∈ m.core.symbols.entries)
    (owner : x.isAlias = false) : m.Block x x.type 1 := by
  have size := (h.core.fits.agree x mem).size_owner owner
  have some : 1 ≤ x.size := (h.core.fits.table.room x mem owner).1
  refine ⟨mem, owner, ?_⟩
  rw [Nat.one_mul]
  exact Nat.max_le.2 ⟨Nat.le_of_eq size.symm, some⟩

namespace Block

variable (block : m.Block x element count) (h : m.Sound)
include block h

/-- A block starts behind the null address, and a step within it ends in the block and in memory. -/
theorem inside (most : i ≤ count) :
    1 ≤ x.address ∧ x.address + i * stride m.core.catalog.word (.pointer element) ≤ x.stop ∧
      x.stop ≤ m.config.memorySize := by
  obtain ⟨-, start, stop⟩ := h.core.fits.table.room x block.mem block.owner
  have steps := Nat.mul_le_mul_right (stride m.core.catalog.word (.pointer element)) most
  rw [h.configured.capacity] at stop
  exact ⟨start, Nat.add_le_add_left (Nat.le_trans steps block.room) _, stop⟩

/-- Only the end of a block may be the end of all addresses. -/
theorem eq_of_le (small : m.config.memorySize ≤ byteRange m.core.catalog.word) (most : i ≤ count)
    (high : byteRange m.core.catalog.word ≤
      x.address + i * stride m.core.catalog.word (.pointer element)) :
    i = count ∧ x.stop = byteRange m.core.catalog.word ∧
      x.address + i * stride m.core.catalog.word (.pointer element) =
        byteRange m.core.catalog.word := by
  obtain ⟨-, below, within⟩ := block.inside h most
  refine ⟨?_, by omega, by omega⟩
  by_contra other
  obtain ⟨-, next, -⟩ := block.inside h (show i + 1 ≤ count by omega)
  have step := stride_pos m.core.catalog.word element
  rw [Nat.succ_mul] at next
  omega

/-- The distance of two elements is in the range of `int` unless the elements are single bytes and
memory is more than half of the addresses. -/
theorem inRange_difference (small : m.config.memorySize ≤ byteRange m.core.catalog.word)
    (wide : 2 ≤ stride m.core.catalog.word (.pointer element) ∨
      2 * m.config.memorySize ≤ byteRange m.core.catalog.word)
    (first : i ≤ count) (second : j ≤ count) :
    InRange m.core.catalog.word true (i - j) := by
  have half := byteRange_eq_two_mul h.core.closed.word_pos
  have few {k : Nat} (most : k ≤ count) : k < twoPow (8 * m.core.catalog.word - 1) := by
    obtain ⟨start, below, within⟩ := block.inside h most
    rcases wide with large | short
    · have twice : k * 2 ≤ k * stride m.core.catalog.word (.pointer element) :=
        Nat.mul_le_mul_left k large
      omega
    · have once : k ≤ k * stride m.core.catalog.word (.pointer element) :=
        Nat.le_mul_of_pos_right k (stride_pos _ _)
      omega
  have low := few first
  have high := few second
  unfold InRange
  rw [if_pos (Bool.true_or _)]
  omega

end Block

/-! ### The laws -/

section

variable {v w : Literal} {op : Operator} {type t : Ty} {a b z : Literal}

/-- A pointer and an integer are compatible operands. -/
theorem Means.moved (base : m.Means p a (.pointer element)) (index : m.Means e v type)
    (number : type.isArithmetic = true)
    (result : apply m.core.catalog.word op a (.pointer element) v type = .ok (z, t)) :
    m.Means (.binary op p e) z t := by
  obtain ⟨single, fits⟩ := Ty.compatible_number element number
  exact base.binary index rfl single fits result

/-- Two pointers of one type are compatible operands. -/
theorem Means.distance (base : m.Means p a (.pointer element))
    (other : m.Means e b (.pointer element))
    (result : apply m.core.catalog.word op a (.pointer element) b (.pointer element) = .ok (z, t)) :
    m.Means (.binary op p e) z t :=
  base.binary other rfl rfl (Ty.compatible_self _) result

end

/-- A pointer to a block that is moved forth within it means the address of that step, or null at
the end of all addresses. -/
theorem Block.means_forth (block : m.Block x element count) (h : m.Sound)
    (small : m.config.memorySize ≤ byteRange m.core.catalog.word)
    (base : m.Means p (.integer x.address) (.pointer element)) (index : m.MeansInteger e i)
    (most : i ≤ count) :
    m.Means (.binary .add p e)
      (.integer ((x.address + i * stride m.core.catalog.word (.pointer element)) %
        byteRange m.core.catalog.word : Nat)) (.pointer element) := by
  obtain ⟨v, type, means, number, whole, value⟩ := index
  obtain ⟨-, below, within⟩ := block.inside h most
  exact base.moved means number
    (apply_forth h.core.closed.word number whole value (by omega))

/-- The laws of pointer arithmetic in a block of a memory whose addresses fit into a word, for a
pointer to its start and indices up to its length. Moved forth and back, the pointer is at the start
again. Below the end of all addresses the difference of a moved pointer and the start, or another moved
pointer, is that of the indices, as far as an `int` shows it; it does so exactly if it is in range, as
it is if the elements are larger than a byte or memory is at most half of the addresses. Only where the
block ends with all addresses, the pointer moved by its length is null. -/
theorem Reachable.pointer_arithmetic (h : m.Reachable)
    (small : m.config.memorySize ≤ byteRange m.config.word) (block : m.Block x element count)
    (base : m.Means p (.integer x.address) (.pointer element))
    (first : m.MeansInteger e i) (second : m.MeansInteger f j) (upTo : i ≤ count) (most : j ≤ count) :
    let word := m.config.word
    let step := stride word (.pointer element)
    m.Means (.binary .sub (.binary .add p e) e) (.integer x.address) (.pointer element) ∧
      (x.address + i * step < byteRange word →
        m.Means (.binary .sub (.binary .add p e) p) (.integer (kept word true i)) Ty.int) ∧
      (x.address + i * step < byteRange word → x.address + j * step < byteRange word →
        m.Means (.binary .sub (.binary .add p e) (.binary .add p f))
          (.integer (kept word true (i - j))) Ty.int) ∧
      (kept word true (i - j) = i - j ↔ InRange word true (i - j)) ∧
      (2 ≤ step ∨ 2 * m.config.memorySize ≤ byteRange word →
        kept word true i = i ∧ kept word true (i - j) = i - j) ∧
      (byteRange word ≤ x.address + i * step →
        i = count ∧ x.stop = byteRange word ∧
          m.Means (.binary .add p e) (.integer 0) (.pointer element)) := by
  have sound := h.sound
  have valid := sound.core.closed.word
  rw [← sound.configured.word] at small ⊢
  intro word step
  obtain ⟨-, below, within⟩ := block.inside sound upTo
  have forth := block.means_forth sound small base first upTo
  have pos := sound.core.closed.word_pos
  refine ⟨?_, fun low => ?_, fun low high => ?_, kept_eq_iff pos, fun wide => ?_, fun high => ?_⟩
  · obtain ⟨v, type, means, number, whole, value⟩ := first
    have some := (sound.core.fits.table.room x block.mem block.owner).1
    have inside : x.address < byteRange m.core.catalog.word := by
      have behind : x.address + x.size ≤ m.config.memorySize := within
      omega
    exact forth.moved means number (apply_back valid number whole value inside (by omega))
  · rw [Nat.mod_eq_of_lt low] at forth
    have apart := apply_distance valid x.address i 0 element
    rw [Nat.zero_mul, Nat.add_zero, Int.natCast_zero, Int.sub_zero] at apart
    exact forth.distance base apart
  · have other := block.means_forth sound small base second most
    rw [Nat.mod_eq_of_lt low] at forth
    rw [Nat.mod_eq_of_lt high] at other
    exact forth.distance other (apply_distance valid x.address i j element)
  · have alone := block.inRange_difference sound small wide upTo (Nat.zero_le count)
    rw [Int.natCast_zero, Int.sub_zero] at alone
    exact ⟨(kept_eq_iff pos).2 alone,
      (kept_eq_iff pos).2 (block.inRange_difference sound small wide upTo most)⟩
  · obtain ⟨last, ends, whole⟩ := block.eq_of_le sound small upTo high
    rw [whole, Nat.mod_self] at forth
    exact ⟨last, ends, forth⟩

/-- In an array of two numbers the pointer behind the last one is two steps from the start and one
from the second element. -/
theorem pointer_arithmetic_pair :
    let p : Expr := .name (.named "p")
    let one : Expr := .literal (.integer (1 : Nat))
    let two : Expr := .literal (.integer (2 : Nat))
    aimed.Means (.binary .sub (.binary .add p two) two) (.integer 16) (.pointer Ty.int) ∧
      aimed.Means (.binary .sub (.binary .add p two) p) (.integer 2) Ty.int ∧
      aimed.Means (.binary .sub (.binary .add p two) (.binary .add p one)) (.integer 1) Ty.int := by
  let a : Variable := ⟨.named "p", .pointer Ty.int, 24, 4, .pointer⟩
  have reached : aimed.Reachable := (reachable_fresh.ran _).ran _
  have small : aimed.config.memorySize ≤ byteRange aimed.config.word := by decide +kernel
  have width : aimed.config.word = 4 := by decide +kernel
  have mem : pair ∈ aimed.core.symbols.entries := by decide +kernel
  have pointing : a ∈ aimed.core.symbols.entries := by decide +kernel
  have loaded : aimed.core.memory.load aimed.core.catalog a.address (.pointer Ty.int) =
      .ok (.integer pair.address) := by decide +kernel
  have base := means_pointer reached.sound pointing rfl loaded
  obtain ⟨back, start, other, -, exact, -⟩ := reached.pointer_arithmetic small
    (block_of_array reached.sound mem rfl) base (aimed.meansInteger_integer (2 : Nat))
    (aimed.meansInteger_integer (1 : Nat)) (by decide) (by decide)
  rw [width] at start other exact
  obtain ⟨two, one⟩ := exact (.inl (by decide))
  rw [two] at start
  rw [one] at other
  exact ⟨back, start (by decide), other (by decide) (by decide)⟩

/-! ### The limits -/

/-- A line that declares an array is committed if there is room for it, and the array is one more
owner. -/
theorem execute_arrayDeclaration (h : m.Sound) {line : String} {id : Identifier} {met : List Ty}
    (read : Statement.parse m.scope (Statement.clean line) =
      (.ok (some (.arrayDeclaration (.array element count) id)), met))
    (new : id ∉ m.core.symbols.entries.map Variable.id) {address : Nat} {table : Symbols}
    (room : m.core.symbols.allocate (m.core.catalog.size (.array element count)) =
      .ok (address, table)) :
    ∃ r n, m.execute line = (.ok r, n) ∧ n.config = m.config ∧ n.core.symbols.entries =
      m.core.symbols.entries ++ [.owner m.core.catalog id (.array element count) address] := by
  let s : Core := { (m.meet met).core with stack := [] }
  have grows : m.core.catalog.Extends s.catalog := Catalog.extends_internAll met m.core.catalog
  have made : Variable.owner s.catalog id (.array element count) address =
      .owner m.core.catalog id (.array element count) address := by
    simp only [Variable.owner, grows.size]
  obtain ⟨grown, inserted⟩ : ∃ grown,
      table.insert (.owner s.catalog id (.array element count) address) = .ok grown := by
    obtain ⟨stream, -, rfl⟩ := Symbols.allocate_eq_ok room
    exact ⟨_, Symbols.insert_new new rfl⟩
  have allocated : (Run.allocate id (.array element count)).run.run s =
      (.ok address, { s with symbols := grown }) :=
    Run.allocate_eq_ok.2 ⟨table, grown, grows.size _ ▸ room, inserted, rfl⟩
  have coded : (Run.code (Statement.arrayDeclaration (.array element count) id).compile).run.run s =
      (.ok (), { s with symbols := grown, stack := [.named id] }) := by
    have free : s.symbols.contains id = false :=
      Bool.eq_false_iff.2 fun old => new (Symbols.contains_iff.1 old)
    have made : (Run.createArray id (.array element count) false).run.run s =
        (.ok (), { s with symbols := grown }) := by
      rw [Run.createArray, run_bind, allocated]
      rfl
    show (Run.create (.array element count) id false >>= fun _ => pure ()).run.run s = _
    rw [bind_pure_unit, Run.create, Run.run_symbols_bind, free, if_neg Bool.false_ne_true]
    dsimp only
    rw [run_bind, made]
    rfl
  have more : grown.entries =
      m.core.symbols.entries ++ [.owner m.core.catalog id (.array element count) address] :=
    made ▸ Symbols.entries_of_placed room inserted
  have registered : Variable.owner m.core.catalog id (.array element count) address ∈
      grown.entries := more ▸ List.mem_append_right _ (List.mem_singleton_self _)
  obtain ⟨v, found⟩ := Symbols.get?_of_mem registered
  have ran := Run.statement_of_named coded rfl found
  have done : m.execute line = (.ok (some v), (m.meet met).commit (Statement.clean line)
      { s with symbols := grown, stack := [] }) := by
    rw [(execute_read read).2]
    exact perform_done ran
  obtain ⟨u, coded', -, -, -, whole⟩ := coded_eq_ok h read done
  cases coded.symm.trans coded'
  refine ⟨_, _, done, rfl, (whole _ more ?_).1.trans more⟩
  exact List.forall_mem_singleton.2 (Variable.isAlias_owner _ _ _ _)

/-- The settings of a machine whose memory has all the addresses of a word of two bytes. -/
def brim : Config := { word := 2, memorySize := 65536 }

/-- The streams of that machine. -/
def brimStreams : Symbols :=
  (Symbols.registerInts (.standard brim.word) (standardStreams.map Prod.fst)
    (.empty brim.memorySize brim.word brim.placement brim.seed)).toOption.getD default

theorem registerInts_brim :
    Symbols.registerInts (.standard brim.word) (standardStreams.map Prod.fst)
      (.empty brim.memorySize brim.word brim.placement brim.seed) = .ok brimStreams := by
  decide +kernel

/-- An array of characters may fill the rest of that memory. Moved by 40000, a pointer to its start is
at a distance of -25536 from it; moved by the length of the array it is null, and at a distance of
-8. -/
theorem pointer_distance_wraps :
    ∃ (m : Machine) (x : Variable), m.Reachable ∧ m.config.memorySize = byteRange m.config.word ∧
      x ∈ m.core.symbols.entries ∧ x.type = .array Ty.char 65528 ∧ x.isAlias = false ∧
      m.Means (.name x.id) (.integer x.address) (.pointer Ty.char) ∧
      let moved (n : Nat) : Expr := .binary .add (.name x.id) (.literal (.integer n))
      let distance (n : Nat) : Expr := .binary .sub (moved n) (.name x.id)
      (∀ n : Nat, m.MeansInteger (.literal (.integer n)) n) ∧
        m.Means (distance 40000) (.integer (-25536)) Ty.int ∧
        ¬ m.Means (distance 40000) (.integer 40000) Ty.int ∧
        m.Means (moved 65528) (.integer 0) (.pointer Ty.char) ∧
        m.Means (distance 65528) (.integer (-8)) Ty.int ∧
        ¬ m.Means (distance 65528) (.integer 65528) Ty.int := by
  let x : Variable := ⟨.named "a", .array Ty.char 65528, 8, 65528, .array Ty.char 65528⟩
  obtain ⟨m, created, symbols, catalog⟩ :=
    create_of_registerInts (c := brim) (by decide) registerInts_brim .silent
  have reached := Reachable.created created
  have configured := reached.sound.configured
  have scope : m.scope = ⟨2, fun name => (brimStreams.named? name).isSome⟩ := by
    simp only [Machine.scope, symbols, catalog]
    rfl
  have read : Statement.parse m.scope (Statement.clean "char a[65528]") =
      (.ok (some (.arrayDeclaration (.array Ty.char 65528) (.named "a"))),
        [.array Ty.char 65528]) := by
    rw [scope]
    decide +kernel
  have new : Identifier.named "a" ∉ m.core.symbols.entries.map Variable.id := by
    rw [symbols]
    decide +kernel
  have room : m.core.symbols.allocate (m.core.catalog.size (.array Ty.char 65528)) =
      .ok (8, brimStreams) := by
    rw [symbols, catalog]
    decide +kernel
  obtain ⟨r, n, done, config, entries⟩ :=
    execute_arrayDeclaration reached.sound read new room
  have later := reached.of_done done
  have width : n.config.word = 2 := by
    rw [config, ← configured.word, catalog]
    rfl
  have word : n.core.catalog.word = 2 := later.sound.configured.word.trans width
  have size : n.config.memorySize = 65536 := by
    rw [config, ← configured.capacity, symbols]
    decide +kernel
  have mem : x ∈ n.core.symbols.entries := by
    rw [entries, catalog]
    exact List.mem_append_right _ (List.mem_singleton_self _)
  have base : n.Means (.name x.id) (.integer x.address) (.pointer Ty.char) :=
    means_array later.sound mem rfl rfl
  have moved {i : Nat} {v w : Int}
      (number : (Ty.ofInteger 2 (i : Int)).isArithmetic = true)
      (forth : apply 2 .add (.integer 8) (.pointer Ty.char) (.integer i) (Ty.ofInteger 2 i) =
        .ok (.integer v, .pointer Ty.char))
      (back : apply 2 .sub (.integer v) (.pointer Ty.char) (.integer 8) (.pointer Ty.char) =
        .ok (.integer w, Ty.int)) :
      n.Means (.binary .add (.name x.id) (.literal (.integer i))) (.integer v)
          (.pointer Ty.char) ∧
        n.Means (.binary .sub (.binary .add (.name x.id) (.literal (.integer i))) (.name x.id))
          (.integer w) Ty.int := by
    rw [← word] at number forth back
    have there := base.moved (n.means_integer i) number forth
    exact ⟨there, there.distance base back⟩
  obtain ⟨-, near⟩ := moved (i := 40000) (v := 40008) (w := -25536) (by decide) (by decide)
    (by decide)
  obtain ⟨null, behind⟩ := moved (i := 65528) (v := 0) (w := -8) (by decide) (by decide)
    (by decide)
  refine ⟨n, x, later, by rw [width, size]; rfl, mem, rfl, rfl, base,
    fun i => n.meansInteger_integer i, near, fun exact => ?_, null, behind, fun exact => ?_⟩
  · cases (near.unique exact).1
  · cases (behind.unique exact).1

end Machine

end ByteMachine
