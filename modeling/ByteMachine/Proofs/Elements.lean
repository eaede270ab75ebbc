import ByteMachine.Proofs.AddressSums
import ByteMachine.Proofs.Indexing

/-!
# Three ways to an element

An element of an array is reached by an index of the array, by an index of a pointer to its start,
and by following that pointer after the index was added to it. The first one computes a place, the
other two an address at which storage is looked for; the address of a sum is also wrapped to a word.
As long as the addresses of memory fit into a word, nothing is lost in any of them, and all three
denote the same address with the same type, in the bytes of the array.

Key definitions: `Core.Gives`, `Core.Reaches`, `Core.Leading`.
Key theorems: `elementAddress?_of_lt`, `Arithmetic.apply_step`, `Run.run_binary`,
`Core.Leading.index_array`, `Core.Leading.index_pointer`, `Core.Leading.follow_sum`,
`Machine.Reachable.element_access_agrees`.
-/

namespace ByteMachine

open Discipline Number

/-! ### Addresses of elements -/

/-- An address behind another one is found if it is an address. -/
theorem elementAddress?_of_lt {start position size : Nat}
    (low : start + position * size < addressBound) :
    elementAddress? start position size = some (start + position * size) := by
  have step : fitsWide ((position * size : Nat) : Int) = true := Layout.fitsWide_of_le (by omega)
  have whole : fitsWide ((start + position * size : Nat) : Int) = true :=
    Layout.fitsWide_of_le (by omega)
  have inside := Literal.toAddress?_integer low
  rw [Literal.toAddress?, Literal.toInteger?, Option.bind_some] at inside
  push_cast at step whole inside
  simp only [elementAddress?, step, whole, inside, Bool.and_self, if_true]

namespace Number

/-- A number below the bound of the addresses is not narrowed. -/
theorem narrow_of_lt {n : Nat} (low : n < addressBound) : narrow n = n :=
  narrow_of_fitsWide (Layout.fitsWide_of_le (Nat.le_of_lt low))

/-- A number that fits into a word is not wrapped. -/
theorem wrap_of_lt {word n : Nat} (valid : Catalog.isWordSize word = true)
    (low : n < byteRange word) : wrap n word false = n := by
  have few := (Catalog.isWordSize_bounds valid).2
  rw [wrap, if_neg (by omega), if_neg Bool.false_ne_true]
  exact Int.emod_eq_of_lt (Int.natCast_nonneg n) (Int.ofNat_lt.2 low)

end Number

/-- An arithmetic type is that of a scalar. -/
theorem Ty.strip_of_isArithmetic {t : Ty} (number : t.isArithmetic = true) :
    ∃ p, t.strip = .scalar p := by
  unfold isArithmetic scalar? at number
  split at number
  · next p same => exact ⟨p, same⟩
  · cases number

/-- An arithmetic type is no array, and stays one. -/
theorem Ty.decay_of_isArithmetic {t : Ty} (number : t.isArithmetic = true) :
    t.isArray = false ∧ t.decay.isArithmetic = true := by
  obtain ⟨p, same⟩ := strip_of_isArithmetic number
  have arithmetic : (scalar p).isArithmetic = true := by
    rw [isArithmetic, scalar?, same] at number
    exact number
  rw [isArray, arrayShape?, decay, same]
  exact ⟨rfl, arithmetic⟩

/-- A pointer is no array, and stays one. -/
theorem Ty.decay_of_isPointer {t : Ty} (address : t.isPointer = true) :
    t.isArray = false ∧ t.decay.isPointer = true := by
  unfold isPointer at address
  split at address
  · next same =>
    rw [isArray, arrayShape?, decay, same]
    exact ⟨rfl, rfl⟩
  · cases address

/-- Numbers and addresses are compatible. -/
theorem Ty.compatible_of_decay {a b : Ty} (first : (a.decay.isPointer || a.decay.isArithmetic) = true)
    (second : (b.decay.isPointer || b.decay.isArithmetic) = true) : a.compatible b = true := by
  simp only [compatible, first, second, Bool.or_true, Bool.and_self]

namespace Arithmetic

/-- What is added to a pointer or taken from it is multiplied by the size of its target, and the new
address wrapped. -/
theorem apply_pointer_offset {word : Nat} {op : Operator} {start n : Int} {element type : Ty}
    {v : Literal} (moves : op = .add ∨ op = .sub) (number : type.isArithmetic = true)
    (whole : type.isFloat = false) (value : v.toInteger? = some n) :
    let step := mulWide n (max (element.size word) 1 : Nat)
    apply word op (.integer start) (.pointer element) v type =
      .ok (.integer (wrap (if op = .sub then subWide start step else addWide start step) word
        false), .pointer element) := by
  have pointer : (Ty.pointer element).isPointer = true := rfl
  have single : type.isPointer = false := by
    obtain ⟨p, same⟩ := Ty.strip_of_isArithmetic number
    rw [Ty.isPointer, same]
  have first : (Literal.integer start).toInteger? = some start := rfl
  have size : stride word (.pointer element) = max (element.size word) 1 := rfl
  have taken : (op != .add && op != .sub) = false := by
    rcases moves with rfl | rfl <;> rfl
  simp only [apply, pointer, single, offset, taken, number, whole, value, first, size,
    Bool.not_true, Bool.or_self, Bool.false_eq_true, if_false]

theorem apply_pointer_add {word : Nat} {start n : Int} {element type : Ty} {v : Literal}
    (number : type.isArithmetic = true) (whole : type.isFloat = false)
    (value : v.toInteger? = some n) :
    apply word .add (.integer start) (.pointer element) v type =
      .ok (.integer (wrap (addWide start (mulWide n (max (element.size word) 1 : Nat))) word
        false), .pointer element) :=
  apply_pointer_offset (.inl rfl) number whole value

/-- A pointer is moved by as many elements as are added to it, if the address of the last one fits
into a word. -/
theorem apply_step {word start position : Nat} {element type : Ty} {v : Literal}
    (valid : Catalog.isWordSize word = true) (sized : 1 ≤ element.size word)
    (number : type.isArithmetic = true) (whole : type.isFloat = false)
    (value : v.toInteger? = some (position : Int))
    (low : start + position * element.size word < byteRange word) :
    apply word .add (.integer start) (.pointer element) v type =
      .ok (.integer (start + position * element.size word : Nat), .pointer element) := by
  have inside := Nat.lt_of_lt_of_le low (byteRange_le_addressBound valid)
  have step : mulWide position (element.size word) = (position * element.size word : Nat) := by
    rw [mulWide, ← Int.natCast_mul, narrow_of_lt (by omega)]
  have sum : addWide start (position * element.size word : Nat) =
      (start + position * element.size word : Nat) := by
    rw [addWide, ← Int.natCast_add, narrow_of_lt inside]
  rw [apply_pointer_add number whole value, Nat.max_eq_left sized, step, sum, wrap_of_lt valid low]

end Arithmetic

/-! ### An array and a pointer to its start -/

/-- The expression evaluates to an integer, whatever lies below, and changes neither memory nor
variables. -/
def Core.Gives (s : Core) (e : Expr) (i : Int) : Prop :=
  ∀ base, ∃ t, s.Evaluates base e i t ∧ t.memory = s.memory ∧ t.symbols = s.symbols

theorem Core.gives_integer (s : Core) (n : Int) : s.Gives (.literal (.integer n)) n :=
  fun base => ⟨s, s.evaluates_integer base n, rfl, rfl⟩

/-- The expression leaves one operand, which denotes the address with the type, in the bytes of the
owner. -/
def Core.Reaches (s : Core) (e : Expr) (address : Nat) (t : Ty) (owner : Variable) : Prop :=
  ∃ o u, (Run.code e.compile).run.run s = (.ok (), u) ∧ u.stack = o :: s.stack ∧
    u.Denotes o address t owner

/-- Of two registered variables one is an array and the other a pointer to its start; the addresses
of memory fit into a word. -/
structure Core.Leading (s : Core) (x p : Variable) (element : Ty) (count : Nat) : Prop where
  fits : Fits s.catalog s.memory s.symbols
  bound : s.symbols.Bound
  word : Catalog.isWordSize s.catalog.word = true
  small : s.memory.size ≤ byteRange s.catalog.word
  array : x.ArrayOf s.catalog element count
  held : x ∈ s.symbols.entries
  pointing : p ∈ s.symbols.entries
  pointer : p.type = .pointer element
  loaded : s.memory.load s.catalog p.address (.pointer element) = .ok (.integer x.address)

namespace Core.Leading

variable {s t : Core} {x p : Variable} {element : Ty} {count position : Nat} {e : Expr}

/-- It does not matter which types were met. -/
theorem congr (h : s.Leading x p element count) (memory : t.memory = s.memory)
    (symbols : t.symbols = s.symbols) (grows : s.catalog.Extends t.catalog) :
    t.Leading x p element count where
  fits := by rw [memory, symbols]; exact h.fits.grow grows
  bound := symbols ▸ h.bound
  word := grows.word.symm ▸ h.word
  small := by rw [memory, grows.word]; exact h.small
  array := h.array.grow grows
  held := symbols ▸ h.held
  pointing := symbols ▸ h.pointing
  pointer := h.pointer
  loaded := by
    have loaded := h.loaded
    simp only [Memory.load, memory, grows.word] at loaded ⊢
    exact loaded

/-- The address of every element fits into a word. -/
theorem address_lt (h : s.Leading x p element count) (low : position < count) :
    x.address + position * s.catalog.size element < byteRange s.catalog.word := by
  obtain ⟨-, inside⟩ := Variable.spans_iff.1 (h.array.contains low).2
  have room := (h.fits.table.room x h.held h.array.owner).2.2
  have small := h.small
  have sized := h.array.sized
  rw [h.fits.capacity] at room
  omega

/-- What is looked for at the address of an element denotes it. -/
theorem resolve_element (h : s.Leading x p element count) (low : position < count) :
    ∃ o, (Run.resolve (x.address + position * s.catalog.size element) element).run.run s =
        (.ok o, s) ∧ s.Denotes o (x.address + position * s.catalog.size element) element x := by
  have first := (h.fits.table.room x h.held h.array.owner).2.1
  exact Run.resolve_contained h.fits h.bound (by omega) h.array.plain h.array.sized h.held
    (h.array.contains low)

/-- Reading the pointer gives the address of the array. -/
theorem read_pointer (h : s.Leading x p element count) :
    (Run.read (.named p.id)).run.run s = (.ok (.integer x.address, .pointer element), s) :=
  Run.run_read_pointer (h.fits.table.get?_id h.pointing) h.pointer h.loaded

end Core.Leading

/-! ### The three ways -/

/-- An arithmetic type is no array, and compatible with every pointer. -/
theorem Ty.compatible_number {type : Ty} (target : Ty) (number : type.isArithmetic = true) :
    type.isArray = false ∧ (Ty.pointer target).compatible type = true := by
  obtain ⟨single, arithmetic⟩ := Ty.decay_of_isArithmetic number
  exact ⟨single, Ty.compatible_of_decay rfl (by rw [arithmetic, Bool.or_true])⟩

/-- No type is met when a pointer is compared with a number. -/
theorem Run.run_checkCompatible_number {s : Core} {type target : Ty}
    (number : type.isArithmetic = true) :
    (Run.checkCompatible (.pointer target) type).run.run s = (.ok (), s) := by
  obtain ⟨single, fits⟩ := Ty.compatible_number _ number
  exact Run.run_checkCompatible_single rfl single fits

/-- Where the two operands on top are read and compatible, an operator comes down to what it makes
of their values. -/
theorem Run.run_binary_read (op : Operator) {l r : Operand} {rest : List Operand}
    {s t u v : Core} {x y : Literal} {lt rt : Ty} (top : s.stack = r :: l :: rest)
    (left : (Run.read l).run.run { s with stack := rest } = (.ok (x, lt), t))
    (right : (Run.read r).run.run t = (.ok (y, rt), u))
    (checked : (Run.checkCompatible lt rt).run.run u = (.ok (), v)) :
    (Run.binary op).run.run s = (Run.lift (Arithmetic.apply v.catalog.word op x lt y rt) >>= fun r =>
      Run.pushValue r.1 r.2).run.run v := by
  rw [Run.binary, run_bind, Run.run_pop, top]
  dsimp only
  rw [run_bind, Run.run_pop]
  dsimp only
  rw [run_bind, left]
  dsimp only
  rw [run_bind, right]
  dsimp only
  rw [run_bind, checked]
  rfl

/-- An operator on the two operands on top leaves its result. -/
theorem Run.run_binary {op : Operator} {l r : Operand} {rest : List Operand} {s t u v : Core}
    {x y z : Literal} {lt rt type : Ty} (top : s.stack = r :: l :: rest)
    (left : (Run.read l).run.run { s with stack := rest } = (.ok (x, lt), t))
    (right : (Run.read r).run.run t = (.ok (y, rt), u))
    (checked : (Run.checkCompatible lt rt).run.run u = (.ok (), v))
    (result : Arithmetic.apply v.catalog.word op x lt y rt = .ok (z, type)) :
    (Run.binary op).run.run s = (Run.push (.value z type)).run.run v := by
  rw [Run.run_binary_read op top left right checked, result]
  rfl

namespace Core.Leading

variable {s t : Core} {x p : Variable} {element : Ty} {count position : Nat} {e : Expr}

/-- What was found is left by the instruction that pushes it. -/
theorem reaches_of_push {address : Nat} {o : Operand} (found : t.Denotes o address element x)
    (stack : t.stack = s.stack)
    (ran : (Run.code e.compile).run.run s = (Run.push o).run.run t) :
    s.Reaches e address element x :=
  ⟨o, { t with stack := o :: t.stack }, ran, stack ▸ rfl, found.congr rfl⟩

/-- An index of the array reaches the element. -/
theorem index_array (h : s.Leading x p element count) (held : ∀ o ∈ s.stack, o.Held s.symbols)
    (gives : s.Gives e position) (low : position < count) :
    s.Reaches (.index (.name x.id) e) (x.address + position * s.catalog.size element) element
      x := by
  obtain ⟨t, evaluated, memory, symbols⟩ := gives (.named x.id)
  have inside := Nat.lt_of_lt_of_le (h.address_lt low) (byteRange_le_addressBound h.word)
  have few : position ≤ position * s.catalog.size element :=
    Nat.le_mul_of_pos_right _ h.array.sized
  have cut : ((position : Int) % (addressBound : Int)).toNat = position := by
    rw [Int.emod_eq_of_lt (by omega) (by omega), Int.toNat_natCast]
  have ran := Run.run_index_array h.fits.table h.held h.array held evaluated
  rw [cut, if_neg (by omega)] at ran
  exact ⟨_, _, ran, rfl, Core.denotes_place _ _ h.array.plain x⟩

/-- An index of the pointer reaches the element. -/
theorem index_pointer (h : s.Leading x p element count) (held : ∀ o ∈ s.stack, o.Held s.symbols)
    (gives : s.Gives e position) (low : position < count) :
    s.Reaches (.index (.name p.id) e) (x.address + position * s.catalog.size element) element
      x := by
  obtain ⟨t, evaluated, memory, symbols⟩ := gives (.named p.id)
  obtain ⟨-, grows, stack⟩ := evaluated.keeps held ⟨p, h.pointing, rfl⟩
  have kept := h.congr memory symbols grows
  obtain ⟨o, found, denotes⟩ := kept.resolve_element low
  have points : t.Points (.named p.id) (.integer x.address) element t :=
    ⟨.pointer element, kept.read_pointer, rfl, h.array.typed⟩
  have inside := Nat.lt_of_lt_of_le (kept.address_lt low) (byteRange_le_addressBound kept.word)
  have start := Literal.toAddress?_integer (Nat.lt_of_le_of_lt (Nat.le_add_right _ _) inside)
  have leads : ((Literal.integer x.address).toAddress?.bind fun start =>
      elementAddress? start position (t.catalog.size element)) =
        some (x.address + position * t.catalog.size element) := by
    rw [start, Option.bind_some, elementAddress?_of_lt inside]
  rw [← grows.size]
  refine reaches_of_push denotes stack ?_
  rw [Run.run_index_evaluated (Run.run_name (h.fits.table.get?_id h.pointing)) evaluated, run_bind,
    Run.run_storage?_named (kept.fits.table.get?_id kept.pointing)]
  have shape : p.type.strip.arrayShape? = none := by rw [h.pointer]; rfl
  simp only [shape]
  rw [run_bind, Run.run_elementBehind_of_points points leads, found]

/-- The sum of the pointer and an index is the address of the element. -/
theorem add_pointer (h : s.Leading x p element count) (held : ∀ o ∈ s.stack, o.Held s.symbols)
    (gives : s.Gives e position) (low : position < count) :
    ∃ t : Core, t.memory = s.memory ∧ t.symbols = s.symbols ∧ s.catalog.Extends t.catalog ∧
      t.stack = s.stack ∧
      (Run.code (Expr.binary .add (.name p.id) e).compile).run.run s =
        (Run.push (.value (.integer (x.address + position * t.catalog.size element : Nat))
          (.pointer element))).run.run t := by
  obtain ⟨t, evaluated, memory, symbols⟩ := gives (.named p.id)
  obtain ⟨-, grows, stack⟩ := evaluated.keeps held ⟨p, h.pointing, rfl⟩
  obtain ⟨o, u, v, type, ran, top, read, number, whole, value⟩ := evaluated
  refine ⟨t, memory, symbols, grows, stack, ?_⟩
  -- Before the index is read, the pointer is; only the types that were met are told apart.
  obtain ⟨met, same⟩ := (Run.read_looks o).eq_of_run read
  have word : u.catalog.word = s.catalog.word := met.word.symm.trans grows.word
  have first : (Run.read (.named p.id)).run.run { u with stack := s.stack } =
      (.ok (.integer x.address, .pointer element), { u with stack := s.stack }) := by
    have found : u.symbols.get? p.id = some p := by
      have alike : t.symbols = u.symbols := by rw [same]
      rw [← alike, symbols]
      exact h.fits.table.get?_id h.pointing
    have alike : t.memory = u.memory := by rw [same]
    have loaded := h.loaded
    simp only [Memory.load, ← memory, alike, ← word] at loaded
    exact Run.run_read_pointer found h.pointer loaded
  have kept := h.congr memory symbols grows
  have sum := Arithmetic.apply_step kept.word kept.array.sized number whole value
    (kept.address_lt low)
  have both : (Run.code (Expr.binary .add (.name p.id) e).compile).run.run s =
      (Run.binary .add).run.run u :=
    Run.run_operands (Run.run_name (h.fits.table.get?_id h.pointing)) ran
  rw [both]
  exact Run.run_binary top first read (Run.run_checkCompatible_number number) sum

/-- Following the sum of the pointer and an index reaches the element. -/
theorem follow_sum (h : s.Leading x p element count) (held : ∀ o ∈ s.stack, o.Held s.symbols)
    (gives : s.Gives e position) (low : position < count) :
    s.Reaches (.dereference 1 (.binary .add (.name p.id) e))
      (x.address + position * s.catalog.size element) element x := by
  obtain ⟨t, memory, symbols, grows, stack, ran⟩ := h.add_pointer held gives low
  have kept := h.congr memory symbols grows
  obtain ⟨o, found, denotes⟩ := kept.resolve_element low
  have inside := Nat.lt_of_lt_of_le (kept.address_lt low) (byteRange_le_addressBound kept.word)
  have points : t.Points (.value (.integer (x.address + position * t.catalog.size element : Nat))
      (.pointer element)) (.integer (x.address + position * t.catalog.size element : Nat)) element
        t := ⟨.pointer element, rfl, rfl, h.array.typed⟩
  have followed := Run.run_follow_of_points points (Literal.toAddress?_integer inside)
  rw [← grows.size]
  refine reaches_of_push denotes stack ?_
  have last : (Run.code (Expr.dereference 1 (.binary .add (.name p.id) e)).compile).run.run s =
      (Run.dereference 1).run.run { t with stack := _ :: t.stack } := Run.run_code_last ran
  rw [last, Run.dereference, run_bind, Run.run_pop]
  dsimp only
  show (Run.follow _ >>= pure >>= Run.push).run.run t = _
  rw [bind_pure, run_bind, followed, found]

end Core.Leading

namespace Machine

variable {m : Machine}

/-- Whatever the byte order: where the addresses of memory fit into a word and a pointer holds the
address of an array, an index of the array, an index of the pointer and the sum of the pointer and
the index, followed, all succeed and denote the same element with the same type, for every index
within the array that is spelled out or that an expression gives without an effect. -/
theorem Reachable.element_access_agrees (h : m.Reachable)
    (small : m.config.memorySize ≤ byteRange m.config.word) {x p : Variable} {element : Ty}
    {count : Nat} (mx : x ∈ m.core.symbols.entries) (array : x.type = .array element count)
    (mp : p ∈ m.core.symbols.entries) (pointer : p.type = .pointer element)
    (loaded : m.core.memory.load m.core.catalog p.address (.pointer element) =
      .ok (.integer x.address)) {s : Core} (starts : m.Starts s) {position : Nat}
    (low : position < count) :
    let address := x.address + position * m.core.catalog.size element
    s.Gives (.literal (.integer position)) position ∧
      ∀ e : Expr, s.Gives e position →
        s.Reaches (.index (.name x.id) e) address element x ∧
        s.Reaches (.index (.name p.id) e) address element x ∧
        s.Reaches (.dereference 1 (.binary .add (.name p.id) e)) address element x := by
  intro address
  have sound := h.sound
  have leading : m.core.Leading x p element count :=
    { fits := sound.core.fits
      bound := sound.bound
      word := sound.core.closed.word
      small := by rw [sound.configured.memory, sound.configured.word]; exact small
      array := sound.core.arrayOf mx array
      held := mx
      pointing := mp
      pointer := pointer
      loaded := loaded }
  have kept := leading.congr starts.memory starts.symbols starts.catalog
  refine ⟨s.gives_integer position, fun e gives => ?_⟩
  have same : s.catalog.size element = m.core.catalog.size element := starts.catalog.size element
  show s.Reaches _ (x.address + position * _) _ _ ∧ s.Reaches _ (x.address + position * _) _ _ ∧
    s.Reaches _ (x.address + position * _) _ _
  rw [← same]
  exact ⟨kept.index_array starts.held gives low, kept.index_pointer starts.held gives low,
    kept.follow_sum starts.held gives low⟩

/-- The machine with the array of two numbers and a pointer to its start. -/
def aimed : Machine := (paired.runProgram "int* p = a").2

/-- The second element of the array is reached in each of the three ways. -/
theorem element_access_agrees_pair :
    Core.Reaches { aimed.core with stack := [] }
        (.index (.name pair.id) (.literal (.integer (1 : Nat)))) 20 Ty.int pair ∧
      Core.Reaches { aimed.core with stack := [] }
        (.index (.name (.named "p")) (.literal (.integer (1 : Nat)))) 20 Ty.int pair ∧
      Core.Reaches { aimed.core with stack := [] }
        (.dereference 1 (.binary .add (.name (.named "p")) (.literal (.integer (1 : Nat))))) 20
          Ty.int pair := by
  let p : Variable := ⟨.named "p", .pointer Ty.int, 24, 4, .pointer⟩
  have reached : aimed.Reachable := (reachable_fresh.ran _).ran _
  have small : aimed.config.memorySize ≤ byteRange aimed.config.word := by decide +kernel
  have ma : pair ∈ aimed.core.symbols.entries := by decide +kernel
  have mp : p ∈ aimed.core.symbols.entries := by decide +kernel
  have loaded : aimed.core.memory.load aimed.core.catalog p.address (.pointer Ty.int) =
      .ok (.integer pair.address) := by decide +kernel
  have size : aimed.core.catalog.size Ty.int = 4 := by decide +kernel
  obtain ⟨given, all⟩ := reached.element_access_agrees small ma rfl mp rfl loaded
    aimed.starts_core (show 1 < 2 by decide)
  rw [size] at all
  exact all _ given

end Machine

end ByteMachine
