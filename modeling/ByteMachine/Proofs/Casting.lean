import ByteMachine.Proofs.Assignment
import ByteMachine.Proofs.Elements
import ByteMachine.Proofs.FloatBytes
import ByteMachine.Proofs.StoredValues

/-!
# A cast and a variable

A cast converts a number or an address to a scalar type, and so does a variable of that type in which
it is stored. Both refuse the same values. For an integral type both give the integer that its bytes
keep; for a float of four bytes both round to single precision, and in eight bytes both leave it as it
is. In two bytes a variable holds the half precision number, while the cast leaves the float as it is;
and in sixteen a variable gives a signalling NaN back as a quiet one.

Key definitions: `Scalar.held?`.
Key theorems: `Memory.load_stored_scalar`, `Memory.store_scalar_iff`, `Run.converted?_of_integral`,
`Run.converted?_held?`, `Run.run_assignTo_scalar`, `Run.cast_agrees_with_store`,
`Machine.half_cast_is_not_rounded`.
-/

namespace ByteMachine

open Discipline Number

/-! ### A variable of a scalar type -/

/-- What a variable of the type holds of a number. -/
def Scalar.held? (word : Nat) (s : Scalar) (v : Literal) : Option Literal :=
  if s.isFloat then v.toFloat?.map fun x => .float (x.held (s.size word))
  else (Ty.scalar s).kept? word v

theorem Literal.toFloat?_isSome (v : Literal) : v.toFloat?.isSome = v.toInteger?.isSome := by
  cases v <;> simp only [toFloat?, toInteger?, Option.isSome_some, Option.isSome_none]

theorem Scalar.size_of_isFloat {word : Nat} (valid : Catalog.isWordSize word = true) {s : Scalar}
    (float : s.isFloat = true) :
    s.size word = 2 ∨ s.size word = 4 ∨ s.size word = 8 ∨ s.size word = 16 := by
  simp only [Catalog.isWordSize, Bool.or_eq_true, decide_eq_true_eq] at valid
  rcases valid with (rfl | rfl) | rfl <;> revert float <;> cases s <;> decide

namespace Memory

variable {m n : Memory} {c : Catalog} {a : Nat} {s : Scalar} {v : Literal}

/-- A number that is stored at a scalar type is read back as what a variable of the type holds. -/
theorem load_stored_scalar (word : Catalog.isWordSize c.word = true)
    (number : s.isArithmetic = true) (e : m.store c a (.scalar s) v = .ok n) :
    ∃ w, s.held? c.word v = some w ∧ n.load c a (.scalar s) = .ok w := by
  obtain ⟨bs, encoded, loaded⟩ := load_eq_decode rfl e
  have sized : s ≠ .any := by simpa [Scalar.isArithmetic] using number
  rw [loaded]
  by_cases float : s.isFloat = true
  · simp only [encode, sized, float, if_true, if_false] at encoded
    cases k : v.toFloat? with
    | none =>
      rw [k] at encoded
      cases encoded
    | some x =>
      rw [k] at encoded
      have decoded := ByteOrder.decodeFloat_encodeFloat encoded
      refine ⟨.float (x.held (s.size c.word)), by rw [Scalar.held?, if_pos float, k]; rfl, ?_⟩
      cases s with
      | float | double =>
        simp only [decode, float, decoded, if_true]
        rfl
      | _ => cases float
  · have integral := Scalar.isIntegral_iff.2 ⟨sized, Bool.eq_false_iff.2 float⟩
    have kind := Ty.integers?_of_isIntegral c.word integral
    obtain ⟨i, whole⟩ := Option.isSome_iff_exists.1 ((encode_integer_isOk word kind).1 ⟨bs, encoded⟩)
    rw [Scalar.held?, if_neg float]
    exact decode_encode_integer word kind whole encoded

/-- Exactly numbers can be stored at a scalar type where it has room. -/
theorem store_scalar_iff (word : Catalog.isWordSize c.word = true)
    (number : s.isArithmetic = true) (room : a + s.size c.word ≤ m.size) :
    (∃ n, m.store c a (.scalar s) v = .ok n) ↔ v.toInteger?.isSome = true := by
  have sized : s ≠ .any := by simpa [Scalar.isArithmetic] using number
  have encodes : (∃ bs, encode m.order c v (.scalar s) = .ok bs) ↔ v.toInteger?.isSome = true := by
    by_cases float : s.isFloat = true
    · rw [← Literal.toFloat?_isSome]
      simp only [encode, sized, float, if_true, if_false]
      cases v.toFloat? with
      | none => simp
      | some x =>
        refine ⟨fun _ => rfl, fun _ => ?_⟩
        rcases Scalar.size_of_isFloat word float with size | size | size | size
        all_goals
          rw [size]
          exact ⟨_, rfl⟩
    · have integral := Scalar.isIntegral_iff.2 ⟨sized, Bool.eq_false_iff.2 float⟩
      exact encode_integer_isOk word (Ty.integers?_of_isIntegral c.word integral)
  rw [store_isOk_iff rfl, encodes]
  exact ⟨And.left, fun kind => ⟨kind, room⟩⟩

end Memory

namespace Run

variable {s t u : Core} {o : Operand} {v w w' : Literal} {type : Ty} {target : Scalar}
  {address : Nat}

/-! ### A cast -/

/-- Numbers, and nothing else, are converted. -/
theorem converted?_isSome (target : Scalar) (width : Nat) (v : Literal) :
    (converted? target width v).isSome = v.toInteger?.isSome := by
  unfold converted?
  split
  · rw [Option.isSome_map, Literal.toFloat?_isSome]
  · exact Option.isSome_map

/-- Converted to an integral type, a value that the machine computes with is what a variable of the
type holds of it. -/
theorem converted?_of_integral {word : Nat} (valid : Catalog.isWordSize word = true)
    (sized : target ≠ .any) (integral : target.isFloat = false)
    (wide : ∀ n, v = .integer n → fitsWide n = true) :
    converted? target (target.size word) v = target.held? word v := by
  have few := (ByteOrder.isIntWidth_bounds (Scalar.isIntWidth_size valid sized integral)).2
  rw [Scalar.held?, converted?, integral, if_neg Bool.false_ne_true, if_neg Bool.false_ne_true]
  cases k : v.toInteger? with
  | none => cases target <;> simp [Ty.kept?, k]
  | some n =>
    have fits : fitsWide n = true := by
      cases v with
      | integer i =>
        obtain rfl : i = n := Option.some.inj k
        exact wide i rfl
      | char b =>
        obtain rfl : Literal.signedByte b = n := Option.some.inj k
        exact (Literal.inRange_signedByte b).fitsWide (by decide) (by decide)
      | float x =>
        cases k
        exact x.fitsWide_toInt
      | _ => cases k
    cases target with
    | char =>
      have low : wrap n 1 true % 256 = n % 256 := wrap_emod 1 true n
      simp only [Ty.kept?, k, Option.map_some, if_true]
      exact congrArg (fun i : Int => some (Literal.char (UInt8.ofNat i.toNat))) low
    | _ =>
      simp only [Ty.kept?, k, Option.map_some, reduceCtorEq, if_false]
      rw [wrap_eq_kept_of_fitsWide few _ fits]

/-- Converted to a scalar type, a number is what a variable of the type holds of it if the type is
integral. To a float type both keep the float that it counts as, the one in single precision if the
type has four bytes, the other in the format of its bytes. -/
theorem converted?_held? {word : Nat} (valid : Catalog.isWordSize word = true)
    (sized : target ≠ .any) (wide : ∀ n, v = .integer n → fitsWide n = true)
    (converted : converted? target (target.size word) v = some w)
    (held : target.held? word v = some w') :
    let width := target.size word
    (target.isFloat = false → w' = w) ∧
      (target.isFloat = true → ∃ x, v.toFloat? = some x ∧
        w = .float (if width = 4 then x.roundToSingle else x) ∧ w' = .float (x.held width) ∧
        (width = 4 ∨ width = 8 ∨ width = 16 ∧ ¬ x.isSignalling → w' = w)) := by
  intro width
  refine ⟨fun integral => ?_, fun float => ?_⟩
  · rw [converted?_of_integral valid sized integral wide, held] at converted
    exact Option.some.inj converted
  · rw [converted?, if_pos float] at converted
    rw [Scalar.held?, if_pos float] at held
    obtain ⟨x, number, rfl⟩ := Option.map_eq_some_iff.1 held
    rw [number] at converted
    obtain rfl := Option.some.inj converted
    exact ⟨x, number, rfl, rfl, fun enough => congrArg Literal.float (Binary64.held_eq enough)⟩

/-- A number or an address is cast to what it is converted to, if it can be. -/
theorem run_cast (read : (read o).run.run s = (.ok (v, type), u))
    (kind : type.isArithmetic = true ∨ type.isPointer = true) (target : Scalar) :
    ((converted? target (target.size u.catalog.word) v = none →
        ∃ fault, (cast target o).run.run s = (.error fault, u)) ∧
      ∀ w, converted? target (target.size u.catalog.word) v = some w →
        (cast target o).run.run s =
          (.ok (), { u with stack := .value w (.scalar target) :: u.stack })) := by
  have castable : (!(type.isArithmetic || type.isPointer)) = false := by
    rcases kind with number | pointer
    · rw [number]
      rfl
    · rw [pointer, Bool.or_true]
      rfl
  rw [cast, run_bind, read]
  simp only [castable, Bool.false_eq_true, if_false]
  rw [run_word_bind]
  constructor
  · intro none
    rw [none]
    exact ⟨_, rfl⟩
  · intro w some
    rw [some]
    rfl

/-! ### A store -/

/-- A number or an address is compatible with a scalar type. -/
theorem run_checkCompatible_scalar (kind : type.isArithmetic = true ∨ type.isPointer = true)
    (number : target.isArithmetic = true) :
    (checkCompatible (.scalar target) type).run.run s = (.ok (), s) := by
  have first : (Ty.scalar target).decay.isArithmetic = true := number
  have other : type.isArray = false ∧ (type.decay.isPointer || type.decay.isArithmetic) = true := by
    rcases kind with number | address
    · obtain ⟨single, second⟩ := Ty.decay_of_isArithmetic number
      exact ⟨single, by rw [second, Bool.or_true]⟩
    · obtain ⟨single, second⟩ := Ty.decay_of_isPointer address
      exact ⟨single, by rw [second, Bool.true_or]⟩
  exact run_checkCompatible_single rfl other.1
    (Ty.compatible_of_decay (by rw [first, Bool.or_true]) other.2)

/-- A number or an address is stored at a scalar type as it is read. -/
theorem run_assignTo_scalar (read : (read o).run.run s = (.ok (v, type), u))
    (kind : type.isArithmetic = true ∨ type.isPointer = true) (number : target.isArithmetic = true) :
    (assignTo address (.scalar target) o).run.run s =
      (storeValue address (.scalar target) v).run.run u := by
  show (Run.read o >>= fun r => checkCompatible (.scalar target) r.2 >>= fun _ =>
    storeValue address (.scalar target) r.1).run.run s = _
  rw [run_bind, read]
  dsimp only
  rw [run_bind, run_checkCompatible_scalar kind number]

/-- Where a scalar type has room, exactly the numbers among the values are stored, and then a
variable of the type is read as what it holds of them. -/
theorem run_storeValue_scalar (address : Nat) (v : Literal)
    (word : Catalog.isWordSize u.catalog.word = true) (number : target.isArithmetic = true)
    (room : address + target.size u.catalog.word ≤ u.memory.size) :
    (v.toInteger? = none →
        ∃ fault t, (storeValue address (.scalar target) v).run.run u = (.error fault, t)) ∧
      (v.toInteger?.isSome = true →
        ∃ t w, (storeValue address (.scalar target) v).run.run u = (.ok (), t) ∧
          target.held? u.catalog.word v = some w ∧
          t.memory.load t.catalog address (.scalar target) = .ok w) := by
  have stores {x : Literal} {t : Core} (memory : t.memory = u.memory)
      (grows : u.catalog.Extends t.catalog) :
      (∃ n, t.memory.store t.catalog address (.scalar target) x = .ok n) ↔
        x.toInteger?.isSome = true := by
    apply Memory.store_scalar_iff (grows.word.symm ▸ word) number
    rw [grows.word, memory]
    exact room
  constructor
  · intro none
    -- What is stored is no number either, also of an array type, which is stored as a pointer.
    have refused {x : Literal} {t : Core} (memory : t.memory = u.memory)
        (grows : u.catalog.Extends t.catalog) (other : x.toInteger? = .none) :
        ∃ fault, (do setMemory (← lift ((← Run.memory).store (← catalog) address (.scalar target) x)) :
          Run Unit).run.run t = (.error fault, t) := by
      rw [run_store]
      cases k : t.memory.store t.catalog address (.scalar target) x with
      | error fault => exact ⟨fault, rfl⟩
      | ok n =>
        have some := (stores memory grows).1 ⟨n, k⟩
        rw [other] at some
        cases some
    cases v with
    | text text =>
      obtain ⟨fault, failed⟩ := refused (x := .text text) rfl (.refl _) rfl
      exact ⟨fault, u, failed⟩
    | type array =>
      obtain ⟨fault, failed⟩ := refused (x := .type array.decay)
        (t := { u with catalog := u.catalog.internDecay array }) rfl
        (Catalog.extends_internDecay _ _) rfl
      exact ⟨fault, _, failed⟩
    | _ => cases none
  · intro some
    obtain ⟨n, stored⟩ := (stores rfl (.refl _)).2 some
    obtain ⟨w, held, loaded⟩ := Memory.load_stored_scalar word number stored
    refine ⟨{ u with memory := n }, w, ?_, held, loaded⟩
    have whole : (storeValue address (.scalar target) v).run.run u =
        (do setMemory (← lift ((← Run.memory).store (← catalog) address (.scalar target) v)) :
          Run Unit).run.run u := by
      cases v with
      | integer | char | float => rfl
      | _ => cases some
    rw [whole, run_store, stored]

/-- The cast of a number or an address and its store in a variable of the same type, from one state.
One fails exactly if the other does. For an integral type the variable is read as the result of the
cast. For a float type it is read as what its bytes hold of the float, while the cast rounds in four
bytes only; so they agree in four bytes and in eight, and in sixteen but for a signalling NaN. -/
theorem cast_agrees_with_store (target : Scalar) (address : Nat)
    (word : Catalog.isWordSize s.catalog.word = true)
    (read : (read o).run.run s = (.ok (v, type), u))
    (kind : type.isArithmetic = true ∨ type.isPointer = true)
    (wide : ∀ n, v = .integer n → fitsWide n = true) (number : target.isArithmetic = true)
    (room : address + target.size s.catalog.word ≤ s.memory.size) :
    let width := target.size s.catalog.word
    ((∃ fault, ((cast target o).run.run s).1 = .error fault) ↔
        ∃ fault, ((assignTo address (.scalar target) o).run.run s).1 = .error fault) ∧
      ∀ t, (assignTo address (.scalar target) o).run.run s = (.ok (), t) →
        ∃ w w', (cast target o).run.run s =
            (.ok (), { u with stack := .value w (.scalar target) :: u.stack }) ∧
          t.memory.load t.catalog address (.scalar target) = .ok w' ∧
          (target.isFloat = false → w' = w) ∧
          (target.isFloat = true → ∃ x, v.toFloat? = some x ∧
            w = .float (if width = 4 then x.roundToSingle else x) ∧ w' = .float (x.held width) ∧
            (width = 4 ∨ width = 8 ∨ width = 16 ∧ ¬ x.isSignalling → w' = w)) := by
  intro width
  obtain ⟨grows, same⟩ := (read_looks o).eq_of_run read
  have memory : u.memory = s.memory := by rw [same]
  have sized : target ≠ .any := by simpa [Scalar.isArithmetic] using number
  obtain ⟨refused, taken⟩ := run_cast read kind target
  obtain ⟨lost, kept⟩ := run_storeValue_scalar address v (grows.word.symm ▸ word) number
    (by rw [grows.word, memory]; exact room)
  rw [run_assignTo_scalar read kind number]
  rw [grows.word] at refused taken kept
  have numeric := converted?_isSome target width v
  cases k : v.toInteger? with
  | none =>
    rw [k] at numeric
    obtain ⟨fault, failed⟩ := refused (Option.not_isSome_iff_eq_none.1 (by rw [numeric]; decide))
    obtain ⟨fault', t, failed'⟩ := lost k
    refine ⟨⟨fun _ => ⟨fault', by rw [failed']⟩, fun _ => ⟨fault, by rw [failed]⟩⟩, fun t done => ?_⟩
    rw [failed'] at done
    cases done
  | some n =>
    rw [k] at numeric
    obtain ⟨w, converted⟩ := Option.isSome_iff_exists.1 numeric
    obtain ⟨t, w', stored, held, loaded⟩ := kept (by rw [k]; rfl)
    have cast := taken w converted
    constructor
    · rw [cast, stored]
    · intro t' done
      rw [stored] at done
      cases done
      exact ⟨w, w', cast, loaded, converted?_held? word sized wide converted held⟩

/-- Cast to an unsigned byte, 300 is what a variable of that type gives back, which is 44. -/
theorem cast_agrees_with_store_byte :
    let s : Core := ⟨.standard 4, .zeroed 32 .little, default, default, []⟩
    let o : Operand := .value (.integer 300) Ty.int
    (cast .uint8 o).run.run s =
        (.ok (), { s with stack := [.value (.integer 44) (.scalar .uint8)] }) ∧
      ∃ t, (assignTo 8 (.scalar .uint8) o).run.run s = (.ok (), t) ∧
        t.memory.load t.catalog 8 (.scalar .uint8) = .ok (.integer 44) := by
  intro s o
  have wide : ∀ n, Literal.integer 300 = .integer n → fitsWide n = true := by
    intro n same
    cases same
    decide
  obtain ⟨fails, agree⟩ := cast_agrees_with_store (s := s) (o := o) .uint8 8 (by decide) rfl
    (.inl rfl) wide rfl (by decide)
  rcases k : (assignTo 8 (.scalar .uint8) o).run.run s with ⟨fault | ⟨⟩, t⟩
  · obtain ⟨fault, failed⟩ := fails.2 ⟨fault, by rw [k]⟩
    cases failed
  · obtain ⟨w, w', cast, loaded, integral, -⟩ := agree t k
    obtain rfl : Literal.integer 44 = w := by
      cases cast
      show Literal.integer 44 = .integer (wrap 300 1 false)
      decide
    exact ⟨cast, t, rfl, integral rfl ▸ loaded⟩

end Run

namespace Machine

/-- The settings of a machine whose floats have two bytes. -/
def slim : Config := { word := 2 }

/-- On a machine whose floats have two bytes the cast of 0.1 is 0.1 to the last digit of a double,
while a variable that it is stored in gives back the half precision number nearest to it. -/
theorem half_cast_is_not_rounded :
    ∃ m, create slim .silent = .ok m ∧ m.Reachable ∧
      (m.execute "float(0.1)").1 = .ok (some ⟨.temporary 1, .scalar .float, 0, 2,
        .temporary (.float ⟨0x3fb999999999999a⟩)⟩) ∧
      (m.execute "float f = 0.1").1 = .ok (some ⟨.named "f", .scalar .float, 8, 2, .plain⟩) ∧
      (m.execute "float f = 0.1").2.core.memory.load (m.execute "float f = 0.1").2.core.catalog 8
        (.scalar .float) = .ok (.float ⟨0x3fb9980000000000⟩) := by
  have created : ∃ m, create slim .silent = .ok m := by
    cases k : create slim .silent with
    | ok m => exact ⟨m, rfl⟩
    | error fault =>
      have some : (create slim .silent).toOption.isSome = true := by decide +kernel
      rw [k] at some
      cases some
  obtain ⟨m, created⟩ := created
  obtain rfl : (create slim .silent).toOption.getD default = m := by
    rw [created]
    rfl
  refine ⟨_, created, .created created, ?_, ?_, ?_⟩ <;> decide +kernel

end Machine

end ByteMachine
