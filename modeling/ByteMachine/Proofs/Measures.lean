import ByteMachine.Proofs.Growth
import ByteMachine.Proofs.Literals
import ByteMachine.Proofs.Ranges

/-!
# What fits into memory

On a machine with words of a given size and a memory of a given size, every variable lies inside of
memory and every type that values are read at is built from types that fit into it. A value on the
stack is in the range of its type, unless it came there without being wrapped: a literal beyond
`long`, the address of something in memory, the size of something in memory, or the length of a
text. `Layout.measuring` is the discipline that says so of all states of a run of some code; what
only looks keeps to it.

Key definitions: `Layout`, `Layout.Within`, `Layout.Room`, `Layout.Places`, `Layout.Unwrapped`,
`Layout.Sensible`, `Layout.Measured`, `Layout.Holds`, `Layout.measuring`.
Key theorems: `Layout.Proper.size_le`, `Memory.load_sensible`, `Run.read_measures`,
`Run.readText_measures`, `Run.resolve_measures`, `Run.elementOf_measures`, `Run.allocate_measures`.
-/

namespace ByteMachine

open Discipline Number

/-- The size of a word and the size of memory. -/
structure Layout where
  word : Nat
  size : Nat

namespace Layout

/-- A layout that a machine may have. -/
structure Proper (l : Layout) : Prop where
  word : Catalog.isWordSize l.word = true
  low : 16 < l.size

/-! ### Types -/

/-- A type that is built from types that fit into memory, and fits itself. -/
def Within (l : Layout) : Ty → Prop
  | .scalar _ | .descriptor => True
  | .pointer t | .reference t => t.isReference = false ∧ l.Within t
  | .array t n => t.isReference = false ∧ l.Within t ∧ t.size l.word * n ≤ l.size

variable {l : Layout} {t u : Ty}

theorem Proper.scalar_le (h : l.Proper) (s : Scalar) : s.size l.word ≤ 16 := by
  obtain ⟨-, high⟩ := Catalog.isWordSize_bounds h.word
  cases s <;> simp only [Scalar.size] <;> omega

theorem Proper.size_le (h : l.Proper) (within : l.Within t) : t.size l.word ≤ l.size := by
  have low := h.low
  obtain ⟨-, high⟩ := Catalog.isWordSize_bounds h.word
  cases t with
  | scalar s =>
    have := h.scalar_le s
    simp only [Ty.size]
    omega
  | descriptor | pointer | reference =>
    simp only [Ty.size]
    omega
  | array => exact within.2.2

theorem within_of_flat : ∀ {t : Ty}, t.Flat → l.Within t
  | .scalar _, _ | .descriptor, _ => trivial
  | .pointer _, flat => ⟨Ty.Flat.plain flat, within_of_flat flat⟩

theorem Within.strip (within : l.Within t) : t.strip.isReference = false ∧ l.Within t.strip := by
  cases t with
  | reference => exact within
  | _ => exact ⟨rfl, within⟩

theorem Within.pointee (within : l.Within t) (e : t.pointee? = some u) :
    u.isReference = false ∧ l.Within u := by
  unfold Ty.pointee? at e
  split at e
  · next k =>
    cases e
    have inner := within.strip.2
    rw [k] at inner
    exact inner
  · cases e

theorem Within.element {n : Nat} (within : l.Within (.array t n)) :
    t.isReference = false ∧ l.Within t :=
  ⟨within.1, within.2.1⟩

/-- What a line declares is within memory if it fits. -/
theorem within_of_declared (declared : t.Declared) (fits : t.size l.word ≤ l.size) :
    l.Within t := by
  cases t with
  | reference => exact ⟨Ty.Flat.plain declared, within_of_flat declared⟩
  | array => exact ⟨Ty.Flat.plain declared, within_of_flat declared, fits⟩
  | _ => exact within_of_flat declared

/-- A type of the shape of an array is one. -/
theorem eq_array_of_shape {n : Nat} (plain : t.isReference = false)
    (shape : t.arrayShape? = some (u, n)) : t = .array u n := by
  cases t with
  | reference => cases plain
  | array =>
    cases shape
    rfl
  | _ => cases shape

theorem eq_scalar_of_number {p : Scalar} (plain : t.isReference = false)
    (number : Arithmetic.scalar? t = some p) : t = .scalar p := by
  obtain ⟨scalar, -⟩ := Option.filter_eq_some_iff.1 number
  cases t with
  | reference => cases plain
  | scalar =>
    cases scalar
    rfl
  | _ => cases scalar

/-- What a pointer to a type is. -/
theorem pointer_of_pointerTo (plain : t.isReference = false) (e : t.pointerTo = .ok u) :
    u = .pointer t := by
  fun_induction Ty.pointerTo t with
  | case1 => cases plain
  | case2 => cases e
  | case3 =>
    cases e
    rfl

/-- An array decays to a pointer, unless there is none with so many stars. -/
theorem decay_array (plain : t.isReference = false) (n : Nat) :
    (Ty.array t n).decay = .pointer t ∨ (Ty.array t n).decay = .array t n := by
  have decay : (Ty.array t n).decay = t.pointerTo.toOption.getD (.array t n) := rfl
  rw [decay]
  cases k : t.pointerTo with
  | error => exact .inr rfl
  | ok u => exact .inl (pointer_of_pointerTo plain k)

/-! ### Storage -/

/-- There is room for a value of the type at the address. -/
structure Room (l : Layout) (a : Nat) (t : Ty) : Prop where
  plain : t.isReference = false
  within : l.Within t
  start : a < l.size
  stop : a + t.size l.word ≤ l.size

/-- A variable with room for its type at its address. -/
structure Places (l : Layout) (v : Variable) : Prop where
  within : l.Within v.type
  size : v.size = v.type.strip.size l.word
  start : v.address < l.size
  stop : v.stop ≤ l.size

theorem Places.room {v : Variable} (h : l.Places v) : l.Room v.address v.type.strip where
  plain := h.within.strip.1
  within := h.within.strip.2
  start := h.start
  stop := h.size ▸ h.stop

theorem Room.element {a i n : Nat} (h : l.Room a (.array t n)) (below : i < n) :
    l.Room (a + i * t.size l.word) t := by
  have start := h.start
  have stop : a + t.size l.word * n ≤ l.size := h.stop
  have upTo : (i + 1) * t.size l.word ≤ t.size l.word * n := by
    rw [Nat.mul_comm _ n]
    exact Nat.mul_le_mul_right _ below
  rw [Nat.succ_mul] at upTo
  refine ⟨h.within.1, h.within.2.1, ?_, by omega⟩
  cases Nat.eq_zero_or_pos (t.size l.word) with
  | inl none => rw [none, Nat.mul_zero]; exact start
  | inr some => omega

/-! ### Values -/

variable {code : List Instr} {n : Int} {v : Literal}

/-- An integer that is on the stack without having been wrapped to its type. -/
inductive Unwrapped (l : Layout) (code : List Instr) : Int → Ty → Prop
  /-- A literal that is too large for `int`. -/
  | literal {n : Int} (spelled : .push (.integer n) ∈ code) : Unwrapped l code n (.scalar .long)
  /-- The address of something in memory. -/
  | address {a : Nat} (inside : a < l.size) (target : Ty) : Unwrapped l code a (.pointer target)
  /-- The size of something in memory. -/
  | extent {n : Nat} (inside : n ≤ l.size) : Unwrapped l code n Ty.uint
  /-- The length of a literal text. -/
  | length {s : String} (spelled : .push (.text s) ∈ code) : Unwrapped l code s.length Ty.uint

/-- Neither the memory nor a text in the code is larger than there are addresses. -/
structure Bounded (l : Layout) (code : List Instr) : Prop where
  size : l.size ≤ addressBound
  texts : ∀ s : String, .push (.text s) ∈ code → s.length ≤ addressBound

/-- An integer that the machine computes with, in the range of its type or not wrapped to it. -/
def Whole (l : Layout) (code : List Instr) (n : Int) (t : Ty) : Prop :=
  l.Bounded code → fitsWide n = true ∧ (t.Holds l.word n ∨ l.Unwrapped code n t)

/-- A value as it may be on the stack or in memory, with its type. -/
def Sensible (l : Layout) (code : List Instr) (v : Literal) (t : Ty) : Prop :=
  match v with
  | .integer n => l.Whole code n t
  | .char _ => t = Ty.char
  | .float _ => ∃ s, t = .scalar s
  | .text s => .push (.text s) ∈ code
  | .type u => l.Within u

theorem Sensible.fitsWide (h : l.Sensible code v t) (bounded : l.Bounded code)
    (e : v.toInteger? = some n) : fitsWide n = true := by
  cases v with
  | integer =>
    cases e
    exact (h bounded).1
  | char b =>
    obtain rfl : Literal.signedByte b = n := Option.some.inj e
    exact (Literal.inRange_signedByte b).fitsWide (by decide) (by decide)
  | float x =>
    cases e
    exact x.fitsWide_toInt
  | _ => cases e

theorem fitsWide_of_le {n : Nat} (h : n ≤ addressBound) : Number.fitsWide n = true := by
  have less : addressBound ≤ twoPow 126 := twoPow_le_twoPow (by decide)
  have twice : twoPow 127 = 2 * twoPow 126 := twoPow_succ 126
  have pos : 0 < twoPow 126 := twoPow_pos _
  simp only [Number.fitsWide, Bool.and_eq_true, decide_eq_true_eq]
  omega

/-- An address is a pointer's value. -/
theorem whole_of_address {a : Nat} (inside : a < l.size) (code : List Instr) (target : Ty) :
    l.Whole code a (.pointer target) := fun bounded =>
  ⟨fitsWide_of_le (Nat.le_trans (Nat.le_of_lt inside) bounded.size), .inr (.address inside target)⟩

/-- A size or a length. -/
theorem whole_of_count {n : Nat} (high : l.Bounded code → n ≤ addressBound)
    (unwrapped : l.Unwrapped code n t) : l.Whole code n t := fun bounded =>
  ⟨fitsWide_of_le (high bounded), .inr unwrapped⟩

/-- An integer that is wrapped to the width of its type. -/
theorem Proper.wrapped (h : l.Proper) (wide : l.Bounded code → fitsWide n = true) (s : Scalar) :
    l.Whole code (wrap n (s.size l.word) s.isSigned) (.scalar s) := by
  intro bounded
  refine ⟨fitsWide_wrap (wide bounded) _ _, .inl fun width signed kind => ?_⟩
  obtain ⟨sized, integral, rfl, rfl⟩ := Ty.integers?_scalar kind
  exact inRange_wrap (Scalar.isIntWidth_size h.word sized integral) _ fun _ => wide bounded

/-- What a cast makes is in the range of the type it is made for. -/
theorem Proper.converted (h : l.Proper) {target : Scalar} {w : Literal}
    (sensible : l.Sensible code v t)
    (e : Run.converted? target (target.size l.word) v = some w) :
    l.Sensible code w (.scalar target) := by
  unfold Run.converted? at e
  split at e
  · obtain ⟨x, -, rfl⟩ := Option.map_eq_some_iff.1 e
    exact ⟨target, rfl⟩
  · obtain ⟨n, whole, rfl⟩ := Option.map_eq_some_iff.1 e
    dsimp only
    split
    · next char => exact congrArg Ty.scalar char
    · exact h.wrapped (fun bounded => sensible.fitsWide bounded whole) target

/-! ### States -/

/-- An operand as it may be on the stack. -/
def Measured (l : Layout) (code : List Instr) : Operand → Prop
  | .value v t => t.isReference = false ∧ l.Within t ∧ l.Sensible code v t
  | .named _ => True
  | .place a t _ => l.Room a t

/-- A state of a run of the code, on a machine of this layout. -/
structure Holds (l : Layout) (code : List Instr) (s : Core) : Prop where
  word : s.catalog.word = l.word
  memory : s.memory.size = l.size
  capacity : s.symbols.capacity = l.size
  width : s.symbols.word = l.word
  places : ∀ v ∈ s.symbols.entries, l.Places v
  stack : ∀ o ∈ s.stack, l.Measured code o

/-- All states of a run keep to the layout. -/
def measuring (l : Layout) (code : List Instr) : Discipline Core where
  keeps := l.Holds code
  leads := fun _ _ => True
  refl := fun _ => trivial
  trans := fun _ _ => trivial

/-- A computation keeps to the layout, and its result is as described. -/
abbrev Measures {α : Type} (l : Layout) (code : List Instr) (s : Core) (x : Run α)
    (post : Core → α → Prop) : Prop :=
  (l.measuring code).Yields s x post

theorem measures_pure {α : Type} {s : Core} {a : α} {post : Core → α → Prop} (h : post s a) :
    l.Measures code s (pure a : Run α) post :=
  yields_pure.2 fun _ => h

end Layout

/-- What only looks keeps to every layout. -/
theorem Core.Looks.measures {l : Layout} {code : List Instr} {α : Type} {s : Core} {x : Run α}
    {post : Core → α → Prop} (h : s.Looks x post) : l.Measures code s x post := by
  refine h.within (fun _ => trivial) ?_
  rintro t ⟨grows, e⟩ k
  rw [e]
  exact ⟨trivial, grows.word.trans k.word, k.memory, k.capacity, k.width, k.places, k.stack⟩

/-! ### Memory -/

/-- A byte that is read as a type stands for one without arrays. -/
theorem TypeTag.within_of_resolve {l : Layout} {c : Catalog} {tag : UInt8} {t : Ty}
    (e : resolve c tag = .ok t) : l.Within t := by
  unfold resolve at e
  split at e
  · cases e
    trivial
  · dsimp only at e
    split at e
    · next found =>
      cases e
      obtain ⟨s, -, found⟩ := Option.bind_eq_some_iff.1 found
      have whole : ∀ u : Ty, u.Flat →
          (if referenceWeight ≤ tag.toNat then c.met? (.reference u) else some u) = some t →
            l.Within t := by
        intro u flat e
        split at e
        · unfold Catalog.met? at e
          split at e <;> cases e
          exact ⟨flat.plain, Layout.within_of_flat flat⟩
        · cases e
          exact Layout.within_of_flat flat
      split at found
      · exact whole (.scalar s) trivial found
      · obtain ⟨u, pointer, found⟩ := Option.bind_eq_some_iff.1 found
        have scalar : (Ty.scalar s).Flat := trivial
        refine whole u ?_ found
        unfold Catalog.pointer? at pointer
        split at pointer
        · cases pointer
          exact Ty.flat_starred scalar _
        · cases pointer
    · cases e

namespace Memory

variable {l : Layout} {code : List Instr} {m : Memory} {c : Catalog} {a : Nat} {t : Ty} {v : Literal}

/-- What is read from memory is sensible: its integers are in the range of their type. -/
theorem load_sensible (word : c.word = l.word) (plain : t.isReference = false)
    (e : m.load c a t = .ok v) : l.Sensible code v t := by
  cases v with
  | integer k =>
    obtain ⟨range, wide⟩ := holds_of_load plain e
    exact fun _ => ⟨wide, .inl (word ▸ range)⟩
  | char | float | text | type =>
    fun_induction load m c a t with
    | case1 => cases plain
    | case2 | case5 => cases e
    | case3 =>
      obtain ⟨bytes, -, e⟩ := bind_eq_ok.1 e
      split at e
      · obtain ⟨u, resolved, made⟩ := map_eq_ok.1 e
        cases made
        all_goals exact TypeTag.within_of_resolve resolved
      · cases e
    | case4 =>
      obtain ⟨bytes, -, e⟩ := bind_eq_ok.1 e
      obtain ⟨n, -, e⟩ := bind_eq_ok.1 e
      cases e
    | case6 =>
      obtain ⟨bytes, -, e⟩ := bind_eq_ok.1 e
      split at e <;> cases e
      all_goals rfl
    | case7 =>
      obtain ⟨bytes, -, e⟩ := bind_eq_ok.1 e
      split at e
      all_goals
        obtain ⟨n, -, e⟩ := bind_eq_ok.1 e
        cases e
      all_goals exact ⟨_, rfl⟩

theorem length_ofBytes (bytes : List UInt8) : (Text.ofBytes bytes).length = bytes.length := by
  rw [Text.ofBytes, String.length_ofList, List.length_map]

/-- A text in memory is no longer than memory. -/
theorem length_loadText {text : String} (e : m.loadText a = .ok text) : text.length ≤ m.size := by
  unfold loadText at e
  split at e
  · cases e
  · obtain ⟨tail, found, e⟩ := bind_eq_ok.1 e
    split at e
    · cases e
      have upTo := (List.takeWhile_sublist (fun b : UInt8 => b != 0) (l := tail)).length_le
      have length := (read_iff.1 found).2.1
      rw [length_ofBytes]
      omega
    · cases e

theorem length_present {text : String} (chars : t.isCharArray = true)
    (e : m.present c a t = .ok (.text text)) : text.length ≤ m.size := by
  have other : ¬ t.isCharPointer = true := by
    unfold Ty.isCharArray at chars
    unfold Ty.isCharPointer
    split at chars
    · next k =>
      rw [k]
      exact Bool.false_ne_true
    · cases chars
  rw [present, if_neg other, if_pos chars] at e
  obtain ⟨bytes, found, e⟩ := bind_eq_ok.1 e
  cases e
  have upTo := (List.takeWhile_sublist (fun b : UInt8 => b != 0) (l := bytes)).length_le
  obtain ⟨inside, length, -⟩ := read_iff.1 found
  rw [length_ofBytes]
  omega

end Memory

theorem length_latinBytes : ∀ (cs : List Char) {bytes : List UInt8}, latinBytes cs = .ok bytes →
    bytes.length = cs.length
  | [], _, e => by
    cases e
    rfl
  | c :: cs, _, e => by
    rw [latinBytes] at e
    split at e
    · obtain ⟨bytes, rest, rfl⟩ := map_eq_ok.1 e
      rw [List.length_cons, List.length_cons, length_latinBytes cs rest]
    · cases e

/-- A text has as many bytes as it has characters. -/
theorem length_textBytes {text : String} {bytes : List UInt8} (e : textBytes text = .ok bytes) :
    bytes.length = text.length :=
  length_latinBytes _ e

namespace Run

variable {l : Layout} {code : List Instr} {s : Core}

/-! ### Stack and types -/

theorem setStack_measures {f : Core → List Operand}
    (measured : (∀ o ∈ s.stack, l.Measured code o) → ∀ o ∈ f s, l.Measured code o) :
    l.Measures code s (modify fun s => { s with stack := f s }) fun u _ =>
      u = { s with stack := f s } :=
  yields_modify fun k =>
    ⟨trivial, ⟨k.word, k.memory, k.capacity, k.width, k.places, measured k.stack⟩, rfl⟩

theorem push_measures {o : Operand} (h : l.Measured code o) :
    l.Measures code s (push o) fun _ _ => True :=
  (setStack_measures fun k => List.forall_mem_cons.2 ⟨h, k⟩).forget

/-- A value is pushed with a type that fits. -/
theorem pushValue_measures {v : Literal} {t : Ty} (plain : t.isReference = false)
    (within : l.Within t) (sensible : l.Sensible code v t) :
    l.Measures code s (pushValue v t) fun _ _ => True :=
  push_measures (o := .value v t) ⟨plain, within, sensible⟩

theorem pop_measures : l.Measures code s pop fun _ o => l.Measured code o := by
  refine .of_keeps fun k => ?_
  unfold pop
  refine yields_get_bind.2 ?_
  split
  · next o rest stack =>
    have measured := k.stack
    rw [stack, List.forall_mem_cons] at measured
    refine .bind (setStack_measures (f := fun _ => rest) fun _ => measured.2) ?_
    rintro _ _ - rfl
    exact Layout.measures_pure measured.1
  · exact yields_throw

/-- What could be built as an array has elements that are smaller than memory. -/
theorem arrayOf_measures {e : Ty} (within : l.Within e) (count : Nat) :
    l.Measures code s (arrayOf e count) fun _ t =>
      t = .array e count ∧ (t.size l.word ≤ l.size → l.Within t) := by
  refine yields_word_bind.2 ((built_looks _).measures.mono fun _ t _ _ made => ?_)
  obtain rfl := Ty.arrayOf_eq_ok made
  exact ⟨rfl, fun fits => ⟨Ty.element_of_arrayOf made, within, fits⟩⟩

/-- A pointer to a place in memory is pushed. -/
theorem pushPointer_measures {a : Nat} {t : Ty} (inside : a < l.size)
    (plain : t.isReference = false) (within : l.Within t) :
    l.Measures code s (do pushValue (.integer a) (← pointerTo t)) fun _ _ => True := by
  refine .bind (pointerTo_looks t).measures fun _ p _ e => ?_
  obtain rfl := Layout.pointer_of_pointerTo plain e
  exact pushValue_measures rfl ⟨plain, within⟩ (Layout.whole_of_address inside code t)

/-! ### Values -/

theorem lookup_measures (id : Identifier) :
    l.Measures code s (lookup id) fun _ v => l.Places v :=
  (lookup_looks id).measures.mono fun _ v _ k found => k.places v found.1

theorem typeOf_measures {o : Operand} (h : l.Measured code o) :
    l.Measures code s (typeOf o) fun _ t => l.Within t := by
  cases o with
  | value v t => exact Layout.measures_pure h.2.1
  | place a t owner => exact Layout.measures_pure h.within
  | named id =>
    exact .bind (lookup_measures id) fun _ _ _ places => Layout.measures_pure places.within

theorem storage?_measures {o : Operand} (h : l.Measured code o) :
    l.Measures code s (storage? o) fun _ place =>
      ∀ a t, place = some (a, t) → l.Room a t := by
  cases o with
  | value => exact Layout.measures_pure fun _ _ e => nomatch e
  | place a t owner =>
    refine Layout.measures_pure fun _ _ e => ?_
    cases e
    rw [Ty.strip_of_plain h.plain]
    exact h
  | named id =>
    refine .bind (lookup_measures id) fun _ v _ places => Layout.measures_pure fun _ _ e => ?_
    cases e
    exact places.room

theorem readStorage_measures {a : Nat} {t : Ty} (room : l.Room a t) :
    l.Measures code s (readStorage a t) fun _ r =>
      r.2.isReference = false ∧ l.Within r.2 ∧ l.Sensible code r.1 r.2 := by
  unfold readStorage
  split
  · next isArray =>
    refine .bind (catalog_looks (f := fun c => c.internDecay t)
      (Catalog.extends_internDecay _ t)).measures fun _ _ _ _ => Layout.measures_pure ?_
    obtain ⟨⟨e, n⟩, shape⟩ := Option.isSome_iff_exists.1 isArray
    obtain rfl := Layout.eq_array_of_shape room.plain shape
    obtain ⟨plain, within⟩ := room.within.element
    rcases Layout.decay_array plain n with decay | decay <;> rw [decay]
    · exact ⟨rfl, ⟨plain, within⟩, Layout.whole_of_address room.start code e⟩
    · refine ⟨rfl, room.within, fun bounded => ⟨?_, .inl fun width signed kind => nomatch kind⟩⟩
      exact Layout.fitsWide_of_le (Nat.le_trans (Nat.le_of_lt room.start) bounded.size)
  · refine .of_keeps fun k => ?_
    refine yields_memory_bind.2 (yields_catalog_bind.2 (yields_lift_bind fun v e => ?_))
    exact Layout.measures_pure
      ⟨room.plain, room.within, Memory.load_sensible k.word room.plain e⟩

theorem read_measures {o : Operand} (measured : l.Measured code o) :
    l.Measures code s (read o) fun _ r =>
      r.2.isReference = false ∧ l.Within r.2 ∧ l.Sensible code r.1 r.2 := by
  cases o with
  | value v t => exact Layout.measures_pure measured
  | place a t owner =>
    have room : l.Room a t.strip := by
      rw [Ty.strip_of_plain measured.plain]
      exact measured
    exact readStorage_measures room
  | named id => exact .bind (lookup_measures id) fun _ v _ places => readStorage_measures places.room

/-! ### Text -/

theorem followText_measures (o : Operand) :
    l.Measures code s (followText o) fun _ text => text.length ≤ l.size := by
  refine .bind (typeOf_looks o).measures fun _ t _ _ => ?_
  split
  · exact yields_throw
  · refine .bind (read_looks o).measures fun u ⟨pointer, _⟩ _ _ => .of_keeps fun k => ?_
    dsimp only
    split
    · refine yields_memory_bind.2 (yields_lift fun text e _ => ?_)
      exact k.memory ▸ Memory.length_loadText e
    · exact yields_throw

/-- A text that is read lies in memory or stands in the code. -/
theorem readText_measures {o : Operand} (measured : l.Measured code o) :
    l.Measures code s (readText o) fun _ text =>
      text.length ≤ l.size ∨ .push (.text text) ∈ code := by
  unfold readText
  split
  · exact Layout.measures_pure (.inr measured.2.2)
  · refine .mono ?_ fun _ _ _ _ short => .inl short
    refine .bind (storage?_looks o).measures fun u place _ _ => ?_
    split
    · next a t =>
      split
      · next chars =>
        refine .of_keeps fun k => yields_memory_bind.2 (yields_catalog_bind.2 ?_)
        refine yields_lift_bind fun v e => ?_
        split
        · exact Layout.measures_pure (k.memory ▸ Memory.length_present chars e)
        · exact yields_throw
      · exact followText_measures o
    · exact followText_measures o

/-! ### Storage -/

theorem targetOf_measures {t : Ty} (within : l.Within t) :
    l.Measures code s (targetOf t) fun _ u => u.isReference = false ∧ l.Within u := by
  unfold targetOf
  split
  · exact yields_throw
  · next e =>
    split
    · exact yields_throw
    · exact Layout.measures_pure (within.pointee e)

/-- What is found at an address has room there. -/
theorem resolve_measures {t : Ty} (plain : t.isReference = false) (within : l.Within t)
    (a : Nat) : l.Measures code s (resolve a t) fun _ o => l.Measured code o := by
  refine .of_keeps fun k => yields_catalog_bind.2 ?_
  dsimp only
  split
  · exact yields_throw
  · refine yields_symbols_bind.2 ?_
    split
    · exact Layout.measures_pure trivial
    · split
      · next owner found =>
        have places := k.places owner (List.mem_of_find?_eq_some found)
        have covers := List.find?_some found
        rw [Bool.and_eq_true, Variable.spans_iff] at covers
        have stop := places.stop
        have size : s.catalog.size t = t.size l.word := congrArg t.size k.word
        rw [size] at covers
        exact Layout.measures_pure ⟨plain, within, by omega, by omega⟩
      · exact yields_throw

theorem follow_measures {o : Operand} (measured : l.Measured code o) :
    l.Measures code s (follow o) fun _ p => l.Measured code p := by
  refine .bind (read_measures measured) fun _ ⟨v, t⟩ _ read => ?_
  refine .bind (targetOf_measures read.2.1) fun _ target _ made => ?_
  split
  · exact resolve_measures made.1 made.2 _
  · exact yields_catalog_bind.2 yields_throw

theorem followTimes_measures : ∀ (levels : Nat) {s : Core} {o : Operand},
    l.Measured code o → l.Measures code s (followTimes levels o) fun _ p => l.Measured code p
  | 0, _, _, measured => Layout.measures_pure measured
  | levels + 1, _, _, measured =>
    .bind (follow_measures measured) fun _ _ _ found => followTimes_measures levels found

/-- An element of an array lies where the array does. -/
theorem elementOf_measures {a n : Nat} {e : Ty} (room : l.Room a (.array e n)) (base : Operand)
    (i : Int) : l.Measures code s (elementOf base a e n i) fun _ o => l.Measured code o := by
  refine .of_keeps fun k => yields_catalog_bind.2 ?_
  dsimp only
  split
  · exact yields_throw
  · next valid =>
    simp only [Bool.or_eq_true, decide_eq_true_eq, not_or, Nat.not_le] at valid
    have size : s.catalog.size e = e.size l.word := congrArg e.size k.word
    refine .bind (ownerOf?_looks base).measures fun _ owner _ _ => ?_
    split
    · refine Layout.measures_pure ?_
      rw [size]
      exact room.element valid.2
    · exact yields_throw

theorem elementBehind_measures {base : Operand} (measured : l.Measured code base)
    (i : Int) : l.Measures code s (elementBehind base i) fun _ o => l.Measured code o := by
  refine .bind (read_measures measured) fun _ ⟨v, t⟩ _ read => ?_
  refine .bind (targetOf_measures read.2.1) fun _ target _ made => yields_catalog_bind.2 ?_
  dsimp only
  split
  · exact resolve_measures made.1 made.2 _
  · exact yields_throw

theorem setSymbols_measures {t : Symbols} (capacity : t.capacity = s.symbols.capacity)
    (width : t.word = s.symbols.word)
    (places : (∀ v ∈ s.symbols.entries, l.Places v) → ∀ v ∈ t.entries, l.Places v) :
    l.Measures code s (setSymbols t) fun u _ => u = { s with symbols := t } :=
  yields_modify fun k => ⟨trivial, ⟨k.word, k.memory, capacity.trans k.capacity,
    width.trans k.width, places k.places, k.stack⟩, rfl⟩

theorem setMemory_measures {m : Memory} (size : m.size = s.memory.size) :
    l.Measures code s (setMemory m) fun _ _ => True :=
  yields_modify fun k => ⟨trivial, ⟨k.word, size.trans k.memory, k.capacity, k.width, k.places,
    k.stack⟩, trivial⟩

theorem setConsole_measures {f : Core → Console} :
    l.Measures code s (modify fun s => { s with console := f s }) fun _ _ => True :=
  yields_modify fun k => ⟨trivial, ⟨k.word, k.memory, k.capacity, k.width, k.places, k.stack⟩,
    trivial⟩

/-- Storage is only given out where there is room. -/
theorem allocate_measures (h : l.Proper) {t : Ty} (plain : t.isReference = false)
    (within : t.size l.word ≤ l.size → l.Within t) (id : Identifier) :
    l.Measures code s (allocate id t) fun _ a => l.Room a t := by
  refine .of_keeps fun k => ?_
  refine yields_catalog_bind.2 (yields_symbols_bind.2 (yields_lift_bind fun found ok => ?_))
  obtain ⟨a, table⟩ := found
  refine yields_lift_bind fun table' ok' => ?_
  have size : s.catalog.size t = t.size l.word := congrArg t.size k.word
  have settings := (Symbols.sameSettings_allocate ok).trans (Symbols.sameSettings_insert ok')
  have room : l.Room a t := by
    obtain ⟨stream, slot, -⟩ := Symbols.allocate_eq_ok ok
    have word : 0 < s.symbols.word := k.width ▸ (Catalog.isWordSize_bounds h.word).1
    obtain ⟨-, pos, -, stop⟩ := Placement.slot?_free word slot
    rw [size, k.capacity] at stop
    rw [size] at pos
    exact ⟨plain, within (by omega), by omega, stop⟩
  refine .bind (setSymbols_measures settings.capacity settings.word fun old v mem => ?_)
    fun _ _ _ _ => Layout.measures_pure room
  rw [Symbols.entries_of_placed ok ok'] at mem
  rcases List.mem_append.1 mem with mem | mem
  · exact old v mem
  · cases List.mem_singleton.1 mem
    have strip : t.strip = t := Ty.strip_of_plain plain
    refine ⟨room.within, ?_, room.start, ?_⟩
    · exact size.trans (congrArg (Ty.size l.word) strip.symm)
    · show a + s.catalog.size t ≤ l.size
      rw [size]
      exact room.stop

theorem allocateHeap_measures (h : l.Proper) {t : Ty} (plain : t.isReference = false)
    (within : t.size l.word ≤ l.size → l.Within t) :
    l.Measures code s (allocateHeap t) fun _ a => l.Room a t :=
  yields_symbols_bind.2 (.bind (setSymbols_measures rfl rfl fun old => old) fun _ _ _ _ =>
    allocate_measures h plain within _)

end Run

end ByteMachine
