import ByteMachine.Proofs.LastingTables
import Mathlib.Data.Nat.Find

/-!
# Where room is found

The search for room asks the index for names at an address and the occupied bytes for a common
one, but what it means is told by the variables: an address is free exactly if the bytes from there
on belong to no owner. For that no alias may stand where its owner does not: in a machine that can
be reached every alias lies inside of an owner and is not empty.

Aligned placement tries the multiples of the word size from the first on, so it finds the least
one with room; scattered placement tries what it draws from the stream, so it finds the first one.
Both try no address without room behind it inside of memory, and a search that finds nothing leaves
everything as it is.

Key definitions: `IsFirst`, `SplitMix.after`, `SplitMix.drawn`, `Symbols.Unowned`,
`Symbols.Vacant`, `Symbols.AlignedSlot`.
Key theorems: `Placement.firstFree?_eq_some_iff`, `Placement.scattered?_eq_some_iff`,
`Symbols.Sound.isFree_iff`, `Machine.Reachable.slot_search`.
-/

namespace ByteMachine

open Discipline

/-! ### The first of some numbers -/

/-- The first number below `count` for which `p` holds. -/
structure IsFirst (p : Nat → Prop) (count k : Nat) : Prop where
  below : k < count
  holds : p k
  before : ∀ j < k, ¬ p j

section

variable {p q : Nat → Prop} {count k : Nat}

theorem exists_isFirst_of_zero (here : p 0) : (∃ k, IsFirst p (count + 1) k ∧ q k) ↔ q 0 := by
  constructor
  · rintro ⟨k, first, found⟩
    cases k with
    | zero => exact found
    | succ k => exact absurd here (first.before 0 (Nat.succ_pos k))
  · exact fun found => ⟨0, ⟨Nat.succ_pos _, here, fun _ low => nomatch low⟩, found⟩

theorem exists_isFirst_succ (not_here : ¬ p 0) :
    (∃ k, IsFirst p (count + 1) k ∧ q k) ↔
      ∃ k, IsFirst (fun j => p (j + 1)) count k ∧ q (k + 1) := by
  constructor
  · rintro ⟨k, first, found⟩
    cases k with
    | zero => exact absurd first.holds not_here
    | succ k =>
      exact ⟨k, ⟨Nat.lt_of_succ_lt_succ first.below, first.holds,
        fun j low => first.before (j + 1) (Nat.succ_lt_succ low)⟩, found⟩
  · rintro ⟨k, first, found⟩
    refine ⟨k + 1, ⟨Nat.succ_lt_succ first.below, first.holds, fun j low => ?_⟩, found⟩
    cases j with
    | zero => exact not_here
    | succ j => exact first.before j (Nat.lt_of_succ_lt_succ low)

/-- If there is any, there is a first. -/
theorem exists_isFirst (below : k < count) (holds : p k) : ∃ j, IsFirst p count j := by
  classical
  have some : ∃ j, p j := ⟨k, holds⟩
  exact ⟨Nat.find some, Nat.lt_of_le_of_lt (Nat.find_min' some holds) below, Nat.find_spec some,
    fun j low => Nat.find_min some low⟩

end

/-! ### The search -/

namespace SplitMix

/-- The stream behind a number of draws. -/
def after (low high : Nat) : Nat → SplitMix → SplitMix
  | 0, s => s
  | n + 1, s => after low high n (s.draw low high).2

/-- What is drawn after a number of draws. -/
def drawn (low high n : Nat) (s : SplitMix) : Nat := ((s.after low high n).draw low high).1

end SplitMix

namespace Placement

variable {f : Nat → Bool} {word last size capacity a : Nat} {stream behind : SplitMix}

theorem firstFree?_eq_some_iff {step b : Nat} : ∀ {count a : Nat},
    firstFree? f step count a = some b ↔
      ∃ k, IsFirst (fun k => f (a + k * step) = true) count k ∧ b = a + k * step
  | 0, a => ⟨(fun found => nomatch found), fun ⟨_, first, _⟩ => nomatch first.below⟩
  | count + 1, a => by
    have next : ∀ k, a + step + k * step = a + (k + 1) * step := fun k => by
      rw [Nat.succ_mul]; omega
    unfold firstFree?
    by_cases here : f a = true
    · rw [if_pos here, exists_isFirst_of_zero (by simpa using here), Option.some_inj, eq_comm]
      simp
    · rw [if_neg here, firstFree?_eq_some_iff, exists_isFirst_succ (by simpa using here)]
      simp only [next]

theorem scattered?_eq_some_iff : ∀ {count : Nat} {stream : SplitMix},
    scattered? f last count stream = some (a, behind) ↔
      ∃ k, IsFirst (fun k => f (stream.drawn 1 last k) = true) count k ∧
        a = stream.drawn 1 last k ∧ behind = stream.after 1 last (k + 1)
  | 0, _ => ⟨(fun found => nomatch found), fun ⟨_, first, _⟩ => nomatch first.below⟩
  | count + 1, stream => by
    unfold scattered?
    dsimp only
    by_cases here : f (stream.draw 1 last).1 = true
    · rw [if_pos here, exists_isFirst_of_zero (p := fun k => f (stream.drawn 1 last k) = true) here,
        Option.some_inj, Prod.mk.injEq, eq_comm, eq_comm (a := behind)]
      rfl
    · rw [if_neg here, scattered?_eq_some_iff,
        exists_isFirst_succ (p := fun k => f (stream.drawn 1 last k) = true) here]
      rfl

/-- The addresses that aligned placement tries are the positive multiples of the word size up to
the last. -/
theorem tried_iff (pos : 0 < word) :
    (word ∣ a ∧ word ≤ a ∧ a ≤ last) ↔ ∃ k < last / word, a = word + k * word := by
  constructor
  · rintro ⟨⟨c, rfl⟩, low, high⟩
    obtain ⟨k, rfl⟩ : ∃ k, c = k + 1 := ⟨c - 1, by
      have : c ≠ 0 := by rintro rfl; omega
      omega⟩
    refine ⟨k, (Nat.le_div_iff_mul_le pos).2 (Nat.mul_comm word _ ▸ high), ?_⟩
    rw [Nat.mul_comm, Nat.succ_mul, Nat.add_comm]
  · rintro ⟨k, below, rfl⟩
    have high : (k + 1) * word ≤ last := (Nat.le_div_iff_mul_le pos).1 below
    rw [Nat.succ_mul] at high
    exact ⟨⟨k + 1, by rw [Nat.mul_succ, Nat.mul_comm, Nat.add_comm]⟩, by omega, by omega⟩

/-- Aligned placement finds the least of the addresses it tries that is free. -/
theorem aligned?_eq_some_iff (pos : 0 < word) :
    aligned? f word last = some a ↔
      ((word ∣ a ∧ word ≤ a ∧ a ≤ last) ∧ f a = true) ∧
        ∀ b, (word ∣ b ∧ word ≤ b ∧ b ≤ last) → f b = true → a ≤ b := by
  unfold aligned?
  rw [firstFree?_eq_some_iff]
  constructor
  · rintro ⟨k, first, rfl⟩
    refine ⟨⟨(tried_iff pos).2 ⟨k, first.below, rfl⟩, first.holds⟩, fun b tried free => ?_⟩
    obtain ⟨j, -, rfl⟩ := (tried_iff pos).1 tried
    have later : k ≤ j := Nat.le_of_not_lt fun low => first.before j low free
    exact Nat.add_le_add_left (Nat.mul_le_mul_right _ later) _
  · rintro ⟨⟨tried, free⟩, least⟩
    obtain ⟨k, below, rfl⟩ := (tried_iff pos).1 tried
    refine ⟨k, ⟨below, free, fun j low free => ?_⟩, rfl⟩
    have least := least _ ((tried_iff pos).2 ⟨j, Nat.lt_trans low below, rfl⟩) free
    exact absurd (Nat.le_of_mul_le_mul_right (Nat.le_of_add_le_add_left least) pos)
      (Nat.not_le.2 low)

theorem aligned?_eq_none_iff (pos : 0 < word) :
    aligned? f word last = none ↔ ¬ ∃ a, (word ∣ a ∧ word ≤ a ∧ a ≤ last) ∧ f a = true := by
  constructor
  · rintro nothing ⟨a, tried, free⟩
    obtain ⟨k, below, rfl⟩ := (tried_iff pos).1 tried
    obtain ⟨j, first⟩ := exists_isFirst (p := fun k => f (word + k * word) = true) below free
    have found := firstFree?_eq_some_iff.2 ⟨j, first, rfl⟩
    exact nomatch nothing.symm.trans found
  · intro nothing
    cases found : aligned? f word last with
    | none => rfl
    | some a => exact absurd ⟨a, ((aligned?_eq_some_iff pos).1 found).1⟩ nothing

theorem scattered?_eq_none_iff {count : Nat} :
    scattered? f last count stream = none ↔ ∀ k < count, f (stream.drawn 1 last k) = false := by
  constructor
  · intro nothing k below
    refine Bool.eq_false_iff.2 fun free => ?_
    obtain ⟨j, first⟩ :=
      exists_isFirst (p := fun k => f (stream.drawn 1 last k) = true) below free
    have found := scattered?_eq_some_iff.2 ⟨j, first, rfl, rfl⟩
    exact nomatch nothing.symm.trans found
  · intro nothing
    cases found : scattered? f last count stream with
    | none => rfl
    | some slot =>
      obtain ⟨k, first, -⟩ := scattered?_eq_some_iff.1 found
      have free := first.holds
      rw [nothing k first.below] at free
      cases free

/-- Without room behind any address there is no multiple of the word size to try either. -/
theorem slot?_aligned (some : 0 < size) :
    aligned.slot? f stream size capacity word =
      (aligned? f word (capacity - size)).map fun a => (a, stream) := by
  unfold slot?
  split
  · next full =>
    simp only [Bool.or_eq_true, decide_eq_true_eq] at full
    have none : (capacity - size) / word = 0 := by
      rw [Nat.sub_eq_zero_of_le (by omega), Nat.zero_div]
    rw [aligned?, none]
    rfl
  · rfl

theorem slot?_scattered (some : 0 < size) :
    scattered.slot? f stream size capacity word =
      if size < capacity then scattered? f (capacity - size) attempts stream else none := by
  unfold slot?
  by_cases room : size < capacity
  · have fits : (decide (size = 0) || decide (capacity ≤ size)) = false := by
      simp only [Bool.or_eq_false_iff, decide_eq_false_iff_not]; omega
    simp only [fits, if_pos room, Bool.false_eq_true, if_false]
  · have full : (decide (size = 0) || decide (capacity ≤ size)) = true := by
      simp only [Bool.or_eq_true, decide_eq_true_eq]; omega
    simp only [full, if_neg room, if_true]

end Placement

/-! ### Room and the variables -/

namespace Symbols

variable {s t : Symbols} {size a : Nat}

/-- The bytes from an address on belong to no owner. -/
def Unowned (s : Symbols) (size a : Nat) : Prop :=
  ∀ v ∈ s.entries, v.isAlias = false → a + size ≤ v.address ∨ v.stop ≤ a

/-- The bytes from an address on are in memory and belong to no owner. -/
structure Vacant (s : Symbols) (size a : Nat) : Prop where
  inside : a + size ≤ s.capacity
  unowned : s.Unowned size a

/-- An address that aligned placement may choose. -/
structure AlignedSlot (s : Symbols) (size a : Nat) : Prop where
  multiple : s.word ∣ a
  behind : s.word ≤ a
  vacant : s.Vacant size a

/-- Whether an address is free is told by the owners alone. An alias stands where its target
does, so it refuses no address that its target would not. -/
theorem Sound.isFree_iff (h : s.Sound) (bound : s.Bound) (sized : ∀ v ∈ s.entries, 0 < v.size)
    (some : 0 < size) : s.isFree size a = true ↔ s.Unowned size a := by
  constructor
  · intro free v mem owner
    by_contra meet
    have pos : v.address < v.stop := Nat.lt_add_of_pos_right (sized v mem)
    refine h.not_owns_of_isFree free (Nat.le_max_left a v.address) (by omega) v mem ?_
    exact ⟨owner, Nat.le_max_right _ _, by omega⟩
  · intro unowned
    have unnamed : s.index.get a = [] := by
      rw [h.listed, List.map_eq_nil_iff, List.filter_eq_nil_iff]
      intro w mem here
      obtain rfl : w.address = a := of_decide_eq_true here
      have pos := sized w mem
      -- The owner at the address of `w`, which is `w` itself unless that is an alias.
      obtain ⟨v, mem, owner, low, high⟩ : ∃ v ∈ s.entries, v.isAlias = false ∧
          v.address ≤ w.address ∧ w.address + w.size ≤ v.stop := by
        cases k : w.isAlias with
        | false => exact ⟨w, mem, k, Nat.le_refl _, Nat.le_refl _⟩
        | true =>
          obtain ⟨target, role⟩ := Variable.isAlias_iff.1 k
          obtain ⟨v, mem, -, owner, covers⟩ := h.isBound_iff.1 (bound w mem) target role
          exact ⟨v, mem, owner, Variable.spans_iff.1 covers⟩
      rcases unowned v mem owner with before | behind <;> omega
    have untouched : s.occupied.meets a (a + size) = false := by
      refine Bool.eq_false_iff.2 fun met => ?_
      obtain ⟨b, low, high, taken⟩ := (Region.meets_iff _ _ _).1 met
      obtain ⟨v, mem, owner, first, last⟩ := (h.taken b).1 taken
      rcases unowned v mem owner with before | behind <;> omega
    simp only [isFree, unnamed, untouched, List.isEmpty_nil, Bool.not_false, Bool.and_self]

theorem allocate_eq_ok_iff : s.allocate size = .ok (a, t) ↔
    ∃ stream, s.placement.slot? (s.isFree size) s.stream size s.capacity s.word =
      some (a, stream) ∧ t = { s with stream := stream } := by
  refine ⟨allocate_eq_ok, ?_⟩
  rintro ⟨stream, found, rfl⟩
  simp only [allocate, found]

theorem allocate_eq_error_iff : s.allocate size = .error (.memoryExhausted size) ↔
    s.placement.slot? (s.isFree size) s.stream size s.capacity s.word = none := by
  unfold allocate
  split
  · next found => simp [found]
  · next nothing => simp [nothing]

/-- Under aligned placement room is found at the least multiple of the word size with room. -/
theorem allocate_aligned (pos : 0 < s.word) (some : 0 < size) (aligned : s.placement = .aligned)
    (free : ∀ a, s.isFree size a = true ↔ s.Unowned size a) :
    (∀ a t, s.allocate size = .ok (a, t) ↔
      (s.AlignedSlot size a ∧ ∀ b, s.AlignedSlot size b → a ≤ b) ∧ t = s) ∧
    (s.allocate size = .error (.memoryExhausted size) ↔ ¬ ∃ a, s.AlignedSlot size a) := by
  -- Some byte is behind an address with room, so the last one tried is the last with room.
  have slot (a : Nat) : s.AlignedSlot size a ↔
      (s.word ∣ a ∧ s.word ≤ a ∧ a ≤ s.capacity - size) ∧ s.isFree size a = true := by
    rw [free]
    constructor
    · rintro ⟨multiple, behind, inside, unowned⟩
      exact ⟨⟨multiple, behind, by omega⟩, unowned⟩
    · rintro ⟨⟨multiple, behind, last⟩, unowned⟩
      exact ⟨multiple, behind, by omega, unowned⟩
  have chosen : s.placement.slot? (s.isFree size) s.stream size s.capacity s.word =
      (Placement.aligned? (s.isFree size) s.word (s.capacity - size)).map
        fun a => (a, s.stream) := by
    rw [aligned, Placement.slot?_aligned some]
  constructor
  · intro a t
    rw [allocate_eq_ok_iff, chosen]
    simp only [slot, Option.map_eq_some_iff, Prod.mk.injEq]
    constructor
    · rintro ⟨stream, ⟨b, found, rfl, rfl⟩, rfl⟩
      obtain ⟨tried, least⟩ := (Placement.aligned?_eq_some_iff pos).1 found
      exact ⟨⟨tried, fun c slot => least c slot.1 slot.2⟩, rfl⟩
    · rintro ⟨⟨tried, least⟩, rfl⟩
      have found := (Placement.aligned?_eq_some_iff pos).2
        ⟨tried, fun c tried free => least c ⟨tried, free⟩⟩
      exact ⟨_, ⟨a, found, rfl, rfl⟩, rfl⟩
  · rw [allocate_eq_error_iff, chosen, Option.map_eq_none_iff,
      Placement.aligned?_eq_none_iff pos]
    simp only [slot]

/-- Under scattered placement room is found at the first address drawn that has room. No more
than a hundred are drawn, and none if there is no address with room behind it. -/
theorem allocate_scattered (some : 0 < size) (scattered : s.placement = .scattered)
    (free : ∀ a, s.isFree size a = true ↔ s.Unowned size a) :
    (∀ a t, s.allocate size = .ok (a, t) ↔ (1 ≤ a ∧ s.Vacant size a) ∧ size < s.capacity ∧
      ∃ k < 100, a = s.stream.drawn 1 (s.capacity - size) k ∧
        (∀ j < k, ¬ s.Vacant size (s.stream.drawn 1 (s.capacity - size) j)) ∧
        t = { s with stream := s.stream.after 1 (s.capacity - size) (k + 1) }) ∧
    (s.allocate size = .error (.memoryExhausted size) ↔ (size < s.capacity →
      ∀ k < 100, ¬ s.Vacant size (s.stream.drawn 1 (s.capacity - size) k))) := by
  have drawn (room : size < s.capacity) (k : Nat) :
      1 ≤ s.stream.drawn 1 (s.capacity - size) k ∧
        (s.isFree size (s.stream.drawn 1 (s.capacity - size) k) = true ↔
          s.Vacant size (s.stream.drawn 1 (s.capacity - size) k)) := by
    obtain ⟨low, high⟩ : 1 ≤ s.stream.drawn 1 (s.capacity - size) k ∧
        s.stream.drawn 1 (s.capacity - size) k ≤ s.capacity - size :=
      SplitMix.draw_bounds _ (by omega)
    exact ⟨low, (free _).trans ⟨fun unowned => ⟨by omega, unowned⟩, Vacant.unowned⟩⟩
  have chosen : s.placement.slot? (s.isFree size) s.stream size s.capacity s.word =
      if size < s.capacity then
        Placement.scattered? (s.isFree size) (s.capacity - size) 100 s.stream
      else none := by
    rw [scattered, Placement.slot?_scattered some, Placement.attempts]
  constructor
  · intro a t
    rw [allocate_eq_ok_iff, chosen]
    by_cases room : size < s.capacity
    · simp only [if_pos room, Placement.scattered?_eq_some_iff]
      constructor
      · rintro ⟨stream, ⟨k, ⟨below, free, before⟩, rfl, rfl⟩, rfl⟩
        refine ⟨⟨(drawn room k).1, (drawn room k).2.1 free⟩, room, k, below, rfl, ?_, rfl⟩
        exact fun j low vacant => before j low ((drawn room j).2.2 vacant)
      · rintro ⟨⟨-, vacant⟩, -, k, below, rfl, before, rfl⟩
        refine ⟨_, ⟨k, ⟨below, (drawn room k).2.2 vacant, fun j low free => ?_⟩, rfl, rfl⟩, rfl⟩
        exact before j low ((drawn room j).2.1 free)
    · simp only [if_neg room]
      exact ⟨(fun ⟨_, found, _⟩ => nomatch found), fun ⟨_, fits, _⟩ => absurd fits room⟩
  · rw [allocate_eq_error_iff, chosen]
    by_cases room : size < s.capacity
    · rw [if_pos room, Placement.scattered?_eq_none_iff]
      simp only [Bool.eq_false_iff, ne_eq, (drawn room _).2, room, true_imp_iff]
    · simp [room]

end Symbols

namespace Run

/-- If no room is found, nothing is changed. -/
theorem allocate_exhausted {s : Core} {t : Ty} {fault : Fault}
    (e : s.symbols.allocate (s.catalog.size t) = .error fault) (id : Identifier) :
    (allocate id t).run.run s = (.error fault, s) := by
  simp only [allocate, run_bind, run_catalog, run_symbols, run_lift, e]

end Run

namespace Machine

variable {m : Machine}

/-- The search for room is sound and complete. Aligned placement finds the least multiple of the
word size from which on the bytes are in memory and in no owner, and fails exactly if there is
none. Scattered placement finds the first of at most a hundred addresses drawn that is as good, and
fails exactly if none is. What fails leaves the table as it is, its stream included. -/
theorem Reachable.slot_search (h : m.Reachable) {size : Nat} (some : 1 ≤ size) :
    let s := m.core.symbols
    (s.placement = .aligned →
      (∀ a t, s.allocate size = .ok (a, t) ↔
        (s.AlignedSlot size a ∧ ∀ b, s.AlignedSlot size b → a ≤ b) ∧ t = s) ∧
      (s.allocate size = .error (.memoryExhausted size) ↔ ¬ ∃ a, s.AlignedSlot size a)) ∧
    (s.placement = .scattered →
      (∀ a t, s.allocate size = .ok (a, t) ↔ (1 ≤ a ∧ s.Vacant size a) ∧ size < s.capacity ∧
        ∃ k < 100, a = s.stream.drawn 1 (s.capacity - size) k ∧
          (∀ j < k, ¬ s.Vacant size (s.stream.drawn 1 (s.capacity - size) j)) ∧
          t = { s with stream := s.stream.after 1 (s.capacity - size) (k + 1) }) ∧
      (s.allocate size = .error (.memoryExhausted size) ↔ (size < s.capacity →
        ∀ k < 100, ¬ s.Vacant size (s.stream.drawn 1 (s.capacity - size) k)))) ∧
    ∀ fault, s.allocate size = .error fault → fault = .memoryExhausted size ∧
      ∀ id t, m.core.catalog.size t = size →
        (Run.allocate id t).run.run m.core = (.error fault, m.core) := by
  have sound := h.sound
  have table := sound.core.fits.table
  have pos : 0 < m.core.symbols.word := sound.core.fits.word ▸ sound.core.closed.word_pos
  have free (a : Nat) := table.isFree_iff (a := a) sound.bound h.size_pos some
  refine ⟨fun aligned => Symbols.allocate_aligned pos some aligned free,
    fun scattered => Symbols.allocate_scattered some scattered free, fun fault failed => ?_⟩
  refine ⟨Symbols.allocate_eq_error failed, ?_⟩
  rintro id t rfl
  exact Run.allocate_exhausted failed id

/-- Behind the three streams, one of which has another name as well, twelve bytes go to address 16,
which is the least with room. In a memory of 32 bytes with three streams scattered in it there is
room for two bytes at address 16, which is the second drawn; none of a hundred draws has room for
twenty, and nothing is changed by looking for it. -/
theorem slot_search_streams :
    ((fresh.execute "int& r = stdout").2.core.symbols.AlignedSlot 12 16 ∧
      ∀ b, (fresh.execute "int& r = stdout").2.core.symbols.AlignedSlot 12 b → 16 ≤ b) ∧
    (cramped 4 .scattered).core.symbols.Vacant 2 16 ∧
    (∀ k < 100, ¬ (cramped 4 .scattered).core.symbols.Vacant 20
      ((cramped 4 .scattered).core.symbols.stream.drawn 1 12 k)) ∧
    (Run.allocate (.named "a") (.array Ty.char 20)).run.run (cramped 4 .scattered).core =
      (.error (.memoryExhausted 20), (cramped 4 .scattered).core) := by
  have aligned := (reachable_fresh.executed "int& r = stdout").slot_search (by decide : 1 ≤ 12)
  have found : (fresh.execute "int& r = stdout").2.core.symbols.allocate 12 =
      .ok (16, (fresh.execute "int& r = stdout").2.core.symbols) := by
    decide +kernel
  have reachable := Reachable.created create_cramped_scattered
  have capacity : (cramped 4 .scattered).core.symbols.capacity = 32 := by decide +kernel
  have drawn : (cramped 4 .scattered).core.symbols.allocate 2 =
      .ok (16, { (cramped 4 .scattered).core.symbols with
        stream := (cramped 4 .scattered).core.symbols.stream.after 1 30 2 }) := by
    decide +kernel
  have full : (cramped 4 .scattered).core.symbols.allocate 20 = .error (.memoryExhausted 20) := by
    decide +kernel
  have two := (reachable.slot_search (by decide : 1 ≤ 2)).2.1 (by decide +kernel)
  have twenty := (reachable.slot_search (by decide : 1 ≤ 20)).2.1 (by decide +kernel)
  have tried := twenty.2.1 full
  rw [capacity] at tried
  refine ⟨((aligned.1 (by decide +kernel)).1 16 _).1 found |>.1, ?_, ?_, ?_⟩
  · exact ((two.1 16 _).1 drawn).1.2
  · exact tried (by decide)
  · exact ((reachable.slot_search (by decide : 1 ≤ 20)).2.2 _ full).2 (.named "a") _ (by decide)

end Machine

end ByteMachine
