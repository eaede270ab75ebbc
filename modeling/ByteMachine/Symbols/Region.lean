/-!
# Regions

A region is a set of addresses, kept as a list of half-open ranges. Adding a range and taking
one away are pointwise union and difference, whether ranges overlap or not; `Region.meets` asks
whether a range has an address in the region.

Key definitions: `Region`, `Region.contains`, `Region.insert`, `Region.erase`, `Region.meets`.
Key theorems: `Region.contains_insert`, `Region.contains_erase`, `Region.meets_iff`.
-/

namespace ByteMachine

/-- A set of addresses, as ranges `[first, stop)`. -/
structure Region where
  ranges : List (Nat × Nat)
deriving DecidableEq, Repr, Inhabited

namespace Region

def empty : Region := ⟨[]⟩

def contains (r : Region) (a : Nat) : Bool := r.ranges.any fun s => s.1 ≤ a && a < s.2

/-- The region with the addresses from `first` up to `stop` as well. -/
def insert (r : Region) (first stop : Nat) : Region :=
  if first < stop then ⟨(first, stop) :: r.ranges⟩ else r

/-- What is left of a range without another: a piece before it and a piece after it. -/
def cut (first stop : Nat) (s : Nat × Nat) : List (Nat × Nat) :=
  [(s.1, min s.2 first), (max s.1 stop, s.2)].filter fun p => p.1 < p.2

/-- The region without the addresses from `first` up to `stop`. -/
def erase (r : Region) (first stop : Nat) : Region :=
  if first < stop then ⟨r.ranges.flatMap (cut first stop)⟩ else r

/-- Whether an address from `first` up to `stop` is in the region. -/
def meets (r : Region) (first stop : Nat) : Bool :=
  r.ranges.any fun s => max s.1 first < min s.2 stop

@[simp] theorem contains_empty (a : Nat) : empty.contains a = false := rfl

@[simp] theorem contains_insert (r : Region) (first stop a : Nat) :
    (r.insert first stop).contains a = ((first ≤ a && a < stop) || r.contains a) := by
  unfold insert
  split
  · rfl
  · have : (decide (first ≤ a) && decide (a < stop)) = false := by
      simp only [Bool.and_eq_false_iff, decide_eq_false_iff_not]; omega
    simp [this]

@[simp] theorem contains_erase (r : Region) (first stop a : Nat) :
    (r.erase first stop).contains a = (r.contains a && !(first ≤ a && a < stop)) := by
  rw [Bool.eq_iff_iff]
  simp only [contains, Bool.and_eq_true, Bool.not_eq_true', List.any_eq_true, decide_eq_true_eq,
    Bool.and_eq_false_iff, decide_eq_false_iff_not]
  unfold erase
  split
  · constructor
    · rintro ⟨p, hp, h1, h2⟩
      obtain ⟨s, hs, hps⟩ := List.mem_flatMap.1 hp
      simp only [cut, List.mem_filter, List.mem_cons, List.not_mem_nil, or_false,
        decide_eq_true_eq] at hps
      rcases hps with ⟨rfl | rfl, _⟩
      · exact ⟨⟨s, hs, by simp only at h1 h2; omega⟩, by simp only at h1 h2; omega⟩
      · exact ⟨⟨s, hs, by simp only at h1 h2; omega⟩, by simp only at h1 h2; omega⟩
    · rintro ⟨⟨s, hs, h1, h2⟩, h3⟩
      by_cases h : a < first
      · exact ⟨(s.1, min s.2 first), List.mem_flatMap.2 ⟨s, hs, by
          simp only [cut, List.mem_filter, List.mem_cons, true_or, true_and, decide_eq_true_eq]
          omega⟩, h1, by simp only; omega⟩
      · exact ⟨(max s.1 stop, s.2), List.mem_flatMap.2 ⟨s, hs, by
          simp only [cut, List.mem_filter, List.mem_cons, true_or, or_true, true_and,
            decide_eq_true_eq]
          omega⟩, by simp only; omega, h2⟩
  · constructor
    · exact fun h => ⟨h, by omega⟩
    · exact fun h => h.1

theorem meets_iff (r : Region) (first stop : Nat) :
    r.meets first stop = true ↔ ∃ a, first ≤ a ∧ a < stop ∧ r.contains a = true := by
  simp only [meets, contains, List.any_eq_true, decide_eq_true_eq, Bool.and_eq_true]
  constructor
  · rintro ⟨s, hs, h⟩
    exact ⟨max s.1 first, by omega, by omega, s, hs, by omega, by omega⟩
  · rintro ⟨a, h1, h2, s, hs, h3, h4⟩
    exact ⟨s, hs, by omega⟩

end Region

end ByteMachine
