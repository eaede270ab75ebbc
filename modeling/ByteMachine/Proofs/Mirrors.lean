import ByteMachine.Proofs.Bytes
import ByteMachine.Proofs.Reachability
import Mathlib.Data.List.Pairwise

/-!
# Turning numbers around

Changing the byte order turns around every number of every owner, one after the other. The
numbers lie inside of memory and no two of them meet, since owners do not, so the outcome does not
depend on the order of the work: each byte ends where its mirror image in its own number was, and
bytes that belong to no number stay. Doing it twice changes nothing.

Key definitions: `Apart`, `mirror`, `Symbols.runs`, `Variable.Part`.
Key theorems: `mirror_mirror`, `Symbols.reverseAll_bytes`, `Fits.runs_apart`,
`Fits.switchOrder_bytes`, `Fits.mirror_of_part`.
-/

namespace ByteMachine

/-! ### Mirror images -/

/-- No address is covered by both runs. -/
def Apart (r s : Nat × Nat) : Prop := ∀ a, Covers r a → ¬ Covers s a

instance : Std.Symm Apart := ⟨fun _ _ h a k l => h a l k⟩

/-- Where a byte goes when runs of bytes are turned around that do not meet. -/
def mirror (runs : List (Nat × Nat)) (a : Nat) : Nat :=
  match runs.find? fun r => Covers r a with
  | some r => turn r a
  | none => a

section

variable {runs : List (Nat × Nat)} {r s : Nat × Nat} {a : Nat}

theorem mirror_of_free (free : ∀ r ∈ runs, ¬ Covers r a) : mirror runs a = a := by
  have none : runs.find? (fun r => Covers r a) = none :=
    List.find?_eq_none.2 fun r mem => by simpa using free r mem
  simp only [mirror, none]

/-- Of runs that are apart only one covers an address. -/
theorem eq_of_covers (apart : runs.Pairwise Apart) (mr : r ∈ runs) (ms : s ∈ runs)
    (cr : Covers r a) (cs : Covers s a) : r = s := by
  by_contra other
  exact apart.forall mr ms other a cr cs

theorem mirror_of_mem (apart : runs.Pairwise Apart) (mem : r ∈ runs) (covers : Covers r a) :
    mirror runs a = turn r a := by
  unfold mirror
  split
  · next s found =>
    have covers' : Covers s a := by simpa using List.find?_some found
    rw [eq_of_covers apart (List.mem_of_find?_eq_some found) mem covers' covers]
  · next none => exact absurd covers (by simpa using List.find?_eq_none.1 none r mem)

/-- A mirror image lies in the same run. -/
theorem covers_mirror (apart : runs.Pairwise Apart) (mem : r ∈ runs) :
    Covers r (mirror runs a) ↔ Covers r a := by
  by_cases free : ∀ s ∈ runs, ¬ Covers s a
  · rw [mirror_of_free free]
  · simp only [not_forall, not_not] at free
    obtain ⟨s, mem', covers⟩ := free
    rw [mirror_of_mem apart mem' covers]
    constructor
    · intro h
      rw [eq_of_covers apart mem mem' h (covers_turn covers)]
      exact covers
    · intro h
      rw [eq_of_covers apart mem mem' h covers]
      exact covers_turn covers

theorem mirror_mirror (apart : runs.Pairwise Apart) (a : Nat) :
    mirror runs (mirror runs a) = a := by
  by_cases free : ∀ r ∈ runs, ¬ Covers r a
  · rw [mirror_of_free free, mirror_of_free free]
  · simp only [not_forall, not_not] at free
    obtain ⟨r, mem, covers⟩ := free
    rw [mirror_of_mem apart mem ((covers_mirror apart mem).2 covers),
      mirror_of_mem apart mem covers, turn_turn covers]

end

namespace Symbols

/-- Turning around runs that are apart puts each byte where its mirror image was. -/
theorem reverseAll_bytes : ∀ (runs : List (Nat × Nat)) {m n : Memory}, runs.Pairwise Apart →
    reverseAll runs m = (.ok (), n) → ∀ a : Nat, n.bytes[a]? = m.bytes[mirror runs a]?
  | [], _, _, _, e, a => by cases e; rfl
  | (address, length) :: runs, m, n, apart, e, a => by
    have apart' := List.pairwise_cons.1 apart
    simp only [reverseAll] at e
    split at e
    · next turned first =>
      rw [reverseAll_bytes runs apart'.2 e a, Memory.getElem?_reverse first]
      congr 1
      by_cases here : Covers (address, length) a
      · have elsewhere : mirror runs a = a :=
          mirror_of_free fun s mem covers => apart'.1 s mem a here covers
        rw [elsewhere, if_pos here, mirror_of_mem apart (.head _) here]
      · by_cases free : ∀ s ∈ runs, ¬ Covers s a
        · rw [mirror_of_free free, if_neg here,
            mirror_of_free (List.forall_mem_cons.2 ⟨here, free⟩)]
        · simp only [not_forall, not_not] at free
          obtain ⟨s, mem, covers⟩ := free
          rw [mirror_of_mem apart'.2 mem covers, mirror_of_mem apart (.tail _ mem) covers,
            if_neg fun h => apart'.1 s mem _ h (covers_turn covers)]
    · cases e

/-! ### The numbers of the owners -/

/-- The numbers of all owners, as runs of bytes. -/
def runs (t : Symbols) (c : Catalog) : List (Nat × Nat) :=
  (t.entries.filter fun v => !v.isAlias).flatMap (units c)

theorem mem_runs {t : Symbols} {c : Catalog} {r : Nat × Nat} :
    r ∈ t.runs c ↔ ∃ v ∈ t.entries, v.isAlias = false ∧ r ∈ units c v := by
  simp only [runs, List.mem_flatMap, List.mem_filter, Bool.not_eq_true', and_assoc]

/-- The numbers of an owner start inside of it. -/
theorem units_above {c : Catalog} {v : Variable} : ∀ r ∈ units c v, v.address ≤ r.1 := by
  intro r mem
  unfold units at mem
  split at mem
  next unit count shape =>
  split at mem
  · cases mem
  · obtain ⟨i, -, rfl⟩ := List.mem_map.1 mem
    exact Nat.le_add_right _ _

theorem units_apart (c : Catalog) (v : Variable) : (units c v).Pairwise Apart := by
  unfold units
  split
  next unit count shape =>
  split
  · exact .nil
  · refine List.pairwise_map.2 (List.pairwise_lt_range.imp ?_)
    intro i j before a first second
    have next : (i + 1) * unit ≤ j * unit := Nat.mul_le_mul_right _ before
    simp only [Covers, Nat.add_mul] at first second next
    omega

end Symbols

/-- The numbers an owner is made of, each with its address and type: the elements of an array,
else the whole. -/
inductive Variable.Part (c : Catalog) (v : Variable) : Nat → Ty → Prop where
  | whole (h : v.type.isArray = false) : Part c v v.address v.type
  | element {e : Ty} {count i : Nat} (h : v.type = .array e count) (low : i < count) :
    Part c v (v.address + i * c.size e) e

namespace Variable

variable {c : Catalog} {v : Variable} {a : Nat} {t : Ty}

/-- A number of at least two bytes is turned around; single bytes are not. -/
theorem Part.units (p : v.Part c a t) (agrees : v.Agrees c) (owner : v.isAlias = false) :
    if c.size t < 2 then Symbols.units c v = [] else (a, c.size t) ∈ Symbols.units c v := by
  cases p with
  | whole scalar =>
    have unit : Symbols.units c v =
        if v.size < 2 then [] else (List.range 1).map fun i => (v.address + i * v.size, v.size) := by
      unfold Symbols.units
      split
      next shape =>
      split at shape
      · next h => simp [h, Ty.isArray, Ty.arrayShape?, Ty.strip] at scalar
      · cases shape
        rfl
    rw [unit, agrees.size_owner owner]
    split
    · rfl
    · simp
  | @element _ count i h low =>
    have unit : Symbols.units c v = if c.size t < 2 then [] else
        (List.range count).map fun i => (v.address + i * c.size t, c.size t) := by
      simp only [Symbols.units, h]
    rw [unit]
    split
    · rfl
    · exact List.mem_map.2 ⟨i, List.mem_range.2 low, rfl⟩

/-- A number of an owner lies inside of it. -/
theorem Part.inside (p : v.Part c a t) (agrees : v.Agrees c) (owner : v.isAlias = false) :
    v.address ≤ a ∧ a + c.size t ≤ v.stop := by
  have size := agrees.size_owner owner
  cases p with
  | whole => exact ⟨Nat.le_refl _, Nat.le_of_eq (congrArg _ size.symm)⟩
  | @element _ count i h low =>
    have total : v.size = c.size t * count := by rw [size, h]; rfl
    have : (i + 1) * c.size t ≤ count * c.size t := Nat.mul_le_mul_right _ low
    rw [Nat.add_mul, Nat.one_mul, Nat.mul_comm count, ← total] at this
    exact ⟨Nat.le_add_right _ _, by simp only [stop]; omega⟩

theorem Part.plain (p : v.Part c a t) (closed : c.Closed) (agrees : v.Agrees c)
    (owner : v.isAlias = false) : t.isReference = false := by
  cases p with
  | whole => exact agrees.plain owner
  | element h =>
    have known := agrees.known
    rw [h] at known
    obtain ⟨-, word, built⟩ := closed.admits _ known
    exact Ty.element_of_arrayOf built

end Variable

namespace Fits

variable {c : Catalog} {m n : Memory} {t : Symbols} {v : Variable} {r : Nat × Nat} {a : Nat}

/-- A number lies inside of its owner. -/
theorem owns_of_unit (h : Fits c m t) (mem : v ∈ t.entries) (owner : v.isAlias = false)
    (unit : r ∈ Symbols.units c v) (covers : Covers r a) : v.Owns a := by
  obtain ⟨-, size, kind, -, -⟩ := h.agree v mem
  have low := Symbols.units_above r unit
  have high := Symbols.units_inside size (kind ▸ owner) r unit
  exact ⟨owner, Nat.le_trans low covers.1, Nat.lt_of_lt_of_le covers.2 high⟩

/-- No two numbers meet. -/
theorem runs_apart (h : Fits c m t) : (t.runs c).Pairwise Apart := by
  refine List.pairwise_flatMap.2 ⟨fun v _ => Symbols.units_apart c v, ?_⟩
  have distinct := ((List.Nodup.of_map _ h.table.distinct).filter fun v => !v.isAlias)
  refine distinct.pairwise_of_forall_ne fun v mv w mw other r unit s unit' a covers covers' => ?_
  simp only [List.mem_filter, Bool.not_eq_true'] at mv mw
  exact other (h.table.apart v mv.1 w mw.1 a (h.owns_of_unit mv.1 mv.2 unit covers)
    (h.owns_of_unit mw.1 mw.2 unit' covers'))

/-- A byte that belongs to nobody stays. -/
theorem mirror_of_unowned (h : Fits c m t) (free : ∀ v ∈ t.entries, ¬ v.Owns a) :
    mirror (t.runs c) a = a := by
  refine mirror_of_free fun r mem covers => ?_
  obtain ⟨v, mem, owner, unit⟩ := Symbols.mem_runs.1 mem
  exact free v mem (h.owns_of_unit mem owner unit covers)

theorem mirror_of_unit (h : Fits c m t) (mem : v ∈ t.entries) (owner : v.isAlias = false)
    (unit : r ∈ Symbols.units c v) (covers : Covers r a) : mirror (t.runs c) a = turn r a :=
  mirror_of_mem h.runs_apart (Symbols.mem_runs.2 ⟨v, mem, owner, unit⟩) covers

/-- The bytes of an owner of single bytes stay. -/
theorem mirror_of_single (h : Fits c m t) (mem : v ∈ t.entries) (single : Symbols.units c v = [])
    (owns : v.Owns a) : mirror (t.runs c) a = a := by
  refine mirror_of_free fun r mem' covers => ?_
  obtain ⟨w, mem', owner, unit⟩ := Symbols.mem_runs.1 mem'
  cases h.table.apart v mem w mem' a owns (h.owns_of_unit mem' owner unit covers)
  rw [single] at unit
  cases unit

/-- Each number of an owner is turned around. -/
theorem mirror_of_part (h : Fits c m t) (mem : v ∈ t.entries) (owner : v.isAlias = false)
    {type : Ty} (p : v.Part c a type) : ∀ i < c.size type,
      mirror (t.runs c) (a + i) = a + (c.size type - 1 - i) := by
  intro i low
  have agrees := h.agree v mem
  have inside := p.inside agrees owner
  have unit := p.units agrees owner
  split at unit
  · rw [h.mirror_of_single mem unit ⟨owner, by omega, by omega⟩]
    omega
  · rw [h.mirror_of_unit mem owner unit ⟨Nat.le_add_right _ _, by simp only; omega⟩]
    simp only [turn]
    omega

/-- The byte order can always be changed, and then each byte is where its mirror image was. -/
theorem switchOrder_bytes (h : Fits c m t) : ∃ n, t.switchOrder c m = (.ok (), n) ∧
    n.size = m.size ∧ n.order = m.order.flip ∧
      ∀ a : Nat, n.bytes[a]? = m.bytes[mirror (t.runs c) a]? := by
  obtain ⟨n, e, size, order⟩ := h.switchOrder
  refine ⟨n, e, size, order, fun a => ?_⟩
  unfold Symbols.switchOrder at e
  split at e
  · next turned done =>
    cases e
    exact Symbols.reverseAll_bytes (t.runs c) h.runs_apart done a
  · cases e

end Fits

end ByteMachine
