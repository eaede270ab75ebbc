import ByteMachine.Proofs.Reachability
import ByteMachine.Screen.Panes
import Mathlib.Data.List.Pairwise

/-!
# The marks of the memory pane

The pane marks bytes from the variables alone: it puts the owners in the order of their addresses,
lets declared variables and blocks take turns in their shades, each kind for itself, and marks the
bytes of one owner after the other. The table keeps the occupied bytes apart from that, and the two
agree. Owners are not empty and do not meet, so in the order of their addresses each one ends
before the next begins: no byte is marked twice, and of two neighbours one comes right behind the
other. If they are of one kind, the turn is the other one's.

Key definitions: `Screen.lastShade`, `Screen.markBehind`, `Machine.owners`.
Key theorems: `Screen.mem_shadeOwners`, `Screen.getElem?_markAll`, `Symbols.Sound.owning_apart`,
`Symbols.Sound.getElem?_byteOwners`, `Symbols.Sound.owning_neighbours`,
`Machine.Reachable.owners_exact`.
-/

namespace ByteMachine

namespace Screen

/-! ### Shades -/

/-- The shade that the last of these variables of a kind has; the turns begin behind `false`. -/
def lastShade (heap : Bool) : List Variable → Bool
  | [] => false
  | v :: vs => if v.id.isHeap = heap then !lastShade heap vs else lastShade heap vs

/-- The mark of a variable that comes behind these. -/
def markBehind (before : List Variable) (v : Variable) : ByteOwner :=
  if v.id.isHeap then .heap (!lastShade true before) else .declared (!lastShade false before)

theorem lastShade_concat (heap : Bool) (v : Variable) : ∀ vs : List Variable,
    lastShade heap (vs ++ [v]) =
      if v.id.isHeap = heap then !lastShade heap vs else lastShade heap vs
  | [] => rfl
  | u :: vs => by
    rw [List.cons_append, lastShade, lastShade_concat heap v vs, lastShade]
    split <;> split <;> rfl

/-- The flags are the shades of those that came before, and each variable is marked by them. -/
theorem mem_shadeOwners : ∀ (before pre post : List Variable) (v : Variable),
    (v, markBehind (before ++ pre) v) ∈
      shadeOwners (lastShade false before) (lastShade true before) (pre ++ v :: post)
  | before, [], post, v => by
    rw [List.append_nil, List.nil_append, shadeOwners, markBehind]
    split <;> exact List.mem_cons_self
  | before, u :: pre, post, v => by
    have rest := mem_shadeOwners (before ++ [u]) pre post v
    rw [List.append_assoc, List.singleton_append, lastShade_concat, lastShade_concat] at rest
    rw [List.cons_append, shadeOwners]
    cases kind : u.id.isHeap <;> simp only [kind] at rest ⊢ <;> exact List.mem_cons_of_mem _ rest

theorem map_fst_shadeOwners : ∀ (declared heap : Bool) (vs : List Variable),
    (shadeOwners declared heap vs).map Prod.fst = vs
  | _, _, [] => rfl
  | declared, heap, v :: vs => by
    rw [shadeOwners]
    split <;> rw [List.map_cons, map_fst_shadeOwners]

/-- Of two variables of which one comes right behind the other, the marks differ. -/
theorem markBehind_ne (before : List Variable) (v w : Variable) :
    markBehind before v ≠ markBehind (before ++ [v]) w := by
  unfold markBehind
  rw [lastShade_concat, lastShade_concat]
  cases v.id.isHeap <;> cases w.id.isHeap <;> simp

/-! ### Marking -/

theorem getElem?_markBytes (marks : List (Option ByteOwner)) (v : Variable) (mark : ByteOwner)
    (i : Nat) : (markBytes marks v mark)[i]? =
      if v.address ≤ i ∧ i < v.stop then marks[i]?.map fun _ => some mark else marks[i]? := by
  rw [markBytes, List.getElem?_mapIdx]
  by_cases covered : v.address ≤ i ∧ i < v.stop
  · simp [covered]
  · rw [if_neg covered]
    simp only [← Bool.decide_and, covered, decide_false, Bool.false_eq_true, if_false]
    exact Option.map_id'

/-- The marks with the bytes of each variable marked, one variable after the other. -/
def markAll (marks : List (Option ByteOwner)) (ps : List (Variable × ByteOwner)) :
    List (Option ByteOwner) :=
  ps.foldl (fun marks p => markBytes marks p.1 p.2) marks

theorem length_markAll : ∀ (marks : List (Option ByteOwner)) (ps : List (Variable × ByteOwner)),
    (markAll marks ps).length = marks.length
  | _, [] => rfl
  | marks, p :: ps => (length_markAll (markBytes marks p.1 p.2) ps).trans List.length_mapIdx

variable {i : Nat}

/-- A byte that belongs to none of the variables keeps its mark. -/
theorem getElem?_markAll_of_none : ∀ {ps : List (Variable × ByteOwner)}
    (marks : List (Option ByteOwner)), (∀ p ∈ ps, ¬ (p.1.address ≤ i ∧ i < p.1.stop)) →
      (markAll marks ps)[i]? = marks[i]?
  | [], _, _ => rfl
  | p :: ps, marks, free => by
    rw [List.forall_mem_cons] at free
    have rest := getElem?_markAll_of_none (markBytes marks p.1 p.2) free.2
    exact rest.trans ((getElem?_markBytes marks p.1 p.2 i).trans (if_neg free.1))

/-- A byte of one of the variables gets the mark of that one, if the variables lie one behind the
other. -/
theorem getElem?_markAll : ∀ {ps : List (Variable × ByteOwner)} {marks : List (Option ByteOwner)},
    (ps.Pairwise fun p q => p.1.stop ≤ q.1.address) → ∀ {p : Variable × ByteOwner}, p ∈ ps →
    p.1.address ≤ i → i < p.1.stop → i < marks.length → (markAll marks ps)[i]? = some (some p.2)
  | q :: ps, marks, apart, p, mem, low, high, inside => by
    rw [List.pairwise_cons] at apart
    rcases List.mem_cons.1 mem with rfl | mem
    · have free : ∀ r ∈ ps, ¬ (r.1.address ≤ i ∧ i < r.1.stop) := fun r mem covered =>
        absurd (apart.1 r mem) (by omega)
      calc (markAll (markBytes marks p.1 p.2) ps)[i]?
          = (markBytes marks p.1 p.2)[i]? := getElem?_markAll_of_none _ free
        _ = marks[i]?.map fun _ => some p.2 := by
          rw [getElem?_markBytes, if_pos ⟨low, high⟩]
        _ = some (some p.2) := by rw [List.getElem?_eq_getElem inside, Option.map_some]
    · have inside : i < (markBytes marks q.1 q.2).length := List.length_mapIdx.symm ▸ inside
      exact getElem?_markAll apart.2 mem low high inside

end Screen

/-! ### The order of the addresses -/

namespace Symbols

open Screen

variable {s : Symbols} {v w : Variable}

theorem Sound.mem_owningVariables (h : s.Sound) :
    v ∈ owningVariables s ↔ v ∈ s.entries ∧ v.isAlias = false := by
  rw [owningVariables, List.mem_mergeSort, List.mem_filter]
  refine and_congr_right fun mem => ?_
  rw [h.registered v mem, Bool.not_false, Bool.and_true, Bool.not_eq_true']

/-- Each owner ends before the next one begins. -/
theorem Sound.owning_apart (h : s.Sound) :
    (owningVariables s).Pairwise fun v w => v.stop ≤ w.address := by
  have sorted : (owningVariables s).Pairwise fun v w => v.address ≤ w.address := by
    refine (List.pairwise_mergeSort ?_ ?_ _).imp fun le => of_decide_eq_true le
    · intro a b c ab bc
      simp only [decide_eq_true_eq] at ab bc ⊢
      exact Nat.le_trans ab bc
    · intro a b
      simpa using Nat.le_total a.address b.address
  have distinct : (owningVariables s).Nodup :=
    (List.mergeSort_perm _ _).nodup_iff.2 ((List.Nodup.of_map _ h.distinct).filter _)
  refine (sorted.and distinct).imp_of_mem fun {v w} mv mw le => ?_
  obtain ⟨mv, ov⟩ := h.mem_owningVariables.1 mv
  obtain ⟨mw, ow⟩ := h.mem_owningVariables.1 mw
  have some : 0 < w.size := (h.room w mw ow).1
  rcases h.spans_apart mv mw le.2 ov ow with before | behind
  · exact before
  · simp only [Variable.stop] at behind
    omega

/-- Between neighbours there is no other owner. -/
theorem Sound.owning_neighbours (h : s.Sound) (mv : v ∈ s.entries) (mw : w ∈ s.entries)
    (ov : v.isAlias = false) (ow : w.isAlias = false) (next : v.stop = w.address) :
    ∃ pre post, owningVariables s = pre ++ v :: w :: post := by
  obtain ⟨pre, tail, split⟩ := List.append_of_mem (h.mem_owningVariables.2 ⟨mv, ov⟩)
  have apart := h.owning_apart
  have mem := h.mem_owningVariables.2 ⟨mw, ow⟩
  rw [split] at apart mem
  rw [List.pairwise_append, List.pairwise_cons] at apart
  obtain ⟨-, ⟨behind, tail_apart⟩, before⟩ := apart
  have some : v.address < v.stop := Nat.lt_add_of_pos_right (h.room v mv ov).1
  have some' : w.address < w.stop := Nat.lt_add_of_pos_right (h.room w mw ow).1
  have later : w ∈ tail := by
    rcases List.mem_append.1 mem with early | late
    · have := before w early v List.mem_cons_self
      omega
    · rcases List.mem_cons.1 late with rfl | late
      · omega
      · exact late
  obtain ⟨mid, post, rfl⟩ := List.append_of_mem later
  cases mid with
  | nil => exact ⟨pre, post, split⟩
  | cons u mid =>
    -- Another one would have to fit between the end of the one and the start of the other.
    have mu : u ∈ owningVariables s := split ▸ by simp
    obtain ⟨mu, ou⟩ := h.mem_owningVariables.1 mu
    have some'' : u.address < u.stop := Nat.lt_add_of_pos_right (h.room u mu ou).1
    have from_v := behind u List.mem_cons_self
    rw [List.cons_append, List.pairwise_cons] at tail_apart
    have to_w := tail_apart.1 w (by simp)
    omega

/-! ### The marks -/

variable {size i : Nat}

theorem byteOwners_eq (s : Symbols) (size : Nat) : byteOwners s size =
    markAll (List.replicate size none) (shadeOwners false false (owningVariables s)) := rfl

/-- A byte has the mark of its owner, by the owners at lower addresses. -/
theorem Sound.getElem?_byteOwners (h : s.Sound) {pre post : List Variable}
    (split : owningVariables s = pre ++ v :: post) (owns : v.Owns i) (inside : i < size) :
    (byteOwners s size)[i]? = some (some (markBehind pre v)) := by
  have apart := h.owning_apart
  rw [← map_fst_shadeOwners false false (owningVariables s), List.pairwise_map] at apart
  have mem := mem_shadeOwners [] pre post v
  rw [List.nil_append, ← split] at mem
  rw [byteOwners_eq]
  exact getElem?_markAll apart mem owns.2.1 owns.2.2 (by rwa [List.length_replicate])

/-- A byte without an owner has no mark. -/
theorem Sound.getElem?_byteOwners_of_none (h : s.Sound) (free : ∀ v ∈ s.entries, ¬ v.Owns i)
    (inside : i < size) : (byteOwners s size)[i]? = some none := by
  rw [byteOwners_eq, getElem?_markAll_of_none, List.getElem?_replicate, if_pos inside]
  intro p mem covered
  have owning : p.1 ∈ owningVariables s := by
    rw [← map_fst_shadeOwners false false (owningVariables s)]
    exact List.mem_map_of_mem mem
  obtain ⟨mem, owner⟩ := h.mem_owningVariables.1 owning
  exact free p.1 mem ⟨owner, covered⟩

/-- A byte is marked exactly if it is occupied. -/
theorem Sound.marked_iff (h : s.Sound) (inside : i < size) :
    (∃ o, (byteOwners s size)[i]? = some (some o)) ↔ s.isOccupied i = true := by
  rw [h.taken]
  constructor
  · rintro ⟨o, marked⟩
    by_contra free
    have unmarked := h.getElem?_byteOwners_of_none (fun v mem owns => free ⟨v, mem, owns⟩) inside
    exact absurd (marked.symm.trans unmarked) (by simp)
  · rintro ⟨v, mem, owns⟩
    obtain ⟨pre, post, split⟩ := List.append_of_mem (h.mem_owningVariables.2 ⟨mem, owns.1⟩)
    exact ⟨_, h.getElem?_byteOwners split owns inside⟩

end Symbols

namespace Machine

variable {m : Machine}

/-- The owners of the bytes, as the memory pane marks them. -/
def owners (m : Machine) : List (Option Screen.ByteOwner) :=
  Screen.byteOwners m.core.symbols m.core.memory.size

/-- Every byte of memory has a mark exactly if it is occupied, and then it has one owner, by whose
name it is marked as a byte of a block or of a declared variable. All bytes of an owner have the
same mark, and those of neighbours have different ones. -/
theorem Reachable.owners_exact (h : m.Reachable) :
    m.owners.length = m.core.memory.size ∧
    (∀ i < m.core.memory.size,
      (∃ o, m.owners[i]? = some (some o)) ↔ m.core.symbols.isOccupied i = true) ∧
    (∀ i, m.core.symbols.isOccupied i = true → ∃! v, v ∈ m.core.symbols.entries ∧ v.Owns i) ∧
    (∀ v ∈ m.core.symbols.entries, v.isAlias = false → ∃ shade, ∀ i, v.Owns i →
      m.owners[i]? = some (some (if v.id.isHeap then .heap shade else .declared shade))) ∧
    (∀ v ∈ m.core.symbols.entries, ∀ w ∈ m.core.symbols.entries, v.stop = w.address →
      ∀ i j, v.Owns i → w.Owns j → m.owners[i]? ≠ m.owners[j]?) := by
  have table := h.sound.core.fits.table
  have capacity := h.sound.core.fits.capacity
  have inside {v : Variable} (mem : v ∈ m.core.symbols.entries) {i : Nat} (owns : v.Owns i) :
      i < m.core.memory.size :=
    Nat.lt_of_lt_of_le owns.2.2 (capacity ▸ (table.room v mem owns.1).2.2)
  refine ⟨?_, fun i low => table.marked_iff low, fun i taken => ?_, fun v mem owner => ?_,
    fun v mv w mw next i j ov ow => ?_⟩
  · rw [owners, Symbols.byteOwners_eq, Screen.length_markAll, List.length_replicate]
  · obtain ⟨v, mem, owns⟩ := (table.taken i).1 taken
    exact ⟨v, ⟨mem, owns⟩, fun w other => table.apart w other.1 v mem i other.2 owns⟩
  · obtain ⟨pre, post, split⟩ := List.append_of_mem (table.mem_owningVariables.2 ⟨mem, owner⟩)
    refine ⟨!Screen.lastShade v.id.isHeap pre, fun i owns => ?_⟩
    rw [owners, table.getElem?_byteOwners split owns (inside mem owns), Screen.markBehind]
    cases v.id.isHeap <;> rfl
  · obtain ⟨pre, post, split⟩ := table.owning_neighbours mv mw ov.1 ow.1 next
    have behind : Screen.owningVariables m.core.symbols = (pre ++ [v]) ++ w :: post := by
      rw [split, List.append_assoc, List.singleton_append]
    rw [owners, table.getElem?_byteOwners split ov (inside mv ov),
      table.getElem?_byteOwners behind ow (inside mw ow)]
    exact fun same => Screen.markBehind_ne pre v w (Option.some.inj (Option.some.inj same))

/-- A block stands out from the pointer behind it, and `stderr` from `stdout`. -/
theorem owners_exact_block :
    (∃ shade, ∀ i, 16 ≤ i → i < 20 →
      (fresh.execute "int* p = new int").2.owners[i]? = some (some (.heap shade))) ∧
    (fresh.execute "int* p = new int").2.owners[19]? ≠
      (fresh.execute "int* p = new int").2.owners[20]? ∧
    (fresh.execute "int* p = new int").2.owners[11]? ≠
      (fresh.execute "int* p = new int").2.owners[12]? := by
  obtain ⟨-, -, -, marked, apart⟩ := (reachable_fresh.executed "int* p = new int").owners_exact
  have block : (⟨.heap 1, Ty.int, 16, 4, .plain⟩ : Variable) ∈
      (fresh.execute "int* p = new int").2.core.symbols.entries := by decide +kernel
  have pointer : (⟨.named "p", .pointer Ty.int, 20, 4, .pointer⟩ : Variable) ∈
      (fresh.execute "int* p = new int").2.core.symbols.entries := by decide +kernel
  have stdout : (⟨.named "stdout", Ty.int, 8, 4, .plain⟩ : Variable) ∈
      (fresh.execute "int* p = new int").2.core.symbols.entries := by decide +kernel
  have stderr : (⟨.named "stderr", Ty.int, 12, 4, .plain⟩ : Variable) ∈
      (fresh.execute "int* p = new int").2.core.symbols.entries := by decide +kernel
  obtain ⟨shade, all⟩ := marked _ block rfl
  refine ⟨⟨shade, fun i low high => all i ⟨rfl, low, high⟩⟩, ?_, ?_⟩
  · exact apart _ block _ pointer rfl 19 20 ⟨rfl, by decide, by decide⟩ ⟨rfl, by decide, by decide⟩
  · exact apart _ stdout _ stderr rfl 11 12 ⟨rfl, by decide, by decide⟩ ⟨rfl, by decide, by decide⟩

end Machine

end ByteMachine
