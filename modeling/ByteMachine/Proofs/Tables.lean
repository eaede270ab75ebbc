import ByteMachine.Symbols.Table
import Mathlib.Data.List.Nodup

/-!
# Tables that agree with themselves

The symbol table keeps the same facts in three places: the variables in order, the names at each
address and the addresses that are taken. A table is filed if no name is given twice and the first
two agree, which holds wherever its variables lie; then one pass over the aliases collects all that
have lost their target. It is sound if all three agree and no two owners share a byte. Placement only
ever returns room that no owner has, so an allocation followed by an insertion keeps a table sound;
and because the owners are apart, taking one away frees exactly its own bytes.

Key definitions: `AddressIndex.Tidy`, `Symbols.Filed`, `Symbols.Sound`, `Symbols.Bound`.
Key theorems: `Placement.slot?_free`, `Symbols.Filed.remove`, `Symbols.Filed.entries_collect`,
`Symbols.Filed.bound_collect`, `Symbols.Sound.insert_owner`, `Symbols.Sound.insert_alias`,
`Symbols.Sound.spans_apart`, `Symbols.Sound.remove`, `Symbols.Sound.collect`,
`Symbols.Sound.findTyped?_owner`.
-/

namespace ByteMachine

/-! ### The address index -/

namespace AddressIndex

/-- One entry for each address, and none without names. -/
structure Tidy (ix : AddressIndex) : Prop where
  once : (ix.entries.map Prod.fst).Nodup
  named : ∀ e ∈ ix.entries, e.2 ≠ []

theorem tidy_empty : empty.Tidy := ⟨List.nodup_nil, fun _ m => by cases m⟩

variable {ix : AddressIndex}

theorem get_cons (e : Nat × List Identifier) (es : List (Nat × List Identifier)) (b : Nat) :
    get ⟨e :: es⟩ b = if e.1 = b then e.2 else get ⟨es⟩ b := by
  obtain ⟨a, ids⟩ := e
  by_cases h : a = b
  · simp [get, h]
  · simp [get, h, List.lookup_cons, beq_eq_false_iff_ne.2 (Ne.symm h)]

theorem get_addTo (address b : Nat) (id : Identifier) : ∀ es : List (Nat × List Identifier),
    get ⟨addTo address id es⟩ b = if address = b then get ⟨es⟩ b ++ [id] else get ⟨es⟩ b
  | [] => by simp only [addTo, get_cons]; rfl
  | e :: es => by
    by_cases k : e.1 = address
    · simp only [addTo, k, if_true, get_cons]
      split <;> rfl
    · simp only [addTo, k, if_false, get_cons, get_addTo address b id es]
      by_cases h : e.1 = b
      · subst h
        simp [Ne.symm k]
      · simp [h]

/-- A name is added behind the names at its address. -/
theorem get_insert (ix : AddressIndex) (address b : Nat) (id : Identifier) :
    (ix.insert address id).get b = if address = b then ix.get b ++ [id] else ix.get b :=
  get_addTo address b id ix.entries

theorem keys_addTo (address : Nat) (id : Identifier) : ∀ es : List (Nat × List Identifier),
    (addTo address id es).map Prod.fst =
      if address ∈ es.map Prod.fst then es.map Prod.fst else es.map Prod.fst ++ [address]
  | [] => rfl
  | e :: es => by
    by_cases k : e.1 = address
    · simp [addTo, k]
    · simp only [addTo, k, if_false, List.map_cons, keys_addTo address id es, List.mem_cons,
        Ne.symm k, false_or]
      split <;> rfl

theorem named_addTo (address : Nat) (id : Identifier) : ∀ es : List (Nat × List Identifier),
    (∀ e ∈ es, e.2 ≠ []) → ∀ e ∈ addTo address id es, e.2 ≠ []
  | [], _ => by simp [addTo]
  | e :: es, named => by
    rw [List.forall_mem_cons] at named
    by_cases k : e.1 = address
    · rw [addTo, if_pos k, List.forall_mem_cons]
      exact ⟨by simp, named.2⟩
    · rw [addTo, if_neg k, List.forall_mem_cons]
      exact ⟨named.1, named_addTo address id es named.2⟩

theorem Tidy.insert (h : ix.Tidy) (address : Nat) (id : Identifier) :
    (ix.insert address id).Tidy := by
  constructor
  · simp only [AddressIndex.insert, keys_addTo]
    split
    · exact h.once
    · next new =>
      refine List.nodup_append.2 ⟨h.once, List.pairwise_singleton _ _, fun a m b m' e => new ?_⟩
      rwa [← List.mem_singleton.1 m', ← e]
  · exact named_addTo address id ix.entries h.named

/-- What becomes of an entry when a name is removed at an address. -/
def shortened? (address : Nat) (id : Identifier) (e : Nat × List Identifier) :
    Option (Nat × List Identifier) :=
  if e.1 = address then
    let left := e.2.filter fun other => other != id
    if left.isEmpty then none else some (e.1, left)
  else some e

theorem keys_shortened (address : Nat) (id : Identifier) : ∀ es : List (Nat × List Identifier),
    ((es.filterMap (shortened? address id)).map Prod.fst).Sublist (es.map Prod.fst)
  | [] => List.Sublist.slnil
  | e :: es => by
    have ih := keys_shortened address id es
    cases k : shortened? address id e with
    | none => exact (List.filterMap_cons_none k ▸ ih).cons _
    | some e' =>
      have : e'.1 = e.1 := by
        simp only [shortened?] at k
        split at k
        · split at k <;> cases k
          rfl
        · cases k
          rfl
      rw [List.filterMap_cons_some k, List.map_cons, List.map_cons, this]
      exact ih.cons_cons _

theorem Tidy.remove (h : ix.Tidy) (address : Nat) (id : Identifier) :
    (ix.remove address id).Tidy := by
  refine ⟨(keys_shortened address id ix.entries).nodup h.once, fun e m => ?_⟩
  obtain ⟨first, mem, k⟩ := List.mem_filterMap.1 m
  split at k
  · dsimp only at k
    split at k
    · cases k
    · next left =>
      cases k
      exact fun none => left (List.isEmpty_iff.2 none)
  · cases k
    exact h.named _ mem

theorem get_of_not_mem {es : List (Nat × List Identifier)} {b : Nat} (h : b ∉ es.map Prod.fst) :
    get ⟨es⟩ b = [] := by
  induction es with
  | nil => rfl
  | cons e es ih =>
    simp only [List.map_cons, List.mem_cons, not_or] at h
    rw [get_cons, if_neg (Ne.symm h.1), ih h.2]

theorem get_shortened (address b : Nat) (id : Identifier) : ∀ es : List (Nat × List Identifier),
    (es.map Prod.fst).Nodup → get ⟨es.filterMap (shortened? address id)⟩ b =
      if address = b then (get ⟨es⟩ b).filter fun other => other != id else get ⟨es⟩ b
  | [], _ => by split <;> rfl
  | e :: es, once => by
    simp only [List.map_cons, List.nodup_cons] at once
    have ih := get_shortened address b id es once.2
    by_cases k : e.1 = address
    · subst k
      have rest : get ⟨es⟩ e.1 = [] := get_of_not_mem once.1
      by_cases left : (e.2.filter fun other => other != id).isEmpty = true
      · rw [List.filterMap_cons_none (by simp only [shortened?, if_true, left])]
        rw [ih, get_cons]
        by_cases h : e.1 = b
        · subst h
          simpa [rest] using (List.isEmpty_iff.1 left).symm
        · simp [h]
      · rw [List.filterMap_cons_some (by simp only [shortened?, if_true, left]; rfl)]
        rw [get_cons, get_cons, ih]
        split <;> rfl
    · rw [List.filterMap_cons_some (by simp only [shortened?, k, if_false]; rfl)]
      rw [get_cons, get_cons, ih]
      by_cases h : e.1 = b
      · subst h
        simp [Ne.symm k]
      · simp [h]

/-- A name is removed from the names at its address. -/
theorem Tidy.get_remove (h : ix.Tidy) (address b : Nat) (id : Identifier) :
    (ix.remove address id).get b =
      if address = b then (ix.get b).filter fun other => other != id else ix.get b :=
  get_shortened address b id ix.entries h.once

end AddressIndex

/-! ### Room for a variable -/

namespace Placement

theorem firstFree?_eq_some {isFree : Nat → Bool} {step b : Nat} : ∀ {count a : Nat},
    firstFree? isFree step count a = some b →
      isFree b = true ∧ a ≤ b ∧ b + step ≤ a + count * step
  | 0, _, e => by cases e
  | count + 1, a, e => by
    unfold firstFree? at e
    split at e
    · cases e
      exact ⟨‹_›, Nat.le_refl _, by rw [Nat.succ_mul]; omega⟩
    · have ⟨free, low, high⟩ := firstFree?_eq_some e
      exact ⟨free, by omega, by rw [Nat.succ_mul]; omega⟩

theorem scattered?_eq_some {isFree : Nat → Bool} {last a : Nat} {behind : SplitMix}
    (h : 1 ≤ last) : ∀ {count : Nat} {stream : SplitMix},
      scattered? isFree last count stream = some (a, behind) →
        isFree a = true ∧ 1 ≤ a ∧ a ≤ last
  | 0, _, e => by cases e
  | count + 1, stream, e => by
    unfold scattered? at e
    dsimp only at e
    split at e
    · cases e
      exact ⟨‹_›, stream.draw_bounds h⟩
    · exact scattered?_eq_some h e

/-- The address that is chosen is free, is not zero and has room behind it. -/
theorem slot?_free {p : Placement} {isFree : Nat → Bool} {stream behind : SplitMix}
    {size capacity word a : Nat} (h : 0 < word)
    (e : p.slot? isFree stream size capacity word = some (a, behind)) :
    isFree a = true ∧ 0 < size ∧ 0 < a ∧ a + size ≤ capacity := by
  unfold slot? at e
  split at e
  · cases e
  · next fits =>
    simp only [Bool.or_eq_true, decide_eq_true_eq, not_or] at fits
    cases p with
    | aligned =>
      obtain ⟨b, found, pair⟩ := Option.map_eq_some_iff.1 e
      cases pair
      obtain ⟨free, low, high⟩ := firstFree?_eq_some found
      have := Nat.div_mul_le_self (capacity - size) word
      exact ⟨free, by omega, by omega, by omega⟩
    | scattered =>
      obtain ⟨free, low, high⟩ := scattered?_eq_some (by omega) e
      exact ⟨free, by omega, by omega, by omega⟩

end Placement

/-! ### Sound tables -/

/-- The byte at an address belongs to the variable. -/
def Variable.Owns (v : Variable) (a : Nat) : Prop :=
  v.isAlias = false ∧ v.address ≤ a ∧ a < v.stop

theorem Variable.isAlias_iff {v : Variable} :
    v.isAlias = true ↔ ∃ target, v.role = .reference target := by
  unfold isAlias
  split <;> simp_all

theorem Variable.spans_iff {v : Variable} {address length : Nat} :
    v.spans address length = true ↔ v.address ≤ address ∧ address + length ≤ v.stop := by
  rw [spans, Bool.and_eq_true, decide_eq_true_eq, decide_eq_true_eq]

namespace Symbols

/-- A name stands for one variable, and the names at an address are those of the variables there. -/
structure Filed (s : Symbols) : Prop where
  distinct : (s.entries.map Variable.id).Nodup
  tidy : s.index.Tidy
  listed : ∀ a, s.index.get a = (s.entries.filter fun v => v.address = a).map Variable.id

/-- The three views of the variables agree, and no byte has two owners. -/
structure Sound (s : Symbols) : Prop where
  distinct : (s.entries.map Variable.id).Nodup
  registered : ∀ v ∈ s.entries, v.isTemporary = false
  room : ∀ v ∈ s.entries, v.isAlias = false → 0 < v.size ∧ 0 < v.address ∧ v.stop ≤ s.capacity
  apart : ∀ v ∈ s.entries, ∀ w ∈ s.entries, ∀ a, v.Owns a → w.Owns a → v = w
  taken : ∀ a, s.isOccupied a = true ↔ ∃ v ∈ s.entries, v.Owns a
  tidy : s.index.Tidy
  listed : ∀ a, s.index.get a = (s.entries.filter fun v => v.address = a).map Variable.id

theorem Sound.filed {s : Symbols} (h : s.Sound) : s.Filed := ⟨h.distinct, h.tidy, h.listed⟩

/-- What does not change while statements run. -/
structure SameSettings (s t : Symbols) : Prop where
  capacity : t.capacity = s.capacity
  word : t.word = s.word
  placement : t.placement = s.placement

theorem SameSettings.refl (s : Symbols) : s.SameSettings s := ⟨rfl, rfl, rfl⟩

theorem SameSettings.trans {s t u : Symbols} (h : s.SameSettings t) (k : t.SameSettings u) :
    s.SameSettings u :=
  ⟨k.capacity.trans h.capacity, k.word.trans h.word, k.placement.trans h.placement⟩

theorem sound_empty (capacity word : Nat) (placement : Placement) (seed : UInt64) :
    (empty capacity word placement seed).Sound where
  distinct := List.nodup_nil
  registered := fun _ m => by cases m
  room := fun _ m => by cases m
  apart := fun _ m => by cases m
  taken := fun a => ⟨fun h => (nomatch h), fun ⟨_, m, _⟩ => (nomatch m)⟩
  tidy := AddressIndex.tidy_empty
  listed := fun _ => rfl

/-- Soundness is about the variables alone, not about how the next one is placed or named. -/
theorem Sound.congr {s t : Symbols} (h : s.Sound) (entries : t.entries = s.entries)
    (index : t.index = s.index) (occupied : t.occupied = s.occupied)
    (capacity : t.capacity = s.capacity) : t.Sound where
  distinct := entries ▸ h.distinct
  registered := entries ▸ h.registered
  room := entries ▸ capacity ▸ h.room
  apart := entries ▸ h.apart
  taken := by
    unfold isOccupied
    rw [occupied, entries]
    exact h.taken
  tidy := index ▸ h.tidy
  listed := by
    rw [index, entries]
    exact h.listed

/-- The spans of two owners do not meet. -/
theorem Sound.spans_apart {s : Symbols} (h : s.Sound) {v w : Variable} (mv : v ∈ s.entries)
    (mw : w ∈ s.entries) (other : v ≠ w) (ov : v.isAlias = false) (ow : w.isAlias = false) :
    v.stop ≤ w.address ∨ w.stop ≤ v.address := by
  by_contra meet
  have some : v.address < v.stop := Nat.lt_add_of_pos_right (h.room v mv ov).1
  have some' : w.address < w.stop := Nat.lt_add_of_pos_right (h.room w mw ow).1
  have common : max v.address w.address < v.stop ∧ max v.address w.address < w.stop := by omega
  exact other (h.apart v mv w mw _ ⟨ov, Nat.le_max_left _ _, common.1⟩
    ⟨ow, Nat.le_max_right _ _, common.2⟩)

theorem Sound.pairwise_apart {s : Symbols} (h : s.Sound) :
    s.entries.Pairwise fun v w => v.isAlias = false → w.isAlias = false →
      v.stop ≤ w.address ∨ w.stop ≤ v.address :=
  (List.Nodup.of_map _ h.distinct).pairwise_of_forall_ne fun _ mv _ mw other =>
    h.spans_apart mv mw other

/-! ### More variables -/

theorem contains_iff {s : Symbols} {id : Identifier} :
    s.contains id = true ↔ id ∈ s.entries.map Variable.id := by
  simp [contains]

theorem insert_eq_ok {s t : Symbols} {v : Variable} (e : s.insert v = .ok t) :
    v.id ∉ s.entries.map Variable.id ∧ v.isTemporary = false ∧ t = { s with
      entries := s.entries ++ [v]
      index := s.index.insert v.address v.id
      occupied := if v.isAlias then s.occupied else s.occupied.insert v.address v.stop } := by
  unfold insert at e
  split at e
  · cases e
  · next new =>
    split at e
    · cases e
    · next kept =>
      cases e
      exact ⟨fun m => new (contains_iff.2 m), Bool.eq_false_iff.2 kept, rfl⟩

/-- A variable may be filed wherever it lies. -/
theorem Filed.insert {s t : Symbols} (h : s.Filed) {v : Variable} (e : s.insert v = .ok t) :
    t.Filed := by
  obtain ⟨new, -, rfl⟩ := insert_eq_ok e
  refine ⟨?_, h.tidy.insert _ _, fun a => ?_⟩
  · rw [List.map_append]
    refine List.nodup_append.2 ⟨h.distinct, List.pairwise_singleton _ _, fun a m b m' e => new ?_⟩
    rwa [← List.mem_singleton.1 m', ← e]
  · rw [AddressIndex.get_insert, h.listed a, List.filter_append, List.map_append]
    by_cases k : v.address = a <;> simp [k]

/-- A variable keeps a table sound if all bytes that it would own have no owner yet. -/
theorem Sound.insert {s t : Symbols} (h : s.Sound) {v : Variable} (e : s.insert v = .ok t)
    (room : v.isAlias = false → 0 < v.size ∧ 0 < v.address ∧ v.stop ≤ s.capacity)
    (free : ∀ a, v.Owns a → ∀ w ∈ s.entries, ¬ w.Owns a) : t.Sound := by
  have filed := h.filed.insert e
  obtain ⟨new, kept, rfl⟩ := insert_eq_ok e
  refine ⟨filed.distinct, ?_, ?_, ?_, ?_, filed.tidy, filed.listed⟩
  · intro w m
    rcases List.mem_append.1 m with m | m
    · exact h.registered w m
    · rw [List.mem_singleton.1 m]
      exact kept
  · intro w m
    rcases List.mem_append.1 m with m | m
    · exact h.room w m
    · rw [List.mem_singleton.1 m]
      exact room
  · intro w m u m' a o o'
    rcases List.mem_append.1 m with m | m <;> rcases List.mem_append.1 m' with m' | m'
    · exact h.apart w m u m' a o o'
    · cases List.mem_singleton.1 m'
      exact absurd o (free a o' w m)
    · cases List.mem_singleton.1 m
      exact absurd o' (free a o u m')
    · rw [List.mem_singleton.1 m, List.mem_singleton.1 m']
  · intro a
    have old := h.taken a
    simp only [isOccupied] at old ⊢
    simp only [List.mem_append, List.mem_singleton, or_and_right, exists_or, exists_eq_left]
    cases k : v.isAlias with
    | true => simp [old, Variable.Owns, k]
    | false =>
      simp only [Bool.false_eq_true, if_false, Region.contains_insert, Bool.or_eq_true,
        Bool.and_eq_true, decide_eq_true_eq, old]
      simp only [Variable.Owns, k, true_and]
      exact or_comm

theorem allocate_eq_ok {s t : Symbols} {size a : Nat} (e : s.allocate size = .ok (a, t)) :
    ∃ stream, s.placement.slot? (s.isFree size) s.stream size s.capacity s.word =
      some (a, stream) ∧ t = { s with stream := stream } := by
  unfold allocate at e
  split at e
  · next found =>
    cases e
    exact ⟨_, found, rfl⟩
  · cases e

/-- A variable that gets storage is the last of the table. -/
theorem entries_of_placed {s t u : Symbols} {size a : Nat} {v : Variable}
    (found : s.allocate size = .ok (a, t)) (e : t.insert v = .ok u) :
    u.entries = s.entries ++ [v] := by
  obtain ⟨stream, -, rfl⟩ := allocate_eq_ok found
  obtain ⟨-, -, rfl⟩ := insert_eq_ok e
  rfl

theorem sameSettings_insert {s t : Symbols} {v : Variable} (e : s.insert v = .ok t) :
    s.SameSettings t := by
  obtain ⟨-, -, rfl⟩ := insert_eq_ok e
  exact ⟨rfl, rfl, rfl⟩

theorem sameSettings_allocate {s t : Symbols} {size a : Nat} (e : s.allocate size = .ok (a, t)) :
    s.SameSettings t := by
  obtain ⟨stream, -, rfl⟩ := allocate_eq_ok e
  exact ⟨rfl, rfl, rfl⟩

/-- What is free belongs to nobody. -/
theorem Sound.not_owns_of_isFree {s : Symbols} (h : s.Sound) {size address a : Nat}
    (free : s.isFree size address = true) (low : address ≤ a) (high : a < address + size) :
    ∀ w ∈ s.entries, ¬ w.Owns a := by
  intro w m o
  simp only [isFree, Bool.and_eq_true, Bool.not_eq_true'] at free
  have met := (Region.meets_iff s.occupied address (address + size)).2
    ⟨a, low, high, (h.taken a).2 ⟨w, m, o⟩⟩
  rw [free.2] at met
  cases met

/-- An owner that is put where room was found for it keeps the table sound. -/
theorem Sound.insert_owner {s t u : Symbols} (h : s.Sound) (word : 0 < s.word) {v : Variable}
    (found : s.allocate v.size = .ok (v.address, t)) (e : t.insert v = .ok u) : u.Sound := by
  obtain ⟨stream, slot, rfl⟩ := allocate_eq_ok found
  obtain ⟨free, size, address, stop⟩ := Placement.slot?_free word slot
  have same : Sound { s with stream := stream } := h.congr rfl rfl rfl rfl
  exact same.insert e (fun _ => ⟨size, address, stop⟩)
    fun a o => h.not_owns_of_isFree free o.2.1 o.2.2

/-- An alias owns nothing, so it may be put anywhere. -/
theorem Sound.insert_alias {s t : Symbols} (h : s.Sound) {v : Variable} (k : v.isAlias = true)
    (e : s.insert v = .ok t) : t.Sound :=
  h.insert e (fun owner => absurd (k.symm.trans owner) (by simp))
    fun _ o => absurd (k.symm.trans o.1) (by simp)

/-! ### Fewer variables -/

theorem get?_eq_some {s : Symbols} {id : Identifier} {v : Variable} (e : s.get? id = some v) :
    v ∈ s.entries ∧ v.id = id :=
  ⟨List.mem_of_find?_eq_some e, by simpa using List.find?_some e⟩

theorem get?_of_mem {s : Symbols} {v : Variable} (m : v ∈ s.entries) :
    ∃ w, s.get? v.id = some w := by
  cases k : s.get? v.id with
  | none => exact absurd (List.find?_eq_none.1 k v m) (by simp)
  | some w => exact ⟨w, rfl⟩

/-- More variables behind the others hide none of them. -/
theorem get?_of_prefix {s t : Symbols} (more : s.entries <+: t.entries) {id : Identifier}
    {v : Variable} (e : s.get? id = some v) : t.get? id = some v := by
  obtain ⟨rest, more⟩ := more
  unfold get? at e ⊢
  rw [← more, List.find?_append, e]
  rfl

theorem Filed.eq_of_id {s : Symbols} (h : s.Filed) {v w : Variable} (m : v ∈ s.entries)
    (m' : w ∈ s.entries) (e : v.id = w.id) : v = w :=
  List.inj_on_of_nodup_map h.distinct m m' e

/-- A name stands for one variable. -/
theorem Sound.eq_of_id {s : Symbols} (h : s.Sound) {v w : Variable} (m : v ∈ s.entries)
    (m' : w ∈ s.entries) (e : v.id = w.id) : v = w :=
  h.filed.eq_of_id m m' e

theorem Filed.get?_id {s : Symbols} (h : s.Filed) {v : Variable} (m : v ∈ s.entries) :
    s.get? v.id = some v := by
  obtain ⟨w, k⟩ := get?_of_mem m
  rw [k, h.eq_of_id (get?_eq_some k).1 m (get?_eq_some k).2]

theorem Sound.get?_id {s : Symbols} (h : s.Sound) {v : Variable} (m : v ∈ s.entries) :
    s.get? v.id = some v :=
  h.filed.get?_id m

theorem entries_remove (s : Symbols) (id : Identifier) :
    (s.remove id).entries = s.entries.filter fun v => v.id != id := by
  unfold remove
  cases k : s.get? id with
  | some v => rfl
  | none =>
    refine (List.filter_eq_self.2 fun v m => ?_).symm
    have := List.find?_eq_none.1 k v m
    simpa using this

theorem Filed.remove {s : Symbols} (h : s.Filed) (id : Identifier) : (s.remove id).Filed := by
  unfold Symbols.remove
  cases k : s.get? id with
  | none => exact h
  | some v =>
    obtain ⟨m, rfl⟩ := get?_eq_some k
    refine ⟨(List.filter_sublist.map Variable.id).nodup h.distinct, h.tidy.remove _ _, fun a => ?_⟩
    rw [h.tidy.get_remove, h.listed a]
    split
    · rw [List.filter_map, List.filter_filter, List.filter_filter]
      exact congrArg _ (List.filter_congr fun w _ => Bool.and_comm _ _)
    · next elsewhere =>
      rw [List.filter_filter]
      refine congrArg _ (List.filter_congr fun w m' => ?_)
      by_cases there : w.address = a
      · have : w.id ≠ v.id := fun e => elsewhere (h.eq_of_id m' m e ▸ there)
        simp [there, this]
      · simp [there]

theorem Sound.remove {s : Symbols} (h : s.Sound) (id : Identifier) : (s.remove id).Sound := by
  have filed := h.filed.remove id
  unfold Symbols.remove at filed ⊢
  cases k : s.get? id with
  | none => exact h
  | some v =>
    rw [k] at filed
    obtain ⟨m, rfl⟩ := get?_eq_some k
    have sub : ∀ {w}, w ∈ s.entries.filter (fun w => w.id != v.id) → w ∈ s.entries :=
      fun m => (List.mem_filter.1 m).1
    refine ⟨filed.distinct, fun w m => h.registered w (sub m), fun w m => h.room w (sub m),
      fun w m u m' => h.apart w (sub m) u (sub m'), fun a => ?_, filed.tidy, filed.listed⟩
    · -- the bytes of an owner have no other, so what is left is what the others own
      have left : (∃ w ∈ s.entries.filter (fun w => w.id != v.id), w.Owns a) ↔
          (∃ w ∈ s.entries, w.Owns a) ∧ ¬ v.Owns a := by
        constructor
        · rintro ⟨w, m', o⟩
          refine ⟨⟨w, sub m', o⟩, fun o' => ?_⟩
          cases h.apart w (sub m') v m a o o'
          simp at m'
        · rintro ⟨⟨w, m', o⟩, no⟩
          refine ⟨w, List.mem_filter.2 ⟨m', ?_⟩, o⟩
          exact bne_iff_ne.2 fun e => no (h.eq_of_id m' m e ▸ o)
      rw [left, ← h.taken a]
      simp only [isOccupied]
      cases k : v.isAlias with
      | true => simp [Variable.Owns, k]
      | false =>
        simp only [Bool.false_eq_true, if_false, Region.contains_erase, Bool.and_eq_true,
          Bool.not_eq_true', Variable.Owns, k, true_and, Bool.and_eq_false_iff,
          decide_eq_false_iff_not, not_and_or]

theorem sameSettings_remove (s : Symbols) (id : Identifier) : s.SameSettings (s.remove id) := by
  unfold Symbols.remove
  split <;> exact ⟨rfl, rfl, rfl⟩

theorem entries_removeAll : ∀ (ids : List Identifier) (s : Symbols),
    (ids.foldl remove s).entries = s.entries.filter fun v => v.id ∉ ids
  | [], s => by simp
  | id :: ids, s => by
    rw [List.foldl_cons, entries_removeAll ids, entries_remove, List.filter_filter]
    refine List.filter_congr fun v _ => ?_
    by_cases k : v.id = id <;> simp [k]

theorem Filed.removeAll : ∀ (ids : List Identifier) {s : Symbols}, s.Filed →
    (ids.foldl Symbols.remove s).Filed
  | [], _, h => h
  | id :: ids, _, h => Filed.removeAll ids (h.remove id)

theorem Sound.removeAll : ∀ (ids : List Identifier) {s : Symbols}, s.Sound →
    (ids.foldl Symbols.remove s).Sound
  | [], _, h => h
  | id :: ids, _, h => Sound.removeAll ids (h.remove id)

theorem sameSettings_collect (s : Symbols) : s.SameSettings s.collect := by
  unfold collect
  generalize s.dangling = ids
  induction ids generalizing s with
  | nil => exact .refl s
  | cons id ids ih => exact (sameSettings_remove s id).trans (ih (s.remove id))

theorem Filed.collect {s : Symbols} (h : s.Filed) : s.collect.Filed := h.removeAll s.dangling

theorem Sound.collect {s : Symbols} (h : s.Sound) : s.collect.Sound := h.removeAll s.dangling

theorem Filed.mem_dangling {s : Symbols} (h : s.Filed) {v : Variable} (m : v ∈ s.entries) :
    v.id ∈ s.dangling ↔ s.isBound v = false := by
  simp only [dangling, List.mem_map, List.mem_filter, Bool.not_eq_true']
  constructor
  · rintro ⟨w, ⟨m', unbound⟩, e⟩
    rwa [← h.eq_of_id m' m e]
  · exact fun unbound => ⟨v, ⟨m, unbound⟩, rfl⟩

/-- Exactly the variables that are bound stay, in their order. -/
theorem Filed.entries_collect {s : Symbols} (h : s.Filed) :
    s.collect.entries = s.entries.filter s.isBound := by
  rw [Symbols.collect, entries_removeAll]
  refine List.filter_congr fun v m => ?_
  cases k : s.isBound v <;> simp [h.mem_dangling m, k]

theorem Sound.entries_collect {s : Symbols} (h : s.Sound) :
    s.collect.entries = s.entries.filter s.isBound :=
  h.filed.entries_collect

/-! ### Aliases and their targets -/

/-- Every alias has a target that covers it. -/
def Bound (s : Symbols) : Prop := ∀ v ∈ s.entries, s.isBound v = true

/-- A variable is bound if, being an alias, it has an owner as its target that covers it. -/
theorem Filed.isBound_iff {s : Symbols} (h : s.Filed) {v : Variable} :
    s.isBound v = true ↔ ∀ target, v.role = .reference target →
      ∃ w ∈ s.entries, w.id = target ∧ w.isAlias = false ∧ w.spans v.address v.size = true := by
  unfold isBound
  split
  · next target role =>
    simp only [Option.any_eq_true, Bool.and_eq_true, Bool.not_eq_true']
    constructor
    · rintro ⟨w, found, owner, covers⟩ _ e
      obtain ⟨m, id⟩ := get?_eq_some found
      cases role.symm.trans e
      exact ⟨w, m, id, owner, covers⟩
    · intro bound
      obtain ⟨w, m, rfl, owner, covers⟩ := bound target role
      exact ⟨w, h.get?_id m, owner, covers⟩
  · next other => simpa using fun target e => absurd e (other target)

theorem Sound.isBound_iff {s : Symbols} (h : s.Sound) {v : Variable} :
    s.isBound v = true ↔ ∀ target, v.role = .reference target →
      ∃ w ∈ s.entries, w.id = target ∧ w.isAlias = false ∧ w.spans v.address v.size = true :=
  h.filed.isBound_iff

/-- One pass is enough: it takes aliases only, so none that stays loses its target. -/
theorem Filed.bound_collect {s : Symbols} (h : s.Filed) : s.collect.Bound := by
  intro v m
  rw [h.entries_collect] at m
  refine h.collect.isBound_iff.2 fun target e => ?_
  obtain ⟨w, m', id, owner, covers⟩ := h.isBound_iff.1 (List.mem_filter.1 m).2 target e
  have stays : s.isBound w = true := h.isBound_iff.2 fun other e => by
    rw [Variable.isAlias_iff.2 ⟨other, e⟩] at owner
    cases owner
  exact ⟨w, h.entries_collect ▸ List.mem_filter.2 ⟨m', stays⟩, id, owner, covers⟩

theorem Sound.bound_collect {s : Symbols} (h : s.Sound) : s.collect.Bound := h.filed.bound_collect

/-! ### Variables by address -/

theorem mem_of_startingAt {s : Symbols} {address : Nat} {v : Variable}
    (m : v ∈ s.startingAt address) : v ∈ s.entries := by
  obtain ⟨id, -, found⟩ := List.mem_filterMap.1 m
  exact (get?_eq_some found).1

/-- Exactly the variables that are registered at an address are found there. -/
theorem Filed.mem_startingAt {s : Symbols} (h : s.Filed) {address : Nat} {v : Variable} :
    v ∈ s.startingAt address ↔ v ∈ s.entries ∧ v.address = address := by
  rw [startingAt, h.listed, List.mem_filterMap]
  constructor
  · rintro ⟨id, listed, found⟩
    obtain ⟨w, mem, rfl⟩ := List.mem_map.1 listed
    obtain ⟨mw, here⟩ := List.mem_filter.1 mem
    rw [h.get?_id mw] at found
    cases found
    exact ⟨mw, of_decide_eq_true here⟩
  · rintro ⟨mem, rfl⟩
    exact ⟨v.id, List.mem_map.2 ⟨v, List.mem_filter.2 ⟨mem, decide_eq_true rfl⟩, rfl⟩,
      h.get?_id mem⟩

theorem Sound.mem_startingAt {s : Symbols} (h : s.Sound) {address : Nat} {v : Variable} :
    v ∈ s.startingAt address ↔ v ∈ s.entries ∧ v.address = address :=
  h.filed.mem_startingAt

theorem findTyped?_eq_some {s : Symbols} {address : Nat} {type : Ty} {v : Variable}
    (e : s.findTyped? address type = some v) :
    v ∈ s.startingAt address ∧ v.type.strip = type.strip := by
  have mem : v ∈ (s.startingAt address).filter fun v => v.type.strip = type.strip := by
    unfold findTyped? at e
    rw [Option.orElse_eq_orElse, Option.orElse_eq_or] at e
    rcases Option.or_eq_some_iff.1 e with found | ⟨-, found⟩
    · exact List.mem_of_find?_eq_some found
    · exact List.mem_of_head? found
  obtain ⟨mem, same⟩ := List.mem_filter.1 mem
  exact ⟨mem, of_decide_eq_true same⟩

/-- An owner is found by its address and its type. -/
theorem Sound.findTyped?_owner {s : Symbols} (h : s.Sound) {v : Variable} (m : v ∈ s.entries)
    (owner : v.isAlias = false) {type : Ty} (same : v.type.strip = type.strip) :
    s.findTyped? v.address type = some v := by
  have mem : v ∈ (s.startingAt v.address).filter fun v => v.type.strip = type.strip :=
    List.mem_filter.2 ⟨h.mem_startingAt.2 ⟨m, rfl⟩, decide_eq_true same⟩
  unfold findTyped?
  dsimp only
  cases k : ((s.startingAt v.address).filter fun v => v.type.strip = type.strip).find?
      fun v => !v.isAlias with
  | none => exact absurd (List.find?_eq_none.1 k v mem) (by simp [owner])
  | some w =>
    -- Two owners at one address share its byte.
    obtain ⟨mw, here⟩ := h.mem_startingAt.1
      (List.mem_filter.1 (List.mem_of_find?_eq_some k)).1
    have owner' : w.isAlias = false := by simpa using List.find?_some k
    have first : ∀ u ∈ s.entries, u.isAlias = false → u.Owns u.address := fun u mu ou =>
      ⟨ou, Nat.le_refl _, Nat.lt_add_of_pos_right (h.room u mu ou).1⟩
    have shared : w = v :=
      h.apart w mw v m v.address (here ▸ first w mw owner') (first v m owner)
    rw [shared]
    rfl

end Symbols

end ByteMachine
