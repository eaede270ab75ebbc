import ByteMachine.Proofs.Machines

/-!
# Machines that can be reached

A machine is made with some settings and then changed by statements, programs and the operations
that change its byte order, its placement, its word size or its console, that reset it or go back
in its history. Resets count only where they succeed. Each of them is opened here once, for sound
machines: the byte order can always be changed, since what is turned around lies inside of memory,
and going back succeeds for the entries there are.

Key definitions: `Machine.Reachable`, `Machine.fresh`.
Key theorems: `Fits.switchOrder`, `Machine.setOrder_cases`, `Machine.past?_eq`, `Machine.revert_eq`,
`Machine.sound_reset`, `Machine.Reachable.sound`.
-/

namespace ByteMachine

open Discipline

/-! ### Turning numbers around -/

theorem ByteOrder.flip_eq_of_ne {o p : ByteOrder} (h : o ≠ p) : p.flip = o := by
  cases o <;> cases p <;> first | rfl | exact absurd rfl h

namespace Memory

theorem reverse_eq_ok {m : Memory} {address length : Nat} (h : address + length ≤ m.size) :
    ∃ n, m.reverse address length = .ok n ∧ n.size = m.size ∧ n.order = m.order := by
  have read : m.read address length = .ok ((m.bytes.drop address).take length) := if_pos h
  have write : ∃ n, m.write address ((m.bytes.drop address).take length).reverse = .ok n := by
    refine ⟨_, if_pos ?_⟩
    simp only [List.length_reverse, List.length_take, List.length_drop]
    omega
  obtain ⟨n, e⟩ := write
  exact ⟨n, by rw [reverse, read]; exact e, write_eq_ok e⟩

end Memory

namespace Symbols

theorem reverseAll_eq_ok : ∀ (runs : List (Nat × Nat)) {m : Memory},
    (∀ r ∈ runs, r.1 + r.2 ≤ m.size) →
      ∃ n, reverseAll runs m = (.ok (), n) ∧ n.size = m.size ∧ n.order = m.order
  | [], m, _ => ⟨m, rfl, rfl, rfl⟩
  | (address, length) :: runs, m, inside => by
    rw [List.forall_mem_cons] at inside
    obtain ⟨turned, e, size, order⟩ := Memory.reverse_eq_ok inside.1
    obtain ⟨n, rest, size', order'⟩ := reverseAll_eq_ok runs (m := turned) (size ▸ inside.2)
    exact ⟨n, by simp only [reverseAll, e, rest], size'.trans size, order'.trans order⟩

/-- The numbers of an owner lie inside of it. -/
theorem units_inside {c : Catalog} {v : Variable} (size : v.size = c.size v.type.strip)
    (plain : v.type.isReference = false) : ∀ r ∈ units c v, r.1 + r.2 ≤ v.stop := by
  have counted : ∀ unit count : Nat, unit * count = v.size →
      ∀ r ∈ (List.range count).map fun i => (v.address + i * unit, unit), r.1 + r.2 ≤ v.stop := by
    intro unit count total r mem
    obtain ⟨i, low, rfl⟩ := List.mem_map.1 mem
    have : (i + 1) * unit ≤ count * unit := Nat.mul_le_mul_right _ (List.mem_range.1 low)
    rw [Nat.add_mul, Nat.one_mul, Nat.mul_comm count, total] at this
    simp only [Variable.stop]
    omega
  intro r mem
  unfold units at mem
  rw [Ty.strip_of_plain plain] at size
  split at mem
  next unit count shape =>
  split at mem
  · cases mem
  · refine counted unit count ?_ r mem
    split at shape <;> cases shape
    · next type => rw [size, type]; rfl
    · exact Nat.mul_one _

end Symbols

/-- The byte order of a memory that a table fits can always be changed. -/
theorem Fits.switchOrder {c : Catalog} {m : Memory} {t : Symbols} (h : Fits c m t) :
    ∃ n, t.switchOrder c m = (.ok (), n) ∧ n.size = m.size ∧ n.order = m.order.flip := by
  have inside : ∀ r ∈ (t.entries.filter fun v => !v.isAlias).flatMap (Symbols.units c),
      r.1 + r.2 ≤ m.size := by
    intro r mem
    obtain ⟨v, mem, unit⟩ := List.mem_flatMap.1 mem
    obtain ⟨mem, owner⟩ := List.mem_filter.1 mem
    rw [Bool.not_eq_true'] at owner
    obtain ⟨-, size, kind, -, -⟩ := h.agree v mem
    have stop := (h.table.room v mem owner).2.2
    rw [h.capacity] at stop
    exact Nat.le_trans (Symbols.units_inside size (kind ▸ owner) r unit) stop
  obtain ⟨n, e, size, order⟩ := Symbols.reverseAll_eq_ok _ inside
  exact ⟨{ n with order := n.order.flip }, by simp only [Symbols.switchOrder, e], size,
    congrArg ByteOrder.flip order⟩

namespace Machine

variable {m n : Machine}

/-! ### Settings -/

/-- The byte order is the one asked for already, or it is changed and the change recorded. -/
theorem setOrder_cases (h : m.Sound) (o : ByteOrder) :
    (o = m.core.memory.order ∧ m.setOrder o = (.ok (), m)) ∨
      (o ≠ m.core.memory.order ∧ ∃ memory n, memory.size = m.core.memory.size ∧
        memory.order = o ∧
        n = { m with
          config := { m.config with order := o }, core := { m.core with memory := memory } } ∧
        m.setOrder o = (.ok (), { n with
          history := n.history.push (n.snapshot ("<" ++ o.name ++ ">")) })) := by
  by_cases same : o = m.core.memory.order
  · exact .inl ⟨same, if_pos same⟩
  · obtain ⟨memory, e, size, order⟩ := h.core.fits.switchOrder
    refine .inr ⟨same, memory, _, size, order.trans (ByteOrder.flip_eq_of_ne same), rfl, ?_⟩
    simp only [setOrder, if_neg same, e]

theorem Sound.setOrder (h : m.Sound) (o : ByteOrder) : (m.setOrder o).2.Sound := by
  rcases setOrder_cases h o with ⟨-, e⟩ | ⟨-, memory, n, size, order, rfl, e⟩ <;> rw [e]
  · exact h
  · refine sound_record ?_ ?_ ?_ ?_ _
    · obtain ⟨memory, capacity, word, width, -, placement⟩ := h.configured
      exact ⟨size.trans memory, capacity, word, width, order, placement⟩
    · exact ⟨h.core.closed, h.core.fits.of_size size, h.core.stack⟩
    · exact h.bound
    · exact h.past

theorem Sound.setPlacement (h : m.Sound) (p : Placement) : (m.setPlacement p).Sound where
  configured := by
    obtain ⟨memory, capacity, word, width, order, -⟩ := h.configured
    exact ⟨memory, capacity, word, width, order, rfl⟩
  core := ⟨h.core.closed, h.core.fits.congr rfl rfl rfl rfl rfl, h.core.stack⟩
  bound := h.bound
  past := h.past
  recorded := by
    obtain ⟨s, latest, memory, symbols⟩ := h.recorded
    exact ⟨s, latest, memory, congrArg (fun t : Symbols => { t with placement := p }) symbols⟩

theorem Sound.withConsole (h : m.Sound) (console : Console) : (m.withConsole console).Sound :=
  ⟨⟨h.configured.1, h.configured.2, h.configured.3, h.configured.4, h.configured.5, h.configured.6⟩,
    ⟨h.core.closed, h.core.fits, h.core.stack⟩, h.bound, h.past, h.recorded⟩

/-! ### Going back -/

/-- The present catalog shows an entry as it was. -/
theorem past?_eq (h : m.Sound) {index : Nat} {s : Snapshot} (e : m.history.get? index = some s) :
    m.past? index = some { s with catalog := m.core.catalog } := by
  have grown := (h.past s (List.mem_of_getElem? e)).grown
  rw [past?, e, Option.map_some, Snapshot.under_of_prefix grown.known]

/-- Going back to an entry that there is puts back its memory and its variables. -/
theorem revert_eq (h : m.Sound) {index : Nat} {s : Snapshot} (e : m.history.get? index = some s) :
    m.revert index = (.ok (), { m with
      config := { m.config with order := s.memory.order }
      core := { m.core with
        memory := s.memory
        symbols := { s.symbols with placement := m.config.placement }
        stack := [] }
      history := m.history.truncate index }) := by
  have size := (h.past s (List.mem_of_getElem? e)).size
  have back := restore_eq_ok (m := m) (s := { s with catalog := m.core.catalog })
    (size.trans h.configured.memory.symm)
  simp only [revert, past?_eq h e, back]

theorem revert_none {index : Nat} (e : m.history.get? index = none) :
    m.revert index = (.error (.noHistoryEntry index), m) := by
  simp only [revert, past?, e, Option.map_none]

theorem Sound.revert (h : m.Sound) (index : Nat) : (m.revert index).2.Sound := by
  cases e : m.history.get? index with
  | none =>
    rw [revert_none e]
    exact h
  | some s =>
    rw [revert_eq h e]
    obtain ⟨grown, fits, bound, size⟩ := h.past s (List.mem_of_getElem? e)
    have width := fits.word.trans h.configured.word
    refine ⟨?_, ⟨h.core.closed, ?_, ?_⟩, bound, ?_, s, History.latest?_truncate e, rfl, rfl⟩
    · exact ⟨size, fits.capacity.trans size, h.configured.word, width, rfl, rfl⟩
    · exact fits.congr rfl rfl rfl rfl rfl
    · exact fun _ mem => nomatch mem
    · exact fun s mem => h.past s (List.mem_of_mem_take mem)

/-! ### Starting anew -/

end Machine

theorem registrable_standardStreams :
    ∀ p ∈ standardStreams, (Identifier.named p.1).Registrable := by
  intro p mem
  simp only [standardStreams, List.mem_cons, List.not_mem_nil, or_false] at mem
  rcases mem with rfl | rfl | rfl
  all_goals exact ⟨by decide, by decide, by decide⟩

/-- Only owners are registered. -/
theorem Run.registerAll_yields : ∀ (streams : List (String × Int)) {s : Core},
    (∀ p ∈ streams, (Identifier.named p.1).Registrable) →
    (∀ v ∈ s.symbols.entries, v.isAlias = false) →
      s.Yields (registerAll streams) fun u _ => ∀ v ∈ u.symbols.entries, v.isAlias = false
  | [], _, _, owners => yields_pure.2 fun _ => owners
  | (name, value) :: rest, s, proper, owners => by
    rw [List.forall_mem_cons] at proper
    refine .of_keeps fun sound => ?_
    have int := sound.closed.scalar .int
    refine .bind (allocate_yields int rfl proper.1) fun t address _ more => ?_
    have owners : ∀ v ∈ t.symbols.entries, v.isAlias = false := by
      rw [more, List.forall_mem_append, List.forall_mem_singleton]
      exact ⟨owners, Variable.isAlias_owner _ _ _ _⟩
    refine yields_memory_bind.2 (yields_catalog_bind.2 (yields_lift_bind fun n e => ?_))
    obtain ⟨size, order⟩ := Memory.store_eq_ok e
    refine .bind (setMemory_yields size order) ?_
    rintro _ _ - rfl
    exact registerAll_yields rest proper.2 owners

namespace Machine

variable {m n : Machine}

/-- Nothing but its settings and its catalog matters of a machine that is reset. -/
theorem sound_reset (configured : m.core.Configured m.config) (closed : m.core.catalog.Closed)
    (e : m.reset = (.ok (), n)) : n.Sound := by
  obtain ⟨memory, capacity, word, width, order, placement⟩ := configured
  let cleared : Core := { m.core with
    memory := m.core.memory.clear, symbols := m.core.symbols.clear, stack := [] }
  have size : cleared.memory.size = m.core.memory.size := List.length_replicate
  have same : cleared.Configured m.config :=
    ⟨size.trans memory, capacity, word, width, order, placement⟩
  have start : cleared.Sound := by
    refine ⟨closed, ⟨Symbols.sound_empty _ _ _ _, fun _ mem => (nomatch mem), ?_, ?_⟩,
      fun _ mem => nomatch mem⟩
    · exact same.capacity.trans same.memory.symm
    · exact same.width.trans same.word.symm
  have none : ∀ v ∈ cleared.symbols.entries, v.isAlias = false := fun _ mem => nomatch mem
  obtain ⟨leads, keeps, owners⟩ :=
    Run.registerAll_yields standardStreams registrable_standardStreams none start
  unfold reset at e
  dsimp only at e
  split at e
  · cases e
  · next core k =>
    rw [k] at leads keeps owners
    cases e
    refine sound_record (m := { m with core := core, history := m.history.clear })
      (same.lead leads) keeps ?_ (fun _ mem => nomatch mem) _
    refine fun v mem => keeps.fits.table.isBound_iff.2 fun target role => ?_
    have owner := owners () rfl v mem
    rw [Variable.isAlias_iff.2 ⟨target, role⟩] at owner
    cases owner

theorem Sound.reset (h : m.Sound) (e : m.reset = (.ok (), n)) : n.Sound :=
  sound_reset h.configured h.core.closed e

theorem isWordSize_of_validate {c : Config} (e : c.validate = .ok ()) :
    Catalog.isWordSize c.word = true := by
  unfold Config.validate at e
  split at e
  · cases e
  · next valid => simpa using valid

theorem sound_create {c : Config} {console : Console} (e : create c console = .ok m) :
    m.Sound := by
  unfold create at e
  obtain ⟨⟨⟩, valid, e⟩ := bind_eq_ok.1 e
  split at e
  · next k =>
    cases e
    have configured : (blank c console).core.Configured c :=
      ⟨List.length_replicate, rfl, rfl, rfl, rfl, rfl⟩
    exact sound_reset configured (Catalog.closed_standard (isWordSize_of_validate valid)) k
  · cases e

theorem Sound.setWord (h : m.Sound) {word : Nat} (e : m.setWord word = (.ok (), n)) :
    n.Sound := by
  unfold Machine.setWord at e
  dsimp only at e
  split at e
  · cases e
  · next valid =>
    refine sound_reset ?_ ?_ e
    · exact ⟨h.configured.memory, rfl, rfl, rfl, h.configured.order, rfl⟩
    · exact Catalog.closed_standard (isWordSize_of_validate valid)

/-! ### Runs -/

/-- A machine that was made and then changed by any operations, in any order. -/
inductive Reachable : Machine → Prop where
  | created {c : Config} {console : Console} {m : Machine} (e : create c console = .ok m) :
    Reachable m
  | executed {m : Machine} (h : Reachable m) (line : String) : Reachable (m.execute line).2
  | ran {m : Machine} (h : Reachable m) (source : String) : Reachable (m.runProgram source).2
  | ordered {m : Machine} (h : Reachable m) (o : ByteOrder) : Reachable (m.setOrder o).2
  | placed {m : Machine} (h : Reachable m) (p : Placement) : Reachable (m.setPlacement p)
  | reverted {m : Machine} (h : Reachable m) (index : Nat) : Reachable (m.revert index).2
  | consoled {m : Machine} (h : Reachable m) (console : Console) :
    Reachable (m.withConsole console)
  | reset {m n : Machine} (h : Reachable m) (e : m.reset = (.ok (), n)) : Reachable n
  | resized {m n : Machine} (h : Reachable m) {word : Nat} (e : m.setWord word = (.ok (), n)) :
    Reachable n

theorem Reachable.sound (h : m.Reachable) : m.Sound := by
  induction h with
  | created e => exact sound_create e
  | executed _ line ih => exact ih.execute line
  | ran _ source ih => exact ih.runProgram source
  | ordered _ o ih => exact ih.setOrder o
  | placed _ p ih => exact ih.setPlacement p
  | reverted _ index ih => exact ih.revert index
  | consoled _ console ih => exact ih.withConsole console
  | reset _ e ih => exact ih.reset e
  | resized _ e ih => exact ih.setWord e

/-- A machine of the default settings. -/
def fresh : Machine := (create {} .silent).toOption.getD default

theorem create_fresh : create {} .silent = .ok fresh := by decide +kernel

theorem reachable_fresh : fresh.Reachable := .created create_fresh

end Machine

end ByteMachine
