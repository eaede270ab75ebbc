import ByteMachine.Proofs.Bytes
import ByteMachine.Proofs.Reachability

/-!
# What a failed reset leaves

A reset clears memory and symbols before it looks for room for the standard streams, and a change
of the word size replaces settings and catalog before that. Aligned placement always finds room:
the streams take the first words of a memory that has at least four. Scattered placement may draw
too many addresses that are taken, and then what was cleared stays cleared, while the history is
still that of the state before. After a failed reset every entry of it can be gone back to; after
a failed change of the word size the entries have variables that were sized for the old word.

Key definitions: `Symbols.FreeFrom`, `Core.Registers`, `Core.cleared`.
Key theorems: `Symbols.FreeFrom.allocate`, `Run.registerAll_cases`, `Run.registerAll_aligned`,
`Machine.reset_cases`, `Machine.Reachable.reconfiguration_failure`.
-/

namespace ByteMachine

open Discipline

/-! ### Room above the variables -/

/-- Of the addresses tried, one that is free or one before it is found. -/
theorem Placement.firstFree?_le {isFree : Nat → Bool} {step : Nat} : ∀ {count a j : Nat},
    j < count → isFree (a + j * step) = true →
      ∃ b, firstFree? isFree step count a = some b ∧ b ≤ a + j * step
  | 0, _, _, low, _ => absurd low (Nat.not_lt_zero _)
  | count + 1, a, j, low, free => by
    unfold firstFree?
    by_cases here : isFree a = true
    · exact ⟨a, if_pos here, Nat.le_add_right _ _⟩
    · rw [if_neg here]
      cases j with
      | zero => exact absurd (by simpa using free) here
      | succ j =>
        have there : a + (j + 1) * step = a + step + j * step := by rw [Nat.succ_mul]; omega
        rw [there] at free ⊢
        exact firstFree?_le (Nat.lt_of_succ_lt_succ low) free

namespace Symbols

variable {s t : Symbols} {first : Nat}

/-- No variable is registered at an address from `first` on, and no byte there is taken. -/
def FreeFrom (s : Symbols) (first : Nat) : Prop :=
  ∀ a, first ≤ a → s.index.get a = [] ∧ s.isOccupied a = false

theorem freeFrom_empty (capacity word : Nat) (placement : Placement) (seed : UInt64)
    (first : Nat) : (empty capacity word placement seed).FreeFrom first :=
  fun _ _ => ⟨rfl, rfl⟩

theorem FreeFrom.isFree (h : s.FreeFrom first) {a : Nat} (high : first ≤ a) (size : Nat) :
    s.isFree size a = true := by
  have apart : s.occupied.meets a (a + size) = false := by
    refine Bool.eq_false_iff.2 fun met => ?_
    obtain ⟨b, low, -, taken⟩ := (Region.meets_iff _ _ _).1 met
    have free := (h b (Nat.le_trans high low)).2
    rw [isOccupied, taken] at free
    cases free
  simp only [Symbols.isFree, (h a high).1, apart, List.isEmpty_nil, Bool.not_false, Bool.and_self]

/-- A variable below an address leaves what is above it free. -/
theorem FreeFrom.insert (h : s.FreeFrom first) {v : Variable} (e : s.insert v = .ok t)
    {next : Nat} (above : first ≤ next) (low : v.address < next) (stop : v.stop ≤ next) :
    t.FreeFrom next := by
  obtain ⟨-, -, rfl⟩ := insert_eq_ok e
  intro a high
  obtain ⟨unlisted, free⟩ := h a (Nat.le_trans above high)
  constructor
  · rw [AddressIndex.get_insert, if_neg (by omega), unlisted]
  · have outside : ¬ a < v.stop := by omega
    simp only [isOccupied] at free ⊢
    split
    · exact free
    · simp only [Region.contains_insert, free, outside, decide_false, Bool.and_false, Bool.or_self]

/-- Aligned placement finds a word at or before the first free one. -/
theorem FreeFrom.allocate {count : Nat} (h : s.FreeFrom (count * s.word))
    (aligned : s.placement = .aligned) (word : 0 < s.word) (pos : 0 < count)
    (room : (count + 1) * s.word ≤ s.capacity) :
    ∃ a t, s.allocate s.word = .ok (a, t) ∧ a ≤ count * s.word := by
  obtain ⟨k, rfl⟩ : ∃ k, count = k + 1 := ⟨count - 1, by omega⟩
  rw [Nat.succ_mul] at room
  have last : k < (s.capacity - s.word) / s.word :=
    (Nat.le_div_iff_mul_le word).2 (by rw [Nat.succ_mul] at room ⊢; omega)
  have here : (k + 1) * s.word = s.word + k * s.word := by rw [Nat.succ_mul, Nat.add_comm]
  obtain ⟨a, found, low⟩ := Placement.firstFree?_le last
    (h.isFree (Nat.le_of_eq here) s.word)
  have fits : (decide (s.word = 0) || decide (s.capacity ≤ s.word)) = false := by
    simp only [Bool.or_eq_false_iff, decide_eq_false_iff_not]
    omega
  have slot : s.placement.slot? (s.isFree s.word) s.stream s.word s.capacity s.word =
      some (a, s.stream) := by
    simp only [aligned, Placement.slot?, fits, Placement.aligned?, found, Option.map_some,
      Bool.false_eq_true, if_false]
  refine ⟨a, s, ?_, here ▸ low⟩
  simp only [Symbols.allocate, slot]

/-- An allocation can fail for want of room only. -/
theorem allocate_eq_error {size : Nat} {fault : Fault} (e : s.allocate size = .error fault) :
    fault = .memoryExhausted size := by
  unfold Symbols.allocate at e
  split at e <;> cases e
  rfl

end Symbols

/-! ### Registering the streams -/

namespace Run

variable {α : Type} {s : Core}

theorem registerAll_exhausted {name : String} {value : Int} {rest : List (String × Int)}
    {fault : Fault} (e : s.symbols.allocate (s.catalog.size Ty.int) = .error fault) :
    (registerAll ((name, value) :: rest)).run.run s = (.error fault, s) := by
  simp only [registerAll, allocate, run_bind, run_catalog, run_symbols, run_lift, e]

theorem registerAll_placed {name : String} {value : Int} {rest : List (String × Int)}
    {address : Nat} {t u : Symbols} {m : Memory}
    (found : s.symbols.allocate (s.catalog.size Ty.int) = .ok (address, t))
    (inserted : t.insert (.owner s.catalog (.named name) Ty.int address) = .ok u)
    (stored : s.memory.store s.catalog address Ty.int (.integer value) = .ok m) :
    (registerAll ((name, value) :: rest)).run.run s =
      (registerAll rest).run.run { s with symbols := u, memory := m } := by
  simp only [registerAll, allocate, run_bind, run_catalog, run_symbols, run_memory, run_lift,
    run_setSymbols, run_setMemory, run_pure, found, inserted, stored]

end Run

/-- A core in which streams can be registered as far as there is room for them. -/
structure Core.Registers (s : Core) (streams : List (String × Int)) : Prop where
  wordSize : Catalog.isWordSize s.catalog.word = true
  width : s.symbols.word = s.catalog.word
  capacity : s.symbols.capacity = s.memory.size
  distinct : (s.symbols.entries.map Variable.id ++
    streams.map fun p => Identifier.named p.1).Nodup

theorem Symbols.insert_new {s : Symbols} {v : Variable} (new : v.id ∉ s.entries.map Variable.id)
    (kept : v.isTemporary = false) : s.insert v = .ok { s with
      entries := s.entries ++ [v]
      index := s.index.insert v.address v.id
      occupied := if v.isAlias then s.occupied else s.occupied.insert v.address v.stop } := by
  have absent : s.contains v.id = false := Bool.eq_false_iff.2 fun h => new (contains_iff.1 h)
  simp only [insert, absent, kept, Bool.false_eq_true, if_false]

/-- An integer has bytes at every word size. -/
theorem Memory.store_int {m : Memory} {c : Catalog} (word : Catalog.isWordSize c.word = true)
    {address : Nat} (room : address + c.word ≤ m.size) (value : Int) :
    ∃ n, m.store c address Ty.int (.integer value) = .ok n ∧ n.size = m.size := by
  obtain ⟨bs, encoded⟩ : ∃ bs, encode m.order c (.integer value) Ty.int = .ok bs :=
    ⟨_, if_pos (ByteOrder.isIntWidth_word word)⟩
  obtain ⟨n, stored⟩ := store_of_inside rfl encoded room
  exact ⟨n, stored, (store_eq_ok stored).1⟩

namespace Run

/-- The first stream finds no room, or it is registered and the others follow. -/
theorem registerAll_cons {s : Core} {name : String} {value : Int} {rest : List (String × Int)}
    (h : s.Registers ((name, value) :: rest)) :
    (s.symbols.allocate s.catalog.word = .error (.memoryExhausted s.catalog.word) ∧
        (registerAll ((name, value) :: rest)).run.run s =
          (.error (.memoryExhausted s.catalog.word), s)) ∨
      ∃ address t u m, s.symbols.allocate s.catalog.word = .ok (address, t) ∧
        t.insert (.owner s.catalog (.named name) Ty.int address) = .ok u ∧
        m.size = s.memory.size ∧
        ({ s with symbols := u, memory := m } : Core).Registers rest ∧
        (registerAll ((name, value) :: rest)).run.run s =
          (registerAll rest).run.run { s with symbols := u, memory := m } := by
  obtain ⟨wordSize, width, capacity, distinct⟩ := h
  have pos : 0 < s.symbols.word := width ▸ (Catalog.isWordSize_bounds wordSize).1
  rcases k : s.symbols.allocate s.catalog.word with fault | ⟨address, t⟩
  · cases Symbols.allocate_eq_error k
    exact .inl ⟨rfl, registerAll_exhausted k⟩
  · right
    have settings := Symbols.sameSettings_allocate k
    obtain ⟨stream, slot, rfl⟩ := Symbols.allocate_eq_ok k
    obtain ⟨-, -, -, stop⟩ := Placement.slot?_free pos slot
    have new : Identifier.named name ∉ s.symbols.entries.map Variable.id := fun mem =>
      (List.nodup_append.1 distinct).2.2 _ mem _ List.mem_cons_self rfl
    have inserted := Symbols.insert_new (s := { s.symbols with stream := stream })
      (v := .owner s.catalog (.named name) Ty.int address) new rfl
    obtain ⟨m, stored, size⟩ := Memory.store_int (m := s.memory) wordSize (capacity ▸ stop) value
    refine ⟨address, _, _, m, rfl, inserted, size, ⟨wordSize, width, ?_, ?_⟩,
      registerAll_placed k inserted stored⟩
    · exact capacity.trans size.symm
    · simpa [Variable.owner] using distinct

/-- Registering streams succeeds or finds no room. In either case catalog, console and the size of
memory stay. -/
theorem registerAll_cases : ∀ (streams : List (String × Int)) {s : Core}, s.Registers streams →
    ∃ t : Core, t.catalog = s.catalog ∧ t.console = s.console ∧ t.memory.size = s.memory.size ∧
      ((registerAll streams).run.run s = (.ok (), t) ∨
        (registerAll streams).run.run s = (.error (.memoryExhausted s.catalog.word), t))
  | [], s, _ => ⟨s, rfl, rfl, rfl, .inl rfl⟩
  | (name, value) :: rest, s, h => by
    rcases registerAll_cons h with ⟨-, full⟩ | ⟨address, t, u, m, -, -, size, next, e⟩
    · exact ⟨s, rfl, rfl, rfl, .inr full⟩
    · obtain ⟨last, catalog, console, size', result⟩ := registerAll_cases rest next
      exact ⟨last, catalog, console, size'.trans size, e ▸ result⟩

/-- With aligned placement there is room for as many streams as there are free words. -/
theorem registerAll_aligned : ∀ (streams : List (String × Int)) {s : Core} (count : Nat),
    s.Registers streams → s.symbols.placement = .aligned → 0 < count →
    s.symbols.FreeFrom (count * s.catalog.word) →
    (count + streams.length) * s.catalog.word ≤ s.symbols.capacity →
      ((registerAll streams).run.run s).1 = .ok ()
  | [], _, _, _, _, _, _, _ => rfl
  | (name, value) :: rest, s, count, h, aligned, pos, free, room => by
    have width := h.width
    have word := (Catalog.isWordSize_bounds h.wordSize).1
    rw [List.length_cons] at room
    have enough : (count + 1) * s.catalog.word ≤ s.symbols.capacity :=
      Nat.le_trans (Nat.mul_le_mul_right _ (by omega)) room
    rw [← width] at free word enough
    obtain ⟨a, t, found, low⟩ := free.allocate aligned word pos enough
    rw [width] at found low free
    rcases registerAll_cons h with ⟨full, -⟩ | ⟨_, _, u, m, found', inserted, size, next, e⟩
    · exact nomatch found.symm.trans full
    · cases found.symm.trans found'
      have settings :=
        (Symbols.sameSettings_allocate found).trans (Symbols.sameSettings_insert inserted)
      obtain ⟨stream, -, rfl⟩ := Symbols.allocate_eq_ok found
      rw [e]
      refine registerAll_aligned rest (count + 1) next (settings.placement.trans aligned)
        (Nat.succ_pos _) ?_ ?_
      · have above : (count + 1) * s.catalog.word = count * s.catalog.word + s.catalog.word :=
          Nat.succ_mul _ _
        have same : Symbols.FreeFrom { s.symbols with stream := stream }
          (count * s.catalog.word) := free
        have low' : a < (count + 1) * s.catalog.word := by omega
        have stop : a + s.catalog.word ≤ (count + 1) * s.catalog.word := by omega
        exact same.insert inserted (by dsimp only; omega) low' stop
      · rw [settings.capacity]
        exact Nat.le_trans (Nat.mul_le_mul_right _ (by omega)) room

end Run

/-- A core with every byte zero, without variables and operands. -/
def Core.cleared (s : Core) : Core :=
  { s with memory := s.memory.clear, symbols := s.symbols.clear, stack := [] }

theorem Core.registers_cleared {s : Core} (word : Catalog.isWordSize s.catalog.word = true)
    (width : s.symbols.word = s.catalog.word) (capacity : s.symbols.capacity = s.memory.size) :
    s.cleared.Registers standardStreams where
  wordSize := word
  width := width
  capacity := capacity.trans List.length_replicate.symm
  distinct := by
    show (standardStreams.map fun p => Identifier.named p.1).Nodup
    decide

namespace Machine

variable {m n : Machine}

/-! ### Failures -/

theorem reset_eq (m : Machine) : m.reset =
    match (Run.registerAll standardStreams).run.run m.core.cleared with
    | (.error fault, core) => (.error fault, { m with core := core })
    | (.ok (), core) =>
      let m := { m with core := core }
      (.ok (), { m with history := m.history.clear.push (m.snapshot resetName) }) :=
  rfl

/-- A reset succeeds, or scattered placement has found no room for a stream. Then the catalog,
the settings and the history are as before, but memory and symbols are not. -/
theorem reset_cases (configured : m.core.Configured m.config)
    (word : Catalog.isWordSize m.config.word = true)
    (size : Memory.isSize m.config.memorySize = true) :
    (∃ n, m.reset = (.ok (), n)) ∨
      (m.config.placement = .scattered ∧ ∃ core : Core,
        m.reset = (.error (.memoryExhausted m.config.word), { m with core := core }) ∧
        core.catalog = m.core.catalog ∧ core.console = m.core.console ∧
        core.memory.size = m.core.memory.size) := by
  have ready : m.core.cleared.Registers standardStreams :=
    Core.registers_cleared (configured.word ▸ word) (configured.width.trans configured.word.symm)
      (configured.capacity.trans configured.memory.symm)
  obtain ⟨core, catalog, console, length, result⟩ := Run.registerAll_cases _ ready
  rcases result with done | full
  · left
    rw [reset_eq, done]
    exact ⟨_, rfl⟩
  · right
    constructor
    · cases k : m.config.placement with
      | scattered => rfl
      | aligned =>
        -- Three streams and the word at address zero take four words, which every memory has.
        have four :
            (1 + standardStreams.length) * m.core.catalog.word ≤ m.core.symbols.capacity := by
          have few := (Catalog.isWordSize_bounds word).2
          simp only [Memory.isSize, Bool.and_eq_true, decide_eq_true_eq] at size
          rw [configured.capacity, configured.word]
          show 4 * _ ≤ _
          omega
        have free := Symbols.freeFrom_empty m.core.symbols.capacity m.core.symbols.word
          m.core.symbols.placement m.core.symbols.seed (1 * m.core.catalog.word)
        have done := Run.registerAll_aligned _ 1 ready (configured.placement.trans k) Nat.one_pos
          free four
        rw [full] at done
        cases done
    · refine ⟨core, ?_, catalog, console, length.trans List.length_replicate⟩
      rw [reset_eq, full, ← configured.word]
      rfl

/-- What is gone back to hangs on the settings, the history, the catalog and the console only. -/
theorem revert_congr (config : n.config = m.config) (history : n.history = m.history)
    (catalog : n.core.catalog = m.core.catalog) (console : n.core.console = m.core.console)
    (size : n.core.memory.size = m.core.memory.size) (h : m.Sound) :
    ∀ index < m.history.size, n.revert index = m.revert index := by
  intro index low
  obtain ⟨s, entry⟩ : ∃ s, m.history.get? index = some s := ⟨_, List.getElem?_eq_getElem low⟩
  have past : n.past? index = some { s with catalog := m.core.catalog } := by
    rw [past?, history, catalog]
    exact past?_eq h entry
  have length := (h.past s (List.mem_of_getElem? entry)).size
  have back := restore_eq_ok (m := n) (s := { s with catalog := m.core.catalog })
    ((length.trans h.configured.memory.symm).trans size.symm)
  rw [revert_eq h entry]
  simp only [Machine.revert, past, back, config, history, catalog, console]

theorem execute_config (h : m.Sound) (line : String) : (m.execute line).2.config = m.config := by
  rcases execute_cases h line with ⟨_, _, e, r, -⟩ | ⟨-, e⟩ | ⟨-, _, _, e, -⟩ <;> rw [e]
  · exact r.config
  · rfl

theorem runLines_config (h : m.Sound) (number : Nat) (lines : List String) :
    (m.runLines number lines).2.config = m.config := by
  have keeps : (m.runLines number lines).2.Sound ∧
      (m.runLines number lines).2.config = m.config :=
    runLines_keeps (p := fun n => n.Sound ∧ n.config = m.config)
      (fun _ line kept => ⟨kept.1.execute line, (execute_config kept.1 line).trans kept.2⟩) lines
      m number ⟨h, rfl⟩
  exact keeps.2

theorem reset_config (m : Machine) : m.reset.2.config = m.config := by
  rw [reset_eq]
  split <;> rfl

/-- The machine with another word size and all types made anew, before it is reset. -/
def withWord (m : Machine) (word : Nat) : Machine :=
  { m with
    config := { m.config with word := word }
    core := { m.core with
      catalog := .standard word
      symbols := .empty m.config.memorySize word m.config.placement m.config.seed } }

/-- A word size is refused before anything is changed, or the machine with it is reset. -/
theorem setWord_cases (size : Memory.isSize m.config.memorySize = true) (word : Nat) :
    (Catalog.isWordSize word = false ∧ m.setWord word = (.error (.invalidWordSize word), m)) ∨
      (Catalog.isWordSize word = true ∧ m.setWord word = (m.withWord word).reset) := by
  cases k : Catalog.isWordSize word with
  | false =>
    refine .inl ⟨rfl, ?_⟩
    simp only [setWord, Config.validate, k, Bool.not_false, if_true]
  | true =>
    refine .inr ⟨rfl, ?_⟩
    simp only [setWord, Config.validate, k, size, Bool.not_true, Bool.false_eq_true, if_false]
    rfl

theorem validate_eq_ok {c : Config} (e : c.validate = .ok ()) :
    Catalog.isWordSize c.word = true ∧ Memory.isSize c.memorySize = true := by
  refine ⟨isWordSize_of_validate e, ?_⟩
  unfold Config.validate at e
  split at e
  · cases e
  · split at e
    · cases e
    · next valid => simpa using valid

/-- The size of memory is never changed. -/
theorem Reachable.isSize (h : m.Reachable) : Memory.isSize m.config.memorySize = true := by
  induction h with
  | @created c console m e =>
    unfold create at e
    obtain ⟨⟨⟩, valid, e⟩ := bind_eq_ok.1 e
    have same := reset_config (blank c console)
    split at e
    · next k =>
      cases e
      rw [k] at same
      exact same.symm ▸ (validate_eq_ok valid).2
    · cases e
  | executed h line ih => rw [execute_config h.sound]; exact ih
  | ran h source ih => exact (runLines_config h.sound 1 _).symm ▸ ih
  | ordered h o ih =>
    rcases setOrder_cases h.sound o with ⟨-, e⟩ | ⟨-, _, _, -, -, rfl, e⟩ <;> rw [e] <;> exact ih
  | placed _ _ ih => exact ih
  | @reverted m h index ih =>
    cases e : m.history.get? index with
    | none => rw [revert_none e]; exact ih
    | some s => rw [revert_eq h.sound e]; exact ih
  | consoled _ _ ih => exact ih
  | @reset m n _ e ih =>
    have same := reset_config m
    rw [e] at same
    exact same.symm ▸ ih
  | @resized m n _ word e ih =>
    rcases setWord_cases ih word with ⟨-, refused⟩ | ⟨-, anew⟩
    · exact nomatch refused.symm.trans e
    · have same := reset_config (m.withWord word)
      rw [← anew, e] at same
      exact same.symm ▸ ih

/-- A machine whose memory is four words of eight bytes, the least there is for that size. -/
def cramped (word : Nat) (p : Placement) : Machine :=
  (create { word := word, memorySize := 32, placement := p, seed := 1 } .silent).toOption.getD
    default

theorem create_cramped_scattered :
    create { memorySize := 32, placement := .scattered, seed := 1 } .silent =
      .ok (cramped 4 .scattered) := by
  decide +kernel

theorem create_cramped_aligned :
    create { word := 8, memorySize := 32, seed := 1 } .silent = .ok (cramped 8 .aligned) := by
  decide +kernel

/-- A reset and a change of the word size fail for want of room under scattered placement only,
but for a word size that no machine has, which is refused at once. A reset that has failed leaves
the settings, the catalog and the history, and every entry can be gone back to as before; a change
of the word size that has failed leaves the history only. -/
theorem Reachable.reconfiguration_failure (h : m.Reachable) :
    (∀ fault n, m.reset = (.error fault, n) →
      m.config.placement = .scattered ∧ fault = .memoryExhausted m.config.word ∧
        n.config = m.config ∧ n.core.catalog = m.core.catalog ∧ n.history = m.history ∧
        ∀ i < m.history.size, n.revert i = m.revert i) ∧
    (∀ word fault n, m.setWord word = (.error fault, n) →
      (Catalog.isWordSize word = false ∧ fault = .invalidWordSize word ∧ n = m) ∨
      (Catalog.isWordSize word = true ∧ m.config.placement = .scattered ∧
        fault = .memoryExhausted word ∧ n.config = { m.config with word := word } ∧
        n.core.catalog = .standard word ∧ n.history = m.history)) := by
  have sound := h.sound
  have size := h.isSize
  have word : Catalog.isWordSize m.config.word = true :=
    sound.configured.word ▸ sound.core.closed.word
  constructor
  · intro fault n failed
    rcases reset_cases sound.configured word size with
      ⟨_, done⟩ | ⟨scattered, core, full, catalog, console, length⟩
    · exact nomatch done.symm.trans failed
    · cases full.symm.trans failed
      exact ⟨scattered, rfl, rfl, catalog, rfl,
        revert_congr (n := { m with core := core }) rfl rfl catalog console length sound⟩
  · intro w fault n failed
    rcases setWord_cases size w with ⟨none, refused⟩ | ⟨valid, anew⟩
    · cases refused.symm.trans failed
      exact .inl ⟨none, rfl, rfl⟩
    · have configured : (m.withWord w).core.Configured (m.withWord w).config :=
        ⟨sound.configured.memory, rfl, rfl, rfl, sound.configured.order, rfl⟩
      rcases reset_cases configured valid size with
        ⟨_, done⟩ | ⟨scattered, core, full, catalog, -, -⟩
      · exact nomatch (anew.trans done).symm.trans failed
      · cases (anew.trans full).symm.trans failed
        exact .inr ⟨valid, scattered, rfl, rfl, catalog, rfl⟩

/-- A change of the word size that finds no room for the streams. -/
theorem reconfiguration_failure_cramped :
    ((cramped 4 .scattered).setWord 8).1 = .error (.memoryExhausted 8) ∧
      ((cramped 4 .scattered).setWord 8).2.config.word = 8 ∧
      ((cramped 4 .scattered).setWord 8).2.history = (cramped 4 .scattered).history := by
  have failed : (cramped 4 .scattered).setWord 8 =
      (.error (.memoryExhausted 8), ((cramped 4 .scattered).setWord 8).2) := by
    decide +kernel
  have left := (Reachable.created create_cramped_scattered).reconfiguration_failure.2 8 _ _ failed
  rcases left with ⟨invalid, -⟩ | ⟨-, -, -, config, -, history⟩
  · exact absurd invalid (by decide)
  · exact ⟨congrArg Prod.fst failed, congrArg Config.word config, history⟩

/-- A failed change of the word size leaves new settings, a new catalog, a cleared memory and a
table without its last stream, and what is gone back to then are integers of the old size. A failed
reset leaves a cleared memory and a table without its last stream. -/
theorem reconfiguration_not_atomic :
    (∃ m n : Machine, m.Reachable ∧ m.setWord 8 = (.error (.memoryExhausted 8), n) ∧
      n.config ≠ m.config ∧ n.core.catalog ≠ m.core.catalog ∧ n.core.memory ≠ m.core.memory ∧
      n.core.symbols ≠ m.core.symbols ∧ n.history = m.history ∧ (n.revert 0).1 = .ok () ∧
      ∃ v ∈ (n.revert 0).2.core.symbols.entries,
        v.size ≠ (n.revert 0).2.core.catalog.size v.type) ∧
    ∃ m n : Machine, m.Reachable ∧ m.reset = (.error (.memoryExhausted 8), n) ∧
      n.core.memory ≠ m.core.memory ∧ n.core.symbols ≠ m.core.symbols := by
  constructor
  · refine ⟨_, ((cramped 4 .scattered).setWord 8).2, .created create_cramped_scattered, ?_⟩
    decide +kernel
  · refine ⟨_, ((cramped 8 .aligned).setPlacement .scattered).reset.2,
      (Reachable.created create_cramped_aligned).placed .scattered, ?_⟩
    decide +kernel

end Machine

end ByteMachine
