import ByteMachine.Proofs.Pointers
import ByteMachine.Proofs.Reachability

/-!
# What is found at an address

The storage of a type at an address is looked for twice: first among the variables that start
there, by their type, and then among the owners, by their bytes. The two agree. Owners are apart, so
one owner at most has all of the bytes; a variable that starts at the address and has the type is
that owner, or an alias whose target is, since aliases do not lose their targets. So something is
found exactly if one owner has all of the bytes, it leads to the address with the type, and it
belongs to that owner; and an owner of exactly this type at this address is itself what is found.

Key definitions: `Variable.Contains`, `Core.Denotes`.
Key theorems: `Symbols.Sound.eq_of_contains`, `Fits.denotes_named`, `Run.resolve_contained`,
`Run.resolve_uncontained`, `Machine.Reachable.resolution_exact`.
-/

namespace ByteMachine

open Discipline

/-- The variable owns all of so many bytes from an address on. -/
def Variable.Contains (v : Variable) (address size : Nat) : Prop :=
  v.isAlias = false ∧ v.spans address size = true

instance (v : Variable) (address size : Nat) : Decidable (v.Contains address size) :=
  inferInstanceAs (Decidable (_ ∧ _))

/-- The operand leads to the address with the type, inside of the bytes of the owner. -/
structure Core.Denotes (s : Core) (o : Operand) (address : Nat) (t : Ty) (owner : Variable) :
    Prop where
  storage : (Run.storage? o).run.run s = (.ok (some (address, t)), s)
  owner : (Run.ownerOf? o).run.run s = (.ok (some owner.id), s)

/-- Only the variables matter for what an operand denotes. -/
theorem Core.Denotes.congr {s u : Core} {o : Operand} {address : Nat} {t : Ty} {owner : Variable}
    (h : s.Denotes o address t owner) (symbols : u.symbols = s.symbols) :
    u.Denotes o address t owner := by
  obtain ⟨storage, belongs⟩ := h
  cases o with
  | value => cases storage
  | place =>
    cases storage
    cases belongs
    exact ⟨rfl, rfl⟩
  | named id =>
    obtain ⟨v, found, storage⟩ := Run.lookup_bind_eq_ok storage
    obtain ⟨w, found', belongs⟩ := Run.lookup_bind_eq_ok belongs
    cases found.symm.trans found'
    cases storage
    have looked : (Run.lookup id).run.run u = (.ok v, u) := by
      rw [Run.run_lookup, symbols, found]
    refine ⟨?_, ?_⟩
    · rw [Run.storage?, run_bind, looked]
      rfl
    · rw [Run.ownerOf?, run_bind, looked]
      dsimp only
      split at belongs
      all_goals
        cases belongs
        rfl

/-- A place denotes what it says. -/
theorem Core.denotes_place (s : Core) (address : Nat) {t : Ty} (plain : t.isReference = false)
    (owner : Variable) : s.Denotes (.place address t owner.id) address t owner := by
  have stored : (Run.storage? (.place address t owner.id)).run.run s =
      (.ok (some (address, t.strip)), s) := rfl
  rw [Ty.strip_of_plain plain] at stored
  exact ⟨stored, rfl⟩

namespace Symbols

variable {s : Symbols} {v w : Variable} {address size : Nat}

/-- Bytes, if there are any, are all contained in one owner at most. -/
theorem Sound.eq_of_contains (h : s.Sound) (mv : v ∈ s.entries) (mw : w ∈ s.entries)
    (sized : 1 ≤ size) (cv : v.Contains address size) (cw : w.Contains address size) : v = w := by
  have first {u : Variable} (c : u.Contains address size) : u.Owns address := by
    obtain ⟨low, high⟩ := Variable.spans_iff.1 c.2
    exact ⟨c.1, low, by omega⟩
  exact h.apart v mv w mw address (first cv) (first cw)

theorem contains_of_spanning? (e : s.spanning? address size = some v) :
    v ∈ s.entries ∧ v.Contains address size := by
  have found := List.find?_some e
  simp only [Bool.and_eq_true, Bool.not_eq_true'] at found
  exact ⟨List.mem_of_find?_eq_some e, found⟩

theorem not_contains_of_spanning? (e : s.spanning? address size = none) :
    ∀ v ∈ s.entries, ¬ v.Contains address size := by
  intro v mem contains
  have missed := List.find?_eq_none.1 e v mem
  simp only [contains.1, contains.2, Bool.not_false, Bool.and_self, not_true] at missed

end Symbols

/-- An owner contains all of its bytes. -/
theorem Variable.contains_self {v : Variable} (owner : v.isAlias = false) :
    v.Contains v.address v.size :=
  ⟨owner, Variable.spans_iff.2 ⟨Nat.le_refl _, Nat.le_refl _⟩⟩

namespace Run

variable {s : Core} {v : Variable} {id : Identifier}

/-- What an owner leads to belongs to it. -/
theorem run_ownerOf?_owner (found : s.symbols.get? id = some v) (owner : v.isAlias = false) :
    (ownerOf? (.named id)).run.run s = (.ok (some id), s) := by
  rw [ownerOf?, run_bind, run_lookup, found]
  dsimp only
  split
  · next target role =>
    rw [Variable.isAlias_iff.2 ⟨target, role⟩] at owner
    cases owner
  · rfl

/-- What an alias leads to belongs to its target. -/
theorem run_ownerOf?_alias (found : s.symbols.get? id = some v) {target : Identifier}
    (role : v.role = .reference target) :
    (ownerOf? (.named id)).run.run s = (.ok (some target), s) := by
  rw [ownerOf?, run_bind, run_lookup, found]
  simp only [role]
  rfl

end Run

/-- The name of a variable leads to its address, and its bytes belong to an owner: to itself, or to
the target that an alias is bound to. -/
theorem Fits.denotes_named {s : Core} (fits : Fits s.catalog s.memory s.symbols)
    (bound : s.symbols.Bound) {v : Variable} (mem : v ∈ s.symbols.entries) :
    ∃ owner ∈ s.symbols.entries, owner.Contains v.address v.size ∧
      s.Denotes (.named v.id) v.address v.type.strip owner := by
  have found := fits.table.get?_id mem
  have storage := Run.run_storage?_named found
  cases kind : v.isAlias with
  | true =>
    obtain ⟨target, role⟩ := Variable.isAlias_iff.1 kind
    obtain ⟨owner, mo, rfl, plain, spans⟩ := fits.table.isBound_iff.1 (bound v mem) target role
    exact ⟨owner, mo, ⟨plain, spans⟩, storage, Run.run_ownerOf?_alias found role⟩
  | false =>
    exact ⟨v, mem, Variable.contains_self kind, storage, Run.run_ownerOf?_owner found kind⟩

namespace Run

variable {s : Core} {t : Ty} {address : Nat}

/-- What the search by type finds is contained in an owner. -/
theorem denotes_of_findTyped? (fits : Fits s.catalog s.memory s.symbols)
    (bound : s.symbols.Bound) (plain : t.isReference = false) {v : Variable}
    (found : s.symbols.findTyped? address t = some v) :
    ∃ owner ∈ s.symbols.entries, owner.Contains address (s.catalog.size t) ∧
      s.Denotes (.named v.id) address t owner := by
  obtain ⟨here, same⟩ := Symbols.findTyped?_eq_some found
  obtain ⟨mem, rfl⟩ := fits.table.mem_startingAt.1 here
  rw [Ty.strip_of_plain plain] at same
  have size : v.size = s.catalog.size t := same ▸ (fits.agree v mem).size
  rw [← size, ← same]
  exact fits.denotes_named bound mem

/-- Storage is found that denotes the address, if an owner contains the bytes. -/
theorem resolve_contained (fits : Fits s.catalog s.memory s.symbols) (bound : s.symbols.Bound)
    (start : address ≠ 0) (plain : t.isReference = false) (sized : 1 ≤ s.catalog.size t)
    {v : Variable} (mem : v ∈ s.symbols.entries)
    (contains : v.Contains address (s.catalog.size t)) :
    ∃ o, (resolve address t).run.run s = (.ok o, s) ∧ s.Denotes o address t v := by
  have unique {w : Variable} (mw : w ∈ s.symbols.entries)
      (cw : w.Contains address (s.catalog.size t)) : w = v :=
    fits.table.eq_of_contains mw mem sized cw contains
  simp only [resolve, run_catalog_bind, if_neg start, run_symbols_bind, Nat.max_eq_left sized]
  cases typed : s.symbols.findTyped? address t with
  | some w =>
    obtain ⟨owner, mo, co, denotes⟩ := denotes_of_findTyped? fits bound plain typed
    exact ⟨.named w.id, rfl, unique mo co ▸ denotes⟩
  | none =>
    cases covered : s.symbols.spanning? address (s.catalog.size t) with
    | some owner =>
      obtain ⟨mo, co⟩ := Symbols.contains_of_spanning? covered
      exact ⟨.place address t owner.id, rfl, unique mo co ▸ s.denotes_place address plain owner⟩
    | none => exact absurd contains (Symbols.not_contains_of_spanning? covered v mem)

/-- Nothing is found if no owner contains the bytes. -/
theorem resolve_uncontained (fits : Fits s.catalog s.memory s.symbols) (bound : s.symbols.Bound)
    (plain : t.isReference = false) (sized : 1 ≤ s.catalog.size t)
    (none : ∀ v ∈ s.symbols.entries, ¬ v.Contains address (s.catalog.size t)) :
    (resolve address t).run.run s =
      (.error (.invalidAddress address (s.catalog.size t)), s) := by
  rw [resolve, run_catalog_bind]
  split
  · rfl
  · simp only [run_symbols_bind, Nat.max_eq_left sized]
    split
    · next v typed =>
      obtain ⟨owner, mo, co, -⟩ := denotes_of_findTyped? fits bound plain typed
      exact absurd co (none owner mo)
    · split
      · next owner covered =>
        obtain ⟨mo, co⟩ := Symbols.contains_of_spanning? covered
        exact absurd co (none owner mo)
      · rfl

end Run

namespace Machine

variable {m : Machine} {t : Ty} {address : Nat}

/-- The search for storage of a type at an address succeeds exactly if an owner contains the bytes.
What it finds denotes the address with the type, inside of the one owner that contains the bytes; an
owner of exactly this type at this address is found by its name. If there is none, the address is
refused. Nothing is changed in any case. -/
theorem Reachable.resolution_exact (h : m.Reachable) (start : address ≠ 0)
    (plain : t.isReference = false) (sized : 1 ≤ m.core.catalog.size t) :
    ((∃ o u, (Run.resolve address t).run.run m.core = (.ok o, u)) ↔
      ∃ v ∈ m.core.symbols.entries, v.Contains address (m.core.catalog.size t)) ∧
    (∀ o u, (Run.resolve address t).run.run m.core = (.ok o, u) → u = m.core ∧
      ∃ v ∈ m.core.symbols.entries, v.Contains address (m.core.catalog.size t) ∧
        (∀ w ∈ m.core.symbols.entries, w.Contains address (m.core.catalog.size t) → w = v) ∧
        m.core.Denotes o address t v) ∧
    (∀ v ∈ m.core.symbols.entries, v.isAlias = false → v.address = address → v.type = t →
      (Run.resolve address t).run.run m.core = (.ok (.named v.id), m.core)) ∧
    ((∀ v ∈ m.core.symbols.entries, ¬ v.Contains address (m.core.catalog.size t)) →
      (Run.resolve address t).run.run m.core =
        (.error (.invalidAddress address (m.core.catalog.size t)), m.core)) := by
  have fits := h.sound.core.fits
  have bound := h.sound.bound
  have fails : (∀ v ∈ m.core.symbols.entries, ¬ v.Contains address (m.core.catalog.size t)) →
      (Run.resolve address t).run.run m.core =
        (.error (.invalidAddress address (m.core.catalog.size t)), m.core) :=
    Run.resolve_uncontained fits bound plain sized
  have contained {o : Operand} {u : Core}
      (ok : (Run.resolve address t).run.run m.core = (.ok o, u)) :
      ∃ v ∈ m.core.symbols.entries, v.Contains address (m.core.catalog.size t) := by
    by_contra none
    rw [fails fun v mem contains => none ⟨v, mem, contains⟩] at ok
    cases ok
  refine ⟨⟨fun ⟨o, u, ok⟩ => contained ok, ?_⟩, ?_, ?_, fails⟩
  · rintro ⟨v, mem, contains⟩
    obtain ⟨o, ok, -⟩ := Run.resolve_contained fits bound start plain sized mem contains
    exact ⟨o, m.core, ok⟩
  · intro o u ok
    obtain ⟨v, mem, contains⟩ := contained ok
    obtain ⟨o', ok', denotes⟩ := Run.resolve_contained fits bound start plain sized mem contains
    cases ok.symm.trans ok'
    exact ⟨rfl, v, mem, contains,
      fun w mw cw => fits.table.eq_of_contains mw mem sized cw contains, denotes⟩
  · rintro v mem owner rfl rfl
    exact Run.run_resolve_owner fits.table mem owner

/-- With an alias of `stdout` registered, its four bytes still resolve to `stdout` itself; a byte
inside of it resolves too, and four bytes across the end of `stderr` do not. -/
theorem resolution_exact_aliased :
    let core := (fresh.runProgram "int& r = stdout").2.core
    (∃ r ∈ core.symbols.entries, r.isAlias = true ∧ r.address = 8) ∧
      (Run.resolve 8 Ty.int).run.run core = (.ok (.named (.named "stdout")), core) ∧
      (∃ o u, (Run.resolve 9 Ty.char).run.run core = (.ok o, u)) ∧
      (Run.resolve 14 Ty.int).run.run core = (.error (.invalidAddress 14 4), core) := by
  let m := (fresh.runProgram "int& r = stdout").2
  let v : Variable := ⟨.named "stdout", Ty.int, 8, 4, .plain⟩
  have reached : m.Reachable := reachable_fresh.ran "int& r = stdout"
  have mem : v ∈ m.core.symbols.entries := by decide +kernel
  have int : m.core.catalog.size Ty.int = 4 := by decide +kernel
  have char : m.core.catalog.size Ty.char = 1 := by decide +kernel
  have inside : v.Contains 9 (m.core.catalog.size Ty.char) := char ▸ by decide
  have across : ∀ v ∈ m.core.symbols.entries, ¬ v.Contains 14 (m.core.catalog.size Ty.int) :=
    int ▸ by decide +kernel
  obtain ⟨-, -, owner, -⟩ := reached.resolution_exact (t := Ty.int) (show 8 ≠ 0 by decide) rfl
    (by omega)
  obtain ⟨found, -⟩ := reached.resolution_exact (t := Ty.char) (show 9 ≠ 0 by decide) rfl
    (by omega)
  obtain ⟨-, -, -, refused⟩ := reached.resolution_exact (t := Ty.int) (show 14 ≠ 0 by decide) rfl
    (by omega)
  exact ⟨by decide +kernel, owner v mem rfl rfl rfl, found.2 ⟨v, mem, inside⟩,
    int ▸ refused across⟩

end Machine

end ByteMachine
