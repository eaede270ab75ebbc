import ByteMachine.Machine.Settings
import ByteMachine.Proofs.Catalogs
import ByteMachine.Proofs.Tables

/-!
# Sound states

The core of a machine keeps the same facts in several places: the catalog knows the types that
the variables, the operands and the values on the stack mention, the table knows the size of
memory and of a word. A core is sound if they agree. `Core.discipline` is what the instructions
keep to: from a sound core only sound cores are reached, whether an instruction fails or not, the
catalog grows, and the size and order of memory and the settings of the table stay.

Key definitions: `Identifier.Registrable`, `Variable.Agrees`, `Fits`, `Core.Sound`, `Core.Leads`,
`Core.discipline`.
Key theorems: `Fits.grow`, `Fits.insert_owner`, `Fits.insert_alias`, `Fits.remove`,
`Fits.collect`.
-/

namespace ByteMachine

/-- A name that a table may hold: that of a heap block, or one that a statement can declare. -/
def Identifier.Registrable : Identifier → Prop
  | .named name => isName name = true ∧ Ty.isKeyword name = false ∧ name ∉ reserved
  | .heap _ => True
  | .temporary _ => False

/-- A variable that is what the catalog says of its type. -/
structure Variable.Agrees (c : Catalog) (v : Variable) : Prop where
  known : v.type ∈ c.known
  size : v.size = c.size v.type.strip
  kind : v.isAlias = v.type.isReference
  role : v.isAlias = false → v.role = .ofType v.type
  name : v.id.Registrable

theorem Variable.Agrees.grow {c d : Catalog} (h : c.Extends d) {v : Variable}
    (a : v.Agrees c) : v.Agrees d :=
  ⟨h.mem a.known, by rw [h.size]; exact a.size, a.kind, a.role, a.name⟩

theorem Variable.Agrees.plain {c : Catalog} {v : Variable} (a : v.Agrees c)
    (owner : v.isAlias = false) : v.type.isReference = false :=
  a.kind.symm.trans owner

/-- An owner has the size of its type. -/
theorem Variable.Agrees.size_owner {c : Catalog} {v : Variable} (a : v.Agrees c)
    (owner : v.isAlias = false) : v.size = c.size v.type := by
  rw [a.size, Ty.strip_of_plain (a.plain owner)]

theorem Variable.isAlias_owner (c : Catalog) (id : Identifier) (t : Ty) (address : Nat) :
    (owner c id t address).isAlias = false := by
  cases t <;> rfl

theorem Variable.agrees_owner {c : Catalog} {id : Identifier} {t : Ty} (known : t ∈ c.known)
    (plain : t.isReference = false) (name : id.Registrable) (address : Nat) :
    (owner c id t address).Agrees c where
  known := known
  size := by
    cases t with
    | reference => cases plain
    | _ => rfl
  kind := (isAlias_owner c id t address).trans plain.symm
  role := fun _ => rfl
  name := name

/-- A memory and a table that fit each other, under a catalog. -/
structure Fits (c : Catalog) (m : Memory) (t : Symbols) : Prop where
  table : t.Sound
  agree : ∀ v ∈ t.entries, v.Agrees c
  capacity : t.capacity = m.size
  word : t.word = c.word

namespace Fits

variable {c d : Catalog} {m n : Memory} {t u : Symbols}

theorem grow (h : Fits c m t) (k : c.Extends d) : Fits d m t :=
  ⟨h.table, fun v mem => (h.agree v mem).grow k, h.capacity, h.word.trans k.word.symm⟩

theorem of_size (h : Fits c m t) (k : n.size = m.size) : Fits c n t :=
  ⟨h.table, h.agree, h.capacity.trans k.symm, h.word⟩

/-- Only the variables and their three views matter, not how the next one is placed or named. -/
theorem congr (h : Fits c m t) (entries : u.entries = t.entries) (index : u.index = t.index)
    (occupied : u.occupied = t.occupied) (capacity : u.capacity = t.capacity)
    (word : u.word = t.word) : Fits c m u :=
  ⟨h.table.congr entries index occupied capacity, entries ▸ h.agree, capacity.trans h.capacity,
    word.trans h.word⟩

theorem insert_owner (h : Fits c m t) (closed : c.Closed) {id : Identifier} {type : Ty}
    {address : Nat} (known : type ∈ c.known) (plain : type.isReference = false)
    (name : id.Registrable) {t' : Symbols}
    (found : t.allocate (c.size type) = .ok (address, t'))
    (e : t'.insert (.owner c id type address) = .ok u) : Fits c m u := by
  have pos : 0 < t.word := h.word ▸ closed.word_pos
  have settings := (Symbols.sameSettings_allocate found).trans (Symbols.sameSettings_insert e)
  have table : u.Sound := h.table.insert_owner (v := .owner c id type address) pos found e
  refine ⟨table, fun v mem => ?_, settings.capacity.trans h.capacity,
    settings.word.trans h.word⟩
  rw [Symbols.entries_of_placed found e] at mem
  rcases List.mem_append.1 mem with mem | mem
  · exact h.agree v mem
  · cases List.mem_singleton.1 mem
    exact Variable.agrees_owner known plain name address

theorem insert_alias (h : Fits c m t) {v : Variable} (k : v.isAlias = true) (a : v.Agrees c)
    (e : t.insert v = .ok u) : Fits c m u := by
  have settings := Symbols.sameSettings_insert e
  refine ⟨h.table.insert_alias k e, fun w mem => ?_, settings.capacity.trans h.capacity,
    settings.word.trans h.word⟩
  obtain ⟨-, -, rfl⟩ := Symbols.insert_eq_ok e
  rcases List.mem_append.1 mem with mem | mem
  · exact h.agree w mem
  · cases List.mem_singleton.1 mem
    exact a

theorem remove (h : Fits c m t) (id : Identifier) : Fits c m (t.remove id) where
  table := h.table.remove id
  agree := fun v mem => h.agree v (by
    rw [Symbols.entries_remove] at mem
    exact (List.mem_filter.1 mem).1)
  capacity := (Symbols.sameSettings_remove t id).capacity.trans h.capacity
  word := (Symbols.sameSettings_remove t id).word.trans h.word

theorem collect (h : Fits c m t) : Fits c m t.collect where
  table := h.table.collect
  agree := fun v mem => h.agree v (by
    rw [h.table.entries_collect] at mem
    exact (List.mem_filter.1 mem).1)
  capacity := (Symbols.sameSettings_collect t).capacity.trans h.capacity
  word := (Symbols.sameSettings_collect t).word.trans h.word

end Fits

/-! ### The core of a machine -/

/-- An operand whose types were met. -/
def Operand.Known (c : Catalog) : Operand → Prop
  | .value v t => v.Known c ∧ t ∈ c.known
  | .named _ => True
  | .place _ t _ => t ∈ c.known

theorem Operand.Known.grow {c d : Catalog} (h : c.Extends d) {o : Operand} (k : o.Known c) :
    o.Known d := by
  cases o with
  | value => exact ⟨k.1.grow h, h.mem k.2⟩
  | named => trivial
  | place => exact h.mem k

namespace Core

/-- Catalog, memory, table and stack agree. -/
structure Sound (s : Core) : Prop where
  closed : s.catalog.Closed
  fits : Fits s.catalog s.memory s.symbols
  stack : ∀ o ∈ s.stack, o.Known s.catalog

/-- What a statement never changes but for types that it adds. -/
structure Leads (s t : Core) : Prop where
  catalog : s.catalog.Extends t.catalog
  size : t.memory.size = s.memory.size
  order : t.memory.order = s.memory.order
  settings : s.symbols.SameSettings t.symbols

/-- What the instructions keep to. -/
def discipline : Discipline Core where
  keeps := Sound
  leads := Leads
  refl := fun _ => ⟨.refl _, rfl, rfl, .refl _⟩
  trans := fun h k => ⟨h.catalog.trans k.catalog, k.size.trans h.size, k.order.trans h.order,
    h.settings.trans k.settings⟩

/-- A computation from the core `s` keeps to the discipline and has a result as described. -/
abbrev Yields {α : Type} (s : Core) (x : Run α) (post : Core → α → Prop) : Prop :=
  discipline.Yields s x post

end Core

end ByteMachine
