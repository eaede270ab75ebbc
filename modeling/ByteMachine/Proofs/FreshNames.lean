import ByteMachine.Proofs.HeapBlocks
import ByteMachine.Proofs.Hereditary
import ByteMachine.Proofs.MeasuredRuns

/-!
# Names of heap blocks are fresh

A block is named by the number that the table counts up for it. The count is put back when a
statement fails and when the machine goes back in its history, but only together with the table, so
no block has a number above the count. Written out, a number gives the digits it is read back from,
and no name in a line starts as the names of blocks do; hence the texts are as distinct as the
names, and the text of the next block is that of no variable.

A statement can therefore fail for a name that is taken only where it declares a variable, and only
for the name it declares. This is shown instruction by instruction: up to the declaration every
name in the table is a block's or was there when the statement began, and what is not a declaration
registers blocks only.

Key definitions: `Identifier.isBlockText`, `Symbols.Within`, `Symbols.NumbersBlocks`,
`Run.Clashless`, `Run.Introduces`.
Key theorems: `Identifier.text_injective`, `Symbols.lasting_within`, `Run.clashless`,
`Run.introduces_create`, `Run.taken_at`, `Machine.Reachable.fresh_names`.
-/

namespace ByteMachine

open Discipline

/-! ### How names are written -/

namespace Identifier

/-- Whether a text starts as the names of blocks do. -/
def isBlockText (text : String) : Bool := "$heap".toList.isPrefixOf text.toList

theorem toList_heap (n : Nat) : (heap n).text.toList = "$heap".toList ++ Nat.toDigits 10 n := by
  simp [text]

/-- A number is read back from its digits. -/
theorem heap_injective {n k : Nat} (same : (heap n).text = (heap k).text) : n = k := by
  have digits : Nat.toDigits 10 n = Nat.toDigits 10 k := by
    have chars := congrArg String.toList same
    rw [toList_heap, toList_heap] at chars
    exact List.append_cancel_left chars
  calc n = Nat.ofDigitChars 10 (Nat.toDigits 10 n) 0 := Nat.ofDigitChars_ten_toDigits.symm
    _ = Nat.ofDigitChars 10 (Nat.toDigits 10 k) 0 := by rw [digits]
    _ = k := Nat.ofDigitChars_ten_toDigits

/-- A name in a line starts with no dollar sign. -/
theorem head_ne_dollar {name : String} (valid : isName name = true) :
    name.toList.head? ≠ some '$' := by
  unfold isName at valid
  cases chars : name.toList with
  | nil => exact nofun
  | cons c cs =>
    rw [chars] at valid
    rintro ⟨⟩
    exact absurd valid (by simp [Lexer.isNameStart, Lexer.isLetter])

theorem isBlockText_heap (n : Nat) : isBlockText (heap n).text = true := by
  rw [isBlockText, toList_heap, List.isPrefixOf_iff_prefix]
  exact List.prefix_append _ _

theorem isBlockText_of_isName {name : String} (valid : isName name = true) :
    isBlockText name = false := by
  refine Bool.eq_false_iff.2 fun starts => ?_
  obtain ⟨rest, chars⟩ := List.isPrefixOf_iff_prefix.1 starts
  exact head_ne_dollar valid (by rw [← chars]; rfl)

/-- Blocks are recognised by their texts. -/
theorem isBlockText_text {id : Identifier} (h : id.Registrable) :
    isBlockText id.text = id.isHeap := by
  cases id with
  | named name => exact isBlockText_of_isName h.1
  | heap n => exact isBlockText_heap n
  | temporary => exact h.elim

/-- Names in a table that are written alike are the same. -/
theorem text_injective {id other : Identifier} (h : id.Registrable) (k : other.Registrable)
    (same : id.text = other.text) : id = other := by
  have kinds : id.isHeap = other.isHeap := by
    rw [← isBlockText_text h, ← isBlockText_text k, same]
  cases id <;> cases other
  case named.named => exact congrArg named same
  case heap.heap => exact congrArg heap (heap_injective same)
  case named.heap | heap.named => cases kinds
  all_goals first | exact h.elim | exact k.elim

end Identifier

/-! ### Numbers in a table -/

namespace Symbols

/-- Blocks have numbers that were given out, and every other variable has one of the names. -/
structure Within (names : Identifier → Prop) (s : Symbols) : Prop where
  numbered : ∀ v ∈ s.entries, ∀ n, v.id = .heap n → 1 ≤ n ∧ n ≤ s.heapSerial
  named : ∀ v ∈ s.entries, v.id.isHeap = false → names v.id

/-- The same with one more name. -/
def WithinOr (names : Identifier → Prop) (id : Identifier) (s : Symbols) : Prop :=
  s.Within fun other => names other ∨ other = id

variable {names others : Identifier → Prop} {s t : Symbols} {v : Variable}

theorem Within.mono (h : s.Within names) (wider : ∀ id, names id → others id) :
    s.Within others :=
  ⟨h.numbered, fun v mem other => wider _ (h.named v mem other)⟩

theorem Within.wider (h : s.Within names) {id : Identifier} :
    s.WithinOr names id :=
  h.mono fun _ => .inl

/-- The table may count up and lose variables. -/
theorem Within.shrink (h : s.Within names) (fewer : t.entries ⊆ s.entries)
    (counted : s.heapSerial ≤ t.heapSerial) : t.Within names where
  numbered := fun v mem n e =>
    have bounds := h.numbered v (fewer mem) n e
    ⟨bounds.1, bounds.2.trans counted⟩
  named := fun v mem => h.named v (fewer mem)

/-- A new variable has one of the names, or it is the block that was counted last. -/
theorem Within.insert (h : s.Within names)
    (name : v.id.isHeap = false ∧ names v.id ∨ ∃ n, s.heapSerial = n + 1 ∧ v.id = .heap (n + 1))
    (inserted : s.insert v = .ok t) : t.Within names := by
  obtain ⟨-, -, rfl⟩ := insert_eq_ok inserted
  constructor
  · rw [List.forall_mem_append, List.forall_mem_singleton]
    refine ⟨h.numbered, fun n e => ?_⟩
    rcases name with ⟨other, -⟩ | ⟨n', serial, id⟩
    · rw [e] at other
      cases other
    · rw [e] at id
      cases id
      exact ⟨Nat.le_add_left 1 n', serial.ge⟩
  · rw [List.forall_mem_append, List.forall_mem_singleton]
    refine ⟨h.named, fun other => ?_⟩
    rcases name with ⟨-, name⟩ | ⟨n', -, id⟩
    · exact name
    · rw [id] at other
      cases other

theorem within_allocate {size a : Nat} (h : s.Within names) (found : s.allocate size = .ok (a, t)) :
    t.Within names ∧ t.heapSerial = s.heapSerial := by
  obtain ⟨stream, -, rfl⟩ := allocate_eq_ok found
  exact ⟨h.shrink (List.Subset.refl _) (Nat.le_refl _), rfl⟩

theorem within_remove (h : s.Within names) (id : Identifier) : (s.remove id).Within names := by
  refine h.shrink ?_ ?_
  · rw [entries_remove]
    exact List.filter_subset_self _
  · unfold remove
    split <;> exact Nat.le_refl _

theorem lasting_within (names : Identifier → Prop) :
    Lasting (fun id => id.isHeap = false ∧ names id) (Within names) where
  empty := fun _ _ _ _ => ⟨fun _ mem => (nomatch mem), fun _ mem => (nomatch mem)⟩
  placement := fun _ h => ⟨h.numbered, h.named⟩
  change := by
    intro s t change h
    cases change with
    | counted => exact h.shrink (List.Subset.refl _) (Nat.le_succ _)
    | numbered => exact h.shrink (List.Subset.refl _) (Nat.le_refl _)
    | placed _ name found inserted =>
      obtain ⟨room, serial⟩ := within_allocate h found
      exact room.insert (serial ▸ name) inserted
    | aliased _ name _ inserted => exact h.insert (.inl name) inserted
    | removed id => exact within_remove h id

/-- The next block has a name that no variable has. -/
theorem Within.nextHeap_fresh (h : s.Within names) :
    ∀ v ∈ s.entries, v.id ≠ .heap (s.heapSerial + 1) := fun v mem e => by
  have := (h.numbered v mem _ e).2
  omega

/-- The names that start as those of blocks do are written with distinct numbers that were given
out; no two variables have one text, and none has that of the next block. -/
structure NumbersBlocks (s : Symbols) : Prop where
  serials : ∃ ns : List Nat, ns.Nodup ∧ (∀ n ∈ ns, 1 ≤ n ∧ n ≤ s.heapSerial) ∧
    ((s.entries.map fun v => v.id.text).filter Identifier.isBlockText) =
      ns.map fun n => "$heap" ++ toString n
  distinct : (s.entries.map fun v => v.id.text).Nodup
  unused : s.nextHeap.1.text ∉ s.entries.map fun v => v.id.text

/-- The blocks among some variables have numbers for names. -/
theorem serials_of_registrable : ∀ {vs : List Variable}, (∀ v ∈ vs, v.id.Registrable) →
    ∃ ns : List Nat, (∀ n ∈ ns, ∃ v ∈ vs, v.id = .heap n) ∧
      ((vs.map fun v => v.id.text).filter Identifier.isBlockText) =
        ns.map fun n => "$heap" ++ toString n
  | [], _ => ⟨[], List.forall_mem_nil _, rfl⟩
  | v :: vs, registrable => by
    rw [List.forall_mem_cons] at registrable
    obtain ⟨ns, blocks, texts⟩ := serials_of_registrable registrable.2
    have among : ∀ n ∈ ns, ∃ w ∈ v :: vs, w.id = .heap n := fun n mem =>
      have ⟨w, mw, e⟩ := blocks n mem
      ⟨w, List.mem_cons_of_mem v mw, e⟩
    have block := Identifier.isBlockText_text registrable.1
    cases k : v.id with
    | heap n =>
      refine ⟨n :: ns, List.forall_mem_cons.2 ⟨⟨v, List.mem_cons_self, k⟩, among⟩, ?_⟩
      rw [k] at block
      rw [List.map_cons, k, List.filter_cons_of_pos block, texts]
      rfl
    | named | temporary =>
      refine ⟨ns, among, ?_⟩
      rw [k] at block
      rw [List.map_cons, k, List.filter_cons_of_neg (by rw [block]; exact Bool.false_ne_true),
        texts]

theorem Within.numbersBlocks (h : s.Within names) (table : s.Sound)
    (registrable : ∀ v ∈ s.entries, v.id.Registrable) : s.NumbersBlocks := by
  have distinct : (s.entries.map fun v => v.id.text).Nodup := by
    refine List.Nodup.map_on (fun v mv w mw same => ?_) (List.Nodup.of_map _ table.distinct)
    exact table.eq_of_id mv mw
      (Identifier.text_injective (registrable v mv) (registrable w mw) same)
  refine ⟨?_, distinct, fun mem => ?_⟩
  · obtain ⟨ns, blocks, texts⟩ := serials_of_registrable registrable
    refine ⟨ns, ?_, fun n mem => ?_, texts⟩
    · have filtered := distinct.filter Identifier.isBlockText
      rw [texts] at filtered
      exact filtered.of_map
    · obtain ⟨v, mv, e⟩ := blocks n mem
      exact h.numbered v mv n e
  · obtain ⟨v, mv, same⟩ := List.mem_map.1 mem
    exact h.nextHeap_fresh v mv (Identifier.text_injective (registrable v mv) trivial same)

/-- A name that is new is not found taken. -/
theorem undoubled_insert (new : ∀ w ∈ s.entries, w.id ≠ v.id) :
    Undoubled (s.insert v) := by
  have absent : s.contains v.id = false := by
    refine Bool.eq_false_iff.2 fun taken => ?_
    obtain ⟨w, mem, e⟩ := List.mem_map.1 (contains_iff.1 taken)
    exact new w mem e
  unfold insert
  rw [absent, if_neg Bool.false_ne_true]
  split
  · exact undoubled_error rfl
  · exact undoubled_ok _

end Symbols

/-! ### Names that are taken -/

/-- From a table as `P` says no name is found taken, and a table as `Q` says is left. -/
def Run.Clashless {α : Type} (P Q : Symbols → Prop) (x : Run α) : Prop :=
  ∀ s : Core, P s.symbols → Undoubled (x.run.run s).1 ∧ Q (x.run.run s).2.symbols

namespace Run

variable {α β : Type} {P Q R : Symbols → Prop} {x : Run α} {f : α → Run β}
  {names : Identifier → Prop} {id : Identifier}

theorem clashless_pure (a : α) : Clashless P P (pure a : Run α) := fun _ h => ⟨undoubled_ok a, h⟩

theorem clashless_throw {fault : Fault} (other : fault.isDuplicate = false)
    (left : ∀ s, P s → Q s) : Clashless P Q (throw fault : Run α) :=
  fun s h => ⟨undoubled_error other, left s.symbols h⟩

/-- What is left by a failure must do for the whole. -/
theorem Clashless.bind (hx : Clashless P Q x) (hf : ∀ a, Clashless Q R (f a))
    (left : ∀ s, Q s → R s) : Clashless P R (x >>= f) := by
  intro s h
  obtain ⟨other, table⟩ := hx s h
  rw [run_bind]
  rcases k : x.run.run s with ⟨fault | a, t⟩ <;> rw [k] at other table
  · exact ⟨undoubled_error (other fault rfl), left t.symbols table⟩
  · exact hf a t table

theorem clashless_modify {f : Core → Core} (same : ∀ s, (f s).symbols = s.symbols) :
    Clashless P P (modify f : Run Unit) := fun s h => by
  refine ⟨undoubled_ok _, ?_⟩
  show P (f s).symbols
  rw [same]
  exact h

theorem clashless_get_bind {g : Core → Run β} (h : ∀ s, Clashless P Q (g s)) :
    Clashless P Q (get >>= g) :=
  fun s p => h s s p

/-- What is done with the table starts from it. -/
theorem clashless_symbols_bind {g : Symbols → Run β}
    (h : ∀ table, P table → Clashless (· = table) Q (g table)) :
    Clashless P Q (symbols >>= g) :=
  fun s p => h s.symbols p s rfl

theorem clashless_lift_bind {y : Except Fault α} (other : Undoubled y)
    (h : ∀ a, y = .ok a → Clashless P Q (f a)) (left : ∀ s, P s → Q s) :
    Clashless P Q (lift y >>= f) := by
  cases y with
  | error fault => exact fun s p => ⟨undoubled_error (other fault rfl), left s.symbols p⟩
  | ok a => exact h a rfl

theorem clashless_setSymbols {table : Symbols} (h : Q table) :
    Clashless P Q (setSymbols table) :=
  fun _ _ => ⟨undoubled_ok _, h⟩

/-- Room is found and given a new name. -/
theorem clashless_allocate {names names' : Identifier → Prop} (t : Ty)
    (wider : ∀ id, names id → names' id)
    (new : ∀ s : Symbols, P s → s.Within names ∧ (∀ w ∈ s.entries, w.id ≠ id) ∧
      (id.isHeap = false ∧ names' id ∨ ∃ n, s.heapSerial = n + 1 ∧ id = .heap (n + 1))) :
    Clashless P (Symbols.Within names') (allocate id t) := by
  refine clashless_get_bind fun s => ?_
  refine clashless_symbols_bind fun table p => ?_
  obtain ⟨within, absent, name⟩ := new table p
  have within := within.mono wider
  have left : ∀ s, s = table → s.Within names' := by
    rintro _ rfl
    exact within
  refine clashless_lift_bind (table.undoubled_allocate _) (fun ⟨a, room⟩ found => ?_) left
  obtain ⟨kept, serial⟩ := Symbols.within_allocate within found
  have entries : room.entries = table.entries := by
    obtain ⟨stream, -, rfl⟩ := Symbols.allocate_eq_ok found
    rfl
  refine clashless_lift_bind (Symbols.undoubled_insert (entries ▸ absent))
    (fun u inserted => ?_) left
  exact (clashless_setSymbols (kept.insert (serial ▸ name) inserted)).bind
    (fun _ => clashless_pure a) fun _ h => h

/-- What declares nothing finds no name taken: its blocks have names that are new. -/
theorem clashless (names : Identifier → Prop) :
    Hereditary (Clashless (Symbols.Within names) (Symbols.Within names)) where
  pure := clashless_pure
  throw := fun other => clashless_throw other fun _ h => h
  bind := fun hx hf => hx.bind hf fun _ h => h
  caught := fun {_ x f} hx hf s h => by
    obtain ⟨-, table⟩ := hx s h
    rw [run_tryCatch]
    rcases k : x.run.run s with ⟨fault | a, t⟩ <;> rw [k] at table
    · exact hf fault t table
    · exact ⟨undoubled_ok a, table⟩
  look := fun _ good => clashless_get_bind good
  setStack := fun _ => clashless_modify fun _ => rfl
  catalog := clashless_get_bind fun s => clashless_pure s.catalog
  meet := fun _ => clashless_modify fun _ => rfl
  memory := clashless_get_bind fun s => clashless_pure s.memory
  setMemory := fun _ => clashless_modify fun _ => rfl
  write := fun _ => clashless_modify fun _ => rfl
  symbols := clashless_get_bind fun s => clashless_pure s.symbols
  allocateHeap := fun t => clashless_symbols_bind fun table h => by
    have counted : table.nextHeap.2.Within names :=
      h.shrink (List.Subset.refl _) (Nat.le_succ _)
    refine Clashless.bind (Q := (· = table.nextHeap.2)) (clashless_setSymbols rfl)
      (fun _ => clashless_allocate t (fun _ name => name) ?_) fun s e => e ▸ counted
    rintro _ rfl
    exact ⟨counted, h.nextHeap_fresh, .inr ⟨table.heapSerial, rfl, rfl⟩⟩
  removeBlock := fun address => clashless_symbols_bind fun table h =>
    clashless_lift_bind (table.undoubled_heapBlockAt address)
      (fun block _ => clashless_setSymbols (Symbols.within_remove h block)) fun s e => e ▸ h
  temporary := fun v t address => clashless_symbols_bind fun table h => by
    have numbered : table.nextTemporary.2.Within names :=
      h.shrink (List.Subset.refl _) (Nat.le_refl _)
    exact Clashless.bind (clashless_setSymbols numbered) (fun _ => clashless_get_bind fun _ =>
      clashless_pure _) fun _ h => h

section

variable (absent : ¬ names id) (plain : id.isHeap = false)

include absent plain

theorem absent_of_within {s : Symbols} (h : s.Within names) : ∀ w ∈ s.entries, w.id ≠ id := by
  rintro w mem rfl
  exact absent (h.named w mem plain)

/-- Room for a variable with a name that no other has. -/
theorem clashless_room (t : Ty) : Clashless (Symbols.Within names)
    (Symbols.WithinOr names id) (allocate id t) :=
  clashless_allocate t (fun _ => .inl) fun _ h =>
    ⟨h, absent_of_within absent plain h, .inl ⟨plain, .inr rfl⟩⟩

theorem clashless_makeScalar (t : Ty) (initial : Option Operand) :
    Clashless (Symbols.Within names) (Symbols.WithinOr names id)
      (makeScalar id t initial) := by
  have start := clashless names
  refine start.catalog.bind (fun c => ?_) fun _ h => h.wider
  split
  · exact clashless_throw rfl fun _ h => h.wider
  · split
    · exact (clashless_room absent plain t).bind (fun _ => clashless_pure _) fun _ h => h
    · refine (start.read _).bind (fun ⟨v, found⟩ => ?_) fun _ h => h.wider
      refine (start.checkCompatible t found).bind (fun _ => ?_) fun _ h => h.wider
      exact (clashless_room absent plain t).bind (fun address =>
        (clashless _).storeValue address t v) fun _ h => h

theorem clashless_createScalar (t : Ty) (initialized : Bool) :
    Clashless (Symbols.Within names) (Symbols.WithinOr names id)
      (createScalar id t initialized) := by
  have start := clashless names
  unfold createScalar
  cases initialized with
  | true => exact (start.map start.pop some).bind (fun initial =>
      clashless_makeScalar absent plain t initial) fun _ h => h.wider
  | false => exact (start.pure none).bind (fun initial =>
      clashless_makeScalar absent plain t initial) fun _ h => h.wider

theorem clashless_createReference (t target : Ty) :
    Clashless (Symbols.Within names) (Symbols.WithinOr names id)
      (createReference id t target) := by
  have start := clashless names
  have fails {α : Type} {fault : Fault} (other : fault.isDuplicate = false) :
      Clashless (Symbols.Within names) (Symbols.WithinOr names id)
        (throw fault : Run α) :=
    clashless_throw other fun _ h => h.wider
  refine start.pop.bind (fun source => ?_) fun _ h => h.wider
  refine (start.storage? source).bind (fun place => ?_) fun _ h => h.wider
  split
  · exact fails rfl
  · split
    · exact fails rfl
    · refine (start.ownerOf? source).bind (fun owner => ?_) fun _ h => h.wider
      split
      · exact fails rfl
      · refine start.catalog.bind (fun c => ?_) fun _ h => h.wider
        refine clashless_symbols_bind fun table h => ?_
        have new := absent_of_within absent plain h
        refine clashless_lift_bind (Symbols.undoubled_insert new) (fun u inserted => ?_)
          fun s e => e ▸ h.wider
        exact clashless_setSymbols (h.wider.insert (.inl ⟨plain, .inr rfl⟩) inserted)

theorem clashless_createArray (t : Ty) (initialized : Bool) :
    Clashless (Symbols.Within names) (Symbols.WithinOr names id)
      (createArray id t initialized) := by
  have after := clashless fun other => names other ∨ other = id
  refine (clashless_room absent plain t).bind (fun address => ?_) fun _ h => h
  split
  · exact after.bind after.catalog fun _ => after.bind after.memory fun m =>
      after.bind (after.lift (m.undoubled_write address _)) fun _ => after.setMemory _
  · exact after.pure _

end

/-- The end of a run in which `id` may have been declared: no other name was found taken, nor that
one unless it is among the names, and no other was added to the table. -/
structure Introduces {α : Type} (names : Identifier → Prop) (id : Identifier)
    (p : Except Fault α × Core) : Prop where
  taken : ∀ fault, p.1 = .error fault → fault.isDuplicate = true →
    fault = .duplicateVariable id.text ∧ names id
  left : p.2.symbols.WithinOr names id

theorem Introduces.of_undoubled {α : Type} {p : Except Fault α × Core} (other : Undoubled p.1)
    (left : p.2.symbols.WithinOr names id) : Introduces names id p := by
  refine ⟨fun fault e double => ?_, left⟩
  rw [other fault e] at double
  cases double

/-- A declaration finds a name taken only if it is the one it declares. -/
theorem introduces_create {s : Core} (within : s.symbols.Within names) (t : Ty)
    (plain : id.isHeap = false) (initialized : Bool) :
    Introduces names id ((create t id initialized).run.run s) := by
  cases taken : s.symbols.contains id with
  | true =>
    have failed : (create t id initialized).run.run s =
        (.error (.duplicateVariable id.text), s) := by
      rw [create, run_symbols_bind, taken]
      rfl
    obtain ⟨v, mem, rfl⟩ := List.mem_map.1 (Symbols.contains_iff.1 taken)
    rw [failed]
    refine ⟨?_, within.wider⟩
    rintro _ ⟨⟩ -
    exact ⟨rfl, within.named v mem plain⟩
  | false =>
    -- The name is not among those in the table, so they are all among the others.
    let others : Identifier → Prop := fun other => names other ∧ other ≠ id
    have start : s.symbols.Within others := by
      refine ⟨within.numbered, fun v mem other => ⟨within.named v mem other, ?_⟩⟩
      rintro rfl
      rw [Symbols.contains_iff.2 (List.mem_map_of_mem mem)] at taken
      cases taken
    have absent : ¬ others id := fun h => h.2 rfl
    have pushed {x : Run Unit} (made : Clashless (Symbols.Within others)
        (Symbols.WithinOr others id) x) :
        Clashless (Symbols.Within others) (Symbols.WithinOr others id)
          (do x; push (.named id)) :=
      made.bind (fun _ => (clashless _).push _) fun _ h => h
    have introduced {x : Run Unit} (ran : Clashless (Symbols.Within others)
        (Symbols.WithinOr others id) x) : Introduces names id (x.run.run s) := by
      obtain ⟨other, left⟩ := ran s start
      exact .of_undoubled other (left.mono fun _ => Or.imp_left And.left)
    rw [create, run_symbols_bind, taken, if_neg Bool.false_ne_true]
    refine introduced ?_
    dsimp only
    split
    · exact pushed (clashless_createReference absent plain _ _)
    · exact pushed (clashless_createArray absent plain _ _)
    · exact pushed (clashless_createScalar absent plain _ _)

/-- What comes behind declares nothing. -/
theorem Introduces.bind {α β : Type} {s : Core} {x : Run α} {f : α → Run β}
    (h : Introduces names id (x.run.run s))
    (hf : ∀ a, Clashless (Symbols.WithinOr names id)
      (Symbols.WithinOr names id) (f a)) :
    Introduces names id ((x >>= f).run.run s) := by
  obtain ⟨taken, left⟩ := h
  rw [run_bind]
  rcases k : x.run.run s with ⟨fault | a, t⟩ <;> rw [k] at taken left
  · exact ⟨fun _ e => by cases e; exact taken fault rfl, left⟩
  · obtain ⟨other, left⟩ := hf a t left
    exact .of_undoubled other left

/-! ### Code -/

/-- Instructions that declare nothing. -/
abbrev Undeclaring (is : List Instr) : Prop := Code.Declares (fun _ => False) is

theorem clashless_readLine (prompt : String) :
    Clashless (Symbols.Within names) (Symbols.Within names) (readLine prompt) := by
  refine clashless_get_bind fun s => ?_
  refine Clashless.bind (clashless_modify fun _ => rfl) (fun _ => ?_) fun _ h => h
  split
  · exact clashless_pure _
  · exact clashless_throw rfl fun _ h => h

theorem clashless_step {i : Instr} (plain : i.Declares fun _ => False) :
    Clashless (Symbols.Within names) (Symbols.Within names) (step i) := by
  refine (clashless names).step ?_ fun _ _ => clashless_readLine
  rintro t id initialized rfl
  exact plain

theorem clashless_code : ∀ {is : List Instr}, Undeclaring is →
    Clashless (Symbols.Within names) (Symbols.Within names) (code is)
  | [], _ => clashless_pure ()
  | _ :: _, plain => by
    rw [Undeclaring, Code.declares_cons] at plain
    exact (clashless_step plain.1).bind (fun _ => clashless_code plain.2) fun _ h => h

theorem clashless_outcome : Clashless (Symbols.Within names) (Symbols.Within names) (do
    match (← get).stack with
    | [] => return none
    | [_] => some <$> resultOf (← pop)
    | stack => throw (Fault.leftOver stack.length) : Run (Option Variable)) := by
  have same := clashless names
  refine clashless_get_bind fun s => ?_
  split
  · exact same.pure _
  · exact same.bind same.pop fun o => same.map (same.resultOf o) some
  · exact same.throw rfl

/-- A declaration between code that declares nothing. -/
theorem introduces_code {is js : List Instr} (before : Undeclaring is) (after : Undeclaring js)
    {s : Core} (within : s.symbols.Within names) (t : Ty) (plain : id.isHeap = false)
    (initialized : Bool) :
    Introduces names id ((code (is ++ .create t id initialized :: js)).run.run s) := by
  obtain ⟨other, table⟩ := clashless_code before s within
  rw [code_append, run_bind]
  rcases k : (code is).run.run s with ⟨fault | ⟨⟩, u⟩ <;> rw [k] at other table
  · exact .of_undoubled (undoubled_error (other fault rfl)) table.wider
  · exact (introduces_create table t plain initialized).bind fun _ => clashless_code after

theorem clashless_statement {is : List Instr} (plain : Undeclaring is) :
    Clashless (Symbols.Within names) (Symbols.Within names) (statement is) :=
  (clashless_code plain).bind (fun _ => clashless_outcome) fun _ h => h

theorem introduces_statement {is js : List Instr} (before : Undeclaring is)
    (after : Undeclaring js) {s : Core} (within : s.symbols.Within names) (t : Ty)
    (plain : id.isHeap = false) (initialized : Bool) :
    Introduces names id ((statement (is ++ .create t id initialized :: js)).run.run s) :=
  (introduces_code before after within t plain initialized).bind fun _ => clashless_outcome

/-- An instruction that declares nothing finds no name taken. -/
theorem not_taken {i : Instr} (plain : i.Declares fun _ => False) {s : Core}
    (within : s.symbols.Within names) (name : String) :
    ((step i).run.run s).1 ≠ .error (.duplicateVariable name) := fun e =>
  nomatch (clashless_step plain s within).1 _ e

/-- While code runs that holds one declaration, only that one may find a name taken. -/
theorem taken_at {is js : List Instr} (before : Undeclaring is) (after : Undeclaring js) {s : Core}
    (within : s.symbols.Within names) {t : Ty} (plain : id.isHeap = false) {initialized : Bool}
    {count : Nat} {i : Instr} (there : (is ++ .create t id initialized :: js)[count]? = some i)
    {name : String} (failed : ((step i).run.run
      ((code ((is ++ .create t id initialized :: js).take count)).run.run s).2).1 =
        .error (.duplicateVariable name)) :
    i = .create t id initialized ∧ id.text = name ∧ names id := by
  rcases Nat.lt_trichotomy count is.length with early | rfl | late
  · rw [List.getElem?_append_left early] at there
    rw [List.take_append_of_le_length early.le] at failed
    have cut : Undeclaring (is.take count) := fun j mem => before j (List.mem_of_mem_take mem)
    exact absurd failed
      (not_taken (before i (List.mem_of_getElem? there)) (clashless_code cut s within).2 name)
  · rw [List.getElem?_append_right (Nat.le_refl _), Nat.sub_self] at there
    cases there
    rw [List.take_left] at failed
    obtain ⟨taken, -⟩ :=
      introduces_create (clashless_code before s within).2 t plain initialized
    obtain ⟨e, known⟩ := taken _ failed rfl
    cases e
    exact ⟨rfl, rfl, known⟩
  · obtain ⟨k, rfl⟩ : ∃ k, count = is.length + (k + 1) := ⟨count - is.length - 1, by omega⟩
    rw [List.getElem?_append_right (Nat.le_add_right _ _), Nat.add_sub_cancel_left,
      List.getElem?_cons_succ] at there
    rw [List.take_length_add_append, List.take_succ_cons] at failed
    have cut : Undeclaring (js.take k) := fun j mem => after j (List.mem_of_mem_take mem)
    exact absurd failed (not_taken (after i (List.mem_of_getElem? there))
      (introduces_code before cut within t plain initialized).left name)

end Run

/-! ### Lines -/

namespace Statement

/-- A declaration makes its variable between code that declares nothing. -/
theorem split_of_declared {s : Statement} {id : Identifier} (declares : s.declared? = some id) :
    ∃ is t initialized js, s.compile = is ++ .create t id initialized :: js ∧
      Run.Undeclaring is ∧ Run.Undeclaring js := by
  have none : Run.Undeclaring [] := Code.declares_nil _
  cases s with
  | expression | assignment => cases declares
  | scalarDeclaration t other initial =>
    cases declares
    cases initial with
    | none => exact ⟨[], t, false, [], rfl, none, none⟩
    | some e => exact ⟨e.compile, t, true, [], rfl, e.declares_compile _, none⟩
  | referenceDeclaration t other source =>
    cases declares
    exact ⟨source.compile, t, true, [], rfl, source.declares_compile _, none⟩
  | arrayDeclaration t other =>
    cases declares
    exact ⟨[], t, false, [], rfl, none, none⟩
  | textDeclaration t other text =>
    cases declares
    refine ⟨[], t, _, _, rfl, none, ?_⟩
    simp only [Run.Undeclaring, Code.declares_cons]
    exact ⟨trivial, trivial, trivial, trivial, none⟩
  | listDeclaration t other es =>
    cases declares
    exact ⟨[], t, true, _, rfl, none, declares_storeElements _ _ es 0⟩

variable {scope : Scope} {line : String} {s : Statement} {id : Identifier}

theorem undeclaring_of_declared (none : s.declared? = none) : Run.Undeclaring s.compile :=
  declares_compile _ fun _ e => nomatch none.symm.trans e

/-- What a line declares is named as the grammar of names has it. -/
theorem named_of_declared (read : (parse scope line).1 = .ok (some s))
    (declares : s.declared? = some id) : ∃ name, id = .named name ∧
      Identifier.isName name = true := by
  obtain ⟨is, t, initialized, js, code, -⟩ := split_of_declared declares
  have mem : Instr.create t id initialized ∈ s.compile := by simp [code]
  have registrable : id.Registrable :=
    declaring_registrable.statements (Prod.ext read rfl) _ mem
  have other : id.isHeap = false := named_of_parse read id declares
  cases id with
  | named name => exact ⟨name, rfl, registrable.1⟩
  | heap => cases other
  | temporary => exact registrable.elim

end Statement

namespace Machine

variable {m : Machine}

/-- The blocks of every table that a machine has or can go back to have numbers given out. -/
theorem Reachable.carries_within (h : m.Reachable) : m.Carries (Symbols.Within fun _ => True) := by
  have lasting : Symbols.Lasting (fun id => id.isHeap = false) (Symbols.Within fun _ => True) := by
    simpa only [and_true] using Symbols.lasting_within fun _ => True
  exact h.carries declaring_named lasting

theorem Reachable.within_start (h : m.Reachable) (line : String) :
    (m.start line).symbols.Within fun id => m.core.symbols.contains id = true where
  numbered := h.carries_within.present.numbered
  named := fun _ mem _ => Symbols.contains_iff.2 (List.mem_map_of_mem mem)

theorem Reachable.numbersBlocks (h : m.Reachable) : m.core.symbols.NumbersBlocks ∧
    ∀ s ∈ m.history.entries, s.symbols.NumbersBlocks := by
  obtain ⟨present, past⟩ := h.carries_within
  have fits := h.sound.core.fits
  refine ⟨present.numbersBlocks fits.table fun v mem => (fits.agree v mem).name, fun s mem => ?_⟩
  have fits := (h.sound.past s mem).fits
  exact (past s mem).numbersBlocks fits.table fun v mem => (fits.agree v mem).name

/-- At no instruction of a line but a declaration a name is taken, and there only the one that is
declared, if it was there when the line began. -/
theorem Reachable.step_taken (h : m.Reachable) {line : String} {count : Nat} {i : Instr}
    (there : (m.codeOf line)[count]? = some i) {name : String}
    (failed : ((Run.step i).run.run (m.stateAfter line count)).1 =
      .error (.duplicateVariable name)) :
    ∃ t id initialized, i = .create t id initialized ∧ id.text = name ∧
      m.core.symbols.contains id = true := by
  have within := h.within_start line
  rw [stateAfter] at failed
  unfold codeOf at there failed
  split at there
  · next s read =>
    rw [read] at failed
    dsimp only at failed
    cases declares : s.declared? with
    | none =>
      have nothing := Statement.undeclaring_of_declared declares
      have cut : Run.Undeclaring (s.compile.take count) :=
        fun j mem => nothing j (List.mem_of_mem_take mem)
      exact absurd failed (Run.not_taken (nothing i (List.mem_of_getElem? there))
        (Run.clashless_code cut _ within).2 name)
    | some id =>
      obtain ⟨is, t, initialized, js, compiled, before, after⟩ :=
        Statement.split_of_declared declares
      obtain ⟨word, rfl, -⟩ := Statement.named_of_declared read declares
      rw [compiled] at there failed
      exact ⟨t, _, initialized, Run.taken_at before after within rfl there failed⟩
  · cases there

/-- A line fails for a name that is taken only if it declares it. -/
theorem Reachable.execute_taken (h : m.Reachable) {line name : String}
    (failed : (m.execute line).1 = .error (.duplicateVariable name)) :
    ∃ s id, (Statement.parse m.scope (Statement.clean line)).1 = .ok (some s) ∧
      s.declared? = some id ∧ id.text = name ∧ m.core.symbols.contains id = true := by
  have within := h.within_start line
  rcases k : Statement.parse m.scope (Statement.clean line) with ⟨fault | _ | s, met⟩
  · rw [execute_misread k] at failed
    cases failed
  · rw [(execute_blank k).2] at failed
    cases failed
  · have start : m.start line = { (m.meet met).core with stack := [] } := by rw [start, k]
    rw [start] at within
    rcases ran : (Run.statement s.compile).run.run { (m.meet met).core with stack := [] } with
      ⟨fault | r, core⟩
    · rw [h.sound.execute_undone k ran] at failed
      obtain rfl : fault = .duplicateVariable name := Except.error.inj failed
      have failed := congrArg Prod.fst ran
      cases declares : s.declared? with
      | none =>
        have nothing := Statement.undeclaring_of_declared declares
        exact nomatch (Run.clashless_statement nothing _ within).1 _ failed
      | some id =>
        obtain ⟨is, t, initialized, js, compiled, before, after⟩ :=
          Statement.split_of_declared declares
        obtain ⟨word, rfl, -⟩ := Statement.named_of_declared (congrArg Prod.fst k) declares
        rw [compiled] at failed
        have plain : (Identifier.named word).isHeap = false := rfl
        obtain ⟨taken, -⟩ := Run.introduces_statement before after within t plain initialized
        obtain ⟨e, known⟩ := taken _ failed rfl
        cases e
        exact ⟨s, _, rfl, declares, rfl, known⟩
    · rw [(execute_read k).2, perform_done ran] at failed
      cases failed

/-- Names of blocks are fresh. In every table that a machine has or can go back to they are written
with distinct numbers that were given out, and the next number is used by none; no line declares a
name that starts as those of blocks and temporaries do; and no instruction of a line, hence no line,
fails for a name that is taken, unless it declares a variable that is there already. -/
theorem Reachable.fresh_names (h : m.Reachable) :
    (m.core.symbols.NumbersBlocks ∧ ∀ s ∈ m.history.entries, s.symbols.NumbersBlocks) ∧
    (∀ scope line s id, (Statement.parse scope line).1 = .ok (some s) → s.declared? = some id →
      Identifier.isName id.text = true ∧ ¬ "$heap".toList <+: id.text.toList ∧
        ¬ "$tmp".toList <+: id.text.toList) ∧
    (∀ line count i name, (m.codeOf line)[count]? = some i →
      ((Run.step i).run.run (m.stateAfter line count)).1 = .error (.duplicateVariable name) →
      ∃ t id initialized, i = .create t id initialized ∧ id.text = name ∧
        m.core.symbols.contains id = true) ∧
    ∀ line name, (m.execute line).1 = .error (.duplicateVariable name) →
      ∃ s id, (Statement.parse m.scope (Statement.clean line)).1 = .ok (some s) ∧
        s.declared? = some id ∧ id.text = name ∧ m.core.symbols.contains id = true := by
  refine ⟨h.numbersBlocks, fun scope line s id read declares => ?_,
    fun line count i name there failed =>
    h.step_taken there failed, fun line name failed => h.execute_taken failed⟩
  obtain ⟨name, rfl, valid⟩ := Statement.named_of_declared read declares
  have plain (rest : List Char) : ¬ '$' :: rest <+: name.toList := fun ⟨_, chars⟩ =>
    Identifier.head_ne_dollar valid (by rw [← chars]; rfl)
  exact ⟨valid, plain _, plain _⟩

/-- A block beside a variable; the variable cannot be declared again. -/
theorem fresh_names_block :
    ((fresh.execute "int* p = new int").2.core.symbols.entries.map fun v => v.id.text) =
      ["stdin", "stdout", "stderr", "$heap1", "p"] ∧
    "$heap2" ∉ ((fresh.execute "int* p = new int").2.core.symbols.entries.map fun v => v.id.text) ∧
    (fresh.execute "int* p = new int").2.core.symbols.contains (.named "p") = true := by
  have reached := reachable_fresh.executed "int* p = new int"
  have names := reached.fresh_names
  have count : (fresh.execute "int* p = new int").2.core.symbols.heapSerial = 1 := by decide +kernel
  have refused : ((fresh.execute "int* p = new int").2.execute "int p").1 =
      .error (.duplicateVariable "p") := by decide +kernel
  refine ⟨by decide +kernel, ?_, ?_⟩
  · have unused := names.1.1.unused
    simp only [Symbols.nextHeap, count] at unused
    exact unused
  · obtain ⟨s, id, read, declares, text, there⟩ := names.2.2.2 "int p" "p" refused
    obtain ⟨name, rfl, -⟩ := Statement.named_of_declared read declares
    exact text ▸ there

end Machine

end ByteMachine
