import ByteMachine.Proofs.Assignment
import ByteMachine.Proofs.Literals
import ByteMachine.Proofs.Reconfiguration
import ByteMachine.Proofs.TableChanges

/-!
# What lasts in every table

A property of tables that the empty ones have and that no change breaks holds in every machine
that can be reached, and of every table in its history. Indexing and making a reference rest on
the types that were met, so here both disciplines are kept at once: what is stored is never of type
`any`, because arrays have other elements, and so an alias, which is as large as the type it refers
to, is not empty either. Like an owner, it is somewhere.

Key definitions: `Discipline.and`, `Code.Declares`, `Symbols.Lasting`, `Machine.Carries`.
Key theorems: `Catalog.Closed.size_pos`, `Run.step_careful`, `Run.statement_careful`,
`Machine.Reachable.carries`, `Machine.Reachable.size_pos`.
-/

namespace ByteMachine

open Discipline

/-! ### Types with a size -/

/-- The elements of an array are not of type `any`, and there are some. -/
theorem Ty.typed_of_arrayOf {word count : Nat} {element array : Ty}
    (e : arrayOf word element count = .ok array) : element.isAny = false ∧ 0 < count := by
  unfold arrayOf at e
  split at e
  · cases e
  · cases e
  · cases e
  · next references arrays sized =>
    split at e
    · cases e
    · next some =>
      refine ⟨?_, Nat.pos_of_ne_zero some⟩
      cases element with
      | scalar s =>
        have other : s ≠ .any := fun any => sized (any ▸ rfl)
        simpa [isAny, scalar?, strip] using other
      | reference t => exact (references t rfl).elim
      | _ => rfl

namespace Catalog.Closed

variable {c : Catalog} {t e : Ty} {n : Nat}

theorem element_typed (h : c.Closed) (m : t ∈ c.known) (shape : t.arrayShape? = some (e, n)) :
    e.isAny = false := by
  unfold Ty.arrayShape? at shape
  split at shape
  · next k =>
    cases shape
    obtain ⟨-, word, made⟩ : c.Admits (.array e n) := h.admits _ (k ▸ h.strip m)
    exact (Ty.typed_of_arrayOf made).1
  · cases shape

/-- Every type that was met but `any` takes some room. -/
theorem size_pos (h : c.Closed) : ∀ {t : Ty}, t ∈ c.known → t.isAny = false → 0 < c.size t
  | .scalar s, _, typed => by
    refine Scalar.size_pos h.word fun any => ?_
    subst any
    cases typed
  | .descriptor, _, _ => Nat.one_pos
  | .pointer _, _, _ => h.word_pos
  | .reference _, _, _ => h.word_pos
  | .array e n, m, _ => by
    obtain ⟨known, word, made⟩ : c.Admits (.array e n) := h.admits _ m
    obtain ⟨typed, some⟩ := Ty.typed_of_arrayOf made
    exact Nat.mul_pos (size_pos h known typed) some

end Catalog.Closed

/-! ### Two disciplines at once -/

namespace Discipline

variable {σ ε α : Type} {d e : Discipline σ} {s : σ} {x : ExceptT ε (StateM σ) α}

/-- What keeps to both of two disciplines. -/
def and (d e : Discipline σ) : Discipline σ where
  keeps := fun s => d.keeps s ∧ e.keeps s
  leads := fun s t => d.leads s t ∧ e.leads s t
  refl := fun s => ⟨d.refl s, e.refl s⟩
  trans := fun h k => ⟨d.trans h.1 k.1, e.trans h.2 k.2⟩

theorem Yields.and {p q : σ → α → Prop} (h : d.Yields s x p) (k : e.Yields s x q) :
    (d.and e).Yields s x fun t a => p t a ∧ q t a := by
  rintro ⟨kd, ke⟩
  obtain ⟨ld, kd', pd⟩ := h kd
  obtain ⟨le, ke', pe⟩ := k ke
  exact ⟨⟨ld, le⟩, ⟨kd', ke'⟩, fun a done => ⟨pd a done, pe a done⟩⟩

theorem Yields.both (h : d.Yields s x fun _ _ => True) (k : e.Yields s x fun _ _ => True) :
    (d.and e).Yields s x fun _ _ => True :=
  (h.and k).forget

end Discipline

/-- From the core `s` on, a computation keeps to what is known of types and takes the table through
changes. -/
abbrev Core.Careful {α : Type} (declared : Identifier → Prop) (s : Core) (x : Run α)
    (post : Core → α → Prop) : Prop :=
  (Core.discipline.and (Core.tracking declared)).Yields s x post

/-- An instruction that declares no name but such as may be declared. -/
def Instr.Declares (declared : Identifier → Prop) : Instr → Prop
  | .create _ id _ => declared id
  | _ => True

/-- Code that declares no names but such as may be declared. -/
def Code.Declares (declared : Identifier → Prop) (is : List Instr) : Prop :=
  ∀ i ∈ is, i.Declares declared

/-- An operand leads to storage of the given type, of a variable or at a place. -/
def Operand.LeadsTo (table : Symbols) (t : Ty) : Operand → Prop
  | .value _ _ => False
  | .named id => ∃ v ∈ table.entries, v.id = id ∧ v.type.strip = t
  | .place _ type _ => type.strip = t

namespace Run

variable {declared : Identifier → Prop} {d : Discipline Core} {s : Core}

/-! ### Operands -/

theorem lookup_still (id : Identifier) :
    d.Yields s (lookup id) fun u v => u = s ∧ v ∈ s.symbols.entries ∧ v.id = id := by
  refine yields_symbols_bind.2 ?_
  split
  · next v found => exact yields_pure.2 fun _ => ⟨rfl, Symbols.get?_eq_some found⟩
  · exact yields_throw

theorem storage?_still (o : Operand) :
    d.Yields s (storage? o) fun u place =>
      u = s ∧ ∀ a t, place = some (a, t) → o.LeadsTo s.symbols t := by
  cases o with
  | value => exact yields_pure.2 fun _ => ⟨rfl, fun _ _ e => nomatch e⟩
  | place address t owner =>
    refine yields_pure.2 fun _ => ⟨rfl, fun _ _ e => ?_⟩
    cases e
    rfl
  | named id =>
    refine .bind (lookup_still id) ?_
    rintro _ v - ⟨rfl, mem, name⟩
    refine yields_pure.2 fun _ => ⟨rfl, fun _ _ e => ?_⟩
    cases e
    exact ⟨v, mem, name, rfl⟩

theorem ownerOf?_still (o : Operand) : d.Yields s (ownerOf? o) fun u _ => u = s := by
  cases o with
  | value | place => exact yields_pure.2 fun _ => rfl
  | named id =>
    refine .bind (lookup_still id) ?_
    rintro _ v - ⟨rfl, -⟩
    split <;> exact yields_pure.2 fun _ => rfl

theorem pop_careful : s.Careful declared pop fun u o => o.Known u.catalog ∧ o.Typed :=
  pop_yields.and pop_tracked

theorem push_careful {o : Operand} (known : o.Known s.catalog) (typed : o.Typed) :
    s.Careful declared (push o) fun _ _ => True :=
  (push_yields known).both (push_tracked typed)

/-! ### Instructions -/

theorem index_careful : s.Careful declared index fun _ _ => True := by
  refine .bind pop_careful fun t position l k => ?_
  refine .bind pop_careful fun u base l' kb => ?_
  refine .bind ((readIndex_yields (k.1.grow l'.1.catalog)).and (readIndex_looks position).tracks)
    fun v i l₂ _ => ?_
  have kb := kb.1.grow l₂.1.catalog
  refine .bind ((storage?_yields kb).and (storage?_looks base).tracks) fun w place l₃ known =>
    .of_keeps fun sound => ?_
  have kb := kb.grow l₃.1.catalog
  have behind : w.Careful declared (do push (← elementBehind base i)) fun _ _ => True :=
    .bind ((elementBehind_yields kb i).and (elementBehind_tracked base i)) fun _ _ _ found =>
      push_careful found.1 found.2
  split
  · next address type =>
    have met := known.1 address type rfl
    split
    · next e n shape =>
      have element := sound.1.closed.element met shape
      have typed := sound.1.closed.element_typed met shape
      exact .bind ((elementOf_yields element base address n i).and
        (elementOf_tracked typed base address n i)) fun _ _ _ found =>
          push_careful found.1 found.2
    · exact behind
  · exact behind

/-- What an operand leads to is as large as a variable, or not empty. -/
theorem size_of_leadsTo (sound : s.Sound) {o : Operand} {t : Ty} (known : o.Known s.catalog)
    (typed : o.Typed) (stored : o.LeadsTo s.symbols t) :
    0 < s.catalog.size t ∨ ∃ w ∈ s.symbols.entries, w.size = s.catalog.size t := by
  cases o with
  | value => exact stored.elim
  | named id =>
    obtain ⟨w, mem, -, rfl⟩ := stored
    exact .inr ⟨w, mem, (sound.fits.agree w mem).size⟩
  | place a type owner =>
    obtain rfl : type.strip = t := stored
    have met := sound.closed.strip known
    refine .inl (sound.closed.size_pos met ?_)
    -- Behind a reference that was met there is no other, so the type of the place is seen through.
    rw [Ty.isAny, Ty.scalar?, Ty.strip_of_plain (sound.closed.isReference_strip known)]
    exact typed

theorem createReference_careful {target : Ty} {id : Identifier}
    (m : Ty.reference target ∈ s.catalog.known) (registrable : id.Registrable)
    (name : declared id) :
    s.Careful declared (createReference id (.reference target) target.strip) fun _ _ => True := by
  refine .bind pop_careful fun t source l k => ?_
  refine .bind (storage?_still source) fun u place l₁ stored => ?_
  have m := (l.1.catalog.trans l₁.1.catalog).mem m
  obtain ⟨rfl, stored⟩ := stored
  split
  · exact yields_throw
  · next address found =>
    split
    · exact yields_throw
    · next same =>
      obtain rfl : found = target.strip := Decidable.not_not.1 same
      refine .bind (ownerOf?_still source) ?_
      rintro _ owner - rfl
      refine .of_keeps fun sound => ?_
      split
      · exact yields_throw
      · next owner =>
        refine (registerAlias_yields m registrable address owner).both ?_
        refine yields_catalog_bind.2 (yields_symbols_bind.2 (yields_lift_bind fun table e => ?_))
        have sized := size_of_leadsTo sound.1 k.1 k.2 (stored address _ rfl)
        exact (setSymbols_tracked (.single (.aliased rfl name sized e))).forget

theorem create_careful {t : Ty} {id : Identifier} (m : t ∈ s.catalog.known)
    (registrable : id.Registrable) (name : declared id) (initialized : Bool) :
    s.Careful declared (create t id initialized) fun _ _ => True := by
  refine yields_symbols_bind.2 ?_
  have pushed : ∀ u : Core, u.Careful declared (push (.named id)) fun _ _ => True := fun _ =>
    push_careful (o := .named id) trivial trivial
  split
  · exact yields_throw
  · dsimp only
    split
    · exact .bind (createReference_careful m registrable name) fun u _ _ _ => pushed u
    · exact .bind ((createArray_yields m rfl registrable initialized).both
        (createArray_tracked name _ initialized)) fun u _ _ _ => pushed u
    · next scalar _ =>
      have plain : t.isReference = false := by
        cases t with
        | reference target => exact absurd rfl (scalar target)
        | _ => rfl
      exact .bind ((createScalar_yields m plain registrable initialized).both
        (createScalar_tracked name t initialized)) fun u _ _ _ => pushed u

/-! ### Code -/

/-- One instruction, whichever it is. -/
theorem step_careful {i : Instr} (k : i.Known s.catalog) (names : i.Declares declared) :
    s.Careful declared (step i) fun _ _ => True := by
  cases i with
  | index => exact index_careful
  | create t id initialized => exact create_careful k.1 k.2 names initialized
  | push v =>
    exact (step_yields k).both (.andThen (naturalType_looks v).tracks fun _ _ =>
      pushValue_tracked v _)
  | pushTyped v t => exact (step_yields k).both (pushValue_tracked v t)
  | pushName id =>
    exact (step_yields k).both (.andThen (lookup_looks id).tracks fun _ _ =>
      push_tracked (o := .named id) trivial)
  | addressOf => exact (step_yields k).both addressOf_tracked
  | dereference levels => exact (step_yields k).both (dereference_tracked levels)
  | binary op => exact (step_yields k).both (binary_tracked op)
  | assign => exact (step_yields k).both assign_tracked
  | call function count => exact (step_yields k).both (call_tracked function count)
  | discard =>
    exact (step_yields k).both (.andThen pop_tracked fun _ _ => Core.tracks_pure trivial)

/-- All instructions of some code, in order, up to the first that fails. -/
theorem code_careful : ∀ (is : List Instr) {s : Core}, Code.Known s.catalog is →
    Code.Declares declared is → s.Careful declared (code is) fun _ _ => True
  | [], _, _, _ => yields_pure.2 fun _ => trivial
  | i :: is, s, k, names => by
    rw [Code.known_cons] at k
    rw [Code.Declares, List.forall_mem_cons] at names
    exact .bind (step_careful k.1 names.1) fun t _ l _ =>
      code_careful is (k.2.grow l.1.catalog) names.2

theorem statement_careful {is : List Instr} (k : Code.Known s.catalog is)
    (names : Code.Declares declared is) :
    s.Careful declared (statement is) fun _ _ => True := by
  refine .bind (code_careful is k names) fun t _ _ _ => yields_get_bind.2 ?_
  split
  · exact yields_pure.2 fun _ => trivial
  · exact .bind pop_careful fun u o _ _ =>
      (((resultOf_yields o).and (resultOf_tracked o)).map fun _ _ _ => trivial)
  · exact yields_throw

theorem registerAll_tracked : ∀ (streams : List (String × Int)) {s : Core},
    (∀ p ∈ streams, declared (.named p.1)) →
      s.Tracks declared (registerAll streams) fun _ _ => True
  | [], _, _ => Core.tracks_pure trivial
  | _ :: rest, _, names => by
    rw [List.forall_mem_cons] at names
    exact .andThen (allocate_tracked _ (.inl names.1)) fun _ _ => yields_memory_bind.2 <|
      yields_catalog_bind.2 <| yields_lift_bind fun _ _ =>
        .andThen (setMemory_tracked _) fun _ _ => registerAll_tracked rest names.2

end Run

/-! ### Properties that last -/

namespace Symbols

/-- A property of tables that the empty ones have and that no change breaks. -/
structure Lasting (declared : Identifier → Prop) (P : Symbols → Prop) : Prop where
  empty : ∀ capacity word placement seed, P (.empty capacity word placement seed)
  change : ∀ {s t}, Change declared s t → P s → P t
  placement : ∀ {s} p, P s → P { s with placement := p }

variable {declared : Identifier → Prop} {P : Symbols → Prop} {s t : Symbols}

theorem Lasting.changes (lasting : Lasting declared P) (changes : Changes declared s t)
    (h : P s) : P t := by
  induction changes with
  | refl => exact h
  | tail _ change ih => exact lasting.change change ih

theorem Lasting.collect (lasting : Lasting declared P) (h : P s) : P s.collect :=
  lasting.changes (changes_removeAll _ s) h

/-- Room is found for something only. -/
theorem size_pos_of_allocate {size a : Nat} (e : s.allocate size = .ok (a, t)) : 0 < size := by
  obtain ⟨stream, found, -⟩ := allocate_eq_ok e
  unfold Placement.slot? at found
  split at found
  · cases found
  · next fits =>
    simp only [Bool.or_eq_true, decide_eq_true_eq, not_or] at fits
    omega

/-- An owner has room of its own; an alias has a size or that of a variable that has. -/
theorem lasting_size_pos (declared : Identifier → Prop) :
    Lasting declared fun s => ∀ v ∈ s.entries, 0 < v.size where
  empty := fun _ _ _ _ _ mem => nomatch mem
  placement := fun _ h => h
  change := by
    intro s t change h
    cases change with
    | counted | numbered => exact h
    | placed _ _ found inserted =>
      rw [entries_of_placed found inserted, List.forall_mem_append, List.forall_mem_singleton]
      exact ⟨h, size_pos_of_allocate found⟩
    | aliased _ _ sized inserted =>
      obtain ⟨-, -, rfl⟩ := insert_eq_ok inserted
      rw [List.forall_mem_append, List.forall_mem_singleton]
      rcases sized with pos | ⟨w, mem, same⟩
      · exact ⟨h, pos⟩
      · exact ⟨h, same ▸ h w mem⟩
    | removed id =>
      rw [entries_remove]
      exact fun v mem => h v (List.mem_filter.1 mem).1

end Symbols

/-- The names include all that statements and new machines declare. -/
structure Declaring (declared : Identifier → Prop) : Prop where
  statements : ∀ {scope line s met}, Statement.parse scope line = (.ok (some s), met) →
    Code.Declares declared s.compile
  streams : ∀ p ∈ standardStreams, declared (.named p.1)

theorem declaring_registrable : Declaring Identifier.Registrable where
  statements := by
    intro scope line s met read i mem
    have closed : (Catalog.standard 4).Closed := Catalog.closed_standard rfl
    have known := Statement.known_of_parse closed read i mem
    cases i with
    | create => exact known.2
    | _ => trivial
  streams := registrable_standardStreams

/-! ### Machines -/

namespace Machine

variable {declared : Identifier → Prop} {P : Symbols → Prop} {m n : Machine}

/-- The table of a machine and those in its history have a property. -/
structure Carries (P : Symbols → Prop) (m : Machine) : Prop where
  present : P m.core.symbols
  past : ∀ s ∈ m.history.entries, P s.symbols

theorem Carries.record (h : m.Carries P) (name : String) :
    ({ m with history := m.history.push (m.snapshot name) } : Machine).Carries P where
  present := h.present
  past := fun s mem => by
    rcases History.mem_push mem with mem | rfl
    · exact h.past s mem
    · exact h.present

/-- A machine that is reset starts from an empty table. -/
theorem carries_reset (declaring : Declaring declared) (lasting : Symbols.Lasting declared P)
    (e : m.reset = (.ok (), n)) : n.Carries P := by
  have tracked := Run.registerAll_tracked standardStreams (s := m.core.cleared) declaring.streams
  rw [reset_eq] at e
  split at e
  · cases e
  · next core ran =>
    obtain ⟨changes, -, -⟩ := tracked.of_run (fun _ mem => nomatch mem) ran
    cases e
    refine Carries.record (m := { m with core := core, history := m.history.clear })
      ⟨lasting.changes changes (lasting.empty _ _ _ _), fun _ mem => nomatch mem⟩ _

/-- A statement fails and leaves the table, or what it does to the table is made of changes. -/
theorem Carries.execute (carries : m.Carries P) (declaring : Declaring declared)
    (lasting : Symbols.Lasting declared P) (h : m.Sound) (line : String) :
    (m.execute line).2.Carries P := by
  rcases k : Statement.parse m.scope (Statement.clean line) with ⟨fault | _ | s, met⟩
  · rw [execute_misread k]
    exact ⟨carries.present, carries.past⟩
  · rw [(execute_blank k).2]
    exact ⟨carries.present, carries.past⟩
  · have known := Statement.known_of_parse h.core.closed k
    have ready := sound_start h k
    rcases ran : (Run.statement s.compile).run.run { (m.meet met).core with stack := [] } with
      ⟨fault | r, core⟩
    · rw [h.execute_undone k ran]
      exact ⟨carries.present, carries.past⟩
    · obtain ⟨leads, -, -⟩ := (Run.statement_careful known (declaring.statements k)).of_run
        ⟨ready, fun _ mem => nomatch mem⟩ ran
      rw [(execute_read k).2, perform_done ran]
      exact Carries.record (m := { m.meet met with
        core := { core with symbols := core.symbols.collect, stack := [] } })
        ⟨lasting.collect (lasting.changes leads.2 carries.present), carries.past⟩ _

/-- What lasts holds of the table of every machine that can be reached and of all that it can go
back to. -/
theorem Reachable.carries (declaring : Declaring declared) (lasting : Symbols.Lasting declared P)
    (h : m.Reachable) : m.Carries P := by
  induction h with
  | created e =>
    obtain ⟨-, -, e⟩ := bind_eq_ok.1 e
    split at e
    · next k =>
      cases e
      exact carries_reset declaring lasting k
    · cases e
  | executed h line ih => exact ih.execute declaring lasting h.sound line
  | @ran m h source ih =>
    have line (n : Machine) (line : String) (kept : n.Sound ∧ n.Carries P) :
        (n.execute line).2.Sound ∧ (n.execute line).2.Carries P :=
      ⟨kept.1.execute line, kept.2.execute declaring lasting kept.1 line⟩
    have keeps : (m.runProgram source).2.Sound ∧ (m.runProgram source).2.Carries P :=
      runLines_keeps (p := fun n => n.Sound ∧ n.Carries P) line _ m 1 ⟨h.sound, ih⟩
    exact keeps.2
  | @ordered m h o ih =>
    rcases setOrder_cases h.sound o with ⟨-, e⟩ | ⟨-, memory, n, -, -, same, e⟩ <;> rw [e]
    · exact ih
    · have switched : n.Carries P := same ▸ ⟨ih.present, ih.past⟩
      exact switched.record _
  | placed _ p ih => exact ⟨lasting.placement p ih.present, ih.past⟩
  | @reverted m h index ih =>
    cases e : m.history.get? index with
    | none =>
      rw [revert_none e]
      exact ih
    | some s =>
      rw [revert_eq h.sound e]
      exact ⟨lasting.placement _ (ih.past s (List.mem_of_getElem? e)),
        fun t mem => ih.past t (List.mem_of_mem_take mem)⟩
  | consoled _ _ ih => exact ⟨ih.present, ih.past⟩
  | reset _ e _ => exact carries_reset declaring lasting e
  | @resized m n h word e _ =>
    rcases setWord_cases h.isSize word with ⟨-, refused⟩ | ⟨-, anew⟩
    · exact nomatch refused.symm.trans e
    · exact carries_reset declaring lasting (anew ▸ e)

/-- No variable is empty, aliases included. -/
theorem Reachable.size_pos (h : m.Reachable) : ∀ v ∈ m.core.symbols.entries, 0 < v.size :=
  (h.carries declaring_registrable (Symbols.lasting_size_pos _)).present

end Machine

end ByteMachine
