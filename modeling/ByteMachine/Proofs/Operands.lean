import ByteMachine.Proofs.States

/-!
# Operands keep states sound

The computations that instructions are made of keep to `Core.discipline`: looking at the state,
changing one part of it, meeting types, reading operands and taking storage. Each of the rules says
of the result what its users need, mostly that a type is one that was met.

Key theorems: `Run.setSymbols_yields`, `Run.setCatalog_yields`, `Run.built_yields`,
`Run.read_yields`, `Run.resolve_yields`, `Run.allocate_yields`.
-/

namespace ByteMachine

open Discipline

namespace Run

variable {α β : Type} {s : Core} {post : Core → α → Prop}

/-! ### Runs of single steps -/

theorem run_pure (a : α) (s : Core) : (pure a : Run α).run.run s = (.ok a, s) := rfl

theorem run_catalog (s : Core) : catalog.run.run s = (.ok s.catalog, s) := rfl

theorem run_memory (s : Core) : memory.run.run s = (.ok s.memory, s) := rfl

theorem run_symbols (s : Core) : symbols.run.run s = (.ok s.symbols, s) := rfl

theorem run_setMemory (m : Memory) (s : Core) :
    (setMemory m).run.run s = (.ok (), { s with memory := m }) := rfl

theorem run_setSymbols (t : Symbols) (s : Core) :
    (setSymbols t).run.run s = (.ok (), { s with symbols := t }) := rfl

theorem run_lift (x : Except Fault α) (s : Core) : (lift x).run.run s = (x, s) := by
  cases x <;> rfl

theorem run_catalog_bind (f : Catalog → Run α) (s : Core) :
    (catalog >>= f).run.run s = (f s.catalog).run.run s := rfl

theorem run_word_bind (f : Nat → Run α) (s : Core) :
    (word >>= f).run.run s = (f s.catalog.word).run.run s := rfl

theorem run_memory_bind (f : Memory → Run α) (s : Core) :
    (memory >>= f).run.run s = (f s.memory).run.run s := rfl

theorem run_symbols_bind (f : Symbols → Run α) (s : Core) :
    (symbols >>= f).run.run s = (f s.symbols).run.run s := rfl

theorem lift_bind_eq_ok {x : Except Fault β} {f : β → Run α} {a : α} {s t : Core}
    (e : (lift x >>= f).run.run s = (.ok a, t)) :
    ∃ b, x = .ok b ∧ (f b).run.run s = (.ok a, t) := by
  cases x with
  | error => cases e
  | ok b => exact ⟨b, rfl, e⟩

/-! ### Looking at the state -/

section

variable {d : Discipline Core}

theorem yields_catalog_bind {f : Catalog → Run α} :
    d.Yields s (catalog >>= f) post ↔ d.Yields s (f s.catalog) post := Iff.rfl

theorem yields_memory_bind {f : Memory → Run α} :
    d.Yields s (memory >>= f) post ↔ d.Yields s (f s.memory) post := Iff.rfl

theorem yields_symbols_bind {f : Symbols → Run α} :
    d.Yields s (symbols >>= f) post ↔ d.Yields s (f s.symbols) post := Iff.rfl

theorem yields_word_bind {f : Nat → Run α} :
    d.Yields s (word >>= f) post ↔ d.Yields s (f s.catalog.word) post := Iff.rfl

theorem yields_lift_bind {x : Except Fault β} {f : β → Run α}
    (h : ∀ b, x = .ok b → d.Yields s (f b) post) : d.Yields s (lift x >>= f) post := by
  cases x with
  | error => exact yields_throw
  | ok b => exact h b rfl

theorem yields_lift {x : Except Fault α} (h : ∀ a, x = .ok a → d.keeps s → post s a) :
    d.Yields s (lift x) post := by
  cases x with
  | error => exact yields_throw
  | ok a => exact yields_pure.2 (h a rfl)

end

/-! ### Changing the state -/

theorem setMemory_yields {m : Memory} (size : m.size = s.memory.size)
    (order : m.order = s.memory.order) :
    s.Yields (setMemory m) fun u _ => u = { s with memory := m } :=
  yields_modify fun k => ⟨⟨.refl _, size, order, .refl _⟩,
    ⟨k.closed, k.fits.of_size size, k.stack⟩, rfl⟩

theorem setSymbols_yields {t : Symbols} (settings : s.symbols.SameSettings t)
    (fits : s.Sound → Fits s.catalog s.memory t) :
    s.Yields (setSymbols t) fun u _ => u = { s with symbols := t } :=
  yields_modify fun k => ⟨⟨.refl _, rfl, rfl, settings⟩, ⟨k.closed, fits k, k.stack⟩, rfl⟩

/-- The catalog may become one that is closed and extends it. -/
theorem setCatalog_yields {f : Catalog → Catalog} (grows : s.catalog.Extends (f s.catalog))
    (closed : s.Sound → (f s.catalog).Closed) :
    s.Yields (modify fun s => { s with catalog := f s.catalog }) fun u _ =>
      u = { s with catalog := f s.catalog } :=
  yields_modify fun k => ⟨⟨grows, rfl, rfl, .refl _⟩,
    ⟨closed k, k.fits.grow grows, fun o m => (k.stack o m).grow grows⟩, rfl⟩

theorem setConsole_yields {f : Core → Console} :
    s.Yields (modify fun s => { s with console := f s }) fun u _ =>
      u = { s with console := f s } :=
  yields_modify fun k => ⟨⟨.refl _, rfl, rfl, .refl _⟩, ⟨k.closed, k.fits, k.stack⟩, rfl⟩

theorem setStack_yields {f : Core → List Operand}
    (known : s.Sound → ∀ o ∈ f s, o.Known s.catalog) :
    s.Yields (modify fun s => { s with stack := f s }) fun u _ => u = { s with stack := f s } :=
  yields_modify fun k => ⟨⟨.refl _, rfl, rfl, .refl _⟩, ⟨k.closed, k.fits, known k⟩, rfl⟩

theorem push_yields {o : Operand} (k : o.Known s.catalog) : s.Yields (push o) fun _ _ => True :=
  (setStack_yields fun sound => List.forall_mem_cons.2 ⟨k, sound.stack⟩).forget

theorem pushValue_yields {v : Literal} {t : Ty} (kv : v.Known s.catalog)
    (kt : t ∈ s.catalog.known) : s.Yields (pushValue v t) fun _ _ => True :=
  push_yields ⟨kv, kt⟩

theorem pop_yields : s.Yields pop fun u o => o.Known u.catalog := by
  refine .of_keeps fun sound => ?_
  unfold pop
  refine yields_get_bind.2 ?_
  split
  · next o rest stack =>
    have known := sound.stack
    rw [stack, List.forall_mem_cons] at known
    refine .bind (setStack_yields (f := fun _ => rest) fun _ => known.2) ?_
    rintro _ _ - rfl
    exact yields_pure.2 fun _ => known.1
  · exact yields_throw

/-! ### Meeting types -/

/-- A type that was built is in the catalog from then on. -/
theorem built_yields {x : Except TypeFault Ty}
    (h : s.Sound → ∀ t, x = .ok t → s.catalog.Admits t) :
    s.Yields (built x) fun u t => x = .ok t ∧ t ∈ u.catalog.known := by
  unfold built
  split
  · next t =>
    refine .bind (setCatalog_yields (f := fun c => c.intern t) (Catalog.extends_intern _ t)
      fun sound => sound.closed.intern (h sound t rfl)) ?_
    rintro _ _ - rfl
    exact yields_pure.2 fun _ => ⟨rfl, Catalog.mem_intern.2 (.inr rfl)⟩
  · exact yields_throw

theorem pointerTo_yields {t : Ty} (m : t ∈ s.catalog.known) :
    s.Yields (pointerTo t) fun u p => p ∈ u.catalog.known :=
  (built_yields fun sound p e => by
    obtain ⟨target, known, plain, rfl⟩ := sound.closed.pointerTo m e
    exact ⟨known, plain⟩).mono fun _ _ _ _ => And.right

theorem arrayOf_yields {t : Ty} (m : t ∈ s.catalog.known) (count : Nat) :
    s.Yields (arrayOf t count) fun u a => a ∈ u.catalog.known ∧ a.isReference = false := by
  refine yields_word_bind.2 ((built_yields fun _ a e => ?_).mono ?_)
  · cases Ty.arrayOf_eq_ok e
    exact ⟨m, _, e⟩
  · rintro u a - - ⟨e, known⟩
    cases Ty.arrayOf_eq_ok e
    exact ⟨known, rfl⟩

theorem areCompatible_yields {a b : Ty} (ma : a ∈ s.catalog.known) (mb : b ∈ s.catalog.known) :
    s.Yields (areCompatible a b) fun _ _ => True :=
  .bind (setCatalog_yields (f := fun c => c.internCompared a b)
    (Catalog.extends_internCompared _ a b) fun sound => sound.closed.internCompared ma mb)
    fun _ _ _ _ => yields_pure.2 fun _ => trivial

theorem checkCompatible_yields {a b : Ty} (ma : a ∈ s.catalog.known)
    (mb : b ∈ s.catalog.known) : s.Yields (checkCompatible a b) fun _ _ => True := by
  refine .bind (areCompatible_yields ma mb) fun u ok _ _ => ?_
  split
  · exact yields_throw
  · exact yields_pure.2 fun _ => trivial

/-! ### Reading operands -/

theorem lookup_yields (id : Identifier) :
    s.Yields (lookup id) fun u v => u = s ∧ v ∈ s.symbols.entries := by
  refine yields_symbols_bind.2 ?_
  split
  · next v found => exact yields_pure.2 fun _ => ⟨rfl, (Symbols.get?_eq_some found).1⟩
  · exact yields_throw

theorem naturalType_yields (v : Literal) :
    s.Yields (naturalType v) fun u t => t ∈ u.catalog.known := by
  refine .of_keeps fun sound => ?_
  cases v with
  | integer n =>
    refine yields_word_bind.2 (yields_pure.2 fun _ => ?_)
    simp only [Ty.ofInteger]
    split <;> exact sound.closed.scalar _
  | char => exact yields_pure.2 fun _ => sound.closed.scalar .char
  | float => exact yields_pure.2 fun _ => sound.closed.scalar .double
  | text => exact pointerTo_yields (sound.closed.scalar .char)
  | type => exact yields_pure.2 fun _ => sound.closed.descriptor

theorem typeOf_yields {o : Operand} (k : o.Known s.catalog) :
    s.Yields (typeOf o) fun u t => t ∈ u.catalog.known := by
  refine .of_keeps fun sound => ?_
  cases o with
  | value v t => exact yields_pure.2 fun _ => k.2
  | place address t owner => exact yields_pure.2 fun _ => k
  | named id =>
    refine .bind (lookup_yields id) ?_
    rintro _ v - ⟨rfl, m⟩
    exact yields_pure.2 fun sound => (sound.fits.agree v m).known

theorem storage?_yields {o : Operand} (k : o.Known s.catalog) :
    s.Yields (storage? o) fun u place =>
      ∀ address t, place = some (address, t) → t ∈ u.catalog.known := by
  refine .of_keeps fun sound => ?_
  cases o with
  | value v t => exact yields_pure.2 fun _ _ _ e => nomatch e
  | place address t owner =>
    refine yields_pure.2 fun _ _ _ e => ?_
    cases e
    exact sound.closed.strip k
  | named id =>
    refine .bind (lookup_yields id) ?_
    rintro _ v - ⟨rfl, m⟩
    refine yields_pure.2 fun sound _ _ e => ?_
    cases e
    exact sound.closed.strip (sound.fits.agree v m).known

theorem ownerOf?_yields (o : Operand) : s.Yields (ownerOf? o) fun _ _ => True := by
  cases o with
  | value | place => exact yields_pure.2 fun _ => trivial
  | named id =>
    refine .bind (lookup_yields id) fun _ v _ _ => ?_
    split <;> exact yields_pure.2 fun _ => trivial

/-- A value and its type that were met. -/
def KnownPair (c : Catalog) (p : Literal × Ty) : Prop := p.1.Known c ∧ p.2 ∈ c.known

theorem readStorage_yields {t : Ty} (m : t ∈ s.catalog.known) (address : Nat) :
    s.Yields (readStorage address t) fun u p => KnownPair u.catalog p := by
  refine .of_keeps fun sound => ?_
  unfold readStorage
  split
  · refine .bind (setCatalog_yields (f := fun c => c.internDecay t)
      (Catalog.extends_internDecay _ t) fun _ => (sound.closed.internDecay m).1) ?_
    rintro _ _ - rfl
    exact yields_pure.2 fun _ => ⟨trivial, (sound.closed.internDecay m).2⟩
  · refine yields_memory_bind.2 (yields_catalog_bind.2 (yields_lift_bind fun v e => ?_))
    exact yields_pure.2 fun _ => ⟨Memory.load_known sound.closed e, m⟩

theorem read_yields {o : Operand} (k : o.Known s.catalog) :
    s.Yields (read o) fun u p => KnownPair u.catalog p := by
  refine .of_keeps fun sound => ?_
  cases o with
  | value v t => exact yields_pure.2 fun _ => k
  | place address t owner => exact readStorage_yields (sound.closed.strip k) address
  | named id =>
    refine .bind (lookup_yields id) ?_
    rintro _ v - ⟨rfl, m⟩
    exact readStorage_yields (sound.closed.strip (sound.fits.agree v m).known) _

theorem readInteger_yields {o : Operand} (k : o.Known s.catalog) :
    s.Yields (readInteger o) fun _ _ => True := by
  refine .bind (read_yields k) fun u ⟨v, t⟩ _ _ => ?_
  dsimp only
  split
  · exact yields_throw
  · split
    · exact yields_pure.2 fun _ => trivial
    · exact yields_catalog_bind.2 yields_throw

theorem readFloat_yields {o : Operand} (k : o.Known s.catalog) :
    s.Yields (readFloat o) fun _ _ => True := by
  refine .bind (read_yields k) fun u ⟨v, t⟩ _ _ => ?_
  dsimp only
  split
  · split
    · exact yields_pure.2 fun _ => trivial
    · exact yields_throw
  · exact yields_throw

theorem followText_yields {o : Operand} (k : o.Known s.catalog) :
    s.Yields (followText o) fun _ _ => True := by
  refine .bind (typeOf_yields k) fun u t l _ => ?_
  split
  · exact yields_throw
  · refine .bind (read_yields (k.grow l.catalog)) fun w ⟨pointer, _⟩ _ _ => ?_
    dsimp only
    split
    · exact yields_memory_bind.2 (yields_lift fun _ _ _ => trivial)
    · exact yields_throw

theorem readStoredText_yields {o : Operand} (k : o.Known s.catalog) :
    s.Yields (readStoredText o) fun _ _ => True := by
  refine .bind (storage?_yields k) fun u place l _ => ?_
  split
  · split
    · refine yields_memory_bind.2 (yields_catalog_bind.2 (yields_lift_bind fun v _ => ?_))
      split
      · exact yields_pure.2 fun _ => trivial
      · exact yields_throw
    · exact followText_yields (k.grow l.catalog)
  · exact followText_yields (k.grow l.catalog)

theorem readText_yields {o : Operand} (k : o.Known s.catalog) :
    s.Yields (readText o) fun _ _ => True := by
  unfold readText
  split
  · exact yields_pure.2 fun _ => trivial
  · exact readStoredText_yields k

theorem resolve_yields {t : Ty} (m : t ∈ s.catalog.known) (address : Nat) :
    s.Yields (resolve address t) fun u o => o.Known u.catalog := by
  refine yields_catalog_bind.2 ?_
  split
  · exact yields_throw
  · refine yields_symbols_bind.2 ?_
    split
    · exact yields_pure.2 fun _ => trivial
    · split
      · exact yields_pure.2 fun _ => m
      · exact yields_throw

/-! ### Taking storage -/

/-- The table holds one owner more, at the end. -/
theorem allocate_yields {id : Identifier} {t : Ty} (m : t ∈ s.catalog.known)
    (plain : t.isReference = false) (name : id.Registrable) :
    s.Yields (allocate id t) fun u a =>
      u.symbols.entries = s.symbols.entries ++ [.owner s.catalog id t a] := by
  refine yields_catalog_bind.2 (yields_symbols_bind.2 (yields_lift_bind fun found ok => ?_))
  obtain ⟨address, table⟩ := found
  refine yields_lift_bind fun table' ok' => ?_
  have settings := (Symbols.sameSettings_allocate ok).trans (Symbols.sameSettings_insert ok')
  refine .bind (setSymbols_yields settings fun sound =>
    sound.fits.insert_owner sound.closed m plain name ok ok') ?_
  rintro _ _ - rfl
  exact yields_pure.2 fun _ => Symbols.entries_of_placed ok ok'

theorem allocateHeap_yields {t : Ty} (m : t ∈ s.catalog.known) (plain : t.isReference = false) :
    s.Yields (allocateHeap t) fun _ _ => True := by
  refine yields_symbols_bind.2 (.bind (setSymbols_yields ⟨rfl, rfl, rfl⟩ fun sound =>
    sound.fits.congr rfl rfl rfl rfl rfl) ?_)
  rintro _ _ - rfl
  refine .forget (allocate_yields ?_ plain ?_)
  · exact m
  · trivial

end Run

end ByteMachine
