import ByteMachine.Proofs.Operands

/-!
# Instructions keep states sound

The instructions that work on storage keep to `Core.discipline` from any sound core, however far
they get: what they push was met, and what they write stays inside of memory.

Key theorems: `Memory.write_eq_ok`, `Arithmetic.apply_known`, `Run.addressOf_yields`,
`Run.dereference_yields`, `Run.index_yields`, `Run.binary_yields`, `Run.storeValue_yields`,
`Run.assign_yields`.
-/

namespace ByteMachine

open Discipline

/-! ### Writing memory -/

namespace Memory

theorem write_eq_ok {m n : Memory} {address : Nat} {bytes : List UInt8}
    (e : m.write address bytes = .ok n) : n.size = m.size ∧ n.order = m.order := by
  unfold write at e
  split at e
  · next room =>
    cases e
    simp only [size, List.length_append, List.length_take, List.length_drop, and_true] at room ⊢
    omega
  · cases e

theorem store_eq_ok {m n : Memory} {c : Catalog} {address : Nat} {t : Ty} {v : Literal}
    (e : m.store c address t v = .ok n) : n.size = m.size ∧ n.order = m.order := by
  obtain ⟨bytes, -, e⟩ := bind_eq_ok.1 e
  exact write_eq_ok e

end Memory

/-! ### Arithmetic -/

namespace Arithmetic

variable {c : Catalog} {word : Nat} {op : Operator} {l r v : Literal} {lt rt t : Ty}

theorem numbers_known (h : c.Closed) (e : numbers word op l lt r rt = .ok (v, t)) :
    v.Known c ∧ t ∈ c.known := by
  unfold numbers at e
  split at e
  · split at e
    · split at e <;> cases e
      exact ⟨trivial, h.scalar _⟩
    · split at e
      · obtain ⟨n, -, e⟩ := bind_eq_ok.1 e
        cases e
        exact ⟨trivial, h.scalar _⟩
      · cases e
  · cases e

theorem offset_known (m : lt ∈ c.known) (e : offset word op l lt r rt = .ok (v, t)) :
    v.Known c ∧ t ∈ c.known := by
  unfold offset refused at e
  split at e
  · cases e
  · split at e
    · cases e
    · split at e <;> cases e
      exact ⟨trivial, m⟩

theorem distance_known (h : c.Closed) (e : distance word op l lt r = .ok (v, t)) :
    v.Known c ∧ t ∈ c.known := by
  unfold distance refused at e
  split at e
  · cases e
  · split at e <;> cases e
    exact ⟨trivial, h.scalar .int⟩

/-- An operator gives a number of a scalar type or of the type of a pointer it was given. -/
theorem apply_known (h : c.Closed) (ml : lt ∈ c.known) (mr : rt ∈ c.known)
    (e : apply word op l lt r rt = .ok (v, t)) : v.Known c ∧ t ∈ c.known := by
  unfold apply at e
  split at e
  · exact distance_known h e
  · exact offset_known ml e
  · split at e
    · exact offset_known mr e
    · cases e
  · exact numbers_known h e

end Arithmetic

namespace Run

variable {s : Core}

/-! ### Pointers and elements -/

/-- The pointer to a type is made and an address pushed as one. -/
theorem pushPointer_yields {t : Ty} (m : t ∈ s.catalog.known) (address : Int) :
    s.Yields (do pushValue (.integer address) (← pointerTo t)) fun _ _ => True :=
  .bind (pointerTo_yields m) fun _ _ _ known => pushValue_yields trivial known

theorem addressOf_yields : s.Yields addressOf fun _ _ => True := by
  refine .bind pop_yields fun t o _ k => ?_
  refine .bind (storage?_yields k) fun u place _ known => .of_keeps fun sound => ?_
  split
  · exact yields_throw
  · next address type =>
    have m := known address type rfl
    refine pushPointer_yields ?_ _
    split
    · next shape => exact sound.closed.element m shape
    · exact m

theorem targetOf_yields {t : Ty} (m : t ∈ s.catalog.known) :
    s.Yields (targetOf t) fun u target => target ∈ u.catalog.known := by
  refine .of_keeps fun sound => ?_
  unfold targetOf
  split
  · exact yields_throw
  · next e =>
    split
    · exact yields_throw
    · exact yields_pure.2 fun _ => sound.closed.pointee m e

theorem follow_yields {o : Operand} (k : o.Known s.catalog) :
    s.Yields (follow o) fun u p => p.Known u.catalog := by
  refine .bind (read_yields k) fun t ⟨v, type⟩ _ known => ?_
  refine .bind (targetOf_yields known.2) fun u target _ m => ?_
  split
  · exact resolve_yields m _
  · exact yields_catalog_bind.2 yields_throw

theorem followTimes_yields : ∀ (levels : Nat) {s : Core} {o : Operand}, o.Known s.catalog →
    s.Yields (followTimes levels o) fun u p => p.Known u.catalog
  | 0, _, _, k => yields_pure.2 fun _ => k
  | levels + 1, _, _, k =>
    .bind (follow_yields k) fun _ _ _ known => followTimes_yields levels known

theorem dereference_yields (levels : Nat) : s.Yields (dereference levels) fun _ _ => True :=
  .bind pop_yields fun _ _ _ k => .bind (followTimes_yields levels k) fun _ _ _ known =>
    push_yields known

theorem readIndex_yields {o : Operand} (k : o.Known s.catalog) :
    s.Yields (readIndex o) fun _ _ => True := by
  refine .bind (read_yields k) fun t ⟨v, type⟩ _ _ => ?_
  dsimp only
  split
  · exact yields_throw
  · split
    · exact yields_pure.2 fun _ => trivial
    · exact yields_throw

theorem elementOf_yields {element : Ty} (m : element ∈ s.catalog.known) (base : Operand)
    (address count : Nat) (i : Int) :
    s.Yields (elementOf base address element count i) fun u p => p.Known u.catalog := by
  refine yields_catalog_bind.2 ?_
  dsimp only
  split
  · exact yields_throw
  · refine .bind (ownerOf?_yields base) fun t owner l _ => ?_
    split
    · exact yields_pure.2 fun _ => l.catalog.mem m
    · exact yields_throw

theorem elementBehind_yields {base : Operand} (k : base.Known s.catalog) (i : Int) :
    s.Yields (elementBehind base i) fun u p => p.Known u.catalog := by
  refine .bind (read_yields k) fun t ⟨v, type⟩ _ known => ?_
  refine .bind (targetOf_yields known.2) fun u target _ m => yields_catalog_bind.2 ?_
  dsimp only
  split
  · exact resolve_yields m _
  · exact yields_throw

theorem index_yields : s.Yields index fun _ _ => True := by
  refine .bind pop_yields fun t position l k => ?_
  refine .bind pop_yields fun u base l' kb => ?_
  refine .bind (readIndex_yields (k.grow l'.catalog)) fun v i l₂ _ => ?_
  have kb := kb.grow l₂.catalog
  refine .bind (storage?_yields kb) fun w place l₃ known => .of_keeps fun sound => ?_
  have behind : w.Yields (do push (← elementBehind base i)) fun _ _ => True :=
    .bind (elementBehind_yields (kb.grow l₃.catalog) i) fun _ _ _ found => push_yields found
  split
  · next address type =>
    split
    · next e n shape =>
      exact .bind (elementOf_yields (sound.closed.element (known address type rfl) shape) base
        address n i) fun _ _ _ found => push_yields found
    · exact behind
  · exact behind

theorem binary_yields (op : Operator) : s.Yields (binary op) fun _ _ => True := by
  refine .bind pop_yields fun t right l kr => ?_
  refine .bind pop_yields fun u left l₁ kl => ?_
  refine .bind (read_yields kl) fun v ⟨lv, lt⟩ l₂ known => ?_
  refine .bind (read_yields (kr.grow (l₁.catalog.trans l₂.catalog))) fun w ⟨rv, rt⟩ l₃ known' => ?_
  have ml := l₃.catalog.mem known.2
  refine .bind (checkCompatible_yields ml known'.2) fun x _ l₄ _ => .of_keeps fun sound => ?_
  refine yields_word_bind.2 (yields_lift_bind fun ⟨v, t⟩ e => ?_)
  obtain ⟨kv, kt⟩ := Arithmetic.apply_known sound.closed (l₄.catalog.mem ml)
    (l₄.catalog.mem known'.2) e
  exact pushValue_yields kv kt

/-! ### Assignment -/

theorem copyText_yields (address capacity : Nat) (text : String) :
    s.Yields (copyText address capacity text) fun _ _ => True := by
  refine yields_lift_bind fun bytes _ => ?_
  split
  · exact yields_throw
  · refine yields_memory_bind.2 (yields_lift_bind fun m e => ?_)
    obtain ⟨size, order⟩ := Memory.write_eq_ok e
    exact (setMemory_yields size order).forget

theorem allocateText_yields (text : String) : s.Yields (allocateText text) fun _ _ => True := by
  refine .of_keeps fun sound => yields_lift_bind fun bytes _ => ?_
  refine .bind (arrayOf_yields (sound.closed.scalar .char) _) fun t array _ made => ?_
  refine .bind (allocateHeap_yields made.1 made.2) fun u address _ _ => ?_
  exact .bind (copyText_yields _ _ _) fun _ _ _ _ => yields_pure.2 fun _ => trivial

theorem storedValue_yields {v : Literal} (k : v.Known s.catalog) (t : Ty) :
    s.Yields (storedValue t v) fun u w => w.Known u.catalog := by
  refine .of_keeps fun sound => ?_
  unfold storedValue
  split
  · split
    · exact .bind (allocateText_yields _) fun _ _ _ _ => yields_pure.2 fun _ => trivial
    · exact yields_pure.2 fun _ => trivial
  · next array =>
    obtain ⟨closed, known⟩ := sound.closed.internDecay k
    refine .bind (setCatalog_yields (f := fun c => c.internDecay array)
      (Catalog.extends_internDecay _ array) fun _ => closed) ?_
    rintro _ _ - rfl
    exact yields_pure.2 fun _ => known
  · exact yields_pure.2 fun _ => k

theorem storeValue_yields {v : Literal} (k : v.Known s.catalog) (address : Nat) (t : Ty) :
    s.Yields (storeValue address t v) fun _ _ => True := by
  refine .bind (storedValue_yields k t) fun u stored _ _ => ?_
  refine yields_memory_bind.2 (yields_catalog_bind.2 (yields_lift_bind fun m e => ?_))
  obtain ⟨size, order⟩ := Memory.store_eq_ok e
  exact (setMemory_yields size order).forget

theorem assignTo_yields {source : Operand} {target : Ty} (k : source.Known s.catalog)
    (m : target ∈ s.catalog.known) (address : Nat) :
    s.Yields (assignTo address target source) fun _ _ => True := by
  unfold assignTo
  split
  · split
    · exact .bind (readText_yields k) fun _ _ _ _ => copyText_yields _ _ _
    · exact yields_throw
  · refine .bind (read_yields k) fun t ⟨v, type⟩ l known => ?_
    refine .bind (checkCompatible_yields (l.catalog.mem m) known.2) fun u _ l' _ => ?_
    exact storeValue_yields (known.1.grow l'.catalog) _ _

theorem assign_yields : s.Yields assign fun _ _ => True := by
  refine .bind pop_yields fun t source _ ks => ?_
  refine .bind pop_yields fun u target l kt => ?_
  refine .bind (storage?_yields kt) fun v place l' known => ?_
  have ks := ks.grow (l.catalog.trans l'.catalog)
  have kt := kt.grow l'.catalog
  split
  · exact yields_throw
  · next address type =>
    exact .bind (assignTo_yields ks (known address type rfl) _) fun _ _ l _ =>
      push_yields (kt.grow l.catalog)

end Run

end ByteMachine
