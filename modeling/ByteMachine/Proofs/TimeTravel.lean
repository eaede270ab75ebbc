import ByteMachine.Proofs.Reachability

/-!
# Going back is exact

Whatever changes memory or variables records the state it leads to, so the newest entry of a
history is always the present state. The entry before it, while there is one, is then the state
before the last change, and going back to it undoes the change: the bytes, the byte order and all
of the table are as they were, the stream and the serial numbers included.

Key theorems: `Machine.revert_push`, `Machine.Reachable.time_travel`.
-/

namespace ByteMachine

namespace Machine

variable {m n : Machine}

/-- A change that was recorded is undone by going back to the entry before the record. -/
theorem revert_push (before : m.Sound) (after : n.Sound)
    (config : n.config.placement = m.config.placement) {s : Snapshot}
    (pushed : n.history = m.history.push s) (two : 2 ≤ n.history.size) :
    ∃ back, n.revert (n.history.size - 2) = (.ok (), back) ∧
      back.core.memory = m.core.memory ∧ back.core.symbols = m.core.symbols := by
  obtain ⟨last, latest, memory, symbols⟩ := before.recorded
  have entry : n.history.get? (n.history.size - 2) = some last := by
    rw [pushed] at two ⊢
    exact (History.before_push two).trans latest
  refine ⟨_, revert_eq after entry, memory, ?_⟩
  rw [← symbols, before.configured.placement, ← config]

theorem size_history_pos (h : m.Sound) : 0 < m.history.size := by
  obtain ⟨s, latest, -⟩ := h.recorded
  exact List.length_pos_of_mem (List.mem_of_getLast? latest)

/-- The newest entry is the present state; what was done last, a statement or a change of the byte
order, is undone by going back by one; and going back succeeds for the entries that there are. -/
theorem Reachable.time_travel (h : m.Reachable) :
    (0 < m.history.size ∧ ∃ s, m.past? m.latest = some s ∧ s.memory = m.core.memory ∧
      { s.symbols with placement := m.core.symbols.placement } = m.core.symbols) ∧
    (∀ (line : String) (result : Option Variable) (n : Machine),
      m.execute line = (.ok result, n) → m.codeOf line ≠ [] → 2 ≤ n.history.size →
        ∃ back, n.revert (n.history.size - 2) = (.ok (), back) ∧
          back.core.memory = m.core.memory ∧ back.core.symbols = m.core.symbols) ∧
    (∀ o ≠ m.core.memory.order, ∃ n, m.setOrder o = (.ok (), n) ∧ (2 ≤ n.history.size →
      ∃ back, n.revert (n.history.size - 2) = (.ok (), back) ∧
        back.core.memory = m.core.memory ∧ back.core.symbols = m.core.symbols)) ∧
    (∀ i < m.history.size, ∃ s back, m.past? i = some s ∧ m.revert i = (.ok (), back) ∧
      back.history.entries = m.history.entries.take (i + 1) ∧ back.core.memory = s.memory ∧
        back.core.symbols = { s.symbols with placement := m.core.symbols.placement }) ∧
    (∀ i, m.history.size ≤ i → m.revert i = (.error (.noHistoryEntry i), m)) := by
  have sound := h.sound
  refine ⟨⟨size_history_pos sound, ?_⟩, ?_, ?_, ?_, ?_⟩
  · obtain ⟨s, latest, memory, symbols⟩ := sound.recorded
    have entry : m.history.get? m.latest = some s := by
      rw [← latest]
      exact List.getLast?_eq_getElem?.symm
    exact ⟨_, past?_eq sound entry, memory, symbols⟩
  · intro line result n e code two
    rcases execute_cases sound line with
      ⟨fault, _, failed, -⟩ | ⟨none, -⟩ | ⟨-, r, core, done, l, k⟩
    · rw [failed] at e
      cases e
    · exact absurd none code
    · rw [done] at e
      cases e
      exact revert_push sound (sound.commit l k _) rfl rfl two
  · intro o other
    rcases setOrder_cases sound o with ⟨same, -⟩ | ⟨-, memory, n, -, -, rfl, e⟩
    · exact absurd same other
    · have after := sound.setOrder o
      rw [e] at after
      exact ⟨_, e, revert_push sound after rfl rfl⟩
  · intro i low
    obtain ⟨s, entry⟩ : ∃ s, m.history.get? i = some s := ⟨_, List.getElem?_eq_getElem low⟩
    refine ⟨_, _, past?_eq sound entry, revert_eq sound entry, rfl, rfl, ?_⟩
    rw [sound.configured.placement]
  · intro i high
    exact revert_none (List.getElem?_eq_none high)

/-- Going back by one from a declaration under the other byte order. -/
theorem time_travel_declaration :
    ∃ back, ((fresh.setOrder .big).2.execute "int y = 8").2.revert 1 = (.ok (), back) ∧
      back.core.memory = (fresh.setOrder .big).2.core.memory ∧
        back.core.symbols = (fresh.setOrder .big).2.core.symbols := by
  have done : (fresh.setOrder .big).2.execute "int y = 8" =
      (.ok (some ⟨.named "y", Ty.int, 16, 4, .plain⟩),
        ((fresh.setOrder .big).2.execute "int y = 8").2) := by
    decide +kernel
  have code : (fresh.setOrder .big).2.codeOf "int y = 8" ≠ [] := by decide +kernel
  have three : ((fresh.setOrder .big).2.execute "int y = 8").2.history.size = 3 := by
    decide +kernel
  have travel := (reachable_fresh.ordered .big).time_travel
  have back := travel.2.1 "int y = 8" _ _ done code (by rw [three]; decide)
  rw [three] at back
  exact back

end Machine

end ByteMachine
