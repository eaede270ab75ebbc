import ByteMachine.History

/-!
# What a history keeps

A push adds one snapshot at the end and gives up old ones from the front only, so the newest entry
is the one that was pushed and the one before it, if it is still there, is the newest of before.
Truncating keeps a beginning.

Key theorems: `History.entries_push`, `History.latest?_push`, `History.before_push`,
`History.latest?_truncate`.
-/

namespace ByteMachine

namespace History

variable {h : History} {s t : Snapshot}

/-- Entries are given up from the front, and never the last. -/
theorem entries_evict (limit : Nat) (s : Snapshot) : ∀ (es : List Snapshot) (usage evicted : Nat),
    ∃ old, old <:+ es ∧ (evict limit (es ++ [s]) usage evicted).1 = old ++ [s]
  | [], _, _ => ⟨[], List.suffix_rfl, rfl⟩
  | e :: es, usage, evicted => by
    obtain ⟨next, rest, k⟩ :=
      List.exists_cons_of_ne_nil (List.append_ne_nil_of_right_ne_nil es (List.cons_ne_nil s []))
    rw [List.cons_append, k, evict]
    split
    · obtain ⟨old, suffix, kept⟩ :=
        entries_evict limit s es (usage - e.estimatedSize) (evicted + 1)
      exact ⟨old, suffix.trans (List.suffix_cons e es), k ▸ kept⟩
    · exact ⟨e :: es, List.suffix_rfl, by rw [← k, List.cons_append]⟩

theorem entries_push (h : History) (s : Snapshot) :
    ∃ old, old <:+ h.entries ∧ (h.push s).entries = old ++ [s] :=
  entries_evict h.limit s h.entries _ _

theorem latest?_push (h : History) (s : Snapshot) : (h.push s).latest? = some s := by
  obtain ⟨old, -, e⟩ := entries_push h s
  rw [latest?, e, List.getLast?_concat]

theorem mem_push (m : t ∈ (h.push s).entries) : t ∈ h.entries ∨ t = s := by
  obtain ⟨old, suffix, e⟩ := entries_push h s
  rw [e, List.mem_append, List.mem_singleton] at m
  exact m.imp_left fun m => suffix.subset m

/-- The entry before the one that was pushed is the newest of before. -/
theorem before_push (two : 2 ≤ (h.push s).size) :
    (h.push s).get? ((h.push s).size - 2) = h.latest? := by
  obtain ⟨old, ⟨gone, suffix⟩, e⟩ := entries_push h s
  rcases List.eq_nil_or_concat old with rfl | ⟨older, last, rfl⟩
  · simp [size, e] at two
  · rw [get?, latest?, size, e, ← suffix]
    simp

theorem latest?_truncate {index : Nat} (e : h.get? index = some s) :
    (h.truncate index).latest? = some s := by
  rw [get?] at e
  simp [latest?, truncate, List.getLast?_take, e]

end History

end ByteMachine
