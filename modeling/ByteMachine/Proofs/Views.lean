import ByteMachine.Proofs.Drivers
import ByteMachine.Proofs.Sizes
import ByteMachine.Workbench.Drawing

/-!
# Looking at the past

What is on the screen is an entry of the history by its number, and the history changes under it:
statements push entries and give up the oldest, going back cuts entries off, a change of the word
size starts anew. No number outlives such a change. A key that changes the history, or may have
changed it before it failed, ends the look into the past, and every other key leaves the history
alone. So the number on the screen is always that of an entry before the newest, and there is
something to go back to whenever an entry is on the screen or the history has two.

Key definitions: `Workbench.Visited`, `Workbench.Anchored`.
Key theorems: `Workbench.Anchored.press`, `Workbench.Anchored.runLines`,
`Workbench.Visited.anchored`, `Workbench.Anchored.revert_cases`, `Workbench.Visited.going_back`.
-/

namespace ByteMachine

namespace Workbench

variable {v w : Workbench}

/-- The workbenches that a new machine comes to: keys are pressed, scripts run, lines provided for
the statements that ask for one, and the screen drawn, in any order. -/
inductive Visited : Workbench → Prop
  | opened {c : Config} {console : Console} {m : Machine} (e : Machine.create c console = .ok m) :
    Visited (start m)
  | pressed {w : Workbench} (h : Visited w) (key : Key) : Visited (w.press key)
  | scripted {w : Workbench} (h : Visited w) (source : String) : Visited (w.runScript source)
  | queued {w : Workbench} (h : Visited w) (line : String) : Visited (w.queue line)
  | drawn {w : Workbench} (h : Visited w) (width height : Nat) : Visited (w.draw width height).1

/-- Every entry of the history can be gone back to, and one that is on the screen is not the
newest. -/
structure Anchored (w : Workbench) : Prop where
  uniform : w.machine.Uniform
  view : ∀ i, w.view = some i → i + 1 < w.machine.history.size

theorem anchored_present (uniform : w.machine.Uniform) (present : w.view = none) : w.Anchored :=
  ⟨uniform, fun _ shown => nomatch present.symm.trans shown⟩

/-- Line, transcript, offsets and notice do not matter. -/
theorem Anchored.congr (h : w.Anchored) (memory : v.machine.core.memory = w.machine.core.memory)
    (history : v.machine.history = w.machine.history) (view : v.view = w.view) : v.Anchored where
  uniform := h.uniform.congr (congrArg Memory.size memory) (history ▸ List.Subset.refl _)
  view := fun i shown => history ▸ h.view i (view ▸ shown)

theorem Anchored.toEnd (h : w.Anchored) : w.toEnd.Anchored := h.congr rfl rfl rfl

/-! ### Statements -/

theorem perform_uniform (uniform : w.machine.Uniform) (line : String) :
    (w.perform line).machine.Uniform ∧ (w.perform line).view = w.view := by
  have next := uniform.execute line
  unfold perform
  rcases k : w.machine.execute line with ⟨fault | _ | result, m⟩ <;> rw [k] at next
  · dsimp only
    split <;> exact ⟨next, rfl⟩
  · exact ⟨next, rfl⟩
  · exact ⟨next, rfl⟩

/-- A blank line is left alone with what is on the screen; any other line ends the look into the
past before it is run. -/
theorem Anchored.submit (h : w.Anchored) : w.submit.Anchored := by
  unfold Workbench.submit
  dsimp only
  split
  · exact h.congr rfl rfl rfl
  · obtain ⟨uniform, view⟩ := perform_uniform (w := { w with input := "" }.toPresent.print
      ("> " ++ w.input ++ "\n")) h.uniform w.input
    exact (anchored_present uniform (view.trans rfl)).toEnd

theorem Anchored.runLines : ∀ (lines : List String) {w : Workbench}, w.Anchored →
    (w.runLines lines).Anchored
  | [], _, h => h
  | line :: lines, w, h => by
    unfold Workbench.runLines
    split
    · exact Anchored.runLines lines h
    · have next : ({ w with input := line } : Workbench).submit.Anchored :=
        Anchored.submit (h.congr rfl rfl rfl)
      dsimp only
      split
      · exact next
      · exact Anchored.runLines lines next

/-! ### History -/

theorem Anchored.browseBack (h : w.Anchored) : w.browseBack.Anchored := by
  unfold Workbench.browseBack
  split
  · exact h.congr rfl rfl rfl
  · next position shown =>
    refine ⟨h.uniform, ?_⟩
    rintro _ ⟨⟩
    show position + 1 < w.machine.history.size
    cases view : w.view with
    | none =>
      rw [view, Option.getD_none, Machine.latest] at shown
      omega
    | some i =>
      have before := h.view i view
      rw [view, Option.getD_some] at shown
      omega

theorem Anchored.browseForth (h : w.Anchored) : w.browseForth.Anchored := by
  unfold Workbench.browseForth
  split
  · exact h.congr rfl rfl rfl
  · next position shown =>
    split
    · next before =>
      refine ⟨h.uniform, ?_⟩
      rintro _ ⟨⟩
      show position + 1 + 1 < w.machine.history.size
      rw [Machine.latest] at before
      omega
    · exact anchored_present h.uniform rfl

/-- What there is to go back to is an entry of the history, and without one nothing is on the
screen and the history has no entry before the newest. -/
theorem Anchored.target (h : w.Anchored) :
    (w.view = none ∧ w.machine.history.size < 2 ∧ w.target? = none) ∨
      (w.view = none → 2 ≤ w.machine.history.size) ∧
      ∃ s, w.target? = some (w.view.getD (w.machine.history.size - 2)) ∧
        w.machine.past? (w.view.getD (w.machine.history.size - 2)) = some s := by
  have past {index : Nat} (low : index < w.machine.history.size) :
      ∃ s, w.machine.past? index = some s :=
    ⟨_, congrArg (Option.map _) (List.getElem?_eq_getElem low)⟩
  unfold target?
  cases view : w.view with
  | some i =>
    obtain ⟨s, entry⟩ := past (Nat.lt_of_succ_lt (h.view i view))
    exact .inr ⟨(fun present => nomatch present), s, rfl, entry⟩
  | none =>
    by_cases two : 2 ≤ w.machine.history.size
    · have before : w.machine.history.size - 2 < w.machine.history.size := by omega
      obtain ⟨s, entry⟩ := past before
      exact .inr ⟨fun _ => two, s, if_pos two, entry⟩
    · exact .inl ⟨rfl, Nat.lt_of_not_le two, if_neg two⟩

/-- Going back fails for want of an entry only. Else memory and variables become those of the
entry, all but the placement. -/
theorem Anchored.revert_cases (h : w.Anchored) :
    (w.view = none ∧ w.machine.history.size < 2 ∧ w.revert = w.warn "Nothing to revert") ∨
      (w.view = none → 2 ≤ w.machine.history.size) ∧
      ∃ s, w.machine.past? (w.view.getD (w.machine.history.size - 2)) = some s ∧
        w.revert.machine.Uniform ∧ w.revert.view = none ∧
        w.revert.notice = ⟨"Reverted to [" ++ s.name ++ "]", false⟩ ∧
        w.revert.machine.core.memory = s.memory ∧
        w.revert.machine.core.symbols =
          { s.symbols with placement := w.machine.config.placement } := by
  rcases h.target with ⟨present, one, none⟩ | ⟨two, s, target, past⟩
  · refine .inl ⟨present, one, ?_⟩
    simp only [Workbench.revert, none]
  · refine .inr ⟨two, s, past, ?_⟩
    have uniform := h.uniform.revert (w.view.getD (w.machine.history.size - 2))
    obtain ⟨entry, found, rfl⟩ := Option.map_eq_some_iff.1 past
    rw [h.uniform.revert_eq past] at uniform
    simp only [Workbench.revert, target, h.uniform.revert_eq past, entryName, found]
    exact ⟨uniform, rfl, rfl, rfl, rfl⟩

theorem Anchored.revert (h : w.Anchored) : w.revert.Anchored := by
  rcases h.revert_cases with ⟨-, -, none⟩ | ⟨-, s, -, uniform, present, -⟩
  · rw [none]
    exact h.congr rfl rfl rfl
  · exact anchored_present uniform present

theorem Anchored.escape (h : w.Anchored) : w.escape.Anchored := by
  unfold Workbench.escape
  split
  · exact anchored_present h.uniform rfl
  · exact h.congr rfl rfl rfl

/-! ### Settings -/

theorem Anchored.flipOrder (h : w.Anchored) : w.flipOrder.Anchored := by
  have next := h.uniform.setOrder w.machine.core.memory.order.flip
  unfold Workbench.flipOrder
  dsimp only
  rcases k : w.machine.setOrder w.machine.core.memory.order.flip with ⟨fault | _, m⟩ <;>
    rw [k] at next <;> exact anchored_present next rfl

theorem Anchored.cycleWord (h : w.Anchored) : w.cycleWord.Anchored := by
  have next := h.uniform.setWord (nextWord w.machine.core.catalog.word)
  unfold Workbench.cycleWord
  dsimp only
  rcases k : w.machine.setWord (nextWord w.machine.core.catalog.word) with ⟨fault | _, m⟩ <;>
    rw [k] at next <;> exact anchored_present next rfl

/-! ### Keys -/

theorem Anchored.control (h : w.Anchored) (c : Char) : (w.control c).Anchored := by
  unfold Workbench.control
  split
  · exact h.congr rfl rfl rfl
  · split
    · exact h.revert
    · split <;> exact h.congr rfl rfl rfl

theorem Anchored.function (h : w.Anchored) (number : Nat) : (w.function number).Anchored := by
  unfold Workbench.function
  split
  · exact h.congr rfl rfl rfl
  · split
    · exact h.flipOrder
    · split
      · exact h.congr rfl rfl rfl
      · split
        · exact h.cycleWord
        · exact h

/-- One key, whichever it is. -/
theorem Anchored.press (h : w.Anchored) (key : Key) : (w.press key).Anchored := by
  cases key with
  | char c => exact anchored_present h.uniform rfl
  | control c => exact h.control c
  | enter => exact h.submit
  | escape => exact h.escape
  | left => exact h.browseBack
  | right => exact h.browseForth
  | function number => exact h.function number
  | backspace | tab | backTab | up | down | pageUp | pageDown | other => exact h.congr rfl rfl rfl

/-- Whatever was done, what is on the screen is there. -/
theorem Visited.anchored (h : w.Visited) : w.Anchored := by
  induction h with
  | opened e =>
    exact anchored_present ((Machine.uniform_create e).congr rfl (List.Subset.refl _)) rfl
  | pressed _ key ih => exact ih.press key
  | scripted _ source ih => exact Anchored.runLines _ ih
  | queued _ _ ih | drawn _ _ _ ih => exact ih.congr rfl rfl rfl

theorem exhibit_of_viewed {s : Snapshot} (viewed : w.viewed? = some s) :
    w.exhibit = ⟨s.memory, s.symbols, w.machine.core.catalog⟩ := by
  simp only [exhibit, viewed]

/-- An entry on the screen is one before the newest. Control and `z` have nothing to go back to
exactly when the present is on the screen and the history has no entry before it; there is no other
failure. Without a failure the present is on the screen and memory, byte order and variables, all
but the placement, are those that were there before, or those of the entry before the newest. -/
theorem Visited.going_back (h : w.Visited) :
    (∀ i, w.view = some i → i < w.machine.latest ∧ ∃ s, w.viewed? = some s) ∧
    ((w.press (.control 'z')).notice = ⟨"Nothing to revert", true⟩ ↔
      w.view = none ∧ w.machine.history.size < 2) ∧
    ((w.press (.control 'z')).notice.isError = true →
      w.press (.control 'z') = w.warn "Nothing to revert") ∧
    ((w.press (.control 'z')).notice.isError = false →
      ∃ s, w.machine.past? (w.view.getD (w.machine.history.size - 2)) = some s ∧
        (∀ i, w.view = some i → w.exhibit = ⟨s.memory, s.symbols, w.machine.core.catalog⟩) ∧
        (w.press (.control 'z')).view = none ∧
        (w.press (.control 'z')).notice = ⟨"Reverted to [" ++ s.name ++ "]", false⟩ ∧
        (w.press (.control 'z')).machine.core.memory = s.memory ∧
        (w.press (.control 'z')).machine.core.symbols =
          { s.symbols with placement := w.machine.config.placement }) := by
  have anchored := h.anchored
  have pressed : w.press (.control 'z') = w.revert := rfl
  rw [pressed]
  refine ⟨fun i shown => ?_, ?_⟩
  · have before := anchored.view i shown
    refine ⟨Nat.lt_sub_of_add_lt before, ?_⟩
    rcases anchored.target with ⟨present, -⟩ | ⟨-, s, -, past⟩
    · exact nomatch present.symm.trans shown
    · rw [shown] at past
      exact ⟨s, by rw [viewed?, shown]; exact past⟩
  · rcases anchored.revert_cases with
      ⟨present, one, none⟩ | ⟨two, s, past, -, view, notice, memory, symbols⟩
    · rw [none]
      exact ⟨⟨fun _ => ⟨present, one⟩, fun _ => rfl⟩, fun _ => rfl, fun went => nomatch went⟩
    · have went : ¬ w.revert.notice.isError = true := by
        rw [notice]
        exact Bool.false_ne_true
      refine ⟨⟨fun nothing => ?_, fun ⟨present, one⟩ => ?_⟩, fun failed => absurd failed went,
        fun _ => ⟨s, past, fun i shown => ?_, view, notice, memory, symbols⟩⟩
      · exact absurd (congrArg Notice.isError nothing) went
      · exact absurd (two present) (Nat.not_le_of_lt one)
      · rw [shown] at past
        exact exhibit_of_viewed (by rw [viewed?, shown]; exact past)

/-- A workbench that looks at the second of four states. -/
def browsing : Workbench :=
  (((start .fresh).runScript "int x = 8\nx = 9\nx = 7").press .left).press .left

/-- Going back to the state on the screen. -/
theorem going_back_browsing : browsing.view = some 1 ∧
    (browsing.press (.control 'z')).notice = ⟨"Reverted to [int x = 8]", false⟩ ∧
    (browsing.press (.control 'z')).view = none ∧
    (browsing.press (.control 'z')).machine.core.memory =
      (Machine.fresh.execute "int x = 8").2.core.memory := by
  have visited : browsing.Visited :=
    (((Visited.opened Machine.create_fresh).scripted _).pressed .left).pressed .left
  have shown : browsing.view = some 1 := by decide +kernel
  have done : (browsing.press (.control 'z')).notice.isError = false := by decide +kernel
  have entry : (browsing.machine.past? 1).map (fun s => (s.name, s.memory)) =
      some ("int x = 8", (Machine.fresh.execute "int x = 8").2.core.memory) := by
    decide +kernel
  obtain ⟨s, past, -, view, notice, memory, -⟩ := visited.going_back.2.2.2 done
  rw [shown, Option.getD_some] at past
  rw [past] at entry
  obtain ⟨name, same⟩ := Prod.mk.inj (Option.some.inj entry)
  rw [name] at notice
  exact ⟨shown, notice, view, memory.trans same⟩

end Workbench

end ByteMachine
