import ByteMachine.Batch
import ByteMachine.Proofs.Consoles
import ByteMachine.Proofs.Reachability
import ByteMachine.Workbench
import Mathlib.Data.List.ReduceOption
import Mathlib.Data.List.TakeWhile

/-!
# Three ways to run a program

A program can be run by the machine itself, by a batch run or by the workbench. Each has a loop of
its own, which leaves out the lines without a statement, and each reports a failure in its own way.
The reference is the loop that leaves out nothing: `Machine.executeLines` executes one line
after another. From machines that differ only in consoles that answer alike, all loops do
what the reference does. A batch run that reads its lines from the console does so too, unless a
statement asks for a line itself.

Key definitions: `Machine.Twin`, `Machine.executeLines`, `Machine.isQuiet`.
Key theorems: `Machine.execute_twin`, `Machine.runLines_like`, `Batch.runLines_like`,
`Workbench.runLines_like`, `Batch.runInput_like`, `Machine.drivers_agree`.
-/

namespace ByteMachine

open Console (Bond answering holding)

variable {β : Bond}

/-! ### Lines -/

namespace Text

theorem dropEndWhile_append {p : Char → Bool} {c : Char} (h : p c = true) (cs : List Char) :
    dropEndWhile p (cs ++ [c]) = dropEndWhile p cs := by
  unfold dropEndWhile
  rw [List.reverse_append, List.reverse_singleton, List.singleton_append,
    List.dropWhile_cons_of_pos h]

theorem dropEndWhile_append_dropped (p : Char → Bool) (cs : List Char) :
    ∃ ends, cs = dropEndWhile p cs ++ ends ∧ ∀ c ∈ ends, p c = true := by
  refine ⟨(cs.reverse.takeWhile p).reverse, ?_, ?_⟩
  · unfold dropEndWhile
    rw [← List.reverse_append, List.takeWhile_append_dropWhile, List.reverse_reverse]
  · intro c m
    exact List.all_eq_true.1 List.all_takeWhile c (List.mem_reverse.1 m)

theorem trim_append {c : Char} (h : isBlank c = true) (cs : List Char) :
    trim (cs ++ [c]) = trim cs := by
  unfold trim trimStart trimEnd
  rw [List.dropWhile_append]
  by_cases empty : (cs.dropWhile isBlank).isEmpty = true
  · rw [if_pos empty, List.isEmpty_iff.1 empty, List.dropWhile_cons_of_pos h]
    rfl
  · rw [if_neg empty]
    exact dropEndWhile_append h _

theorem trim_blank {cs : List Char} (h : ∀ c ∈ cs, isBlank c = true) : trim cs = [] := by
  unfold trim trimStart
  rw [List.dropWhile_eq_nil_iff.2 h]
  rfl

end Text

/-- The next line of a stream that is not at its end. -/
theorem Console.readLine_streamed {cs : List Char} (more : cs ≠ []) (out : String) :
    (streamed cs out).readLine "" =
      (some (String.ofList (Text.chompLine (Text.breakLine cs).1)),
        .streamed (Text.breakLine cs).2 (out ++ "")) := by
  cases cs with
  | nil => exact absurd rfl more
  | cons c cs => rfl

namespace Statement

theorem mem_of_mem_beforeComment {c : Char} : ∀ {s : Quoting} {cs : List Char},
    c ∈ beforeComment s cs → c ∈ cs
  | _, [], m => m
  | s, d :: ds, m => by
    unfold beforeComment at m
    split at m
    · cases m
    · rcases List.mem_cons.1 m with rfl | m
      · exact List.mem_cons_self
      · exact List.mem_cons_of_mem d (mem_of_mem_beforeComment m)

/-- One more character behind a line is behind the comment or takes part in none. -/
theorem beforeComment_append {c : Char} (h : c ≠ '/') : ∀ (s : Quoting) (cs : List Char),
    beforeComment s (cs ++ [c]) = beforeComment s cs ∨
      beforeComment s (cs ++ [c]) = beforeComment s cs ++ [c]
  | s, [] => by
    right
    simp [beforeComment]
  | s, d :: ds => by
    have next : (ds ++ [c]).head? = some '/' ↔ ds.head? = some '/' := by
      cases ds with
      | nil => simp [h]
      | cons e es => rfl
    rw [List.cons_append]
    unfold beforeComment
    simp only [next]
    split
    · exact .inl rfl
    · exact (beforeComment_append h (s.next d) ds).imp (congrArg (d :: ·)) (congrArg (d :: ·))

/-- The line ends behind a line are no part of its statement. -/
theorem cleanChars_append : ∀ {ends : List Char} (cs : List Char),
    (∀ c ∈ ends, c = '\n' ∨ c = '\r') → cleanChars (cs ++ ends) = cleanChars cs
  | [], cs, _ => by rw [List.append_nil]
  | c :: ends, cs, h => by
    have first := h c List.mem_cons_self
    have blank : Text.isBlank c = true := by rcases first with rfl | rfl <;> decide
    have other : c ≠ '/' := by rcases first with rfl | rfl <;> decide
    have one : cleanChars (cs ++ [c]) = cleanChars cs := by
      unfold cleanChars
      rcases beforeComment_append other .outside cs with e | e
      · rw [e]
      · rw [e, Text.trim_append blank]
    rw [List.append_cons, cleanChars_append (cs ++ [c]) fun d m => h d (List.mem_cons_of_mem c m),
      one]

end Statement

namespace Text

theorem lineOfReverse_append : ∀ line : List Char,
    ∃ ends, line.reverse = lineOfReverse line ++ ends ∧ ∀ c ∈ ends, c = '\n' ∨ c = '\r' := by
  intro line
  unfold lineOfReverse
  split
  · next cs => exact ⟨['\r'], by simp, by simp⟩
  · exact ⟨[], by simp, by simp⟩

/-- The first line of a text is its characters up to the first line feed, but for line ends. -/
theorem linesFrom_eq_cons : ∀ (cs line : List Char), line ≠ [] ∨ cs ≠ [] →
    ∃ first, linesFrom line cs = first :: linesFrom [] (breakLine cs).2 ∧
      Statement.cleanChars (line.reverse ++ (breakLine cs).1) = Statement.cleanChars first
  | [], line, h => by
    have some : ¬ line.isEmpty = true := by simpa using h
    refine ⟨line.reverse, ?_, ?_⟩
    · rw [linesFrom, if_neg some]
      rfl
    · rw [breakLine, List.append_nil]
  | c :: cs, line, _ => by
    rw [linesFrom, breakLine]
    by_cases feed : c = '\n'
    · rw [if_pos feed, if_pos feed]
      obtain ⟨ends, e, all⟩ := lineOfReverse_append line
      refine ⟨lineOfReverse line, rfl, ?_⟩
      rw [e, List.append_assoc]
      refine Statement.cleanChars_append _ fun d m => ?_
      rcases List.mem_append.1 m with m | m
      · exact all d m
      · exact .inl ((List.mem_singleton.1 m).trans feed)
    · rw [if_neg feed, if_neg feed]
      obtain ⟨first, e, clean⟩ := linesFrom_eq_cons cs (c :: line) (.inl (by simp))
      refine ⟨first, e, ?_⟩
      rw [← clean]
      simp

/-- A line read from a stream has the statement of the first line of the text. -/
theorem linesFrom_breakLine {cs : List Char} (h : cs ≠ []) :
    ∃ first, linesFrom [] cs = first :: linesFrom [] (breakLine cs).2 ∧
      Statement.clean (String.ofList (chompLine (breakLine cs).1)) =
        Statement.clean (String.ofList first) := by
  obtain ⟨first, e, clean⟩ := linesFrom_eq_cons cs [] (.inr h)
  refine ⟨first, e, ?_⟩
  obtain ⟨ends, whole, all⟩ :=
    dropEndWhile_append_dropped (fun c => c = '\n' || c = '\r') (breakLine cs).1
  have line_ends : ∀ c ∈ ends, c = '\n' ∨ c = '\r' := fun c m => by simpa using all c m
  have chomped := Statement.cleanChars_append (chompLine (breakLine cs).1) line_ends
  unfold chompLine at chomped ⊢
  rw [← whole] at chomped
  unfold Statement.clean
  rw [String.toList_ofList, String.toList_ofList, ← chomped, ← clean]
  rfl

theorem length_breakLine {cs : List Char} (h : cs ≠ []) :
    (breakLine cs).2.length < cs.length := by
  have whole := congrArg List.length (breakLine_append cs)
  have positive : 0 < (breakLine cs).1.length := by
    cases cs with
    | nil => exact absurd rfl h
    | cons c cs =>
      unfold breakLine
      split <;> simp
  rw [List.length_append] at whole
  omega

end Text

/-! ### Statements on two consoles -/

namespace Machine

/-- Two machines that differ in their consoles only, which are bonded. -/
structure Twin (β : Bond) (m n : Machine) : Prop where
  config : n.config = m.config
  core : m.core.Twin β n.core
  history : n.history = m.history

variable {m n : Machine} {line : String}

theorem Twin.meet (h : m.Twin β n) (types : List Ty) : (m.meet types).Twin β (n.meet types) where
  config := h.config
  core := ⟨congrArg (·.internAll types) h.core.catalog, h.core.memory, h.core.symbols,
    h.core.stack, h.core.console⟩
  history := h.history

theorem Twin.print (h : m.Twin β n) (text : String) : m.Twin β (n.print text) where
  config := h.config
  core := ⟨h.core.catalog, h.core.memory, h.core.symbols, h.core.stack,
    β.writeRight text h.core.console⟩
  history := h.history

/-- Twins stay twins under another bond when one of them is given another console. -/
theorem Twin.withConsole (h : m.Twin β n) {γ : Bond} {c : Console} (k : γ.rel m.core.console c) :
    m.Twin γ (n.withConsole c) where
  config := h.config
  core := ⟨h.core.catalog, h.core.memory, h.core.symbols, h.core.stack, k⟩
  history := h.history

theorem Twin.snapshot (h : m.Twin β n) (name : String) : n.snapshot name = m.snapshot name := by
  unfold Machine.snapshot
  rw [h.core.memory, h.core.symbols, h.core.catalog]

theorem Twin.commit (h : m.Twin β n) {s t : Core} (k : s.Twin β t) (name : String) :
    (m.commit name s).Twin β (n.commit name t) := by
  have core : Core.Twin β { s with symbols := s.symbols.collect, stack := [] }
      { t with symbols := t.symbols.collect, stack := [] } :=
    ⟨k.catalog, k.memory, congrArg Symbols.collect k.symbols, rfl, k.console⟩
  have after : Machine.Twin β { m with core := { s with symbols := s.symbols.collect, stack := [] } }
      { n with core := { t with symbols := t.symbols.collect, stack := [] } } :=
    ⟨h.config, core, h.history⟩
  refine ⟨h.config, core, ?_⟩
  have same := after.snapshot name
  simp only [Machine.commit]
  rw [same, h.history]

/-- Going back restores the same state on both sides, or fails on both. -/
theorem Twin.restore (h : m.Twin β n) (s : Snapshot) :
    (∃ fault, m.restore s = .error fault ∧ n.restore s = .error fault) ∨
      ∃ m' n', m.restore s = .ok m' ∧ n.restore s = .ok n' ∧ m'.Twin β n' := by
  unfold Machine.restore
  rw [h.core.memory]
  cases m.core.memory.restore s.memory.bytes with
  | error fault => exact .inl ⟨fault, rfl, rfl⟩
  | ok memory =>
    refine .inr ⟨_, _, rfl, rfl, ⟨?_, ⟨h.core.catalog, rfl, ?_, rfl, h.core.console⟩, h.history⟩⟩
    · dsimp only
      rw [h.config]
    · dsimp only
      rw [h.config]

theorem perform_twin (h : m.Twin β n) {is : List Instr}
    (answers : β.Answers ∨ ∀ i ∈ is, i.asks = false) (name : String) :
    ∃ n', n.perform name is = ((m.perform name is).1, n') ∧
      (m.perform name is).2.Twin β n' := by
  have start : Core.Twin β { m.core with stack := [] } { n.core with stack := [] } :=
    ⟨h.core.catalog, h.core.memory, h.core.symbols, rfl, h.core.console⟩
  obtain ⟨same, twin⟩ := Run.twinned_statement answers _ _ start
  unfold Machine.perform
  generalize (Run.statement is).run.run { m.core with stack := [] } = p at same twin ⊢
  generalize (Run.statement is).run.run { n.core with stack := [] } = q at same twin ⊢
  obtain ⟨p, s⟩ := p
  obtain ⟨q, t⟩ := q
  obtain rfl : q = p := same
  cases q with
  | ok result => exact ⟨_, rfl, h.commit twin name⟩
  | error fault =>
    have failed : Machine.Twin β { m with core := s } { n with core := t } :=
      ⟨h.config, twin, h.history⟩
    dsimp only
    rw [h.snapshot name]
    rcases failed.restore (m.snapshot name) with ⟨other, e, e'⟩ | ⟨m', n', e, e', back⟩
    · rw [e, e']
      exact ⟨_, rfl, failed⟩
    · rw [e, e']
      exact ⟨_, rfl, back⟩

/-- A statement does the same on bonded consoles, unless it asks on consoles that do not answer
alike. -/
theorem execute_twin (h : m.Twin β n) (line : String)
    (answers : β.Answers ∨ ∀ i ∈ m.codeOf line, i.asks = false) :
    ∃ n', n.execute line = ((m.execute line).1, n') ∧ (m.execute line).2.Twin β n' := by
  have scope : n.scope = m.scope := by
    unfold Machine.scope
    rw [h.core.catalog, h.core.symbols]
  rcases k : Statement.parse m.scope (Statement.clean line) with ⟨fault | _ | s, met⟩
  all_goals have k' := scope ▸ k
  · rw [execute_misread k, execute_misread k']
    exact ⟨_, rfl, h.meet met⟩
  · rw [(execute_blank k).2, (execute_blank k').2]
    exact ⟨_, rfl, h.meet met⟩
  · obtain ⟨code, e⟩ := execute_read k
    rw [e, (execute_read k').2]
    rw [code] at answers
    exact perform_twin (h.meet met) answers _

/-- A line without a statement does nothing. -/
theorem execute_of_isEmpty (m : Machine) (empty : (Statement.clean line).isEmpty = true) :
    m.execute line = (.ok none, m) := by
  have e : Statement.clean line = "" := String.isEmpty_iff.1 empty
  unfold Machine.execute
  rw [e]
  rfl

/-! ### The reference -/

/-- Executes lines one by one up to the first that fails; blank ones are not left out. -/
def executeLines (m : Machine) (number : Nat) :
    List String → Except (Nat × Fault) (List (Option Variable)) × Machine
  | [] => (.ok [], m)
  | line :: lines =>
    match m.execute line with
    | (.error fault, m) => (.error (number, fault), m)
    | (.ok result, m) =>
      match m.executeLines (number + 1) lines with
      | (.ok results, m) => (.ok (result :: results), m)
      | (.error failure, m) => (.error failure, m)

/-- No statement among those that are executed asks for a line of input. -/
def isQuiet (m : Machine) : List String → Bool
  | [] => true
  | line :: lines =>
    (m.codeOf line).all (fun i => !i.asks) &&
      match m.execute line with
      | (.ok _, m) => m.isQuiet lines
      | (.error _, _) => true

section

variable {number : Nat} {lines : List String} {fault : Fault} {result : Option Variable}

theorem executeLines_failed (k : m.execute line = (.error fault, n)) :
    m.executeLines number (line :: lines) = (.error (number, fault), n) := by
  simp only [executeLines, k]

theorem executeLines_done (k : m.execute line = (.ok result, n)) :
    m.executeLines number (line :: lines) =
      ((n.executeLines (number + 1) lines).1.map (result :: ·),
        (n.executeLines (number + 1) lines).2) := by
  simp only [executeLines, k]
  rcases n.executeLines (number + 1) lines with ⟨failure | results, last⟩ <;> rfl

end

/-! ### The machine -/

/-- The loop of the machine gives the results that there are. -/
theorem runLines_like (answers : β.Answers) : ∀ (lines : List String) {m n : Machine}
    (number : Nat), m.Twin β n →
    ∃ n', n.runLines number lines = ((m.executeLines number lines).1.map List.reduceOption, n') ∧
      (m.executeLines number lines).2.Twin β n'
  | [], _, n, _, h => ⟨n, rfl, h⟩
  | line :: lines, m, n, number, h => by
    unfold runLines
    by_cases empty : (Statement.clean line).isEmpty = true
    · obtain ⟨last, e, twin⟩ := runLines_like answers lines (number + 1) h
      rw [if_pos empty, executeLines_done (m.execute_of_isEmpty empty), e]
      refine ⟨last, ?_, twin⟩
      cases (m.executeLines (number + 1) lines).1 <;> rfl
    · obtain ⟨n', e, twin⟩ := execute_twin h line (.inl answers)
      rw [if_neg empty, e]
      rcases k : m.execute line with ⟨fault | result, m'⟩ <;> rw [k] at twin
      · rw [executeLines_failed k]
        exact ⟨n', rfl, twin⟩
      · obtain ⟨last, e, twin⟩ := runLines_like answers lines (number + 1) twin
        rw [executeLines_done k]
        refine ⟨last, ?_, twin⟩
        dsimp only
        rw [e]
        rcases (m'.executeLines (number + 1) lines).1 with failure | results
        · rfl
        · cases result <;> rfl

end Machine

/-! ### Batch runs -/

namespace Batch

open Machine

variable {m n : Machine}

/-- A line of a batch run is executed, or there is nothing to execute. -/
theorem performLine_like (h : m.Twin β n) (line : String)
    (answers : β.Answers ∨ ∀ i ∈ m.codeOf line, i.asks = false) :
    ∃ n', performLine n line = ((m.execute line).1.map (fun _ => ()), n') ∧
      (m.execute line).2.Twin β n' := by
  unfold performLine
  by_cases empty : (Statement.clean line).isEmpty = true
  · rw [if_pos empty, m.execute_of_isEmpty empty]
    exact ⟨n, rfl, h⟩
  · obtain ⟨n', e, twin⟩ := execute_twin h line answers
    rw [if_neg empty, e]
    generalize m.execute line = p at twin ⊢
    obtain ⟨fault | _ | result, m'⟩ := p
    · exact ⟨n', rfl, twin⟩
    · exact ⟨n', rfl, twin⟩
    · exact ⟨_, rfl, twin.print _⟩

theorem runLines_like (answers : β.Answers) : ∀ (lines : List String) {m n : Machine}
    (number : Nat), m.Twin β n →
    ∃ n', runLines n number lines = ((m.executeLines number lines).1.map (fun _ => ()), n') ∧
      (m.executeLines number lines).2.Twin β n'
  | [], _, n, _, h => ⟨n, rfl, h⟩
  | line :: lines, m, n, number, h => by
    obtain ⟨n', e, twin⟩ := performLine_like h line (.inl answers)
    unfold runLines
    rw [e]
    rcases k : m.execute line with ⟨fault | result, m'⟩ <;> rw [k] at twin
    · rw [executeLines_failed k]
      exact ⟨n', rfl, twin⟩
    · obtain ⟨last, e, twin⟩ := runLines_like answers lines (number + 1) twin
      rw [executeLines_done k]
      refine ⟨last, ?_, twin⟩
      dsimp only [Except.map]
      rw [e]
      cases (m'.executeLines (number + 1) lines).1 <;> rfl

/-- The line of a batch run matters only by its statement. -/
theorem performLine_congr {line line' : String}
    (h : Statement.clean line = Statement.clean line') (m : Machine) :
    performLine m line = performLine m line' := by
  unfold performLine Machine.execute
  rw [h]

/-- Lines from the input run like the lines of a program, if no statement takes one of them. -/
theorem runInput_like : ∀ (count : Nat) {cs : List Char} {m n : Machine} (number : Nat),
    cs.length ≤ count → m.Twin (holding cs) n →
      m.isQuiet ((Text.linesFrom [] cs).map String.ofList) = true →
      ∃ n' rest, runInput number count n =
          ((m.executeLines number ((Text.linesFrom [] cs).map String.ofList)).1.map fun _ => (), n') ∧
        (m.executeLines number ((Text.linesFrom [] cs).map String.ofList)).2.Twin (holding rest) n'
  | 0, cs, m, n, number, few, h, _ => by
    have none : cs = [] := List.eq_nil_of_length_eq_zero (Nat.le_zero.1 few)
    subst none
    exact ⟨n, [], rfl, h⟩
  | count + 1, cs, m, n, number, few, h, quiet => by
    obtain ⟨out, console⟩ := h.core.console
    by_cases none : cs = []
    · subst none
      refine ⟨n.withConsole (.streamed [] (out ++ "")), [], ?_, h.withConsole ⟨_, rfl⟩⟩
      rw [runInput, console]
      rfl
    · obtain ⟨first, lines, clean⟩ := Text.linesFrom_breakLine none
      have shorter := Text.length_breakLine none
      rw [lines, List.map_cons] at quiet ⊢
      have next : m.Twin (holding (Text.breakLine cs).2)
          (n.withConsole (.streamed (Text.breakLine cs).2 (out ++ ""))) :=
        h.withConsole ⟨_, rfl⟩
      rw [isQuiet, Bool.and_eq_true] at quiet
      have silent : ∀ i ∈ m.codeOf (String.ofList first), i.asks = false :=
        fun i mem => by simpa using List.all_eq_true.1 quiet.1 i mem
      obtain ⟨n', e, twin⟩ := performLine_like next (String.ofList first) (.inr silent)
      rw [runInput, console, Console.readLine_streamed none]
      dsimp only
      rw [performLine_congr clean, e]
      rcases k : m.execute (String.ofList first) with ⟨fault | result, m'⟩ <;> rw [k] at twin
      · rw [executeLines_failed k]
        exact ⟨n', _, rfl, twin⟩
      · rw [k] at quiet
        obtain ⟨last, rest, e, twin⟩ := runInput_like count (number + 1) (by omega) twin quiet.2
        rw [executeLines_done k]
        refine ⟨last, rest, ?_, twin⟩
        dsimp only [Except.map]
        rw [e]
        generalize (m'.executeLines _ _).1 = r
        cases r <;> rfl

end Batch

/-! ### The workbench -/

/-- What the workbench says of a failure. -/
def Fault.notice (fault : Fault) : Notice :=
  ⟨(if fault.isSyntax then "Not parsed: " else "Rolled back: ") ++ fault.message, true⟩

/-- What the workbench says of a statement that was executed. -/
def Notice.executed : Notice := ⟨"Executed", false⟩

namespace Workbench

open Machine

variable {m : Machine} {w : Workbench}

theorem perform_like (answers : β.Answers) (h : m.Twin β w.machine) (line : String) :
    (m.execute line).2.Twin β (w.perform line).machine ∧
      (w.perform line).notice = match (m.execute line).1 with
        | .ok _ => .executed
        | .error fault => fault.notice := by
  obtain ⟨n', e, twin⟩ := execute_twin h line (.inl answers)
  unfold perform
  rw [e]
  generalize m.execute line = p at twin ⊢
  obtain ⟨fault | _ | result, m'⟩ := p
  · unfold Fault.notice
    dsimp only
    split
    · exact ⟨twin.print _, rfl⟩
    · exact ⟨twin.print _, rfl⟩
  · exact ⟨twin, rfl⟩
  · exact ⟨twin.print _, rfl⟩

/-- A line that is not left out is no blank line either. -/
theorem not_blank_of_clean {line : String} (some : ¬ (Statement.clean line).isEmpty = true) :
    ¬ line.toList.all Text.isBlank = true := by
  intro blank
  apply some
  have before : ∀ c ∈ Statement.beforeComment .outside line.toList, Text.isBlank c = true :=
    fun c m => List.all_eq_true.1 blank c (Statement.mem_of_mem_beforeComment m)
  unfold Statement.clean Statement.cleanChars
  rw [Text.trim_blank before]
  rfl

@[simp] theorem toEnd_machine (w : Workbench) : w.toEnd.machine = w.machine := rfl

@[simp] theorem toEnd_notice (w : Workbench) : w.toEnd.notice = w.notice := rfl

/-- The workbench after a line was typed and submitted. -/
def enter (w : Workbench) (line : String) : Workbench := { w with input := line }.submit

theorem enter_like (answers : β.Answers) (h : m.Twin β w.machine) {line : String}
    (some : ¬ (Statement.clean line).isEmpty = true) :
    (m.execute line).2.Twin β (w.enter line).machine ∧
      (w.enter line).notice = match (m.execute line).1 with
        | .ok _ => .executed
        | .error fault => fault.notice := by
  have submitted : w.enter line =
      (({ w with input := "" }.toPresent.print ("> " ++ line ++ "\n")).perform line).toEnd := by
    unfold enter submit
    exact if_neg (not_blank_of_clean some)
  have printed : m.Twin β ({ w with input := "" }.toPresent.print ("> " ++ line ++ "\n")).machine :=
    h.print _
  rw [submitted, toEnd_machine, toEnd_notice]
  exact perform_like answers printed line

section

variable {line : String} {lines : List String}

theorem runLines_left_out (empty : (Statement.clean line).isEmpty = true) :
    w.runLines (line :: lines) = w.runLines lines := by
  rw [runLines, if_pos empty]

theorem runLines_cons (some : ¬ (Statement.clean line).isEmpty = true) :
    w.runLines (line :: lines) =
      if (w.enter line).notice.isError then w.enter line else (w.enter line).runLines lines := by
  rw [runLines, if_neg some]
  rfl

/-- Where the lines behind a line fail, the line and they do. -/
theorem failing_cons {fault : Fault} {failing number : Nat} {v : Workbench}
    (step : ∀ rest, w.runLines (line :: rest) = v.runLines rest)
    (h : (v.runLines lines).notice = fault.notice ∧
      ∃ before failed after, lines = before ++ failed :: after ∧
        failing = number + 1 + before.length ∧
        v.runLines lines = (v.runLines before).enter failed) :
    (w.runLines (line :: lines)).notice = fault.notice ∧
      ∃ before failed after, line :: lines = before ++ failed :: after ∧
        failing = number + before.length ∧
        w.runLines (line :: lines) = (w.runLines before).enter failed := by
  obtain ⟨notice, before, failed, after, rfl, rfl, same⟩ := h
  rw [step]
  refine ⟨notice, line :: before, failed, after, rfl, ?_, ?_⟩
  · simp only [List.length_cons]
    omega
  · rw [same, step]

end

/-- The workbench submits all lines with a statement, or all before the first that fails and then
this one. -/
theorem runLines_like (answers : β.Answers) : ∀ (lines : List String) {m : Machine}
    {w : Workbench} (number : Nat), m.Twin β w.machine →
    (m.executeLines number lines).2.Twin β (w.runLines lines).machine ∧
      match (m.executeLines number lines).1 with
      | .ok _ => (w.runLines lines).notice =
          if lines.all fun line => (Statement.clean line).isEmpty then w.notice else .executed
      | .error (failing, fault) => (w.runLines lines).notice = fault.notice ∧
          ∃ before line after, lines = before ++ line :: after ∧
            failing = number + before.length ∧
            w.runLines lines = (w.runLines before).enter line
  | [], _, _, _, h => ⟨h, rfl⟩
  | line :: lines, m, w, number, h => by
    by_cases empty : (Statement.clean line).isEmpty = true
    · obtain ⟨twin, said⟩ := runLines_like answers lines (number + 1) h
      have step (rest : List String) : w.runLines (line :: rest) = w.runLines rest :=
        runLines_left_out empty
      rw [executeLines_done (m.execute_of_isEmpty empty)]
      refine ⟨(step lines).symm ▸ twin, ?_⟩
      dsimp only
      generalize (m.executeLines (number + 1) lines).1 = r at said ⊢
      obtain ⟨failing, fault⟩ | results := r
      · exact failing_cons step said
      · simp only [Except.map, List.all_cons, empty, Bool.true_and, step]
        exact said
    · obtain ⟨twin, said⟩ := enter_like answers h empty
      rcases k : m.execute line with ⟨fault | result, m'⟩ <;> rw [k] at twin said
      · have failed : (w.enter line).notice.isError = true := congrArg Notice.isError said
        rw [executeLines_failed k, runLines_cons empty, if_pos failed]
        exact ⟨twin, said, [], line, lines, rfl, rfl, rfl⟩
      · have went : ¬ (w.enter line).notice.isError = true := by
          rw [said]
          exact Bool.false_ne_true
        have step (rest : List String) :
            w.runLines (line :: rest) = (w.enter line).runLines rest := by
          rw [runLines_cons empty, if_neg went]
        obtain ⟨twin, later⟩ := runLines_like answers lines (number + 1) twin
        rw [executeLines_done k]
        refine ⟨(step lines).symm ▸ twin, ?_⟩
        dsimp only
        generalize (m'.executeLines (number + 1) lines).1 = r at later ⊢
        obtain ⟨failing, fault⟩ | results := r
        · exact failing_cons step later
        · simp only [Except.map, List.all_cons, empty, Bool.false_and, step]
          dsimp only at later
          rw [later, said]
          simp

end Workbench

namespace Machine

/-- **All ways to run a program agree.** From machines that differ only in consoles that answer
alike, the machine, a batch run and the workbench do what executing every line one by one does: the
same results of the same lines, the same first failure at the same line, and the same memory,
symbols and history in the end. A batch run on the lines of its input does so too, if no statement
takes a line. -/
theorem drivers_agree (m : Machine) (source : String) {p b i : Machine} {w : Workbench}
    (hp : m.Twin answering p) (hb : m.Twin answering b) (hw : m.Twin answering w.machine)
    (hi : m.Twin (holding source.toList) i) :
    let lines := Text.lines source
    let reference := m.executeLines 1 lines
    ((p.runProgram source).1 = reference.1.map List.reduceOption ∧
      reference.2.Twin answering (p.runProgram source).2) ∧
    ((Batch.runLines b 1 lines).1 = reference.1.map (fun _ => ()) ∧
      reference.2.Twin answering (Batch.runLines b 1 lines).2) ∧
    (reference.2.Twin answering (w.runScript source).machine ∧
      match reference.1 with
      | .ok _ => (w.runScript source).notice =
          if lines.all fun line => (Statement.clean line).isEmpty then w.notice else .executed
      | .error (failing, fault) => (w.runScript source).notice = fault.notice ∧
          ∃ before line after, lines = before ++ line :: after ∧ failing = before.length + 1 ∧
            w.runScript source = (w.runLines before).enter line) ∧
    (m.isQuiet lines = true →
      (Batch.runInput 1 source.length i).1 = reference.1.map (fun _ => ()) ∧
        ∃ rest, reference.2.Twin (holding rest) (Batch.runInput 1 source.length i).2) := by
  intro lines reference
  have answers : answering.Answers := Console.answering_answers
  refine ⟨?_, ?_, ?_, fun quiet => ?_⟩
  · obtain ⟨n, e, twin⟩ := runLines_like answers lines 1 hp
    unfold runProgram
    rw [e]
    exact ⟨rfl, twin⟩
  · obtain ⟨n, e, twin⟩ := Batch.runLines_like answers lines 1 hb
    rw [e]
    exact ⟨rfl, twin⟩
  · have like := Workbench.runLines_like answers lines 1 hw
    simp only [Nat.add_comm 1] at like
    exact like
  · have enough : source.toList.length ≤ source.length := by rw [String.length_toList]
    obtain ⟨n, rest, e, twin⟩ := Batch.runInput_like source.length 1 enough hi quiet
    rw [e]
    exact ⟨rfl, rest, twin⟩

/-- A program with blank lines that fails in its fourth line, run in all ways. -/
theorem drivers_agree_division :
    let source := "int a = 3\n\n; ;\na / 0\na = 4"
    (fresh.executeLines 1 (Text.lines source)).1 = .error (4, .divisionByZero) ∧
      (fresh.runProgram source).1 = .error (4, .divisionByZero) ∧
      (Batch.runLines fresh 1 (Text.lines source)).1 = .error (4, .divisionByZero) ∧
      ((Workbench.start fresh).runScript source).notice = Fault.divisionByZero.notice ∧
      (Batch.runInput 1 source.length (fresh.withConsole (.streamed source.toList ""))).1 =
        .error (4, .divisionByZero) := by
  intro source
  have failed : (fresh.executeLines 1 (Text.lines source)).1 = .error (4, .divisionByZero) := by
    decide +kernel
  have empty : ∀ n, Console.silent.answer? n = none ∧ (Console.scripted [] "").answer? n = none := by
    intro n
    induction n with
    | zero => exact ⟨rfl, rfl⟩
    | succ n ih => exact ih
  have same : fresh.Twin answering fresh := ⟨rfl, ⟨rfl, rfl, rfl, rfl, fun _ => rfl⟩, rfl⟩
  have console : fresh.core.console = .silent := by decide +kernel
  have bench : fresh.Twin answering (Workbench.start fresh).machine := by
    refine same.withConsole fun n => ?_
    rw [console, (empty n).1, (empty n).2]
  have quiet : fresh.isQuiet (Text.lines source) = true := by decide +kernel
  obtain ⟨⟨program, -⟩, ⟨batch, -⟩, ⟨-, said⟩, input⟩ :=
    drivers_agree fresh source same same bench (same.withConsole ⟨"", rfl⟩)
  rw [failed] at program batch said input
  exact ⟨failed, program, batch, said.1, (input quiet).1⟩

end Machine

end ByteMachine
