import ByteMachine.Proofs.Derivation

/-!
# Only proper tokens are read

A reader that succeeds has passed proper tokens: words of the language and no semicolons. In
expressions, assignments and types this follows from the grammar, and the other parts of a
declaration pass one token after the other. A statement ends where its line ends, so a line in
which any token is improper is refused.

Key definitions: `Parser.Passes`.
Key theorems: `Parser.statement_passes`, `Statement.proper_of_parse`, `Statement.error_of_improper`.
-/

namespace ByteMachine

open Discipline

namespace Parser

variable {α β : Type} {x : Parser α} {scope : Scope}

/-- A reader that succeeds passes proper tokens. -/
def Passes (x : Parser α) : Prop :=
  ∀ (r r' : Reading) (a : α), x.run.run r = (.ok a, r') →
    ∃ ts, Ahead r.ahead ts r'.ahead ∧ ∀ t ∈ ts, t.isProper = true

theorem passes_throw (fault : SyntaxFault) : Passes (throw fault : Parser α) :=
  fun _ _ _ ok => nomatch ok

theorem passes_fail (cause : SyntaxCause) : Passes (fail cause : Parser α) :=
  fun _ _ _ ok => (not_fail ok).elim

/-- A reader that leaves the tokens where they are. -/
theorem passes_of_still (h : ∀ r, (x.run.run r).2.ahead = r.ahead) : Passes x := fun r _ _ ok => by
  have still := h r
  rw [ok] at still
  exact ⟨[], still ▸ .nil, List.forall_mem_nil _⟩

theorem passes_pure (a : α) : Passes (pure a) := passes_of_still fun _ => rfl

theorem Passes.bind (hx : Passes x) {f : α → Parser β} (hf : ∀ a, Passes (f a)) :
    Passes (x >>= f) := fun _ _ _ ok => by
  obtain ⟨a, u, first, rest⟩ := run_bind_eq_ok.1 ok
  obtain ⟨ts, ahead, proper⟩ := hx _ _ _ first
  obtain ⟨us, ahead', proper'⟩ := hf a _ _ _ rest
  exact ⟨ts ++ us, ahead.append ahead', List.forall_mem_append.2 ⟨proper, proper'⟩⟩

theorem remaining_passes : Passes remaining := passes_of_still fun _ => rfl

theorem atEnd_passes : Passes atEnd := passes_of_still fun r => by rw [run_atEnd]

theorem built_passes (t : Except TypeFault Ty) : Passes (built t) := by
  unfold built
  split
  · exact (passes_of_still (x := meet _) fun _ => rfl).bind fun _ => passes_pure _
  · exact passes_fail _

theorem accept_passes {c : Char} (h : c ≠ ';') : Passes (accept c) := fun _ _ _ ok => by
  rcases accept_cases ok with ⟨-, ahead⟩ | ⟨-, rfl, -⟩
  · exact ⟨_, ahead, List.forall_mem_singleton.2 (decide_eq_true h)⟩
  · exact ⟨[], .nil, List.forall_mem_nil _⟩

theorem expect_passes {c : Char} (h : c ≠ ';') (cause : SyntaxCause) : Passes (expect c cause) :=
  (accept_passes h).bind fun accepted => by
    cases accepted with
    | true => exact passes_pure _
    | false => exact passes_fail _

/-- The next token has to be proper, if what is read behind it depends on that. -/
theorem next_passes {f : Token → Parser β} (proper : ∀ t, t.isProper = true → Passes (f t))
    (refused : ∀ t, t.isProper = false → ∀ r r' b, (f t).run.run r ≠ (.ok b, r')) :
    Passes (next >>= f) := fun _ _ _ ok => by
  obtain ⟨t, u, read, rest⟩ := run_bind_eq_ok.1 ok
  cases h : t.isProper with
  | false => exact absurd rest (refused t h _ _ _)
  | true =>
    have word : t ≠ .stop := by
      rintro rfl
      cases h
    obtain ⟨ts, ahead, rest⟩ := proper t h _ _ _ rest
    exact ⟨t :: ts, (ahead_of_next read word).append ahead, List.forall_mem_cons.2 ⟨h, rest⟩⟩

theorem type_passes : Passes type := fun _ _ _ ok => by
  obtain ⟨ts, typed, ahead, -⟩ := typed_of_type ok
  exact ⟨ts, ahead, typed.fine.proper⟩

theorem newName_passes : Passes newName := by
  refine next_passes (fun t proper => ?_) fun t improper => ?_
  · split
    · split
      · exact passes_throw _
      · split
        · exact passes_pure _
        · exact passes_throw _
    · exact passes_fail _
  · cases t with
    | identifier => cases improper
    | _ => exact fun _ _ _ ok => not_fail ok

theorem expression_passes : Passes (expression scope) := fun _ _ _ ok => by
  obtain ⟨ts, ahead, derived⟩ := derives_of_expressionOf sound_fullTerm ok
  exact ⟨ts, ahead, derived.fine.proper⟩

theorem elements_passes : ∀ fuel, Passes (elements scope fuel)
  | 0 => passes_fail _
  | fuel + 1 => by
    refine expression_passes.bind fun first => (accept_passes (by decide)).bind fun comma => ?_
    split
    · exact (elements_passes fuel).bind fun rest => passes_pure _
    · exact (expect_passes (by decide) _).bind fun _ => passes_pure _

theorem arrayLength_passes : Passes arrayLength := by
  have sized (n : Nat) : Passes (do
      expect ']' .openLength
      if 0 < n && n < Number.addressBound then return some n else fail .lengthNotPositive) := by
    refine (expect_passes (by decide) _).bind fun _ => ?_
    split
    · exact passes_pure _
    · exact passes_fail _
  refine next_passes (fun t proper => ?_) fun t improper => ?_
  · split
    · split
      · exact passes_pure _
      · exact passes_fail _
    · exact sized _
    · exact sized _
    · exact passes_fail _
  · cases t with
    | integer | hexadecimal => cases improper
    | special c =>
      obtain rfl : c = ';' := by simpa [Token.isProper] using improper
      exact fun _ _ _ ok => not_fail ok
    | _ => exact fun _ _ _ ok => not_fail ok

theorem arrayDeclaration_passes (element : Ty) (id : Identifier) :
    Passes (arrayDeclaration scope element id) := by
  have array (count : Nat) (f : Ty → Statement) : Passes (do
      return f (← built (Ty.arrayOf scope.word element count))) :=
    (built_passes _).bind fun _ => passes_pure _
  refine arrayLength_passes.bind fun count => (accept_passes (by decide)).bind fun assigned => ?_
  split
  · split
    · exact passes_fail _
    · refine atEnd_passes.bind fun ends => ?_
      split
      · exact passes_fail _
      · exact array _ _
  · intro r r' s ok
    obtain ⟨t, u, peeked, rest⟩ := run_bind_eq_ok.1 ok
    rw [run_peek] at peeked
    cases peeked
    split at rest
    · next text upcoming =>
      split at rest
      · exact (not_fail rest).elim
      · -- The text that was seen is passed over.
        obtain ⟨⟨⟩, u, advanced, rest⟩ := run_bind_eq_ok.1 rest
        have ahead := ahead_of_advance advanced upcoming nofun
        obtain ⟨ts, ahead', proper⟩ := array _ (.textDeclaration · id text) _ _ _ rest
        exact ⟨_, ahead.append ahead', List.forall_mem_cons.2 ⟨rfl, proper⟩⟩
    · refine ((expect_passes (by decide) _).bind fun _ => remaining_passes.bind fun fuel =>
        (elements_passes fuel).bind fun es => ?_) _ _ _ rest
      dsimp only
      split
      · exact passes_fail _
      · exact array _ (.listDeclaration · id es)

theorem declaration_passes : Passes (declaration scope) := by
  refine type_passes.bind fun base => (accept_passes (by decide)).bind fun isReference => ?_
  refine newName_passes.bind fun id => (accept_passes (by decide)).bind fun bracket => ?_
  have initialized {x y : Parser Statement} (hx : Passes x) (hy : Passes y) : Passes (do
      if (← accept '=') then x else y) := by
    refine (accept_passes (by decide)).bind fun assigned => ?_
    split
    · exact hx
    · exact hy
  have ended {x y : Parser Statement} (hx : Passes x) (hy : Passes y) : Passes (do
      if (← atEnd) then x else y) := by
    refine atEnd_passes.bind fun ends => ?_
    split
    · exact hx
    · exact hy
  split
  · split
    · exact passes_fail _
    · exact arrayDeclaration_passes base id
  · split
    · exact initialized (expression_passes.bind fun source => (built_passes _).bind fun t =>
        passes_pure _) (ended (passes_throw _) (passes_fail _))
    · exact initialized (expression_passes.bind fun e => passes_pure _)
        (ended (passes_pure _) (passes_fail _))

theorem assignmentOrExpression_passes : Passes (assignmentOrExpression scope) := fun _ _ _ ok => by
  obtain ⟨ts, ahead, derived⟩ := derives_of_assignmentOrExpression ok
  exact ⟨ts, ahead, derived.fine.proper⟩

/-- A statement that is read ends at the end. -/
theorem statement_passes {r r' : Reading} {s? : Option Statement}
    (ok : (statement scope).run.run r = (.ok s?, r')) :
    ∃ ts, Ahead r.ahead ts r'.ahead ∧ (∀ t ∈ ts, t.isProper = true) ∧
      upcoming r'.ahead = .stop := by
  have whole {x : Parser Statement} (hx : Passes x) {u : Reading} (ok : (do
      let s ← x
      if (← atEnd) then return some s else fail (.unexpected (← peek))).run.run u = (.ok s?, r')) :
      ∃ ts, Ahead u.ahead ts r'.ahead ∧ (∀ t ∈ ts, t.isProper = true) ∧
        upcoming r'.ahead = .stop := by
    obtain ⟨s, v, read, rest⟩ := run_bind_eq_ok.1 ok
    obtain ⟨ts, ahead, proper⟩ := hx _ _ _ read
    rw [run_bind, run_atEnd] at rest
    dsimp only at rest
    split at rest
    · next ends =>
      cases rest
      exact ⟨ts, ahead, proper, of_decide_eq_true ends⟩
    · obtain ⟨_, _, -, failed⟩ := run_bind_eq_ok.1 rest
      exact (not_fail failed).elim
  rw [statement, run_bind, run_atEnd] at ok
  dsimp only at ok
  split at ok
  · next ends =>
    cases ok
    exact ⟨[], .nil, List.forall_mem_nil _, of_decide_eq_true ends⟩
  · rw [run_bind, run_atType] at ok
    dsimp only at ok
    split at ok
    · exact whole declaration_passes ok
    · exact whole assignmentOrExpression_passes ok

end Parser

namespace Statement

variable {scope : Scope} {line : String}

/-- A line that is read falls into proper tokens, and then it ends. -/
theorem proper_of_parse {s? : Option Statement} (ok : (parse scope line).1 = .ok s?) :
    ∃ ts, (lexemes line).map Lexeme.token = ts ++ [.stop] ∧ ∀ t ∈ ts, t.isProper = true := by
  obtain ⟨us, tokens, once⟩ := stop_of_lexemes line
  unfold parse at ok
  generalize lexemes line = ls at ok tokens
  rcases k : (Parser.statement scope).run.run ⟨ls, []⟩ with ⟨result, r'⟩
  rw [k] at ok
  obtain rfl : result = .ok s? := ok
  obtain ⟨ts, ahead, proper, ends⟩ := Parser.statement_passes k
  have stop : .stop ∉ ts := fun mem => absurd (proper _ mem) (by decide)
  exact ⟨ts, tokens_of_ahead tokens once ahead stop ends, proper⟩

/-- So a line with an improper token before its end is refused. -/
theorem error_of_improper {l : Lexeme} (mem : l ∈ lexemes line) (stop : l.token ≠ .stop)
    (improper : l.token.isProper = false) : ∃ fault, (parse scope line).1 = .error fault := by
  cases result : (parse scope line).1 with
  | error fault => exact ⟨fault, rfl⟩
  | ok s? =>
    obtain ⟨ts, tokens, proper⟩ := proper_of_parse result
    have inside : l.token ∈ ts ++ [.stop] := tokens ▸ List.mem_map_of_mem mem
    rw [List.mem_append, List.mem_singleton] at inside
    rcases inside with inside | last
    · rw [proper _ inside] at improper
      cases improper
    · exact absurd last stop

end Statement

end ByteMachine
