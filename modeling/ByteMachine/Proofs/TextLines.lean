import ByteMachine.Proofs.Acceptance
import ByteMachine.Proofs.SourceForm
import ByteMachine.Proofs.States

/-!
# Lines with a text

Three kinds of lines are read here to the last token: one that gives a text to a new `char*`, one
that assigns it to a variable, and one that asks for its length. What such a line is read as depends
on nothing but its tokens, so on no blank, semicolon or comment, and on no other way to write the
characters of the text. The name must be one for a variable; a line that declares is refused if it is
not. Of the first two kinds there is a line for every text of characters up to U+00FF, since each of
them has a byte and every byte can be written by its number.

Key definition: `Statement.tokens`.
Key theorems: `Statement.parse_declareText`, `Statement.parse_assignText`, `Statement.parse_strlen`,
`Statement.exists_declareText`, `Statement.exists_assignText`.
-/

namespace ByteMachine

open Discipline

namespace Parser

variable {scope : Scope} {ls : List Lexeme} {met : List Ty} {name t : String} {a b : Nat}

theorem run_expression_text : (expression scope).run.run ⟨[⟨.text t, a⟩, ⟨.stop, b⟩], met⟩ =
    (.ok (.literal (.text t)), ⟨[⟨.stop, b⟩], met⟩) := rfl

/-- A name of a variable is a whole term where neither arguments nor an index follow. -/
theorem run_term_name (proper : (Identifier.named name).Registrable)
    (call : upcoming ls ≠ .special '(') (index : upcoming ls ≠ .special '[') (fuel : Nat) :
    (term scope (fuel + 1)).run.run ⟨⟨.identifier name, a⟩ :: ls, met⟩ =
      (.ok (.name (.named name)), ⟨ls, met⟩) := by
  have alone := Token.not_mem_prefixes (opensPrimary_of_not_reserved proper.2.2)
  have read : (primary scope (term scope fuel)).run.run ⟨⟨.identifier name, a⟩ :: ls, met⟩ =
      (.ok (.name (.named name)), ⟨ls, met⟩) :=
    run_primary_name proper.1 proper.2.1 proper.2.2 call _
  rw [run_term_other alone]
  refine run_bind_eq_ok.2 ⟨_, _, read, run_bind_eq_ok.2 ⟨_, _, run_remaining _, ?_⟩⟩
  dsimp only
  cases ls.length with
  | zero => rfl
  | succ n => exact run_bind_eq_ok.2 ⟨_, _, run_accept_other index, rfl⟩

/-- Only a proper name is taken for a new variable. -/
theorem run_newName_of_proper (proper : (Identifier.named name).Registrable) :
    newName.run.run ⟨⟨.identifier name, a⟩ :: ls, met⟩ = (.ok (.named name), ⟨ls, met⟩) := by
  obtain ⟨valid, plain, free⟩ := proper
  refine run_bind_eq_ok.2 ⟨_, _, run_next (by nofun), ?_⟩
  have other : (Ty.isKeyword name || Identifier.reserved.contains name) = false := by
    simp [plain, free]
  simp only [other, Bool.false_eq_true, if_false, Identifier.ofName?, valid, if_true]
  rfl

theorem proper_of_newName {id : Identifier} {r : Reading}
    (e : newName.run.run ⟨⟨.identifier name, a⟩ :: ls, met⟩ = (.ok id, r)) :
    (Identifier.named name).Registrable := by
  obtain ⟨_, _, read, e⟩ := run_bind_eq_ok.1 e
  cases (run_next (by nofun)).symm.trans read
  dsimp only at e
  split at e
  · cases e
  · next free =>
    simp only [Bool.or_eq_true, not_or, Bool.not_eq_true, List.contains_iff_mem] at free
    by_cases valid : Identifier.isName name = true
    · exact ⟨valid, free.1, by simpa using free.2⟩
    · rw [Identifier.ofName?, if_neg valid] at e
      cases e

/-- A statement is read if its form is and nothing is left. -/
theorem run_statement {s : Statement} {column : Nat} (some : upcoming ls ≠ .stop)
    (read : (if beginsType (ls.map Lexeme.token) then declaration scope
      else assignmentOrExpression scope).run.run ⟨ls, []⟩ = (.ok s, ⟨[⟨.stop, column⟩], met⟩)) :
    (statement scope).run.run ⟨ls, []⟩ = (.ok (.some s), ⟨[⟨.stop, column⟩], met⟩) := by
  refine run_bind_eq_ok.2 ⟨_, _, run_atEnd _, ?_⟩
  rw [if_neg (by simpa using some)]
  refine run_bind_eq_ok.2 ⟨_, _, run_atType _, ?_⟩
  dsimp only
  by_cases declares : beginsType (ls.map Lexeme.token) = true
  · rw [if_pos declares] at read ⊢
    rw [run_bind, read]
    exact run_bind_eq_ok.2 ⟨_, _, run_atEnd _, rfl⟩
  · rw [if_neg declares] at read ⊢
    rw [run_bind, read]
    exact run_bind_eq_ok.2 ⟨_, _, run_atEnd _, rfl⟩

variable {c d e f : Nat}

/-- The name of a variable, an equals sign and a text. -/
theorem run_statement_assignText (proper : (Identifier.named name).Registrable) :
    (statement scope).run.run
        ⟨[⟨.identifier name, a⟩, ⟨.special '=', b⟩, ⟨.text t, c⟩, ⟨.stop, d⟩], []⟩ =
      (.ok (some (.assignment (.name (.named name)) (.literal (.text t)))), ⟨[⟨.stop, d⟩], []⟩) := by
  refine run_statement (by rintro ⟨⟩) ?_
  have other : beginsType [.identifier name, .special '=', .text t, .stop] = false := by
    rw [beginsType, proper.2.1, Bool.false_and]
  show (if beginsType [.identifier name, .special '=', .text t, .stop] then _ else _ :
    Parser Statement).run.run _ = _
  rw [other, if_neg Bool.false_ne_true]
  have target : (fullTerm scope).run.run
      ⟨[⟨.identifier name, a⟩, ⟨.special '=', b⟩, ⟨.text t, c⟩, ⟨.stop, d⟩], []⟩ =
        (.ok (.name (.named name)), ⟨[⟨.special '=', b⟩, ⟨.text t, c⟩, ⟨.stop, d⟩], []⟩) :=
    run_bind_eq_ok.2 ⟨_, _, run_remaining _, run_term_name proper (by rintro ⟨⟩) (by rintro ⟨⟩) _⟩
  refine run_bind_eq_ok.2 ⟨_, _, target, ?_⟩
  exact run_bind_eq_ok.2 ⟨_, _, run_accept_special, run_bind_eq_ok.2 ⟨_, _, run_expression_text, rfl⟩⟩

/-- The call of `strlen` on a variable. -/
theorem run_statement_strlen (callable : scope.isVariable "strlen" = false)
    (proper : (Identifier.named name).Registrable) :
    (statement scope).run.run ⟨[⟨.identifier "strlen", a⟩, ⟨.special '(', b⟩,
        ⟨.identifier name, c⟩, ⟨.special ')', d⟩, ⟨.stop, e⟩], []⟩ =
      (.ok (some (.expression (.call "strlen" [.name (.named name)]))), ⟨[⟨.stop, e⟩], []⟩) := by
  have operand : (argument (term scope 5)).run.run
      ⟨[⟨.identifier name, c⟩, ⟨.special ')', d⟩, ⟨.stop, e⟩], []⟩ =
        (.ok (.name (.named name)), ⟨[⟨.special ')', d⟩, ⟨.stop, e⟩], []⟩) := by
    have other : beginsType [.identifier name, .special ')', .stop] = false := by
      rw [beginsType, proper.2.1, Bool.false_and]
    refine run_bind_eq_ok.2 ⟨_, _, run_atType _, ?_⟩
    show (if beginsType [.identifier name, .special ')', .stop] then _ else _ :
      Parser Expr).run.run _ = _
    rw [other, if_neg Bool.false_ne_true]
    exact run_bind_eq_ok.2 ⟨_, _, run_term_name proper (by rintro ⟨⟩) (by rintro ⟨⟩) _, rfl⟩
  have called : (primary scope (term scope 5)).run.run ⟨[⟨.identifier "strlen", a⟩,
      ⟨.special '(', b⟩, ⟨.identifier name, c⟩, ⟨.special ')', d⟩, ⟨.stop, e⟩], []⟩ =
        (.ok (.call "strlen" [.name (.named name)]), ⟨[⟨.stop, e⟩], []⟩) := by
    refine run_bind_eq_ok.2 ⟨.identifier "strlen", _, rfl, ?_⟩
    refine run_bind_eq_ok.2 ⟨true, _, rfl, ?_⟩
    show (if scope.isVariable "strlen" then _ else _ : Parser Expr).run.run _ = _
    rw [callable, if_neg Bool.false_ne_true]
    refine run_bind_eq_ok.2 ⟨false, _, rfl, ?_⟩
    refine run_bind_eq_ok.2 ⟨3, _, rfl, ?_⟩
    refine run_bind_eq_ok.2 ⟨[.name (.named name)], _, ?_, rfl⟩
    exact run_bind_eq_ok.2 ⟨_, _, operand, rfl⟩
  refine run_statement (by rintro ⟨⟩) ?_
  have whole : (fullTerm scope).run.run ⟨[⟨.identifier "strlen", a⟩, ⟨.special '(', b⟩,
      ⟨.identifier name, c⟩, ⟨.special ')', d⟩, ⟨.stop, e⟩], []⟩ =
        (.ok (.call "strlen" [.name (.named name)]), ⟨[⟨.stop, e⟩], []⟩) :=
    run_bind_eq_ok.2 ⟨5, _, rfl, (run_term_other (by decide)).trans
      (run_bind_eq_ok.2 ⟨_, _, called, rfl⟩)⟩
  exact run_bind_eq_ok.2 ⟨_, _, whole, rfl⟩

/-- The type `char*`, a name, an equals sign and a text. -/
theorem run_statement_declareText (proper : (Identifier.named name).Registrable) :
    (statement scope).run.run ⟨[⟨.identifier "char", a⟩, ⟨.special '*', b⟩,
        ⟨.identifier name, c⟩, ⟨.special '=', d⟩, ⟨.text t, e⟩, ⟨.stop, f⟩], []⟩ =
      (.ok (some (.scalarDeclaration Ty.charPointer (.named name) (some (.literal (.text t))))),
        ⟨[⟨.stop, f⟩], [Ty.charPointer]⟩) := by
  refine run_statement (by nofun) ?_
  show (declaration scope).run.run _ = _
  refine run_bind_eq_ok.2 ⟨Ty.charPointer, _, rfl, ?_⟩
  refine run_bind_eq_ok.2 ⟨false, _, rfl, ?_⟩
  refine run_bind_eq_ok.2 ⟨_, _, run_newName_of_proper proper, ?_⟩
  refine run_bind_eq_ok.2 ⟨false, _, rfl, ?_⟩
  rfl

/-- Such a declaration is read only if the name is one for a variable. -/
theorem proper_of_statement {s : Option Statement} {r : Reading}
    (ran : (statement scope).run.run ⟨[⟨.identifier "char", a⟩, ⟨.special '*', b⟩,
      ⟨.identifier name, c⟩, ⟨.special '=', d⟩, ⟨.text t, e⟩, ⟨.stop, f⟩], []⟩ = (.ok s, r)) :
    (Identifier.named name).Registrable := by
  obtain ⟨_, _, atEnd, ran⟩ := run_bind_eq_ok.1 ran
  cases atEnd
  obtain ⟨_, _, atType, ran⟩ := run_bind_eq_ok.1 ran
  cases atType
  obtain ⟨_, _, declared, -⟩ := run_bind_eq_ok.1 ran
  obtain ⟨_, _, type, declared⟩ := run_bind_eq_ok.1 declared
  cases type
  obtain ⟨_, _, reference, declared⟩ := run_bind_eq_ok.1 declared
  cases reference
  obtain ⟨_, _, named, -⟩ := run_bind_eq_ok.1 declared
  exact proper_of_newName named

end Parser

/-- The tokens that a line is read as. -/
def Statement.tokens (line : String) : List Token := (lexemes (clean line)).map Lexeme.token

/-! ### Every text has a line -/

section

open Lexer

/-- Every text of characters up to U+00FF can be written between quotes. -/
theorem Text.IsLatin.exists_word {t : String} (latin : Text.IsLatin t) :
    ∃ w, Word (.text t) w := by
  obtain ⟨w, spelled⟩ := exists_spelling_iff.1 (show (Token.text t).IsSource from latin)
  exact ⟨w, spelled.word⟩

theorem exists_word_of_isName {name : String} (h : Identifier.isName name = true) :
    ∃ w, Word (.identifier name) w := by
  unfold Identifier.isName at h
  split at h
  · cases h
  · next c cs whole =>
    simp only [Bool.and_eq_true, List.all_eq_true] at h
    have word := Word.identifier h.1.1 h.2
    rw [← whole, String.ofList_toList] at word
    exact ⟨_, word⟩

/-- Words can be written with a blank behind each. -/
theorem exists_spells : ∀ {ts : List Token}, (∀ t ∈ ts, ∃ w, Word t w) → ∃ cs, Spells ts cs
  | [], _ => ⟨[], .nil⟩
  | t :: ts, words => by
    obtain ⟨w, word⟩ := words t List.mem_cons_self
    obtain ⟨cs, rest⟩ := exists_spells fun u mem => words u (.tail _ mem)
    refine ⟨w ++ ' ' :: cs, .word word ?_ (.blank rfl rest)⟩
    rintro _ ⟨⟩
    cases t <;> rfl

end

namespace Statement

/-- Words of which no two run together make up a line. -/
theorem exists_line {ts : List Token} (words : ∀ t ∈ ts, ∃ w, Word t w) (chain : ts.IsChain Parted)
    (none : ∀ t ∈ ts, t ≠ .special ';') : ∃ line, tokens line = ts ++ [.stop] := by
  obtain ⟨cs, spells⟩ := exists_spells words
  have cleaned : Spells ts (clean (String.ofList cs)).toList := by
    rw [clean, String.toList_ofList, String.toList_ofList]
    exact spells.cleanChars chain none
  exact ⟨String.ofList cs, cleaned.lexemes chain none⟩

variable {name t : String}

theorem exists_assignText (latin : Text.IsLatin t) (proper : (Identifier.named name).Registrable) :
    ∃ line, tokens line = [.identifier name, .special '=', .text t, .stop] := by
  have start := exists_word_of_isName proper.1
  have words : ∀ u ∈ [Token.identifier name, .special '=', .text t], ∃ w, Word u w := by
    simp only [List.forall_mem_cons]
    exact ⟨start, ⟨_, .special (by decide)⟩, latin.exists_word, by simp⟩
  refine exists_line words ?_ (by simp)
  simp [parted_name, parted_special]

theorem exists_declareText (latin : Text.IsLatin t)
    (proper : (Identifier.named name).Registrable) : ∃ line, tokens line =
      [.identifier "char", .special '*', .identifier name, .special '=', .text t, .stop] := by
  have start := exists_word_of_isName proper.1
  have words : ∀ u ∈ [Token.identifier "char", .special '*', .identifier name, .special '=', .text t],
      ∃ w, Word u w := by
    simp only [List.forall_mem_cons]
    exact ⟨exists_word_of_isName (by decide), ⟨_, .special (by decide)⟩, start,
      ⟨_, .special (by decide)⟩, latin.exists_word, by simp⟩
  refine exists_line words ?_ (by simp)
  simp [parted_name, parted_special]

variable {scope : Scope} {line name t : String} {met : List Ty}

/-- A line is read as what its tokens are read as. -/
theorem parse_of_run {ts : List Token} (e : tokens line = ts ++ [.stop]) {s : Option Statement}
    (read : ∀ ls column, Ahead ls ts [⟨.stop, column⟩] →
      (Parser.statement scope).run.run ⟨ls, []⟩ = (.ok s, ⟨[⟨.stop, column⟩], met⟩)) :
    parse scope (clean line) = (.ok s, met) := by
  obtain ⟨_, ahead⟩ := ahead_of_map e
  unfold parse
  rw [read _ _ ahead]

theorem parse_assignText (e : tokens line = [.identifier name, .special '=', .text t, .stop])
    (proper : (Identifier.named name).Registrable) :
    parse scope (clean line) =
      (.ok (some (.assignment (.name (.named name)) (.literal (.text t)))), []) := by
  have tokens : tokens line = [.identifier name, .special '=', .text t] ++ [.stop] := e
  refine parse_of_run tokens fun ls column ahead => ?_
  rcases ahead with _ | _ | _ | _ | _
  exact Parser.run_statement_assignText proper

theorem parse_strlen (e : tokens line =
      [.identifier "strlen", .special '(', .identifier name, .special ')', .stop])
    (callable : scope.isVariable "strlen" = false)
    (proper : (Identifier.named name).Registrable) :
    parse scope (clean line) =
      (.ok (some (.expression (.call "strlen" [.name (.named name)]))), []) := by
  have tokens : tokens line =
      [.identifier "strlen", .special '(', .identifier name, .special ')'] ++ [.stop] := e
  refine parse_of_run tokens fun ls column ahead => ?_
  rcases ahead with _ | _ | _ | _ | _ | _
  exact Parser.run_statement_strlen callable proper

/-- A line of this form is read as a declaration, unless the name is none for a variable. -/
theorem parse_declareText (e : tokens line =
      [.identifier "char", .special '*', .identifier name, .special '=', .text t, .stop])
    {s : Option Statement} (read : parse scope (clean line) = (.ok s, met)) :
    s = some (.scalarDeclaration Ty.charPointer (.named name) (some (.literal (.text t)))) ∧
      met = [Ty.charPointer] := by
  have tokens : tokens line =
      [.identifier "char", .special '*', .identifier name, .special '=', .text t] ++ [.stop] := e
  obtain ⟨_, ahead⟩ := ahead_of_map tokens
  unfold parse at read
  generalize lexemes (clean line) = ls at ahead read
  rcases ahead with _ | _ | _ | _ | _ | _ | _
  split at read
  next result reading ran =>
    cases read
    have proper := Parser.proper_of_statement ran
    rw [Parser.run_statement_declareText proper] at ran
    cases ran
    exact ⟨rfl, rfl⟩

end Statement

end ByteMachine
