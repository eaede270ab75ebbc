import ByteMachine.Proofs.Drivers
import ByteMachine.Proofs.ProperTokens
import Mathlib.Logic.Function.Iterate

/-!
# Cleaning a line more than once

A line is cleaned before it is run and once more before it is read. Cleaning takes away the comment,
the blanks on both sides and one run of semicolons, and a second cleaning takes one run more. What
it leaves begins and ends with no blank and holds no comment. So a line that ends in at most one run
of semicolons is cleaned for good, and semicolons and blanks behind it make no difference to how it
is read. A line that ends in more of them, with blanks between, still ends in a semicolon, and as
long as it does it is refused.

Seen from the end of the line a cleaning drops semicolons and then blanks, and the runs are counted
by what it drops.

Key definitions: `Statement.terminators`, `Statement.bare`, `Statement.Uncommented`,
`Statement.strip`, `Statement.CleaningLaw`.
Key theorems: `Statement.iterate_strip_eq_iff`, `Statement.fromEnd_iterate_cleanChars`,
`Statement.error_of_semicolon`, `Statement.cleaning_law`.
-/

namespace ByteMachine

open Lexer

/-- The text does not begin with a blank. -/
def Text.Flush (cs : List Char) : Prop := ∀ c, cs.head? = some c → isBlank c = false

theorem Text.flush_dropWhile (cs : List Char) : Flush (cs.dropWhile isBlank) :=
  fun _ head => head?_dropWhile_eq_false head

theorem Text.Flush.dropWhile_eq {cs : List Char} (h : Flush cs) : cs.dropWhile isBlank = cs := by
  cases cs with
  | nil => rfl
  | cons c cs => rw [List.dropWhile_cons_of_neg (by simp [h c rfl])]

theorem Text.dropEndWhile_starts (p : Char → Bool) (cs : List Char) : dropEndWhile p cs <+: cs := by
  rw [dropEndWhile, ← List.reverse_suffix, List.reverse_reverse]
  exact List.dropWhile_suffix p

theorem Quoting.next_outside {c : Char} (text : c ≠ '\x22') (char : c ≠ '\x27') :
    next .outside c = .outside := by
  simp [next, isQuote, text, char]

namespace Statement

/-! ### What a line ends in -/

/-- A character that may stand behind a statement. -/
def isTrail (c : Char) : Bool := Text.isBlank c || c = ';'

/-- How many runs of semicolons there are. -/
def runs : List Char → Nat
  | [] => 0
  | c :: cs => if c = ';' ∧ cs.head? ≠ some ';' then runs cs + 1 else runs cs

/-- A line without its comment and the blanks before it. -/
def body (line : List Char) : List Char := Text.trimStart (beforeComment .outside line)

/-- How many runs of semicolons a line ends in before its comment, with blanks between them. -/
def terminators (line : String) : Nat := runs ((body line.toList).reverse.takeWhile isTrail)

/-- A line without its comment, the blanks before it and the blanks and semicolons behind it. -/
def bare (line : String) : String :=
  String.ofList (Text.dropEndWhile isTrail (body line.toList))

/-! ### One cleaning, seen from the end -/

/-- What a cleaning drops from the end: semicolons and then blanks. -/
def strip (cs : List Char) : List Char := (cs.dropWhile fun c => c = ';').dropWhile Text.isBlank

/-- How many runs of semicolons a text starts with, with blanks between them. -/
def leading (cs : List Char) : Nat := runs (cs.takeWhile isTrail)

theorem isTrail_of_isBlank {c : Char} (h : Text.isBlank c = true) : isTrail c = true := by
  rw [isTrail, h, Bool.true_or]

theorem leading_cons_blank {c : Char} (blank : Text.isBlank c = true) (cs : List Char) :
    leading (c :: cs) = leading cs := by
  have other : c ≠ ';' := by
    rintro rfl
    cases blank
  rw [leading, List.takeWhile_cons_of_pos (isTrail_of_isBlank blank), runs,
    if_neg fun h => other h.1]
  rfl

theorem leading_cons_semicolon (cs : List Char) :
    leading (';' :: cs) = leading cs + if cs.head? = some ';' then 0 else 1 := by
  have next : (cs.takeWhile isTrail).head? = some ';' ↔ cs.head? = some ';' := by
    cases cs with
    | nil => rfl
    | cons c cs =>
      by_cases trail : isTrail c = true
      · rw [List.takeWhile_cons_of_pos trail]
        rfl
      · rw [List.takeWhile_cons_of_neg trail]
        refine iff_of_false nofun fun semicolon => trail ?_
        rw [Option.some.inj semicolon]
        rfl
  rw [leading, List.takeWhile_cons_of_pos rfl, runs]
  by_cases more : cs.head? = some ';'
  · rw [if_neg fun h => h.2 (next.2 more), if_pos more]
    rfl
  · rw [if_pos ⟨rfl, fun h => more (next.1 h)⟩, if_neg more]
    rfl

/-- A text that starts with anything else has none. -/
theorem leading_cons_other {c : Char} (other : ¬ isTrail c = true) (cs : List Char) :
    leading (c :: cs) = 0 := by
  rw [leading, List.takeWhile_cons_of_neg other]
  rfl

theorem leading_dropWhile_isBlank : ∀ cs : List Char,
    leading (cs.dropWhile Text.isBlank) = leading cs
  | [] => rfl
  | c :: cs => by
    by_cases blank : Text.isBlank c = true
    · rw [List.dropWhile_cons_of_pos blank, leading_dropWhile_isBlank cs,
        leading_cons_blank blank]
    · rw [List.dropWhile_cons_of_neg blank]

/-- A run is dropped as a whole. -/
theorem leading_dropWhile_semicolon : ∀ cs : List Char,
    leading cs = leading (cs.dropWhile fun c => c = ';') + if cs.head? = some ';' then 1 else 0
  | [] => rfl
  | c :: cs => by
    by_cases semicolon : c = ';'
    · subst semicolon
      rw [List.dropWhile_cons_of_pos rfl, leading_cons_semicolon, leading_dropWhile_semicolon cs,
        List.head?_cons, if_pos rfl]
      split <;> rfl
    · rw [List.dropWhile_cons_of_neg (by simpa using semicolon), if_neg (by simpa using semicolon)]
      rfl

theorem dropWhile_isTrail_of_dropWhile {p : Char → Bool}
    (trail : ∀ c, p c = true → isTrail c = true) :
    ∀ cs : List Char, (cs.dropWhile p).dropWhile isTrail = cs.dropWhile isTrail
  | [] => rfl
  | c :: cs => by
    by_cases drops : p c = true
    · rw [List.dropWhile_cons_of_pos drops, List.dropWhile_cons_of_pos (trail c drops),
        dropWhile_isTrail_of_dropWhile trail cs]
    · rw [List.dropWhile_cons_of_neg drops]

theorem flush_strip (cs : List Char) : Text.Flush (strip cs) := Text.flush_dropWhile _

/-- In the end a cleaning drops nothing that is not dropped anyway. -/
theorem dropWhile_isTrail_strip (cs : List Char) :
    (strip cs).dropWhile isTrail = cs.dropWhile isTrail := by
  rw [strip, dropWhile_isTrail_of_dropWhile fun _ => isTrail_of_isBlank,
    dropWhile_isTrail_of_dropWhile fun c semicolon => by rw [of_decide_eq_true semicolon]; rfl]

theorem dropWhile_isTrail_iterate_strip (cs : List Char) : ∀ k : Nat,
    (strip^[k] cs).dropWhile isTrail = cs.dropWhile isTrail
  | 0 => rfl
  | k + 1 => by
    rw [Function.iterate_succ_apply', dropWhile_isTrail_strip, dropWhile_isTrail_iterate_strip cs k]

/-- Where no blank stands only a semicolon is dropped. -/
theorem isTrail_iff_of_flush {c : Char} {cs : List Char} (flush : Text.Flush (c :: cs)) :
    isTrail c = true ↔ c = ';' := by
  simp [isTrail, flush c rfl]

section

variable {cs : List Char} (flush : Text.Flush cs)

include flush

theorem leading_pos_iff : 0 < leading cs ↔ cs.head? = some ';' := by
  rw [leading_dropWhile_semicolon]
  split
  · next semicolon => exact iff_of_true (Nat.succ_pos _) semicolon
  · next semicolon =>
    refine iff_of_false ?_ semicolon
    cases cs with
    | nil => exact Nat.lt_irrefl 0
    | cons c cs =>
      have semicolon : c ≠ ';' := by simpa using semicolon
      have other := mt (isTrail_iff_of_flush flush).1 semicolon
      rw [List.dropWhile_cons_of_neg (by simpa using semicolon), leading_cons_other other]
      exact Nat.lt_irrefl 0

/-- Each cleaning drops one run, if there is one. -/
theorem leading_strip : leading (strip cs) = leading cs - 1 := by
  have dropped := leading_dropWhile_semicolon cs
  have first := leading_pos_iff flush
  rw [strip, leading_dropWhile_isBlank]
  split at dropped
  · omega
  · next semicolon =>
    have none : ¬ 0 < leading cs := fun some => semicolon (first.1 some)
    omega

/-- In the end nothing is dropped exactly if there is no run. -/
theorem dropWhile_isTrail_eq_iff : cs.dropWhile isTrail = cs ↔ leading cs = 0 := by
  cases cs with
  | nil => exact iff_of_true rfl rfl
  | cons c cs =>
    by_cases semicolon : c = ';'
    · subst semicolon
      have some : 0 < leading (';' :: cs) := (leading_pos_iff flush).2 rfl
      refine iff_of_false (fun whole => ?_) (Nat.ne_of_gt some)
      have shorter : (cs.dropWhile isTrail).length ≤ cs.length :=
        (List.dropWhile_suffix _).length_le
      rw [List.dropWhile_cons_of_pos rfl] at whole
      rw [whole, List.length_cons] at shorter
      omega
    · have other := mt (isTrail_iff_of_flush flush).1 semicolon
      exact iff_of_true (List.dropWhile_cons_of_neg other) (leading_cons_other other cs)

theorem flush_iterate_strip : ∀ k : Nat, Text.Flush (strip^[k] cs)
  | 0 => flush
  | k + 1 => by
    rw [Function.iterate_succ_apply']
    exact flush_strip _

theorem leading_iterate_strip : ∀ k : Nat, leading (strip^[k] cs) = leading cs - k
  | 0 => rfl
  | k + 1 => by
    rw [Function.iterate_succ_apply', leading_strip (flush_iterate_strip flush k),
      leading_iterate_strip k, Nat.sub_sub]

/-- All is dropped by as many cleanings as there are runs. -/
theorem iterate_strip_eq_iff (k : Nat) :
    strip^[k] cs = cs.dropWhile isTrail ↔ leading cs ≤ k := by
  rw [← dropWhile_isTrail_iterate_strip cs k, eq_comm,
    dropWhile_isTrail_eq_iff (flush_iterate_strip flush k), leading_iterate_strip flush,
    Nat.sub_eq_zero_iff_le]

end

/-! ### Comments -/

/-- Two slashes in a row stand only inside of quotes. Before the text the reader is in state `s`. -/
def Uncommented (s : Quoting) (text : List Char) : Prop :=
  ∀ before behind, text = before ++ '/' :: '/' :: behind → before.foldl Quoting.next s ≠ .outside

theorem Uncommented.start {s : Quoting} {text start : List Char} (h : Uncommented s text)
    (begins : start <+: text) : Uncommented s start := by
  rintro before behind rfl
  obtain ⟨rest, rfl⟩ := begins
  exact h before (behind ++ rest) (by simp)

/-- Blanks before a text do not matter. -/
theorem Uncommented.trimStart : ∀ {text : List Char}, Uncommented .outside text →
    Uncommented .outside (Text.trimStart text)
  | [], h => h
  | c :: cs, h => by
    unfold Text.trimStart
    by_cases blank : Text.isBlank c = true
    · rw [List.dropWhile_cons_of_pos blank]
      refine trimStart fun before behind e => ?_
      have outside : Quoting.next .outside c = .outside := by
        refine Quoting.next_outside ?_ ?_ <;> rintro rfl <;> cases blank
      have kept := h (c :: before) behind (by rw [e, List.cons_append])
      rwa [List.foldl_cons, outside] at kept
    · rwa [List.dropWhile_cons_of_neg blank]

theorem head?_of_beforeComment {s : Quoting} {cs : List Char} {c : Char}
    (h : (beforeComment s cs).head? = some c) : cs.head? = some c := by
  cases cs with
  | nil => exact h
  | cons d ds =>
    rw [beforeComment] at h
    split at h
    · cases h
    · exact h

/-- What stands before a comment holds none. -/
theorem uncommented_beforeComment : ∀ (s : Quoting) (cs : List Char),
    Uncommented s (beforeComment s cs)
  | _, [] => fun before behind e => by simp [beforeComment] at e
  | s, c :: cs => by
    rw [beforeComment]
    split
    · exact fun before behind e => by simp at e
    · next none =>
      intro before behind e
      cases before with
      | nil =>
        -- The second slash is the next character of the line as well.
        obtain ⟨rfl, rest⟩ := List.cons.inj e
        rintro rfl
        exact none ⟨rfl, rfl, head?_of_beforeComment (congrArg List.head? rest)⟩
      | cons d before =>
        obtain ⟨rfl, rest⟩ := List.cons.inj e
        exact uncommented_beforeComment (s.next c) cs before behind rest

/-- A text without comments is left as it is. -/
theorem Uncommented.beforeComment_eq : ∀ {s : Quoting} {cs : List Char}, Uncommented s cs →
    beforeComment s cs = cs
  | _, [], _ => rfl
  | s, c :: cs, h => by
    have none : ¬ (s = .outside ∧ c = '/' ∧ cs.head? = some '/') := by
      rintro ⟨rfl, rfl, head⟩
      obtain ⟨ds, rfl⟩ := List.head?_eq_some_iff.1 head
      exact h [] ds rfl rfl
    have rest : Uncommented (s.next c) cs := fun before behind e =>
      h (c :: before) behind (by rw [e, List.cons_append])
    rw [beforeComment, if_neg none, rest.beforeComment_eq]

/-! ### Cleaning again -/

/-- What a line ends with, from its end, without comment and blanks. -/
def fromEnd (line : List Char) : List Char := (body line).reverse.dropWhile Text.isBlank

theorem cleanChars_eq (line : List Char) : cleanChars line = (strip (fromEnd line)).reverse := by
  simp only [cleanChars, Text.trim, Text.trimEnd, Text.dropEndWhile, List.reverse_reverse]
  rfl

theorem cleanChars_starts (line : List Char) : cleanChars line <+: body line :=
  (Text.dropEndWhile_starts _ _).trans
    ((Text.dropEndWhile_starts _ _).trans (Text.dropEndWhile_starts _ _))

theorem flush_body (line : List Char) : Text.Flush (body line) := Text.flush_dropWhile _

theorem uncommented_body (line : List Char) : Uncommented .outside (body line) :=
  (uncommented_beforeComment .outside line).trimStart

theorem flush_cleanChars (line : List Char) : Text.Flush (cleanChars line) := by
  intro c head
  obtain ⟨rest, e⟩ := cleanChars_starts line
  refine flush_body line c ?_
  rw [← e, List.head?_append, head]
  rfl

theorem uncommented_cleanChars (line : List Char) : Uncommented .outside (cleanChars line) :=
  (uncommented_body line).start (cleanChars_starts line)

/-- A cleaned line has no comment and no blanks before it. -/
theorem body_cleanChars (line : List Char) : body (cleanChars line) = cleanChars line := by
  rw [body, (uncommented_cleanChars line).beforeComment_eq]
  exact (flush_cleanChars line).dropWhile_eq

theorem fromEnd_cleanChars (line : List Char) :
    fromEnd (cleanChars line) = strip (fromEnd line) := by
  rw [fromEnd, body_cleanChars, cleanChars_eq, List.reverse_reverse]
  exact (flush_strip _).dropWhile_eq

theorem fromEnd_iterate_cleanChars (k : Nat) (line : List Char) :
    fromEnd (cleanChars^[k] line) = strip^[k] (fromEnd line) :=
  Function.Semiconj.iterate_right (f := fromEnd) fromEnd_cleanChars k line

theorem toList_iterate_clean (k : Nat) (line : String) :
    (clean^[k] line).toList = cleanChars^[k] line.toList :=
  Function.Semiconj.iterate_right (f := String.toList) (fun _ => String.toList_ofList) k line

theorem terminators_eq (line : String) : terminators line = leading (fromEnd line.toList) := by
  rw [fromEnd, leading_dropWhile_isBlank]
  rfl

theorem toList_bare (line : String) :
    (bare line).toList = ((fromEnd line.toList).dropWhile isTrail).reverse := by
  rw [fromEnd, dropWhile_isTrail_of_dropWhile fun _ => isTrail_of_isBlank]
  exact String.toList_ofList

/-- The text that the scanner gets of a line that was cleaned. -/
theorem cleanChars_iterate_clean (k : Nat) (line : String) :
    cleanChars (clean^[k] line).toList = (strip^[k + 1] (fromEnd line.toList)).reverse := by
  rw [toList_iterate_clean, cleanChars_eq, fromEnd_iterate_cleanChars,
    Function.iterate_succ_apply']

theorem flush_fromEnd (line : List Char) : Text.Flush (fromEnd line) := Text.flush_dropWhile _

/-- A line is bare after as many cleanings as it has runs of semicolons, but at least one. -/
theorem cleanChars_iterate_eq_iff (k : Nat) (line : String) :
    cleanChars (clean^[k] line).toList = (bare line).toList ↔ terminators line ≤ k + 1 := by
  rw [cleanChars_iterate_clean, toList_bare, List.reverse_inj,
    iterate_strip_eq_iff (flush_fromEnd _), terminators_eq]

/-- Until then it ends in a semicolon. -/
theorem getLast?_cleanChars_iterate (k : Nat) (line : String) :
    (cleanChars (clean^[k] line).toList).getLast? = some ';' ↔ k + 1 < terminators line := by
  have flush := flush_iterate_strip (flush_fromEnd line.toList) (k + 1)
  rw [cleanChars_iterate_clean, List.getLast?_reverse, ← leading_pos_iff flush,
    leading_iterate_strip (flush_fromEnd _), terminators_eq]
  omega

theorem toList_iterate_clean_succ (k : Nat) (line : String) :
    (clean^[k + 1] line).toList = cleanChars (clean^[k] line).toList := by
  rw [Function.iterate_succ_apply']
  exact String.toList_ofList

theorem iterate_clean_eq_iff (k : Nat) (line : String) :
    clean^[k + 1] line = bare line ↔ terminators line ≤ k + 1 := by
  rw [← String.toList_inj, toList_iterate_clean_succ, cleanChars_iterate_eq_iff]

/-- A line that ends in at most one run is cleaned for good. -/
theorem clean_clean_eq_iff (line : String) :
    clean (clean line) = clean line ↔ terminators line ≤ 1 := by
  constructor
  · intro fixed
    -- After enough cleanings it is bare, and none of them changes it but the first.
    have bared := (iterate_clean_eq_iff (terminators line) line).2 (Nat.le_succ _)
    rw [Function.iterate_succ_apply, Function.iterate_fixed fixed] at bared
    exact (iterate_clean_eq_iff 0 line).1 bared
  · intro one
    have once := (iterate_clean_eq_iff 0 line).2 one
    have twice := (iterate_clean_eq_iff 1 line).2 (Nat.le_succ_of_le one)
    exact twice.trans once.symm

/-! ### A semicolon at the end -/

/-- The last character of a text is a blank, or it ends the last of its words. -/
theorem last_of_lexemesFrom : ∀ {fuel column : Nat} {cs : List Char} {ts : List Token},
    cs.length < fuel → (lexemesFrom fuel column cs).map Lexeme.token = ts ++ [.stop] →
    (∀ t ∈ ts, t.isWord = true) → ∀ {d}, cs.getLast? = some d → Text.isBlank d = false →
    ∃ t ∈ ts, ∃ w, Word t (w ++ [d])
  | 0, _, _, _, enough, _, _, _, _, _ => absurd enough (Nat.not_lt_zero _)
  | _ + 1, _, [], _, _, _, _, _, last, _ => nomatch last
  | fuel + 1, column, c :: cs, ts, enough, e, words, d, last, solid => by
    rw [List.length_cons] at enough
    rw [lexemesFrom] at e
    split at e
    · next blank =>
      cases cs with
      | nil =>
        obtain rfl : c = d := Option.some.inj last
        rw [solid] at blank
        cases blank
      | cons c' cs =>
        rw [List.getLast?_cons_cons] at last
        exact last_of_lexemesFrom (by omega) e words last solid
    · rcases read : scan c cs with ⟨t, rest⟩
      rw [read] at e
      dsimp only at e
      rw [List.map_cons] at e
      cases ts with
      | nil =>
        have first := scan_ne_stop c cs
        rw [read] at first
        exact absurd (List.cons.inj e).1 first
      | cons u us =>
        obtain ⟨rfl, behind⟩ := List.cons.inj e
        rw [List.forall_mem_cons] at words
        obtain ⟨w, rfl, word, -⟩ := word_of_scan words.1 read
        rcases List.eq_nil_or_concat rest with rfl | ⟨ys, y, rfl⟩
        · -- Nothing is left behind this word.
          rw [List.append_nil] at last
          have ending := List.dropLast_concat_getLast (List.cons_ne_nil c w)
          rw [List.getLast?_eq_getLast_of_ne_nil (List.cons_ne_nil c w)] at last
          rw [← ending, Option.some.inj last] at word
          exact ⟨_, List.mem_cons_self, _, word⟩
        · rw [← List.cons_append, List.concat_eq_append, ← List.append_assoc,
            List.getLast?_concat] at last
          obtain rfl : y = d := Option.some.inj last
          rw [List.concat_eq_append] at behind
          have fewer : (ys ++ [y]).length < fuel := by
            simp only [List.length_append, List.concat_eq_append] at enough ⊢
            omega
          obtain ⟨t, mem, v, final⟩ := last_of_lexemesFrom fewer behind words.2
            List.getLast?_concat solid
          exact ⟨t, List.mem_cons_of_mem _ mem, v, final⟩

/-- A line that still ends in a semicolon is refused. -/
theorem error_of_semicolon {line : String} (ends : (cleanChars line.toList).getLast? = some ';')
    (scope : Scope) : ∃ fault, (parse scope line).1 = .error fault := by
  cases result : (parse scope line).1 with
  | error fault => exact ⟨fault, rfl⟩
  | ok s? =>
    obtain ⟨ts, tokens, proper⟩ := proper_of_parse result
    obtain ⟨t, mem, w, word⟩ := last_of_lexemesFrom (Nat.lt_succ_self _) tokens
      (fun t mem => Token.isWord_of_isProper (proper t mem)) ends rfl
    by_cases semicolon : t = .special ';'
    · have improper := proper t mem
      rw [semicolon] at improper
      cases improper
    · exact absurd rfl (word.last.2 semicolon)

/-! ### Blanks and semicolons behind a line -/

theorem le_leading_append : ∀ {tail : List Char} (cs : List Char),
    (∀ c ∈ tail, isTrail c = true) → leading cs ≤ leading (tail ++ cs)
  | [], _, _ => Nat.le_refl _
  | c :: tail, cs, trail => by
    rw [List.forall_mem_cons, isTrail, Bool.or_eq_true, decide_eq_true_eq] at trail
    refine Nat.le_trans (le_leading_append cs trail.2) ?_
    rcases trail.1 with blank | rfl
    · rw [List.cons_append, leading_cons_blank blank]
    · rw [List.cons_append, leading_cons_semicolon]
      exact Nat.le_add_right _ _

/-- What is appended is part of a comment, or of nothing but blanks and semicolons at the end. -/
theorem beforeComment_append_trail : ∀ {tail : List Char} (cs : List Char),
    (∀ c ∈ tail, isTrail c = true) → ∃ more, (∀ c ∈ more, isTrail c = true) ∧
      beforeComment .outside (cs ++ tail) = beforeComment .outside cs ++ more
  | [], cs, _ => ⟨[], List.forall_mem_nil _, by rw [List.append_nil, List.append_nil]⟩
  | c :: tail, cs, trail => by
    rw [List.forall_mem_cons] at trail
    have slash : c ≠ '/' := by
      rintro rfl
      exact absurd trail.1 (by decide)
    obtain ⟨more, all, e⟩ := beforeComment_append_trail (cs ++ [c]) trail.2
    rw [List.append_cons, e]
    rcases beforeComment_append slash .outside cs with first | first <;> rw [first]
    · exact ⟨more, all, rfl⟩
    · exact ⟨c :: more, List.forall_mem_cons.2 ⟨trail.1, all⟩, by simp⟩

theorem body_append {tail : List Char} (cs : List Char) (trail : ∀ c ∈ tail, isTrail c = true) :
    ∃ more, (∀ c ∈ more, isTrail c = true) ∧ body (cs ++ tail) = body cs ++ more := by
  obtain ⟨more, all, e⟩ := beforeComment_append_trail cs trail
  rw [body, e, Text.trimStart, List.dropWhile_append]
  split
  · next empty =>
    refine ⟨more.dropWhile Text.isBlank, fun c mem =>
      all c ((List.dropWhile_sublist _).mem mem), ?_⟩
    rw [body, Text.trimStart, List.isEmpty_iff.1 empty, List.nil_append]
  · exact ⟨more, all, rfl⟩

/-- Behind a line there are no fewer runs than at its end, and without them it is the same. -/
theorem bare_append {tail : String} (line : String) (trail : ∀ c ∈ tail.toList, isTrail c = true) :
    terminators line ≤ terminators (line ++ tail) ∧ bare (line ++ tail) = bare line := by
  obtain ⟨more, all, e⟩ := body_append line.toList trail
  have reversed : ∀ c ∈ more.reverse, isTrail c = true := fun c mem =>
    all c (List.mem_reverse.1 mem)
  rw [terminators, terminators, bare, bare, String.toList_append, e, List.reverse_append,
    Text.dropEndWhile, Text.dropEndWhile, List.reverse_append,
    List.dropWhile_append_of_pos reversed]
  exact ⟨le_leading_append _ reversed, rfl⟩

/-- How a line is read depends on its text without what cleaning drops. -/
theorem parse_congr {line other : String}
    (same : cleanChars line.toList = cleanChars other.toList) (scope : Scope) :
    parse scope line = parse scope other := by
  rw [parse, parse, lexemes, lexemes, same]

end Statement

/-- A statement that is done stands in the history under the cleaned line. -/
theorem Machine.latest?_of_execute {m n : Machine} {line : String} {r : Option Variable}
    (read : m.codeOf line ≠ []) (done : m.execute line = (.ok r, n)) :
    n.history.latest? = some (n.snapshot (Statement.clean line)) ∧
      ∃ s, (Statement.parse m.scope (Statement.clean line)).1 = .ok (some s) := by
  rcases k : Statement.parse m.scope (Statement.clean line) with ⟨fault | _ | s, met⟩
  · rw [codeOf, k] at read
    exact absurd rfl read
  · exact absurd (execute_blank k).1 read
  · rw [(execute_read k).2, perform] at done
    split at done
    · cases done
      exact ⟨History.latest?_push _ _, s, rfl⟩
    · split at done <;> cases done

namespace Statement

/-- What cleaning does to a line, by the number of runs of semicolons at its end. -/
structure CleaningLaw (line : String) : Prop where
  /-- A cleaned line begins and ends with no blank. -/
  flush : Text.Flush (clean line).toList ∧ Text.Flush (clean line).toList.reverse
  uncommented : Uncommented .outside (clean line).toList
  semicolon : ∀ k, (clean^[k + 1] line).toList.getLast? = some ';' ↔ k + 1 < terminators line
  settled : ∀ k, clean^[k + 1] line = bare line ↔ terminators line ≤ k + 1
  idempotent : clean (clean line) = clean line ↔ terminators line ≤ 1
  /-- As long as a cleaned line would end in a semicolon it is not read. -/
  refused : ∀ (scope : Scope) (k : Nat), k + 1 < terminators line →
    ∃ fault, (parse scope (clean^[k] line)).1 = .error fault
  /-- Otherwise blanks and semicolons behind the line make no difference. -/
  appended : ∀ (scope : Scope) (k : Nat) (tail : String), (∀ c ∈ tail.toList, isTrail c = true) →
    terminators (line ++ tail) ≤ k + 1 →
      parse scope (clean^[k] (line ++ tail)) = parse scope (clean^[k] line)
  /-- The name in the history is the cleaned line, and the text that was read is bare. -/
  recorded : ∀ (m n : Machine) (r : Option Variable), m.codeOf line ≠ [] →
    m.execute line = (.ok r, n) →
      n.history.latest? = some (n.snapshot (clean line)) ∧
        lexemes (clean line) = Lexer.lexemes (bare line).toList ∧
        (clean line = bare line ↔ terminators line ≤ 1)

/-- Cleaning takes away one run of semicolons at a time, and what ends in more is refused. -/
theorem cleaning_law (line : String) : CleaningLaw line := by
  have cleaned : (clean line).toList = cleanChars line.toList := String.toList_ofList
  have unread (scope : Scope) (k : Nat) (more : k + 1 < terminators line) :
      ∃ fault, (parse scope (clean^[k] line)).1 = .error fault :=
    error_of_semicolon ((getLast?_cleanChars_iterate k line).2 more) scope
  refine ⟨⟨?_, ?_⟩, ?_, fun k => ?_, fun k => iterate_clean_eq_iff k line,
    clean_clean_eq_iff line, unread, ?_, ?_⟩
  · rw [cleaned]
    exact flush_cleanChars _
  · rw [cleaned, cleanChars_eq, List.reverse_reverse]
    exact flush_strip _
  · rw [cleaned]
    exact uncommented_cleanChars _
  · rw [toList_iterate_clean_succ, getLast?_cleanChars_iterate]
  · intro scope k tail trail few
    obtain ⟨fewer, same⟩ := bare_append line trail
    refine parse_congr ?_ scope
    rw [(cleanChars_iterate_eq_iff k _).2 few, same,
      (cleanChars_iterate_eq_iff k line).2 (Nat.le_trans fewer few)]
  · intro m n r read done
    obtain ⟨entry, s, ok⟩ := Machine.latest?_of_execute read done
    refine ⟨entry, ?_, iterate_clean_eq_iff 0 line⟩
    have few : terminators line ≤ 2 := by
      by_contra more
      obtain ⟨fault, failed⟩ := unread m.scope 1 (by omega)
      rw [Function.iterate_one, ok] at failed
      cases failed
    rw [lexemes]
    exact congrArg _ ((cleanChars_iterate_eq_iff 1 line).2 few)

/-- A second run of semicolons is left over. The line is not read as it stands; a machine cleans it
once before that and reads the declaration, but records it with the semicolon. -/
theorem second_run_left :
    clean "int x = 1; ;" = "int x = 1;" ∧ clean (clean "int x = 1; ;") = "int x = 1" ∧
      (parse Scope.empty "int x = 1").1.isOk = true ∧
      (parse Scope.empty "int x = 1; ;").1.isOk = false ∧
      lexemes (clean "int x = 1; ;") = Lexer.lexemes "int x = 1".toList ∧
      (Machine.fresh.execute "int x = 1; ;").2.history.latest?.map Snapshot.name =
        some "int x = 1;" := by
  decide +kernel

end Statement

end ByteMachine
