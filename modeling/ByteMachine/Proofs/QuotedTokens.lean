import ByteMachine.Proofs.Literals
import ByteMachine.Proofs.ProperTokens
import ByteMachine.Proofs.SourceForm

/-!
# Literals in quotes

At a quote the scanner finds a literal exactly if one stands there: an opening quote, one character
or any number of them, each a plain one or an escape, and the closing quote. Any other text behind a
quote gives an invalid token, and with it no statement is read.

The grammar depends on which escapes there are. As written down it has two digits behind an `x`; the
scanner also takes a plus sign for the first of them. So the scanner follows the grammar with that
sign everywhere, and the grammar as written down wherever no literal holds one.

Key definitions: `Unsigned`, `Piece`, `Quoted`, `Lexer.first`, `ReadAs`.
Key theorems: `quoted_iff_word`, `Lexer.first_of_mem_lexemesFrom`, `Lexer.first_eq_iff`,
`Statement.literals_by_grammar`.
-/

namespace ByteMachine

open Lexer

/-! ### Literals of the grammar -/

/-- The escapes without a sign: behind an `x` there are two digits. -/
def Unsigned (e : List Char) (b : UInt8) : Prop := Denotes e b ∧ '+' ∉ e

/-- How one byte stands in a literal between the quotes `q`, if those are the escapes. -/
inductive Piece (escape : List Char → UInt8 → Prop) (q : Char) : List Char → UInt8 → Prop
  | plain {c : Char} : c.toNat < 128 → c ≠ q → c ≠ '\x5c' →
      Piece escape q [c] (Text.latinByte c)
  | escaped {e : List Char} {b : UInt8} : escape e b → Piece escape q ('\x5c' :: e) b

/-- How a literal in quotes is written, if those are the escapes. -/
inductive Quoted (escape : List Char → UInt8 → Prop) : List Char → Token → Prop
  | char {w : List Char} {b : UInt8} : Piece escape '\x27' w b →
      Quoted escape ('\x27' :: (w ++ ['\x27'])) (.char b)
  | text {ws : List (List Char)} {bs : List UInt8} :
      List.Forall₂ (Piece escape '\x22') ws bs →
      Quoted escape ('\x22' :: (ws.flatten ++ ['\x22'])) (.text (Text.ofBytes bs))

/-- Whether a token is a literal in quotes. -/
def Token.isQuoted : Token → Bool
  | char _ | text _ => true
  | _ => false

/-- The token read at a text is a literal in quotes exactly if the text starts with one, and which
one; and where another text starts with a quote it is invalid and the line refused. -/
structure ReadAs (escape : List Char → UInt8 → Prop) (text : List Char) (token : Token)
    (refused : Prop) : Prop where
  literal : ∀ t : Token, t.isQuoted = true →
    (token = t ↔ ∃ w, w <+: text ∧ Quoted escape w t)
  other : (∃ q, text.head? = some q ∧ Quoting.isQuote q = true) →
    (∀ w t, w <+: text → ¬ Quoted escape w t) → (∃ c, token = .invalid c) ∧ refused

theorem Quoted.isQuoted {escape : List Char → UInt8 → Prop} {w : List Char} {t : Token}
    (h : Quoted escape w t) : t.isQuoted = true := by
  cases h <;> rfl

theorem Quoted.denotes {w : List Char} {t : Token} (h : Quoted Unsigned w t) :
    Quoted Denotes w t := by
  have piece {q : Char} {v : List Char} {b : UInt8} (h : Piece Unsigned q v b) :
      Piece Denotes q v b := by
    cases h with
    | plain ascii quote backslash => exact .plain ascii quote backslash
    | escaped escape => exact .escaped escape.1
  cases h with
  | char written => exact .char (piece written)
  | text written => exact .text (written.imp fun _ _ => piece)

/-- A literal that is written without a signed escape is one of the grammar without them. -/
theorem Quoted.unsigned {w : List Char} {t : Token} (h : Quoted Denotes w t)
    (none : ¬ ['\x5c', 'x', '+'] <:+: w) : Quoted Unsigned w t := by
  have piece {q : Char} {v : List Char} {b : UInt8} (h : Piece Denotes q v b) (inside : v <:+: w) :
      Piece Unsigned q v b := by
    cases h with
    | plain ascii quote backslash => exact .plain ascii quote backslash
    | @escaped e b denotes =>
      refine .escaped ⟨denotes, fun plus => ?_⟩
      cases denotes with
      | @signed _ d => exact none (.trans ⟨[], [d], rfl⟩ inside)
      | @byte _ c d high low =>
        have small := b.toNat_lt
        simp only [List.mem_cons, List.not_mem_nil, or_false] at plus
        rcases plus with letter | rfl | rfl
        · exact absurd letter (by decide)
        · exact (high.digit (by omega)).2.2 rfl
        · exact (low.digit (by omega)).2.2 rfl
      | _ => simp at plus
  have pieces {ws : List (List Char)} {bs : List UInt8}
      (h : List.Forall₂ (Piece Denotes '\x22') ws bs) (inside : ws.flatten <:+: w) :
      List.Forall₂ (Piece Unsigned '\x22') ws bs := by
    induction h with
    | nil => exact .nil
    | cons first _ ih =>
      rw [List.flatten_cons] at inside
      exact .cons (piece first ((List.prefix_append _ _).isInfix.trans inside))
        (ih ((List.suffix_append _ _).isInfix.trans inside))
  cases h with
  | char written => exact .char (piece written ⟨['\x27'], ['\x27'], rfl⟩)
  | text written => exact .text (pieces written ⟨['\x22'], ['\x22'], rfl⟩)

/-! ### Literals and words -/

/-- A digit in base sixteen is written for its value, perhaps in upper case. -/
theorem eitherCase_of_isHexDigit {c : Char} (h : Text.isHexDigit c = true) :
    Text.hexDigitValue c < 16 ∧ EitherCase c (Nat.digitChar (Text.hexDigitValue c)) := by
  have low : c.toNat < 128 := by
    have := toNat_of_isNameChar (isNameChar_of_isHexDigit h)
    omega
  have all : ∀ n < 128, Text.isHexDigit (Char.ofNat n) = true →
      Text.hexDigitValue (Char.ofNat n) < 16 ∧ (Char.ofNat n =
        Nat.digitChar (Text.hexDigitValue (Char.ofNat n)) ∨
        Char.ofNat n = (Nat.digitChar (Text.hexDigitValue (Char.ofNat n))).toUpper) := by
    decide +kernel
  have digit := all c.toNat low
  rw [Char.ofNat_toNat] at digit
  exact digit h

/-- The scanner reads an escape for a byte exactly if it denotes the byte. -/
theorem denotes_iff_escape {e : List Char} {b : UInt8} : Denotes e b ↔ Escape e b := by
  refine ⟨Denotes.escape, fun h => ?_⟩
  cases h with
  | @letter c _ h =>
    unfold letterByte? at h
    repeat' split at h
    all_goals cases h
    all_goals subst_vars; constructor
  | @byte c d _ h =>
    unfold escapedByte? at h
    split at h
    · cases h
    · next second =>
      simp only [Bool.not_eq_true', Bool.not_eq_false] at second
      obtain ⟨small, cased⟩ := eitherCase_of_isHexDigit second
      split at h
      · next plus =>
        cases h
        subst plus
        have value : (UInt8.ofNat (Text.hexDigitValue d)).toNat = Text.hexDigitValue d :=
          Nat.mod_eq_of_lt (by omega)
        refine .signed ?_ ?_ <;> rw [value]
        · exact small
        · exact cased
      · split at h
        · next first =>
          cases h
          obtain ⟨small', cased'⟩ := eitherCase_of_isHexDigit first
          have digits : Text.digitsValue 16 [c, d] =
              16 * Text.hexDigitValue c + Text.hexDigitValue d := by
            simp [Text.digitsValue]
          have value : (UInt8.ofNat (Text.digitsValue 16 [c, d])).toNat =
              16 * Text.hexDigitValue c + Text.hexDigitValue d := by
            rw [digits]
            exact Nat.mod_eq_of_lt (by omega)
          refine .byte ?_ ?_
          · rwa [value, show (16 * Text.hexDigitValue c + Text.hexDigitValue d) / 16 =
              Text.hexDigitValue c by omega]
          · rwa [value, show (16 * Text.hexDigitValue c + Text.hexDigitValue d) % 16 =
              Text.hexDigitValue d by omega]
        · cases h

/-- The text between double quotes, one byte after the other. -/
theorem quote_iff_pieces {w s : List Char} : Quote w s ↔
    ∃ ws bs, List.Forall₂ (Piece Denotes '\x22') ws bs ∧ w = ws.flatten ∧
      s = bs.map Text.byteChar := by
  constructor
  · intro h
    induction h with
    | nil => exact ⟨[], [], .nil, rfl, rfl⟩
    | @plain c w s ascii quote backslash _ ih =>
      obtain ⟨ws, bs, written, rfl, rfl⟩ := ih
      have low : c.toNat < 128 := of_decide_eq_true ascii
      refine ⟨[c] :: ws, Text.latinByte c :: bs, .cons (.plain low quote backslash) written, rfl,
        ?_⟩
      rw [List.map_cons, Text.byteChar_latinByte (by omega)]
    | @escape e b w s escape _ ih =>
      obtain ⟨ws, bs, written, rfl, rfl⟩ := ih
      exact ⟨('\x5c' :: e) :: ws, b :: bs, .cons (.escaped (denotes_iff_escape.2 escape)) written,
        rfl, rfl⟩
  · rintro ⟨ws, bs, written, rfl, rfl⟩
    induction written with
    | nil => exact .nil
    | cons first _ ih =>
      rw [List.flatten_cons, List.map_cons]
      cases first with
      | plain low quote backslash =>
        rw [Text.byteChar_latinByte (by omega)]
        exact .plain (decide_eq_true low) quote backslash ih
      | escaped denotes => exact .escape (denotes_iff_escape.1 denotes) ih

/-- The literals with the escapes of the scanner are the words for such tokens. -/
theorem quoted_iff_word {w : List Char} {t : Token} :
    Quoted Denotes w t ↔ Word t w ∧ t.isQuoted = true := by
  constructor
  · intro h
    refine ⟨?_, h.isQuoted⟩
    cases h with
    | char written =>
      cases written with
      | plain low quote backslash => exact .char (decide_eq_true low) quote backslash
      | escaped denotes => exact .escaped (denotes_iff_escape.1 denotes)
    | text written => exact .text (quote_iff_pieces.2 ⟨_, _, written, rfl, rfl⟩)
  · rintro ⟨word, quoted⟩
    cases word with
    | char ascii quote backslash =>
      exact .char (.plain (of_decide_eq_true ascii) quote backslash)
    | escaped escape => exact .char (.escaped (denotes_iff_escape.2 escape))
    | text quote =>
      obtain ⟨ws, bs, written, rfl, rfl⟩ := quote_iff_pieces.1 quote
      exact .text written
    | _ => cases quoted

/-! ### Tokens and columns -/

namespace Lexer

/-- The token that a text starts with, which has no blanks before it. -/
def first : List Char → Token
  | [] => .stop
  | c :: cs => (scan c cs).1

/-- Each token of a text is read at its own column. -/
theorem first_of_mem_lexemesFrom : ∀ {fuel column : Nat} {cs : List Char}, cs.length < fuel →
    ∀ l ∈ lexemesFrom fuel column cs, ∃ k, l.column = column + k ∧ l.token = first (cs.drop k)
  | 0, _, _, enough, _, _ => absurd enough (Nat.not_lt_zero _)
  | _ + 1, _, [], _, l, mem => by
    obtain rfl := List.mem_singleton.1 mem
    exact ⟨0, rfl, rfl⟩
  | fuel + 1, column, c :: cs, enough, l, mem => by
    rw [List.length_cons] at enough
    rw [lexemesFrom] at mem
    split at mem
    · obtain ⟨k, place, token⟩ := first_of_mem_lexemesFrom (by omega) l mem
      exact ⟨k + 1, by omega, token⟩
    · have suffix := suffix_scan c cs
      rcases read : scan c cs with ⟨t, rest⟩
      rw [read] at mem suffix
      rcases List.mem_cons.1 mem with rfl | mem
      · exact ⟨0, rfl, by rw [List.drop_zero, first, read]⟩
      · have shorter : rest.length ≤ cs.length := suffix.length_le
        obtain ⟨k, place, token⟩ := first_of_mem_lexemesFrom (by omega) l mem
        refine ⟨cs.length + 1 - rest.length + k, by omega, ?_⟩
        -- What is left of the text is the rest behind the token.
        have behind : (c :: cs).drop (cs.length + 1 - rest.length) = rest := by
          rw [Nat.sub_add_comm shorter, List.drop_succ_cons]
          exact (List.suffix_iff_eq_drop.1 suffix).symm
        rw [token, ← List.drop_drop, behind]

/-- At a quote a literal is read or an invalid token. -/
theorem scan_of_isQuote {q : Char} (quote : Quoting.isQuote q = true) (cs : List Char) :
    (scan q cs).1.isQuoted = true ∨ ∃ c, (scan q cs).1 = .invalid c := by
  have stop := scan_ne_stop q cs
  rcases read : scan q cs with ⟨t, rest⟩
  rw [read] at stop
  by_cases word : t.isWord = true
  · left
    simp only [Quoting.isQuote, Bool.or_eq_true, decide_eq_true_eq] at quote
    rcases quote with rfl | rfl
    · rw [scan, if_pos rfl] at read
      obtain ⟨_, _, -, -, rfl⟩ := quote_of_scanTextFrom word read
      rfl
    · rw [scan, if_neg (by decide), if_pos rfl] at read
      obtain ⟨_, _, rfl, -⟩ := word_of_scanChar word read
      rfl
  · right
    cases t with
    | invalid c => exact ⟨c, rfl⟩
    | stop => exact absurd rfl stop
    | _ => exact absurd rfl word

/-- A literal in quotes is read exactly where one stands. -/
theorem first_eq_iff {cs : List Char} {t : Token} (quoted : t.isQuoted = true) :
    first cs = t ↔ ∃ w, w <+: cs ∧ Quoted Denotes w t := by
  constructor
  · rintro rfl
    cases cs with
    | nil => cases quoted
    | cons c cs =>
      rcases read : scan c cs with ⟨t, rest⟩
      rw [first, read] at quoted ⊢
      have word : t.isWord = true := by cases t <;> first | rfl | cases quoted
      obtain ⟨w, rfl, word, -⟩ := word_of_scan word read
      exact ⟨c :: w, ⟨rest, rfl⟩, quoted_iff_word.2 ⟨word, quoted⟩⟩
  · rintro ⟨w, ⟨rest, rfl⟩, written⟩
    have apart (c : Char) (_ : rest.head? = some c) : t.grows c = false := by
      cases written <;> rfl
    obtain ⟨c, v, rfl, -, read⟩ := (quoted_iff_word.1 written).1.scan_append apart
    rw [List.cons_append, first, read]

/-- Where none stands at a quote the token is invalid. -/
theorem invalid_of_isQuote {q : Char} {cs : List Char} (head : cs.head? = some q)
    (quote : Quoting.isQuote q = true) (none : ∀ w t, w <+: cs → ¬ Quoted Denotes w t) :
    ∃ c, first cs = .invalid c := by
  cases cs with
  | nil => cases head
  | cons c cs =>
    obtain rfl : c = q := Option.some.inj head
    rcases scan_of_isQuote quote cs with quoted | invalid
    · obtain ⟨w, start, written⟩ := (first_eq_iff quoted).1 (rfl : first (c :: cs) = _)
      exact absurd written (none w _ start)
    · exact invalid

end Lexer

/-- Which escapes there are matters only as far as literals that stand there hold them. -/
theorem ReadAs.unsigned {text : List Char} {token : Token} {refused : Prop}
    (h : ReadAs Denotes text token refused)
    (none : ∀ w t, w <+: text → Quoted Denotes w t → ¬ ['\x5c', 'x', '+'] <:+: w) :
    ReadAs Unsigned text token refused := by
  have same {w : List Char} {t : Token} (start : w <+: text) :
      Quoted Denotes w t ↔ Quoted Unsigned w t :=
    ⟨fun written => written.unsigned (none w t start written), Quoted.denotes⟩
  refine ⟨fun t quoted => ?_, fun quote absent => ?_⟩
  · rw [h.literal t quoted]
    exact exists_congr fun w => and_congr_right same
  · exact h.other quote fun w t start written => absent w t start ((same start).1 written)

namespace Statement

/-- Each token of a line is read by the grammar of literals at its column, with a sign in place of
a digit too; and by the grammar without signs wherever no literal holds one. -/
theorem literals_by_grammar (scope : Scope) {line : String} {l : Lexeme} (mem : l ∈ lexemes line) :
    let text := (cleanChars line.toList).drop (l.column - 1)
    let refused := ∃ fault, (parse scope line).1 = .error fault
    ReadAs Denotes text l.token refused ∧
      ((∀ w t, w <+: text → Quoted Denotes w t → ¬ ['\x5c', 'x', '+'] <:+: w) →
        ReadAs Unsigned text l.token refused) := by
  intro text refused
  obtain ⟨k, column, token⟩ := first_of_mem_lexemesFrom (Nat.lt_succ_self _) l mem
  have place : text = (cleanChars line.toList).drop k := by
    simp only [text, column, Nat.add_sub_cancel_left]
  rw [← place] at token
  have lenient : ReadAs Denotes text l.token refused := by
    refine ⟨fun t quoted => token ▸ first_eq_iff quoted, ?_⟩
    rintro ⟨q, head, quote⟩ none
    obtain ⟨c, invalid⟩ := invalid_of_isQuote head quote none
    rw [← token] at invalid
    refine ⟨⟨c, invalid⟩, error_of_improper mem ?_ ?_⟩ <;> rw [invalid]
    · exact nofun
    · rfl
  exact ⟨lenient, lenient.unsigned⟩

/-- A character by its number, and a quote with nothing behind it. -/
theorem literals_by_grammar_unclosed :
    (∃ w, w <+: "'\x5cx4a' + \x22".toList ∧ Quoted Unsigned w (.char 0x4a)) ∧
      ∃ fault, (parse Scope.empty "c = '\x5cx4a' + \x22").1 = .error fault := by
  have number : (⟨.char 0x4a, 5⟩ : Lexeme) ∈ lexemes "c = '\x5cx4a' + \x22" := by decide +kernel
  have unclosed : (⟨.invalid '\x22', 14⟩ : Lexeme) ∈ lexemes "c = '\x5cx4a' + \x22" := by
    decide +kernel
  have text : (cleanChars "c = '\x5cx4a' + \x22".toList).drop 4 = "'\x5cx4a' + \x22".toList := by
    decide +kernel
  have rest : (cleanChars "c = '\x5cx4a' + \x22".toList).drop 13 = ['\x22'] := by decide +kernel
  have none : ¬ ['\x5c', 'x', '+'] <:+: "'\x5cx4a' + \x22".toList := by decide +kernel
  constructor
  · have read := (literals_by_grammar Scope.empty number).2
    rw [show (5 : Nat) - 1 = 4 from rfl, text] at read
    have judged := read fun w t start _ inside => none (inside.trans start.isInfix)
    exact (judged.literal (.char 0x4a) rfl).1 rfl
  · have read := (literals_by_grammar Scope.empty unclosed).1
    rw [show (14 : Nat) - 1 = 13 from rfl, rest] at read
    refine (read.other ⟨'\x22', rfl, rfl⟩ fun w t start written => ?_).2
    -- A literal has two quotes.
    have short := start.length_le
    cases written <;> simp at short

/-- A plus sign in place of a digit is read, though no literal without a sign stands there. -/
theorem signed_escape_read :
    lexemes "'\x5cx+f'" = [⟨.char 15, 1⟩, ⟨.stop, 7⟩] ∧
      (∀ w t, w <+: cleanChars "'\x5cx+f'".toList → ¬ Quoted Unsigned w t) ∧
      (parse Scope.empty "'\x5cx+f'").1.isOk = true := by
  refine ⟨by decide +kernel, fun w t start written => ?_, by decide +kernel⟩
  have text : cleanChars "'\x5cx+f'".toList = ['\x27', '\x5c', 'x', '+', 'f', '\x27'] := by
    decide +kernel
  rw [text] at start
  cases written with
  | text => exact absurd (List.cons_prefix_cons.1 start).1 (by decide)
  | char written =>
    have behind := (List.cons_prefix_cons.1 start).2
    cases written with
    | plain _ _ backslash => exact backslash (List.cons_prefix_cons.1 behind).1
    | escaped escape =>
      have escaped := (List.cons_prefix_cons.1 behind).2
      obtain ⟨denotes, plus⟩ := escape
      cases denotes with
      | byte =>
        obtain ⟨-, sign⟩ := List.cons_prefix_cons.1 escaped
        obtain rfl := (List.cons_prefix_cons.1 sign).1
        simp at plus
      | signed => simp at plus
      | _ => exact absurd (List.cons_prefix_cons.1 escaped).1 (by decide)

end Statement

end ByteMachine
