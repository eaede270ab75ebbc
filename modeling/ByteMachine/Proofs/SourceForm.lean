import ByteMachine.Proofs.Spelling
import ByteMachine.Proofs.TextBytes

/-!
# Lexing undoes spelling

Tokens in source form are words with one space between each two, and behind them there may be a run
of semicolons and a comment. How a word is spelled is said here without the scanner: numbers by
their digits, with zeros before them and in either case, and the characters of literals as they are
or by an escape. Whatever is chosen, the line falls into the tokens that were spelled.

Two readers have to agree on that. The one that looks for the comment follows the quotes only; it
leaves each word outside of quotes, because a quote inside a literal is escaped or of the other
kind, and meets no two slashes in a row before the comment, because of the spaces. The scanner ends
each word where it was meant to end, because a space is part of none.

Key definitions: `Denotes`, `Penned`, `Spelling`, `Token.IsSource`, `Statement.sourceLine`.
Key theorems: `digitsValue_toDigits`, `Spelling.word`, `exists_spelling_iff`,
`Statement.cleanChars_sourceLine`, `Statement.lexing_undoes_spelling`.
-/

namespace ByteMachine

open Lexer

/-! ### How tokens are spelled -/

/-- A character that is a digit, which may be in upper case. -/
def EitherCase (c digit : Char) : Prop := c = digit ∨ c = digit.toUpper

/-- What stands behind the backslash of an escape, and the byte that it denotes. -/
inductive Denotes : List Char → UInt8 → Prop
  | lineFeed : Denotes ['n'] 10
  | tab : Denotes ['t'] 9
  | carriageReturn : Denotes ['r'] 13
  | backslash : Denotes ['\x5c'] 0x5c
  | apostrophe : Denotes ['\x27'] 0x27
  | quotation : Denotes ['\x22'] 0x22
  | zero : Denotes ['0'] 0
  | byte {b : UInt8} {c d : Char} : EitherCase c (Nat.digitChar (b.toNat / 16)) →
      EitherCase d (Nat.digitChar (b.toNat % 16)) → Denotes ['x', c, d] b
  /-- In place of a zero there may be a plus sign. -/
  | signed {b : UInt8} {d : Char} : b.toNat < 16 → EitherCase d (Nat.digitChar b.toNat) →
      Denotes ['x', '+', d] b

/-- How a character of a literal between the quotes `q` is written: as it is, if it is printable, or
by an escape. -/
inductive Penned (q : Char) : List Char → UInt8 → Prop
  | raw {b : UInt8} : 0x20 ≤ b.toNat → b.toNat ≤ 0x7e → Char.ofNat b.toNat ≠ q →
      Char.ofNat b.toNat ≠ '\x5c' → Penned q [Char.ofNat b.toNat] b
  | escaped {e : List Char} {b : UInt8} : Denotes e b → Penned q ('\x5c' :: e) b

/-- The characters that are tokens. -/
def sourceSpecials : List Char := ";.,=()\x7b\x7d[]+-*/%&".toList

/-- The characters that a name starts with. -/
def StartsName (c : Char) : Prop := c.isAlpha = true ∨ c = '_'

/-- The characters that a name goes on with. -/
def ContinuesName (c : Char) : Prop := c.isAlphanum = true ∨ c = '_'

/-- How a token is spelled in source form. -/
inductive Spelling : Token → List Char → Prop
  | identifier {c : Char} {w : List Char} : StartsName c → (∀ d ∈ w, ContinuesName d) →
      Spelling (.identifier (String.ofList (c :: w))) (c :: w)
  | decimal {n : Nat} (zeros : Nat) : n < Number.twoPow 127 →
      Spelling (.integer n) (List.replicate zeros '0' ++ Nat.toDigits 10 n)
  | hexadecimal {n zeros : Nat} {x : Char} {ds : List Char} : n < Number.twoPow 127 →
      EitherCase x 'x' →
      List.Forall₂ EitherCase ds (List.replicate zeros '0' ++ Nat.toDigits 16 n) →
      Spelling (.hexadecimal n) ('0' :: x :: ds)
  | char {w : List Char} {b : UInt8} : Penned '\x27' w b →
      Spelling (.char b) ('\x27' :: (w ++ ['\x27']))
  | text {ws : List (List Char)} {bs : List UInt8} : List.Forall₂ (Penned '\x22') ws bs →
      Spelling (.text (String.ofList (bs.map fun b => Char.ofNat b.toNat)))
        ('\x22' :: (ws.flatten ++ ['\x22']))
  | special {c : Char} : c ∈ sourceSpecials → Spelling (.special c) [c]

/-- The tokens that have a source form. -/
def Token.IsSource : Token → Prop
  | identifier name => ∃ c w, name.toList = c :: w ∧ StartsName c ∧ ∀ d ∈ w, ContinuesName d
  | integer n | hexadecimal n => n < Number.twoPow 127
  | char _ => True
  | text s => ∀ c ∈ s.toList, c.toNat ≤ 0xff
  | special c => c ∈ sourceSpecials
  | _ => False

/-! ### Every token has a source form -/

/-- Every byte can be written by its number. -/
theorem denotes_byte (b : UInt8) : Denotes
    ['x', Nat.digitChar (b.toNat / 16), Nat.digitChar (b.toNat % 16)] b :=
  .byte (.inl rfl) (.inl rfl)

theorem toNat_ofNat_toNat (b : UInt8) : (Char.ofNat b.toNat).toNat = b.toNat := by
  have small := b.toNat_lt
  rw [Char.ofNat, dif_pos (.inl (by omega))]
  rfl

/-- The characters up to U+00FF are those that bytes stand for. -/
theorem low_iff_exists_bytes {cs : List Char} :
    (∀ c ∈ cs, c.toNat ≤ 0xff) ↔ ∃ bs : List UInt8, bs.map (fun b => Char.ofNat b.toNat) = cs := by
  constructor
  · intro low
    refine ⟨cs.map Text.latinByte, ?_⟩
    rw [List.map_map]
    have kept := List.map_congr_left fun c mem => Text.byteChar_latinByte (low c mem)
    exact kept.trans (List.map_id cs)
  · rintro ⟨bs, rfl⟩ c mem
    obtain ⟨b, -, rfl⟩ := List.mem_map.1 mem
    rw [toNat_ofNat_toNat]
    exact Nat.le_of_lt_succ b.toNat_lt

/-- The tokens that have a source form are those that can be spelled in it. -/
theorem exists_spelling_iff {t : Token} : t.IsSource ↔ ∃ w, Spelling t w := by
  constructor
  · intro source
    cases t with
    | identifier name =>
      obtain ⟨c, w, chars, start, rest⟩ := source
      have spelled := Spelling.identifier start rest
      rw [← chars, String.ofList_toList] at spelled
      exact ⟨_, spelled⟩
    | integer n => exact ⟨_, .decimal 0 source⟩
    | hexadecimal n =>
      exact ⟨_, @Spelling.hexadecimal n 0 _ _ source (.inl rfl)
        (List.forall₂_same.2 fun _ _ => .inl rfl)⟩
    | char b => exact ⟨_, .char (.escaped (denotes_byte b))⟩
    | text s =>
      obtain ⟨bs, chars⟩ := low_iff_exists_bytes.1 source
      have penned (b : UInt8) := Penned.escaped (q := '\x22') (denotes_byte b)
      have spelled := Spelling.text (List.forall₂_map_left_iff.2 <|
        List.forall₂_same.2 fun b (_ : b ∈ bs) => penned b)
      rw [chars, String.ofList_toList] at spelled
      exact ⟨_, spelled⟩
    | special c => exact ⟨_, .special source⟩
    | real | invalid | stop => exact source.elim
  · rintro ⟨w, spelled⟩
    cases spelled with
    | @identifier c w start rest => exact ⟨c, w, String.toList_ofList, start, rest⟩
    | decimal zeros small => exact small
    | hexadecimal small => exact small
    | char => trivial
    | @text ws bs => exact low_iff_exists_bytes.2 ⟨bs, String.toList_ofList.symm⟩
    | special mem => exact mem

/-- So it is with the tokens of a line. -/
theorem exists_spellings_iff {ts : List Token} :
    (∀ t ∈ ts, t.IsSource) ↔ ∃ ws, List.Forall₂ Spelling ts ws := by
  induction ts with
  | nil => exact ⟨fun _ => ⟨[], .nil⟩, fun _ => by simp⟩
  | cons t ts ih =>
    rw [List.forall_mem_cons, exists_spelling_iff, ih]
    constructor
    · rintro ⟨⟨w, first⟩, ws, rest⟩
      exact ⟨w :: ws, .cons first rest⟩
    · rintro ⟨_, spelled⟩
      cases spelled with
      | cons first rest => exact ⟨⟨_, first⟩, _, rest⟩

/-! ### Digits and their values -/

/-- A digit in either case has the value that it stands for, and is no sign. -/
theorem EitherCase.digit {n : Nat} (small : n < 16) {c : Char}
    (h : EitherCase c (Nat.digitChar n)) :
    Text.isHexDigit c = true ∧ Text.hexDigitValue c = n ∧ c ≠ '+' := by
  rcases h with rfl | rfl
  · have lower : ∀ n < 16, Text.isHexDigit (Nat.digitChar n) = true ∧
        Text.hexDigitValue (Nat.digitChar n) = n ∧ Nat.digitChar n ≠ '+' := by decide
    exact lower n small
  · have upper : ∀ n < 16, Text.isHexDigit (Nat.digitChar n).toUpper = true ∧
        Text.hexDigitValue (Nat.digitChar n).toUpper = n ∧ (Nat.digitChar n).toUpper ≠ '+' := by
      decide
    exact upper n small

theorem digitsValue_append_singleton (base : Nat) (ds : List Char) (d : Char) :
    Text.digitsValue base (ds ++ [d]) =
      base * Text.digitsValue base ds + Text.hexDigitValue d := by
  rw [Text.digitsValue, List.foldl_append]
  rfl

/-- The digits of a number are read as the number. -/
theorem digitsValue_toDigits {base : Nat} (low : 1 < base) (high : base ≤ 16) (n : Nat) :
    Text.digitsValue base (Nat.toDigits base n) = n := by
  have value {k : Nat} (small : k < base) : Text.hexDigitValue (Nat.digitChar k) = k :=
    (EitherCase.digit (Nat.lt_of_lt_of_le small high) (.inl rfl)).2.1
  induction n using Nat.strongRecOn with
  | ind n ih =>
    by_cases small : n < base
    · rw [Nat.toDigits_of_lt_base small, ← List.nil_append [_], digitsValue_append_singleton,
        value small]
      exact Nat.zero_add n
    · have enough : base ≤ n := Nat.not_lt.1 small
      have less : n / base < n := Nat.div_lt_self (by omega) low
      calc Text.digitsValue base (Nat.toDigits base n)
          = base * Text.digitsValue base (Nat.toDigits base (n / base)) +
              Text.hexDigitValue (Nat.digitChar (n % base)) := by
            rw [Nat.toDigits_of_base_le low enough, digitsValue_append_singleton]
        _ = base * (n / base) + n % base := by
            rw [ih _ less, value (Nat.mod_lt n (by omega))]
        _ = n := Nat.div_add_mod n base

/-- Zeros before a number change nothing. -/
theorem digitsValue_zeros (base zeros : Nat) (ds : List Char) :
    Text.digitsValue base (List.replicate zeros '0' ++ ds) = Text.digitsValue base ds := by
  induction zeros with
  | zero => rfl
  | succ zeros ih =>
    have skip (cs : List Char) : Text.digitsValue base ('0' :: cs) = Text.digitsValue base cs := by
      show cs.foldl _ (base * 0 + 0) = _
      rfl
    rw [List.replicate_succ, List.cons_append, skip, ih]

theorem exists_digit_of_mem_toDigits {base n : Nat} (low : 1 < base) {d : Char}
    (mem : d ∈ Nat.toDigits base n) : ∃ k < base, d = Nat.digitChar k := by
  induction n using Nat.strongRecOn with
  | ind n ih =>
    by_cases small : n < base
    · rw [Nat.toDigits_of_lt_base small] at mem
      exact ⟨n, small, List.mem_singleton.1 mem⟩
    · have enough : base ≤ n := Nat.not_lt.1 small
      rw [Nat.toDigits_of_base_le low enough, List.mem_append, List.mem_singleton] at mem
      rcases mem with before | rfl
      · exact ih _ (Nat.div_lt_self (by omega) low) before
      · exact ⟨n % base, Nat.mod_lt n (by omega), rfl⟩

/-- The value of digits is the same in either case. -/
theorem digitsValue_eitherCase (base : Nat) {cs ds : List Char}
    (h : List.Forall₂ EitherCase cs ds) (digits : ∀ d ∈ ds, ∃ k < 16, d = Nat.digitChar k) :
    Text.digitsValue base cs = Text.digitsValue base ds ∧
      ∀ c ∈ cs, Text.isHexDigit c = true := by
  suffices ∀ n, cs.foldl (fun n c => base * n + Text.hexDigitValue c) n =
      ds.foldl (fun n c => base * n + Text.hexDigitValue c) n ∧
        ∀ c ∈ cs, Text.isHexDigit c = true from this 0
  induction h with
  | nil => exact fun n => ⟨rfl, by simp⟩
  | cons first _ ih =>
    intro n
    rw [List.forall_mem_cons] at digits
    obtain ⟨⟨k, small, rfl⟩, digits⟩ := digits
    obtain ⟨hex, value, -⟩ := first.digit small
    obtain ⟨-, other, -⟩ := EitherCase.digit small (.inl rfl)
    rw [List.foldl_cons, List.foldl_cons, value, other, List.forall_mem_cons]
    exact ⟨(ih digits _).1, hex, (ih digits n).2⟩

/-! ### What is spelled is a word -/

/-- What denotes a byte is read as an escape for it. -/
theorem Denotes.escape {e : List Char} {b : UInt8} (h : Denotes e b) : Escape e b := by
  have small := b.toNat_lt
  cases h with
  | @byte _ c d high low =>
    obtain ⟨highDigit, highValue, plus⟩ := high.digit (by omega)
    obtain ⟨lowDigit, lowValue, -⟩ := low.digit (by omega)
    have value : Text.digitsValue 16 [c, d] = b.toNat := by
      simp only [Text.digitsValue, List.foldl_cons, List.foldl_nil, highValue, lowValue]
      omega
    refine .byte ?_
    rw [escapedByte?, lowDigit, if_neg (by decide), if_neg plus, if_pos highDigit, value,
      UInt8.ofNat_toNat]
  | signed one low =>
    obtain ⟨lowDigit, lowValue, -⟩ := low.digit one
    refine .byte ?_
    rw [escapedByte?, lowDigit, if_neg (by decide), if_pos rfl, lowValue, UInt8.ofNat_toNat]
  | _ => exact .letter rfl

theorem isAscii_of_printable {b : UInt8} (high : b.toNat ≤ 0x7e) :
    isAscii (Char.ofNat b.toNat) = true := by
  rw [isAscii, decide_eq_true_eq, toNat_ofNat_toNat]
  omega

/-- The characters of a text, written one after the other, are read as the text. -/
theorem quote_of_penned {ws : List (List Char)} {bs : List UInt8}
    (h : List.Forall₂ (Penned '\x22') ws bs) :
    Quote ws.flatten (bs.map fun b => Char.ofNat b.toNat) := by
  induction h with
  | nil => exact .nil
  | cons first _ ih =>
    rw [List.flatten_cons, List.map_cons]
    cases first with
    | raw low high quote backslash =>
      exact .plain (isAscii_of_printable high) quote backslash ih
    | escaped denotes => exact .escape denotes.escape ih

theorem isNameStart_of_startsName {c : Char} (h : StartsName c) : isNameStart c = true := by
  rw [isNameStart, isLetter]
  rcases h with letter | rfl
  · have letter : c.isUpper = true ∨ c.isLower = true := Bool.or_eq_true_iff.1 letter
    rw [Bool.or_comm ('a' ≤ c && c ≤ 'z')]
    refine Bool.or_eq_true_iff.2 (.inl (Bool.or_eq_true_iff.2 (letter.imp (fun upper => ?_) id)))
    rw [← Bool.decide_and]
    exact upper
  · rfl

theorem isNameChar_of_continuesName {c : Char} (h : ContinuesName c) : isNameChar c = true := by
  rw [isNameChar, Bool.or_eq_true]
  rcases h with alphanumeric | underscore
  · have alphanumeric : c.isAlpha = true ∨ c.isDigit = true := Bool.or_eq_true_iff.1 alphanumeric
    exact alphanumeric.imp_left fun letter => isNameStart_of_startsName (.inl letter)
  · exact .inl (isNameStart_of_startsName (.inr underscore))

/-- A number is read from its decimal digits, with zeros before them or not. -/
theorem word_decimal {n : Nat} (zeros : Nat) (small : n < integerBound) :
    Word (.integer n) (List.replicate zeros '0' ++ Nat.toDigits 10 n) := by
  have value : Text.digitsValue 10 (List.replicate zeros '0' ++ Nat.toDigits 10 n) = n := by
    rw [digitsValue_zeros, digitsValue_toDigits (by decide) (by decide)]
  have digits : Digits (List.replicate zeros '0' ++ Nat.toDigits 10 n) := by
    refine ⟨by simp [Nat.toDigits_ne_nil], fun d mem => ?_⟩
    rcases List.mem_append.1 mem with zero | digit
    · rw [List.eq_of_mem_replicate zero]
      rfl
    · exact Nat.isDigit_of_mem_toDigits (by decide) (by decide) digit
  have word := Word.integer digits (value.symm ▸ small)
  rwa [value] at word

/-- In base sixteen the digits may stand in either case. -/
theorem word_hexadecimal {n zeros : Nat} {x : Char} {ds : List Char} (small : n < integerBound)
    (letter : x = 'x' ∨ x = 'X')
    (cased : List.Forall₂ EitherCase ds (List.replicate zeros '0' ++ Nat.toDigits 16 n)) :
    Word (.hexadecimal n) ('0' :: x :: ds) := by
  have digits : ∀ d ∈ List.replicate zeros '0' ++ Nat.toDigits 16 n,
      ∃ k < 16, d = Nat.digitChar k := by
    intro d mem
    rcases List.mem_append.1 mem with zero | digit
    · exact ⟨0, by decide, List.eq_of_mem_replicate zero⟩
    · exact exists_digit_of_mem_toDigits (by decide) digit
  obtain ⟨same, hex⟩ := digitsValue_eitherCase 16 cased digits
  have value : Text.digitsValue 16 ds = n := by
    rw [same, digitsValue_zeros, digitsValue_toDigits (by decide) (by decide)]
  have nonempty : ds ≠ [] := by
    rintro rfl
    simp [Nat.toDigits_ne_nil] at cased
  have word := Word.hexadecimal letter nonempty hex (value.symm ▸ small)
  rwa [value] at word

/-- What spells a token in source form is a word for it. -/
theorem Spelling.word {t : Token} {w : List Char} (h : Spelling t w) : Word t w := by
  cases h with
  | identifier start rest =>
    exact .identifier (isNameStart_of_startsName start) fun d mem =>
      isNameChar_of_continuesName (rest d mem)
  | decimal zeros small => exact word_decimal zeros small
  | hexadecimal small letter cased => exact word_hexadecimal small letter cased
  | char penned =>
    cases penned with
    | raw low high quote backslash =>
      have word := Word.char (isAscii_of_printable high) quote backslash
      rwa [toNat_ofNat_toNat, UInt8.ofNat_toNat] at word
    | escaped denotes => exact .escaped denotes.escape
  | text penned => exact .text (quote_of_penned penned)
  | special mem => exact .special mem

/-! ### Cleaning keeps the words -/

variable {ts : List Token} {ws : List (List Char)}

/-- Words with a space between each two spell their tokens. -/
theorem spells_intercalate (h : List.Forall₂ Spelling ts ws) :
    Spells ts ([' '].intercalate ws) := by
  induction h with
  | nil => exact .nil
  | @cons t w ts ws spelled rest ih =>
    cases rest with
    | nil =>
      rw [List.intercalate_singleton, ← List.append_nil w]
      exact .word spelled.word (fun _ head => nomatch head) .nil
    | cons =>
      rw [List.intercalate_cons_cons, List.append_assoc, List.singleton_append]
      refine .word spelled.word ?_ (.blank rfl ih)
      rintro _ ⟨⟩
      cases spelled <;> rfl

/-- No comment starts in words with a space between each two. -/
theorem beforeComment_intercalate (h : List.Forall₂ Spelling ts ws) {cs : List Char}
    (space : cs.head? ≠ some '/') :
    Statement.beforeComment .outside ([' '].intercalate ws ++ cs) =
      [' '].intercalate ws ++ Statement.beforeComment .outside cs := by
  induction h with
  | nil => rfl
  | @cons t w ts ws spelled rest ih =>
    cases rest with
    | nil =>
      rw [List.intercalate_singleton]
      exact spelled.word.beforeComment_append fun _ => space
    | cons =>
      have others : ∀ d ∈ ['/', '\x22', '\x27'], Text.isBlank d = false :=
        forall_mem_of_all (by decide)
      rw [List.intercalate_cons_cons]
      simp only [List.append_assoc, List.cons_append, List.nil_append]
      rw [spelled.word.beforeComment_append (by simp), beforeComment_cons rfl others, ih]

/-- The words start with a character that is no blank. -/
theorem head_intercalate (h : List.Forall₂ Spelling ts ws) (some : ts ≠ []) :
    ∃ c v, [' '].intercalate ws = c :: v ∧ Text.isBlank c = false := by
  cases h with
  | nil => exact absurd rfl some
  | @cons t w ts ws spelled rest =>
    have alone : ∀ c, ([] : List Char).head? = Option.some c → t.grows c = false :=
      fun _ head => nomatch head
    obtain ⟨c, v, rfl, blank, -⟩ := spelled.word.scan_append alone
    cases rest with
    | nil => exact ⟨c, v, List.intercalate_singleton, blank⟩
    | cons => exact ⟨c, _, List.intercalate_cons_cons, blank⟩

/-- They end with one that is neither a blank nor a semicolon, if the last token is none. -/
theorem last_intercalate (h : List.Forall₂ Spelling ts ws) (some : ts ≠ [])
    (closed : ts.getLast? ≠ Option.some (.special ';')) :
    ∃ v d, [' '].intercalate ws = v ++ [d] ∧ Text.isBlank d = false ∧ d ≠ ';' := by
  induction h with
  | nil => exact absurd rfl some
  | @cons t w ts ws spelled rest ih =>
    cases rest with
    | nil =>
      obtain ⟨c, v, nonempty⟩ := spelled.word.ne_nil
      have e : w.dropLast ++ [w.getLast (by simp [nonempty])] = w := List.dropLast_append_getLast _
      obtain ⟨blank, semicolon⟩ := (e ▸ spelled.word).last
      refine ⟨_, _, List.intercalate_singleton.trans e.symm, blank, semicolon ?_⟩
      rintro rfl
      exact closed rfl
    | @cons u w' us ws' =>
      rw [List.getLast?_cons_cons] at closed
      obtain ⟨v, d, e, last⟩ := ih (List.cons_ne_nil _ _) closed
      refine ⟨w ++ [' '] ++ v, d, ?_, last⟩
      rw [List.intercalate_cons_cons, e, List.append_assoc _ v]

/-- What is dropped goes up to the first character from the end that is not. -/
theorem Text.dropEndWhile_append_of_all {p : Char → Bool} {d : Char} (keep : p d = false)
    (cs : List Char) {ends : List Char} (all : ∀ c ∈ ends, p c = true) :
    dropEndWhile p (cs ++ [d] ++ ends) = cs ++ [d] := by
  have reversed : ∀ c ∈ ends.reverse, p c = true := fun c mem => all c (List.mem_reverse.1 mem)
  rw [dropEndWhile, List.reverse_append, List.dropWhile_append_of_pos reversed,
    List.reverse_append, List.reverse_singleton, List.singleton_append,
    List.dropWhile_cons_of_neg (by simp [keep]), List.reverse_cons, List.reverse_reverse]

theorem Text.dropEndWhile_concat {p : Char → Bool} {d : Char} (keep : p d = false)
    (cs : List Char) : dropEndWhile p (cs ++ [d]) = cs ++ [d] := by
  simpa using dropEndWhile_append_of_all keep cs (List.forall_mem_nil _)

namespace Statement

/-- A space and so many semicolons in a row, or nothing if there are none. -/
def terminator (semicolons : Nat) : List Char :=
  if semicolons = 0 then [] else ' ' :: List.replicate semicolons ';'

/-- A space and a comment with the given contents, if there is one. -/
def remark (comment : Option (List Char)) : List Char :=
  comment.elim [] fun text => ' ' :: '/' :: '/' :: text

/-- A line in source form: words with a space between each two, semicolons and a comment. -/
def sourceLine (words : List (List Char)) (semicolons : Nat) (comment : Option (List Char)) :
    List Char :=
  [' '].intercalate words ++ (terminator semicolons ++ remark comment)

/-- No comment starts in semicolons, and of the one behind them the space is left. -/
theorem beforeComment_terminator (semicolons : Nat) (comment : Option (List Char)) :
    ∃ gap, (∀ c ∈ gap, Text.isBlank c = true) ∧
      beforeComment .outside (terminator semicolons ++ remark comment) =
        terminator semicolons ++ gap := by
  have plain : ∀ c ∈ terminator semicolons, (c = ' ' || c = ';') = true := by
    unfold terminator
    split
    · simp
    · refine List.forall_mem_cons.2 ⟨rfl, fun c mem => ?_⟩
      rw [List.eq_of_mem_replicate mem]
      rfl
  have others : ∀ d ∈ ['/', '\x22', '\x27'], (d = ' ' || d = ';') = false := by simp
  rw [beforeComment_append_of_all (p := fun c => c = ' ' || c = ';') others plain]
  cases comment with
  | none => exact ⟨[], by simp, rfl⟩
  | some text => exact ⟨[' '], List.forall_mem_singleton.2 rfl, rfl⟩

/-- Behind a character that is neither a blank nor a semicolon all of that is dropped. -/
theorem trimEnd_terminator {d : Char} (blank : Text.isBlank d = false) (semicolon : d ≠ ';')
    (cs : List Char) (semicolons : Nat) {gap : List Char}
    (blanks : ∀ c ∈ gap, Text.isBlank c = true) :
    Text.trimEnd (Text.dropEndWhile (fun c => c = ';')
      (Text.trimEnd (cs ++ [d] ++ (terminator semicolons ++ gap)))) = cs ++ [d] := by
  cases semicolons with
  | zero =>
    have trimmed : Text.trimEnd (cs ++ [d] ++ (terminator 0 ++ gap)) = cs ++ [d] :=
      Text.dropEndWhile_append_of_all blank cs blanks
    rw [trimmed, Text.dropEndWhile_concat (decide_eq_false semicolon)]
    exact Text.dropEndWhile_concat blank cs
  | succ n =>
    have ended : terminator (n + 1) = ' ' :: List.replicate n ';' ++ [';'] := by
      rw [terminator, if_neg (Nat.succ_ne_zero n), List.replicate_succ', List.cons_append]
    have trimmed : Text.trimEnd (cs ++ [d] ++ (terminator (n + 1) ++ gap)) =
        cs ++ [d] ++ [' '] ++ List.replicate (n + 1) ';' := by
      have kept := Text.dropEndWhile_append_of_all (p := Text.isBlank) (d := ';') rfl
        (cs ++ [d] ++ ' ' :: List.replicate n ';') blanks
      rw [Text.trimEnd, ended, List.replicate_succ']
      simpa using kept
    rw [trimmed, Text.dropEndWhile_append_of_all rfl _ (by simp)]
    exact Text.dropEndWhile_append_of_all blank cs (List.forall_mem_singleton.2 rfl)

/-- Cleaning a line in source form leaves its words. -/
theorem cleanChars_sourceLine (h : List.Forall₂ Spelling ts ws) (some : ts ≠ [])
    (closed : ts.getLast? ≠ Option.some (.special ';')) (semicolons : Nat)
    (comment : Option (List Char)) :
    cleanChars (sourceLine ws semicolons comment) = [' '].intercalate ws := by
  obtain ⟨c, v, first, nonblank⟩ := head_intercalate h some
  obtain ⟨u, d, last, blank, semicolon⟩ := last_intercalate h some closed
  obtain ⟨gap, blanks, cut⟩ := beforeComment_terminator semicolons comment
  have space : (terminator semicolons ++ remark comment).head? ≠ Option.some '/' := by
    unfold terminator remark
    cases semicolons <;> cases comment <;> simp
  have started (ends : List Char) :
      Text.trimStart ([' '].intercalate ws ++ ends) = [' '].intercalate ws ++ ends := by
    rw [first, List.cons_append, Text.trimStart, List.dropWhile_cons_of_neg (by simp [nonblank])]
  rw [cleanChars, sourceLine, beforeComment_intercalate h space, cut, Text.trim, started, last]
  exact trimEnd_terminator blank semicolon u semicolons blanks

/-- Exactly the tokens with a source form can be spelled, and a line in source form that does not
end in a semicolon of its own is read as the tokens that it spells, and then it ends. -/
theorem lexing_undoes_spelling {ts : List Token} (some : ts ≠ [])
    (closed : ts.getLast? ≠ Option.some (.special ';')) :
    ((∀ t ∈ ts, t.IsSource) ↔ ∃ ws, List.Forall₂ Spelling ts ws) ∧
    ∀ ws, List.Forall₂ Spelling ts ws → ∀ semicolons comment,
      (lexemes (String.ofList (sourceLine ws semicolons comment))).map Lexeme.token =
        ts ++ [.stop] := by
  refine ⟨exists_spellings_iff, fun ws spelled semicolons comment => ?_⟩
  calc (lexemes (String.ofList (sourceLine ws semicolons comment))).map Lexeme.token
      = (Lexer.lexemes ([' '].intercalate ws)).map Lexeme.token := by
        rw [lexemes, String.toList_ofList, cleanChars_sourceLine spelled some closed]
    _ = ts ++ [Token.stop] := by
        rw [Lexer.lexemes]
        exact (spells_intercalate spelled).lexemesFrom (Nat.lt_succ_self _)

theorem lexing_undoes_spelling_quotes :
    (lexemes "s = \x22//;\x5c\x22\x5cxE9\x22 / / '\x5cx+9' '\x22' 0X0fF ;; // \x22;").map
      Lexeme.token = [.identifier "s", .special '=', .text "//;\x22é", .special '/', .special '/',
        .char 9, .char 0x22, .hexadecimal 255, .stop] := by
  have slash : Penned '\x22' ['/'] 0x2f :=
    @Penned.raw _ 0x2f (by decide) (by decide) (by decide) (by decide)
  have semicolon : Penned '\x22' [';'] 0x3b :=
    @Penned.raw _ 0x3b (by decide) (by decide) (by decide) (by decide)
  have quotation : Penned '\x27' ['\x22'] 0x22 :=
    @Penned.raw _ 0x22 (by decide) (by decide) (by decide) (by decide)
  have text : List.Forall₂ (Penned '\x22')
      [['/'], ['/'], [';'], ['\x5c', '\x22'], ['\x5c', 'x', 'E', '9']]
      [0x2f, 0x2f, 0x3b, 0x22, 0xe9] :=
    .cons slash <| .cons slash <| .cons semicolon <| .cons (.escaped .quotation) <|
    .cons (.escaped (.byte (.inr rfl) (.inl rfl))) .nil
  have spelled : List.Forall₂ Spelling [.identifier "s", .special '=', .text "//;\x22é",
      .special '/', .special '/', .char 9, .char 0x22, .hexadecimal 255] _ :=
    .cons (@Spelling.identifier 's' [] (.inl rfl) (by simp)) <| .cons (.special (by decide)) <|
    .cons (.text text) <| .cons (.special (by decide)) <| .cons (.special (by decide)) <|
    .cons (.char (.escaped (.signed (by decide) (.inl rfl)))) <| .cons (.char quotation) <|
    .cons (@Spelling.hexadecimal 255 1 'X' ['0', 'f', 'F'] (by decide) (.inr rfl)
      (.cons (.inl rfl) (.cons (.inl rfl) (.cons (.inr rfl) .nil)))) .nil
  exact (lexing_undoes_spelling (by simp) (by simp)).2 _ spelled 2 (some " \x22;".toList)

end Statement

end ByteMachine
