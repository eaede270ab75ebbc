import ByteMachine.Proofs.Words
import Mathlib.Data.List.Chain

/-!
# Texts that spell tokens

A text spells tokens if it is their words in order, with blanks before, between and behind them
where one likes, and at least where a word would run on into the next. A text falls into exactly
the tokens that it spells, and cleaning does not change what a text spells that holds no semicolon
and no two slashes in a row. The other way round a text spells the tokens that it falls into, if
all of them are words of the language and what stands behind a number is no part of it.

Key definitions: `Spells`, `Parted`.
Key theorems: `Spells.lexemesFrom`, `spells_of_lexemesFrom`, `Spells.cleanChars`,
`Spells.lexemes`, `spells_of_lexemes`.
-/

namespace ByteMachine

open Lexer

/-- The text spells the tokens: their words one after the other, with blanks that keep them
apart. -/
inductive Spells : List Token → List Char → Prop
  | nil : Spells [] []
  | blank {c : Char} {ts : List Token} {cs : List Char} : Text.isBlank c = true → Spells ts cs →
      Spells ts (c :: cs)
  | word {t : Token} {w : List Char} {ts : List Token} {cs : List Char} : Word t w →
      (∀ c, cs.head? = some c → t.grows c = false) → Spells ts cs → Spells (t :: ts) (w ++ cs)

/-! ### The tokens of a text -/

/-- A text falls into the tokens that it spells. -/
theorem Spells.lexemesFrom {ts : List Token} {cs : List Char} (h : Spells ts cs) :
    ∀ {fuel column : Nat}, cs.length < fuel →
      (Lexer.lexemesFrom fuel column cs).map Lexeme.token = ts ++ [.stop] := by
  induction h with
  | nil =>
    intro fuel column enough
    obtain ⟨fuel, rfl⟩ := Nat.exists_eq_succ_of_ne_zero (Nat.ne_zero_of_lt enough)
    rfl
  | blank blank _ ih =>
    intro fuel column enough
    obtain ⟨fuel, rfl⟩ := Nat.exists_eq_succ_of_ne_zero (Nat.ne_zero_of_lt enough)
    rw [Lexer.lexemesFrom]
    simp only [blank, if_true]
    exact ih (Nat.succ_lt_succ_iff.1 enough)
  | word word apart _ ih =>
    intro fuel column enough
    obtain ⟨fuel, rfl⟩ := Nat.exists_eq_succ_of_ne_zero (Nat.ne_zero_of_lt enough)
    obtain ⟨c, v, rfl, blank, read⟩ := word.scan_append apart
    simp only [List.cons_append, List.length_cons, List.length_append] at enough
    rw [List.cons_append, Lexer.lexemesFrom]
    simp only [blank, read, List.cons_append]
    exact congrArg _ (ih (by omega))

/-! ### The text that was read -/

/-- Behind a number comes a word that it cannot run into, and behind a slash no other one. -/
def Parted (t u : Token) : Prop :=
  (t.isNumber = true → ∃ c, u = .special c ∧ c ≠ '.') ∧ (t = .special '/' → u ≠ .special '/')

theorem Word.ne_nil {t : Token} {w : List Char} (h : Word t w) : ∃ c v, w = c :: v := by
  have apart : ∀ c, ([] : List Char).head? = some c → t.grows c = false :=
    fun _ head => nomatch head
  obtain ⟨c, v, e, -⟩ := h.scan_append apart
  exact ⟨c, v, e⟩

/-- A text starts with a blank or with the first of its words. -/
theorem Spells.head {ts : List Token} {cs : List Char} (h : Spells ts cs) {c : Char}
    (head : cs.head? = some c) :
    Text.isBlank c = true ∨ ∃ t us v, ts = t :: us ∧ Word t (c :: v) := by
  cases h with
  | nil => cases head
  | blank blank =>
    cases head
    exact .inl blank
  | @word t w us cs word =>
    obtain ⟨d, v, rfl⟩ := word.ne_nil
    cases head
    exact .inr ⟨t, us, v, rfl, word⟩

/-- A number ends before the text of tokens that it is parted from. -/
theorem Spells.apart {t : Token} {ts : List Token} {cs : List Char} (h : Spells ts cs)
    (number : t.isNumber = true) (parted : ∀ u, ts.head? = some u → Parted t u) {c : Char}
    (head : cs.head? = some c) : t.grows c = false := by
  have separate : isNameChar c = false ∧ c ≠ '.' := by
    rcases h.head head with blank | ⟨u, us, v, rfl, word⟩
    · constructor
      · cases name : isNameChar c with
        | false => rfl
        | true => rw [not_isBlank_of_isNameChar name] at blank; cases blank
      · rintro rfl
        exact absurd blank (by decide)
    · obtain ⟨d, rfl, point⟩ := (parted u rfl).1 number
      cases word with
      | special mem =>
        have plain : ∀ c ∈ specials, isNameChar c = false := forall_mem_of_all (by decide)
        exact ⟨plain c mem, point⟩
  cases t with
  | integer | hexadecimal | real => simp [Token.grows, separate.1, separate.2]
  | _ => cases number

/-- The end of a text comes once, and last. -/
theorem stop_of_lexemesFrom : ∀ (fuel column : Nat) (cs : List Char), ∃ ts,
    (Lexer.lexemesFrom fuel column cs).map Lexeme.token = ts ++ [.stop] ∧ .stop ∉ ts
  | 0, _, _ | _ + 1, _, [] => ⟨[], rfl, by simp⟩
  | fuel + 1, column, c :: cs => by
    rw [Lexer.lexemesFrom]
    dsimp only
    split
    · exact stop_of_lexemesFrom fuel _ cs
    · obtain ⟨ts, e, none⟩ := stop_of_lexemesFrom fuel _ (scan c cs).2
      refine ⟨(scan c cs).1 :: ts, by rw [List.map_cons, e, List.cons_append], ?_⟩
      rw [List.mem_cons, not_or]
      exact ⟨(scan_ne_stop c cs).symm, none⟩

/-- A text spells the tokens that it falls into. -/
theorem spells_of_lexemesFrom : ∀ {fuel column : Nat} {cs : List Char} {ts : List Token},
    cs.length < fuel → (Lexer.lexemesFrom fuel column cs).map Lexeme.token = ts ++ [.stop] →
    (∀ t ∈ ts, t.isWord = true) → ts.IsChain Parted → Spells ts cs
  | 0, _, _, _, enough, _, _, _ => absurd enough (Nat.not_lt_zero _)
  | _ + 1, _, [], [], _, _, _, _ => .nil
  | _ + 1, _, [], t :: ts, _, e, _, _ => by
    simp [Lexer.lexemesFrom] at e
  | fuel + 1, column, c :: cs, ts, enough, e, words, chain => by
    rw [Lexer.lexemesFrom] at e
    dsimp only at e
    split at e
    · next blank =>
      exact .blank blank (spells_of_lexemesFrom (Nat.succ_lt_succ_iff.1 enough) e words chain)
    · rcases read : scan c cs with ⟨t, rest⟩
      rw [read] at e
      dsimp only at e
      rw [List.map_cons] at e
      cases ts with
      | nil =>
        have first := scan_ne_stop c cs
        rw [read] at first
        exact absurd (List.cons.inj e).1 first
      | cons u us =>
        obtain ⟨rfl, behind⟩ := List.cons.inj e
        rw [List.forall_mem_cons] at words
        obtain ⟨w, rfl, word, greedy⟩ := word_of_scan words.1 read
        rw [List.isChain_cons] at chain
        simp only [List.length_cons, List.length_append] at enough
        have more := spells_of_lexemesFrom (by omega) behind words.2 chain.2
        refine .word word ?_ more
        cases number : Token.isNumber t with
        | false => exact greedy number
        | true => exact fun d head => more.apart number (fun u h => chain.1 u h) head

/-! ### Cleaning -/

/-- A character of a name or of a number. -/
def isPlain (c : Char) : Bool := isNameChar c || c = '.' || c = '+' || c = '-'

theorem isPlain_of_isNameChar {c : Char} (h : isNameChar c = true) : isPlain c = true := by
  simp [isPlain, h]

theorem isPlain_of_isDigit {c : Char} (h : c.isDigit = true) : isPlain c = true :=
  isPlain_of_isNameChar (isNameChar_of_isDigit h)

theorem Fraction.isPlain {f : List Char} {fraction : Option (List Char)} (h : Fraction f fraction) :
    ∀ c ∈ f, isPlain c = true := by
  cases h with
  | absent => simp
  | present digits =>
    exact List.forall_mem_cons.2 ⟨by decide, fun c m => isPlain_of_isDigit (digits.2 c m)⟩

theorem Exponent.isPlain {x : List Char} {exponent : Option Int} (h : Exponent x exponent) :
    ∀ c ∈ x, isPlain c = true := by
  have letter {e : Char} (h : e = 'e' ∨ e = 'E') : ByteMachine.isPlain e = true := by
    rcases h with rfl | rfl <;> decide
  have all {ds : List Char} (digits : Digits ds) : ∀ c ∈ ds, ByteMachine.isPlain c = true :=
    fun c m => isPlain_of_isDigit (digits.2 c m)
  cases h with
  | absent => simp
  | plain e digits => exact List.forall_mem_cons.2 ⟨letter e, all digits⟩
  | plus e digits | minus e digits =>
    exact List.forall_mem_cons.2 ⟨letter e, List.forall_mem_cons.2 ⟨by decide, all digits⟩⟩

/-- Characters that are neither slashes nor quotes are no part of a comment. -/
theorem beforeComment_cons {p : Char → Bool} {c : Char} (h : p c = true)
    (others : ∀ d ∈ ['/', '\x22', '\x27'], p d = false) (cs : List Char) :
    Statement.beforeComment .outside (c :: cs) = c :: Statement.beforeComment .outside cs := by
  have other (d : Char) (m : d ∈ ['/', '\x22', '\x27']) : c ≠ d := by
    rintro rfl
    rw [others c m] at h
    cases h
  have slash := other '/' (by simp)
  have quotes : Quoting.isQuote c = false := by
    simp [Quoting.isQuote, other '\x22' (by simp), other '\x27' (by simp)]
  rw [Statement.beforeComment, if_neg (by simp [slash])]
  simp only [Quoting.next, quotes]
  rfl

theorem beforeComment_append_of_all {p : Char → Bool}
    (others : ∀ d ∈ ['/', '\x22', '\x27'], p d = false) :
    ∀ {w : List Char}, (∀ c ∈ w, p c = true) → ∀ cs,
      Statement.beforeComment .outside (w ++ cs) = w ++ Statement.beforeComment .outside cs
  | [], _, _ => rfl
  | c :: w, all, cs => by
    rw [List.forall_mem_cons] at all
    rw [List.cons_append, beforeComment_cons all.1 others,
      beforeComment_append_of_all others all.2, List.cons_append]

theorem beforeComment_plain {w : List Char} (all : ∀ c ∈ w, isPlain c = true) (cs : List Char) :
    Statement.beforeComment .outside (w ++ cs) = w ++ Statement.beforeComment .outside cs :=
  beforeComment_append_of_all (forall_mem_of_all (by decide)) all cs

open Statement in
theorem beforeComment_inside {q : Char} : ∀ {w : List Char}, (∀ c ∈ w, c ≠ q ∧ c ≠ '\x5c') →
    ∀ cs, beforeComment (.inside q) (w ++ cs) = w ++ beforeComment (.inside q) cs
  | [], _, _ => rfl
  | c :: w, all, cs => by
    rw [List.forall_mem_cons] at all
    rw [List.cons_append, beforeComment, if_neg (by simp)]
    simp only [Quoting.next, all.1.1, all.1.2, if_false, List.cons_append]
    exact congrArg _ (beforeComment_inside all.2 cs)

open Statement in
theorem Escape.beforeComment_append {e : List Char} {b : UInt8} (h : Escape e b) {q : Char}
    (quote : q = '\x22' ∨ q = '\x27') (cs : List Char) :
    beforeComment (.inside q) ('\x5c' :: (e ++ cs)) =
      '\x5c' :: (e ++ beforeComment (.inside q) cs) := by
  have started (c : Char) (cs : List Char) : beforeComment (.inside q) ('\x5c' :: c :: cs) =
      '\x5c' :: c :: beforeComment (.inside q) cs := by
    rw [Statement.beforeComment, if_neg (by simp), Statement.beforeComment,
      if_neg (by simp [Quoting.next])]
    rfl
  cases h with
  | letter => exact started _ cs
  | @byte c d _ h =>
    have digit (c : Char) (h : Text.isHexDigit c = true) : c ≠ q ∧ c ≠ '\x5c' := by
      constructor
      · rintro rfl
        rcases quote with rfl | rfl <;> exact absurd h (by decide)
      · rintro rfl
        exact absurd h (by decide)
    have both : ∀ x ∈ [c, d], x ≠ q ∧ x ≠ '\x5c' := by
      unfold escapedByte? at h
      split at h
      · cases h
      · next second =>
        have second := digit d (by simpa using second)
        split at h
        · next plus =>
          subst plus
          rcases quote with rfl | rfl <;> simp [second]
        · split at h
          · next first => simp [digit c first, second]
          · cases h
    exact (started 'x' ([c, d] ++ cs)).trans
      (congrArg (fun w => '\x5c' :: 'x' :: w) (beforeComment_inside both cs))

open Statement in
theorem Quote.beforeComment_append {w s : List Char} (h : Quote w s) (cs : List Char) :
    beforeComment (.inside '\x22') (w ++ '\x22' :: cs) =
      w ++ '\x22' :: beforeComment .outside cs := by
  induction h with
  | nil => rfl
  | @plain c w s ascii quote backslash _ ih =>
    exact (beforeComment_inside (w := [c]) (by simp [quote, backslash]) _).trans
      (congrArg (c :: ·) ih)
  | @escape e b w s escape _ ih =>
    rw [List.cons_append, List.append_assoc, escape.beforeComment_append (.inl rfl), ih]
    simp

/-- A word is plain or it stands in quotes or it is one special character. -/
theorem Word.cases_plain {t : Token} {w : List Char} (h : Word t w) :
    (∀ c ∈ w, isPlain c = true) ∨
    (∃ q v, (q = '\x22' ∨ q = '\x27') ∧ w = q :: (v ++ [q]) ∧ ∀ cs,
      Statement.beforeComment (.inside q) (v ++ q :: cs) =
        v ++ q :: Statement.beforeComment .outside cs) ∨
    ∃ c ∈ specials, t = .special c ∧ w = [c] := by
  cases h with
  | identifier start all =>
    refine .inl (List.forall_mem_cons.2 ⟨isPlain_of_isNameChar ?_, fun c m =>
      isPlain_of_isNameChar (all c m)⟩)
    rw [isNameChar, start, Bool.true_or]
  | integer digits => exact .inl fun c m => isPlain_of_isDigit (digits.2 c m)
  | hexadecimal letter _ all =>
    refine .inl (List.forall_mem_cons.2 ⟨by decide, List.forall_mem_cons.2 ⟨?_, fun c m =>
      isPlain_of_isNameChar (isNameChar_of_isHexDigit (all c m))⟩⟩)
    rcases letter with rfl | rfl <;> decide
  | real digits hf hx =>
    refine .inl fun c m => ?_
    rcases List.mem_append.1 m with m | m
    · exact isPlain_of_isDigit (digits.2 c m)
    · exact (List.mem_append.1 m).elim (hf.isPlain c) (hx.isPlain c)
  | @char c ascii quote backslash =>
    exact .inr (.inl ⟨'\x27', [c], .inr rfl, rfl, fun cs =>
      beforeComment_inside (w := [c]) (by simp [quote, backslash]) _⟩)
  | @escaped e b escape =>
    refine .inr (.inl ⟨'\x27', '\x5c' :: e, .inr rfl, rfl, fun cs => ?_⟩)
    rw [List.cons_append, escape.beforeComment_append (.inr rfl)]
    rfl
  | @text w s quote => exact .inr (.inl ⟨'\x22', w, .inl rfl, rfl, quote.beforeComment_append⟩)
  | special mem => exact .inr (.inr ⟨_, mem, rfl, rfl⟩)

theorem Word.last {t : Token} {w : List Char} {c : Char} (h : Word t (w ++ [c])) :
    Text.isBlank c = false ∧ (t ≠ .special ';' → c ≠ ';') := by
  rcases h.cases_plain with plain | ⟨q, v, quote, e, -⟩ | ⟨d, mem, rfl, e⟩
  · have h := plain c (by simp)
    simp only [isPlain, Bool.or_eq_true, decide_eq_true_eq] at h
    rcases h with ((h | rfl) | rfl) | rfl
    · refine ⟨not_isBlank_of_isNameChar h, fun _ => ?_⟩
      rintro rfl
      exact absurd h (by decide)
    all_goals exact ⟨by decide, fun _ => by decide⟩
  · rw [← List.cons_append] at e
    obtain ⟨-, e⟩ := List.append_inj' e rfl
    cases e
    rcases quote with rfl | rfl <;> exact ⟨by decide, fun _ => by decide⟩
  · rw [← List.nil_append [d]] at e
    obtain ⟨-, e⟩ := List.append_inj' e rfl
    cases e
    refine ⟨not_isBlank_of_special mem, fun other => ?_⟩
    rintro rfl
    exact other rfl

/-- The last character of a text is a blank behind its words or ends one of them. -/
theorem Spells.last {ts : List Token} {xs : List Char} (h : Spells ts xs) :
    ∀ {cs : List Char} {c : Char}, xs = cs ++ [c] →
      (Text.isBlank c = true ∧ Spells ts cs) ∨ ∃ t ∈ ts, ∃ w, Word t (w ++ [c]) := by
  induction h with
  | nil => exact fun e => absurd e (by simp)
  | @blank b ts xs blank h ih =>
    intro cs c e
    cases cs with
    | nil =>
      cases e
      exact .inl ⟨blank, h⟩
    | cons d cs =>
      obtain ⟨rfl, behind⟩ := List.cons.inj e
      exact (ih behind).imp (fun last => ⟨last.1, .blank blank last.2⟩) id
  | @word t w ts xs word apart h ih =>
    intro cs c e
    rcases List.eq_nil_or_concat xs with rfl | ⟨ys, d, rfl⟩
    · rw [List.append_nil] at e
      exact .inr ⟨t, List.mem_cons_self, cs, e ▸ word⟩
    · rw [List.concat_eq_append, ← List.append_assoc] at e
      obtain ⟨rfl, same⟩ := List.append_inj' e rfl
      cases same
      rcases ih (List.concat_eq_append) with ⟨blank, more⟩ | ⟨u, m, v, last⟩
      · refine .inl ⟨blank, .word word (fun e head => apart e ?_) more⟩
        cases ys with
        | nil => cases head
        | cons => exact head
      · exact .inr ⟨u, List.mem_cons_of_mem _ m, v, last⟩

theorem Spells.dropEndWhile {p : Char → Bool} {ts : List Token}
    (keep : ∀ t ∈ ts, ∀ w c, Word t (w ++ [c]) → p c = false) {cs : List Char}
    (h : Spells ts cs) : Spells ts (Text.dropEndWhile p cs) := by
  induction cs using List.reverseRecOn with
  | nil => exact h
  | append_singleton cs c ih =>
    unfold Text.dropEndWhile at ih ⊢
    rw [List.reverse_append, List.reverse_singleton, List.singleton_append, List.dropWhile_cons]
    split
    · next drops =>
      rcases h.last rfl with ⟨-, less⟩ | ⟨t, m, w, word⟩
      · exact ih less
      · rw [keep t m w c word] at drops
        cases drops
    · simpa using h

theorem Spells.trimEnd {ts : List Token} {cs : List Char} (h : Spells ts cs) :
    Spells ts (Text.trimEnd cs) :=
  h.dropEndWhile fun _ _ _ _ word => word.last.1

theorem Spells.trimStart {ts : List Token} {cs : List Char} (h : Spells ts cs) :
    Spells ts (Text.trimStart cs) := by
  unfold Text.trimStart
  induction h with
  | nil => exact .nil
  | blank blank _ ih => rwa [List.dropWhile_cons_of_pos blank]
  | word word apart h _ =>
    obtain ⟨c, v, rfl, blank, -⟩ := word.scan_append apart
    rw [List.cons_append, List.dropWhile_cons_of_neg (by simp [blank]), ← List.cons_append]
    exact .word word apart h

/-- No comment starts in a word that stands outside of quotes, unless it is a slash and another one
follows. -/
theorem Word.beforeComment_append {t : Token} {w cs : List Char} (h : Word t w)
    (slash : t = .special '/' → cs.head? ≠ some '/') :
    Statement.beforeComment .outside (w ++ cs) =
      w ++ Statement.beforeComment .outside cs := by
  rcases h.cases_plain with plain | ⟨q, v, quote, rfl, inside⟩ | ⟨c, mem, rfl, rfl⟩
  · exact beforeComment_plain plain cs
  · have opens : Quoting.next .outside q = .inside q := by rcases quote with rfl | rfl <;> rfl
    rw [List.cons_append, Statement.beforeComment, if_neg, opens, List.append_assoc,
      List.singleton_append, inside, List.cons_append, List.append_assoc, List.singleton_append]
    rcases quote with rfl | rfl <;> simp
  · have outside : ∀ c ∈ specials, Quoting.next .outside c = .outside :=
      forall_mem_of_all (by decide)
    rw [List.singleton_append, Statement.beforeComment, if_neg, outside c mem,
      List.singleton_append]
    rintro ⟨-, rfl, head⟩
    exact slash rfl head

/-- No comment starts in a text without two slashes in a row. -/
theorem Spells.beforeComment_eq {ts : List Token} {cs : List Char} (h : Spells ts cs)
    (chain : ts.IsChain Parted) : Statement.beforeComment .outside cs = cs := by
  induction h with
  | nil => rfl
  | blank blank _ ih => rw [beforeComment_cons blank (forall_mem_of_all (by decide)), ih chain]
  | @word t w ts cs word apart more ih =>
    rw [List.isChain_cons] at chain
    rw [word.beforeComment_append, ih chain.2]
    -- A slash behind this one would be a word of its own.
    intro slash head
    rcases more.head head with blank | ⟨u, us, v, rfl, word⟩
    · exact absurd blank (by decide)
    · refine (chain.1 u rfl).2 slash ?_
      rcases word.cases_plain with plain | ⟨q, v, quote, e, -⟩ | ⟨c, -, rfl, e⟩
      · exact absurd (plain '/' List.mem_cons_self) (by decide)
      · obtain ⟨rfl, -⟩ := List.cons.inj e
        rcases quote with e | e <;> exact absurd e (by decide)
      · rw [← (List.cons.inj e).1]

/-- What a text spells without semicolons is spelled by the cleaned text. -/
theorem Spells.cleanChars {ts : List Token} {cs : List Char} (h : Spells ts cs)
    (chain : ts.IsChain Parted) (none : ∀ t ∈ ts, t ≠ .special ';') :
    Spells ts (Statement.cleanChars cs) := by
  unfold Statement.cleanChars Text.trim
  rw [h.beforeComment_eq chain]
  refine (h.trimStart.trimEnd.dropEndWhile fun t m w c word => ?_).trimEnd
  exact decide_eq_false (word.last.2 (none t m))

/-- A line falls into the tokens that it spells. -/
theorem Spells.lexemes {ts : List Token} {line : String} (h : Spells ts line.toList)
    (chain : ts.IsChain Parted) (none : ∀ t ∈ ts, t ≠ .special ';') :
    (Statement.lexemes line).map Lexeme.token = ts ++ [.stop] := by
  rw [Statement.lexemes, Lexer.lexemes]
  exact (h.cleanChars chain none).lexemesFrom (Nat.lt_succ_self _)

/-- A cleaned line spells the tokens that it falls into. -/
theorem spells_of_lexemes {ts : List Token} {line : String}
    (e : (Statement.lexemes line).map Lexeme.token = ts ++ [.stop])
    (words : ∀ t ∈ ts, t.isWord = true) (chain : ts.IsChain Parted) :
    Spells ts (Statement.cleanChars line.toList) := by
  rw [Statement.lexemes, Lexer.lexemes] at e
  exact spells_of_lexemesFrom (Nat.lt_succ_self _) e words chain

theorem stop_of_lexemes (line : String) : ∃ ts,
    (Statement.lexemes line).map Lexeme.token = ts ++ [.stop] ∧ .stop ∉ ts := by
  rw [Statement.lexemes, Lexer.lexemes]
  exact stop_of_lexemesFrom _ _ _

end ByteMachine
