import ByteMachine.Statement.Lexer

/-!
# Words

How a token is written. The word of a token is read as that token whatever follows, unless the
character behind it would be read as a part of it, as a letter behind a name or a digit, letter or
point behind a number. The other way round whatever is read as a token of the language is a word
of it.

Key definitions: `Escape`, `Quote`, `Word`, `Token.grows`, `Token.isWord`.
Key theorems: `Word.scan_append`, `word_of_scan`.
-/

namespace ByteMachine

open Lexer

/-! ### Words -/

/-- The characters behind a backslash and the byte that they stand for. -/
inductive Escape : List Char → UInt8 → Prop
  | letter {c : Char} {b : UInt8} : letterByte? c = some b → Escape [c] b
  | byte {c d : Char} {b : UInt8} : escapedByte? c d = some b → Escape ['x', c, d] b

/-- What is written between double quotes and the text that it is. -/
inductive Quote : List Char → List Char → Prop
  | nil : Quote [] []
  | plain {c : Char} {w s : List Char} : isAscii c = true → c ≠ '\x22' → c ≠ '\x5c' → Quote w s →
      Quote (c :: w) (c :: s)
  | escape {e : List Char} {b : UInt8} {w s : List Char} : Escape e b → Quote w s →
      Quote ('\x5c' :: (e ++ w)) (Text.byteChar b :: s)

/-- At least one digit, and nothing else. -/
def Digits (ds : List Char) : Prop := ds ≠ [] ∧ ∀ d ∈ ds, d.isDigit = true

/-- The digits behind the point of a number, if there is one. -/
inductive Fraction : List Char → Option (List Char) → Prop
  | absent : Fraction [] none
  | present {ds : List Char} : Digits ds → Fraction ('.' :: ds) (some ds)

/-- The exponent of a number, if there is one. -/
inductive Exponent : List Char → Option Int → Prop
  | absent : Exponent [] none
  | plain {e : Char} {ds : List Char} : e = 'e' ∨ e = 'E' → Digits ds →
      Exponent (e :: ds) (some (exponentValue false ds))
  | plus {e : Char} {ds : List Char} : e = 'e' ∨ e = 'E' → Digits ds →
      Exponent (e :: '+' :: ds) (some (exponentValue false ds))
  | minus {e : Char} {ds : List Char} : e = 'e' ∨ e = 'E' → Digits ds →
      Exponent (e :: '-' :: ds) (some (exponentValue true ds))

/-- How a token is written. -/
inductive Word : Token → List Char → Prop
  | identifier {c : Char} {w : List Char} : isNameStart c = true →
      (∀ d ∈ w, isNameChar d = true) → Word (.identifier (String.ofList (c :: w))) (c :: w)
  | integer {ds : List Char} : Digits ds → Text.digitsValue 10 ds < integerBound →
      Word (.integer (Text.digitsValue 10 ds)) ds
  | hexadecimal {x : Char} {ds : List Char} : x = 'x' ∨ x = 'X' → ds ≠ [] →
      (∀ d ∈ ds, Text.isHexDigit d = true) → Text.digitsValue 16 ds < integerBound →
      Word (.hexadecimal (Text.digitsValue 16 ds)) ('0' :: x :: ds)
  /-- A number with a fraction, an exponent or both. -/
  | real {ds f x : List Char} {fraction : Option (List Char)} {exponent : Option Int} :
      Digits ds → Fraction f fraction → Exponent x exponent →
      (fraction.isNone && exponent.isNone) = false →
      Word (.real (Number.Binary64.ofDecimal (Text.digitsValue 10 (ds ++ fraction.getD []))
        (exponent.getD 0 - (fraction.getD []).length))) (ds ++ (f ++ x))
  | char {c : Char} : isAscii c = true → c ≠ '\x27' → c ≠ '\x5c' →
      Word (.char (UInt8.ofNat c.toNat)) ['\x27', c, '\x27']
  | escaped {e : List Char} {b : UInt8} : Escape e b →
      Word (.char b) ('\x27' :: '\x5c' :: (e ++ ['\x27']))
  | text {w s : List Char} : Quote w s →
      Word (.text (String.ofList s)) ('\x22' :: (w ++ ['\x22']))
  | special {c : Char} : c ∈ specials → Word (.special c) [c]

/-- Whether a character behind the word of a token would be read as part of it. -/
def Token.grows : Token → Char → Bool
  | identifier _, c => isNameChar c
  | integer _, c | hexadecimal _, c | real _, c => isNameChar c || c = '.'
  | _, _ => false

/-! ### Characters -/

theorem toNat_of_isDigit {c : Char} (h : c.isDigit = true) : 48 ≤ c.toNat ∧ c.toNat ≤ 57 := by
  simp only [Char.isDigit, Bool.and_eq_true, decide_eq_true_eq] at h
  exact h

theorem toNat_of_isNameStart {c : Char} (h : isNameStart c = true) :
    (97 ≤ c.toNat ∧ c.toNat ≤ 122) ∨ (65 ≤ c.toNat ∧ c.toNat ≤ 90) ∨ c.toNat = 95 := by
  simp only [isNameStart, isLetter, Bool.or_eq_true, Bool.and_eq_true, decide_eq_true_eq] at h
  rcases h with (h | h) | rfl
  · exact .inl h
  · exact .inr (.inl h)
  · exact .inr (.inr rfl)

theorem toNat_of_isNameChar {c : Char} (h : isNameChar c = true) :
    48 ≤ c.toNat ∧ c.toNat ≤ 122 := by
  rw [isNameChar, Bool.or_eq_true] at h
  rcases h with h | h
  · have := toNat_of_isNameStart h
    omega
  · have := toNat_of_isDigit h
    omega

theorem not_isDigit_of_isNameStart {c : Char} (h : isNameStart c = true) : c.isDigit = false := by
  cases digit : c.isDigit with
  | false => rfl
  | true =>
    have := toNat_of_isNameStart h
    have := toNat_of_isDigit digit
    omega

theorem isNameChar_of_isDigit {c : Char} (h : c.isDigit = true) : isNameChar c = true := by
  rw [isNameChar, h, Bool.or_true]

theorem isNameChar_of_isHexDigit {c : Char} (h : Text.isHexDigit c = true) :
    isNameChar c = true := by
  simp only [Text.isHexDigit, Bool.or_eq_true, Bool.and_eq_true, decide_eq_true_eq] at h
  simp only [isNameChar, isNameStart, isLetter, Bool.or_eq_true, Bool.and_eq_true,
    decide_eq_true_eq]
  rcases h with (h | ⟨h, k⟩) | ⟨h, k⟩
  · exact .inr h
  · exact .inl (.inl (.inl ⟨h, Char.le_trans k (by decide)⟩))
  · exact .inl (.inl (.inr ⟨h, Char.le_trans k (by decide)⟩))

theorem not_isBlank_of_toNat {c : Char} (low : 32 < c.toNat) (high : c.toNat < 128) :
    Text.isBlank c = false := by
  simp only [Text.isBlank, Bool.or_eq_false_iff, Bool.and_eq_false_iff, decide_eq_false_iff_not,
    beq_eq_false_iff_ne]
  omega

theorem not_isBlank_of_isNameChar {c : Char} (h : isNameChar c = true) :
    Text.isBlank c = false := by
  have := toNat_of_isNameChar h
  exact not_isBlank_of_toNat (by omega) (by omega)

/-- What each character of a list is seen to be, one after the other. -/
theorem forall_mem_of_all {p : Char → Prop} [DecidablePred p] {cs : List Char}
    (h : (cs.all fun c => decide (p c)) = true) : ∀ c ∈ cs, p c :=
  fun c mem => of_decide_eq_true (List.all_eq_true.1 h c mem)

theorem not_isBlank_of_special {c : Char} (h : c ∈ specials) : Text.isBlank c = false := by
  have all : ∀ c ∈ specials, Text.isBlank c = false := forall_mem_of_all (by decide)
  exact all c h

/-! ### Reading a word -/

theorem takeWhile_dropWhile_append {p : Char → Bool} {w cs : List Char} (all : ∀ c ∈ w, p c = true)
    (stop : ∀ c, cs.head? = some c → p c = false) :
    (w ++ cs).takeWhile p = w ∧ (w ++ cs).dropWhile p = cs := by
  rw [List.takeWhile_append_of_pos all, List.dropWhile_append_of_pos all]
  cases cs with
  | nil => exact ⟨List.append_nil w, rfl⟩
  | cons c cs =>
    rw [List.takeWhile_cons_of_neg (by simp [stop c rfl]),
      List.dropWhile_cons_of_neg (by simp [stop c rfl])]
    exact ⟨List.append_nil w, rfl⟩

theorem Escape.scanEscape_append {e : List Char} {b : UInt8} (h : Escape e b) (cs : List Char) :
    scanEscape (e ++ cs) = (some b, cs) := by
  cases h with
  | @letter c _ h =>
    have other : c ≠ 'x' := by
      rintro rfl
      cases h
    simp only [List.singleton_append]
    unfold scanEscape
    split
    · next e => cases e
    · next e => exact absurd (List.cons.inj e).1 other
    · next e => exact absurd (List.cons.inj e).1 other
    · next e =>
      obtain ⟨rfl, rfl⟩ := List.cons.inj e
      rw [h]
  | byte h => rw [show ['x', _, _] ++ cs = 'x' :: _ :: _ :: cs from rfl, scanEscape, h]

/-- `read` is what comes before, in reverse. -/
theorem Quote.scanText_append {w s : List Char} (h : Quote w s) (cs : List Char) :
    ∀ {fuel : Nat} {read : List Char}, w.length < fuel →
      scanTextFrom fuel read (w ++ '\x22' :: cs) =
        (.text (String.ofList (read.reverse ++ s)), cs) := by
  induction h with
  | nil =>
    intro fuel read enough
    obtain ⟨fuel, rfl⟩ := Nat.exists_eq_succ_of_ne_zero (Nat.pos_iff_ne_zero.1 enough)
    rw [List.nil_append, scanTextFrom, if_pos rfl, List.append_nil]
  | @plain c w s ascii quote backslash _ ih =>
    intro fuel read enough
    obtain ⟨fuel, rfl⟩ := Nat.exists_eq_succ_of_ne_zero (Nat.ne_zero_of_lt enough)
    rw [List.cons_append, scanTextFrom, if_neg quote, if_neg backslash, if_pos ascii,
      ih (Nat.succ_lt_succ_iff.1 enough)]
    simp
  | @escape e b w s escape _ ih =>
    intro fuel read enough
    obtain ⟨fuel, rfl⟩ := Nat.exists_eq_succ_of_ne_zero (Nat.ne_zero_of_lt enough)
    simp only [List.length_cons, List.length_append] at enough
    rw [List.cons_append, scanTextFrom, if_neg (by decide), if_pos rfl, List.append_assoc,
      escape.scanEscape_append]
    dsimp only
    rw [ih (by omega)]
    simp

theorem Fraction.scanFraction_append {f : List Char} {fraction : Option (List Char)}
    (h : Fraction f fraction)
    {cs : List Char} (stop : ∀ c, cs.head? = some c → c.isDigit = false ∧ c ≠ '.') :
    scanFraction (f ++ cs) = (fraction, cs) := by
  cases h with
  | absent =>
    rw [List.nil_append]
    unfold scanFraction
    split
    · next c cs => exact absurd rfl (stop '.' rfl).2
    · rfl
  | @present ds digits =>
    obtain ⟨nonempty, all⟩ := digits
    obtain ⟨d, ds, rfl⟩ := List.exists_cons_of_ne_nil nonempty
    rw [List.forall_mem_cons] at all
    obtain ⟨taken, dropped⟩ := takeWhile_dropWhile_append all.2 fun c h => (stop c h).1
    simp only [List.cons_append, scanFraction, all.1, taken, dropped, if_true]

theorem scanExponentDigits_append {ds : List Char} (digits : Digits ds) {cs : List Char}
    (stop : ∀ c, cs.head? = some c → c.isDigit = false) :
    scanExponentDigits (ds ++ cs) = (some (exponentValue false ds), cs) ∧
    scanExponentDigits ('+' :: (ds ++ cs)) = (some (exponentValue false ds), cs) ∧
    scanExponentDigits ('-' :: (ds ++ cs)) = (some (exponentValue true ds), cs) := by
  obtain ⟨nonempty, all⟩ := digits
  obtain ⟨d, ds, rfl⟩ := List.exists_cons_of_ne_nil nonempty
  rw [List.forall_mem_cons] at all
  obtain ⟨taken, dropped⟩ := takeWhile_dropWhile_append all.2 stop
  have plus : d ≠ '+' := by
    rintro rfl
    exact absurd all.1 (by decide)
  have minus : d ≠ '-' := by
    rintro rfl
    exact absurd all.1 (by decide)
  refine ⟨?_, ?_, ?_⟩
  · rw [List.cons_append]
    unfold scanExponentDigits
    split
    · next e => exact absurd (List.cons.inj e).1 plus
    · next e => exact absurd (List.cons.inj e).1 minus
    · next e =>
      obtain ⟨rfl, rfl⟩ := List.cons.inj e
      rw [if_pos all.1, taken, dropped]
    · next e => cases e
  · simp only [List.cons_append, scanExponentDigits, all.1, taken, dropped, if_true]
  · simp only [List.cons_append, scanExponentDigits, all.1, taken, dropped, if_true]

theorem Exponent.scanExponent_append {x : List Char} {exponent : Option Int}
    (h : Exponent x exponent)
    {cs : List Char} (stop : ∀ c, cs.head? = some c → isNameChar c = false) :
    scanExponent (x ++ cs) = (exponent, cs) := by
  have digit (c : Char) (head : cs.head? = some c) : c.isDigit = false := by
    cases k : c.isDigit with
    | false => rfl
    | true => exact absurd (isNameChar_of_isDigit k) (by simp [stop c head])
  cases h with
  | absent =>
    rw [List.nil_append]
    unfold scanExponent
    split
    · exact absurd (stop 'e' rfl) (by decide)
    · exact absurd (stop 'E' rfl) (by decide)
    · rfl
  | plain e digits =>
    obtain ⟨read, -, -⟩ := scanExponentDigits_append digits digit
    rcases e with rfl | rfl <;> simp only [List.cons_append, scanExponent, read]
  | plus e digits =>
    obtain ⟨-, read, -⟩ := scanExponentDigits_append digits digit
    rcases e with rfl | rfl <;> simp only [List.cons_append, scanExponent, read]
  | minus e digits =>
    obtain ⟨-, -, read⟩ := scanExponentDigits_append digits digit
    rcases e with rfl | rfl <;> simp only [List.cons_append, scanExponent, read]

/-- What may come behind the digits of a number before its point and its exponent. -/
theorem Exponent.head {x : List Char} {exponent : Option Int} (h : Exponent x exponent)
    {cs : List Char} (stop : ∀ c, cs.head? = some c → isNameChar c = false ∧ c ≠ '.') :
    ∀ c, (x ++ cs).head? = some c → c.isDigit = false ∧ c ≠ '.' ∧ c ≠ 'x' ∧ c ≠ 'X' := by
  have letter (e : Char) (h : e = 'e' ∨ e = 'E') :
      e.isDigit = false ∧ e ≠ '.' ∧ e ≠ 'x' ∧ e ≠ 'X' := by
    rcases h with rfl | rfl <;> decide
  intro c head
  cases h with
  | absent =>
    obtain ⟨name, point⟩ := stop c head
    refine ⟨?_, point, ?_, ?_⟩
    · cases k : c.isDigit with
      | false => rfl
      | true => exact absurd (isNameChar_of_isDigit k) (by simp [name])
    · rintro rfl
      exact absurd name (by decide)
    · rintro rfl
      exact absurd name (by decide)
  | plain e | plus e | minus e =>
    cases head
    exact letter _ e

theorem Fraction.head {f : List Char} {fraction : Option (List Char)} (h : Fraction f fraction)
    {cs : List Char} (next : ∀ c, cs.head? = some c → c.isDigit = false ∧ c ≠ 'x' ∧ c ≠ 'X') :
    ∀ c, (f ++ cs).head? = some c → c.isDigit = false ∧ c ≠ 'x' ∧ c ≠ 'X' := by
  intro c head
  cases h with
  | absent => exact next c head
  | present =>
    cases head
    decide

theorem scanNumber_of_head {first : Char} {cs : List Char}
    (next : ∀ c, cs.head? = some c → c ≠ 'x' ∧ c ≠ 'X') :
    scanNumber first cs = scanDecimal first cs := by
  unfold scanNumber
  split
  · exact absurd rfl (next 'x' rfl).1
  · exact absurd rfl (next 'X' rfl).2
  · rfl

/-- A number that is not in base sixteen, with what belongs to it. -/
theorem scanNumber_append {d : Char} {ds f x cs : List Char} {fraction : Option (List Char)}
    {exponent : Option Int} (all : ∀ c ∈ ds, c.isDigit = true) (hf : Fraction f fraction)
    (hx : Exponent x exponent)
    (stop : ∀ c, cs.head? = some c → isNameChar c = false ∧ c ≠ '.') :
    scanNumber d (ds ++ (f ++ (x ++ cs))) =
      (if fraction.isNone && exponent.isNone then
        if integerBound ≤ Text.digitsValue 10 (d :: ds) then .invalid d
        else .integer (Text.digitsValue 10 (d :: ds))
      else .real (Number.Binary64.ofDecimal (Text.digitsValue 10 (d :: ds ++ fraction.getD []))
        (exponent.getD 0 - (fraction.getD []).length)), cs) := by
  have behind := hx.head stop
  have next := hf.head fun c head =>
    ⟨(behind c head).1, (behind c head).2.2.1, (behind c head).2.2.2⟩
  have head : ∀ c, (ds ++ (f ++ (x ++ cs))).head? = some c → c ≠ 'x' ∧ c ≠ 'X' := by
    cases ds with
    | nil => exact fun c head => (next c head).2
    | cons e ds =>
      intro c head
      cases head
      have digit := all e List.mem_cons_self
      constructor <;> rintro rfl <;> exact absurd digit (by decide)
  obtain ⟨taken, dropped⟩ := takeWhile_dropWhile_append all fun c head => (next c head).1
  rw [scanNumber_of_head head]
  unfold scanDecimal
  simp only [taken, dropped,
    hf.scanFraction_append fun c head => ⟨(behind c head).1, (behind c head).2.1⟩,
    hx.scanExponent_append fun c head => (stop c head).1]
  split <;> rfl

theorem scanHexadecimal_append {ds cs : List Char} (nonempty : ds ≠ [])
    (all : ∀ d ∈ ds, Text.isHexDigit d = true) (bound : Text.digitsValue 16 ds < integerBound)
    (stop : ∀ c, cs.head? = some c → isNameChar c = false) :
    scanHexadecimal (ds ++ cs) = (.hexadecimal (Text.digitsValue 16 ds), cs) := by
  have other (c : Char) (head : cs.head? = some c) : Text.isHexDigit c = false := by
    cases k : Text.isHexDigit c with
    | false => rfl
    | true => exact absurd (isNameChar_of_isHexDigit k) (by simp [stop c head])
  obtain ⟨taken, dropped⟩ := takeWhile_dropWhile_append all other
  unfold scanHexadecimal
  simp [taken, dropped, nonempty, Nat.not_le.2 bound]

theorem scan_of_isDigit {c : Char} (digit : c.isDigit = true) (cs : List Char) :
    scan c cs = scanNumber c cs := by
  rw [scan, if_neg, if_neg, if_pos digit] <;> rintro rfl <;> exact absurd digit (by decide)

theorem scan_of_isNameStart {c : Char} (start : isNameStart c = true) (cs : List Char) :
    scan c cs =
      (.identifier (String.ofList (c :: cs.takeWhile isNameChar)), cs.dropWhile isNameChar) := by
  rw [scan, if_neg, if_neg, if_neg, if_pos start]
  · rw [not_isDigit_of_isNameStart start]
    decide
  · rintro rfl
    exact absurd start (by decide)
  · rintro rfl
    exact absurd start (by decide)

theorem scan_of_special {c : Char} (mem : c ∈ specials) (cs : List Char) :
    scan c cs = (.special c, cs) := by
  have plain : ∀ c ∈ specials, c ≠ '\x22' ∧ c ≠ '\x27' ∧ c.isDigit = false ∧
      isNameStart c = false := forall_mem_of_all (by decide)
  obtain ⟨text, char, digit, name⟩ := plain c mem
  rw [scan, if_neg text, if_neg char, if_neg (by simp [digit]), if_neg (by simp [name]),
    if_pos mem]

/-- The word of a token is read as that token, if what follows is not read as part of it. -/
theorem Word.scan_append {t : Token} {w : List Char} (h : Word t w) {cs : List Char}
    (apart : ∀ c, cs.head? = some c → t.grows c = false) :
    ∃ c v, w = c :: v ∧ Text.isBlank c = false ∧ scan c (v ++ cs) = (t, cs) := by
  have digit {c : Char} (digit : c.isDigit = true) : Text.isBlank c = false :=
    not_isBlank_of_isNameChar (isNameChar_of_isDigit digit)
  -- Behind a decimal number comes nothing that would be part of one.
  have stop (number : ∀ c, t.grows c = (isNameChar c || c = '.')) (c : Char)
      (head : cs.head? = some c) : isNameChar c = false ∧ c ≠ '.' := by
    simpa [number] using apart c head
  cases h with
  | @identifier c v start all =>
    refine ⟨c, v, rfl, not_isBlank_of_isNameChar (by rw [isNameChar, start, Bool.true_or]), ?_⟩
    obtain ⟨taken, dropped⟩ := takeWhile_dropWhile_append all apart
    rw [scan_of_isNameStart start, taken, dropped]
  | @integer ds digits bound =>
    obtain ⟨nonempty, all⟩ := digits
    obtain ⟨d, ds, rfl⟩ := List.exists_cons_of_ne_nil nonempty
    rw [List.forall_mem_cons] at all
    refine ⟨d, ds, rfl, digit all.1, ?_⟩
    have read := @scanNumber_append d ds [] [] cs _ _ all.2 .absent .absent (stop fun _ => rfl)
    rw [scan_of_isDigit all.1, show ds ++ cs = ds ++ ([] ++ ([] ++ cs)) from rfl, read]
    simp [Nat.not_le.2 bound]
  | @hexadecimal x ds letter nonempty all bound =>
    refine ⟨'0', x :: ds, rfl, by decide, ?_⟩
    have read := scanHexadecimal_append nonempty all bound fun c head =>
      (stop (fun _ => rfl) c head).1
    rw [scan_of_isDigit (by decide)]
    rcases letter with rfl | rfl <;> exact read
  | @real ds f x fraction exponent digits hf hx real =>
    obtain ⟨nonempty, all⟩ := digits
    obtain ⟨d, ds, rfl⟩ := List.exists_cons_of_ne_nil nonempty
    rw [List.forall_mem_cons] at all
    refine ⟨d, ds ++ (f ++ x), rfl, digit all.1, ?_⟩
    have read := @scanNumber_append d ds f x cs _ _ all.2 hf hx (stop fun _ => rfl)
    rw [scan_of_isDigit all.1, List.append_assoc, List.append_assoc, read, real]
    simp
  | @char c ascii quote backslash =>
    refine ⟨'\x27', [c, '\x27'], rfl, by decide, ?_⟩
    have value :
        scanCharValue (c :: '\x27' :: cs) = (some (UInt8.ofNat c.toNat), '\x27' :: cs) := by
      rw [scanCharValue, if_neg backslash, if_pos (by simp [ascii, quote])]
    rw [scan, if_neg (by decide), if_pos rfl]
    simp only [List.cons_append, List.nil_append, scanChar, value]
  | @escaped e b escape =>
    refine ⟨'\x27', '\x5c' :: (e ++ ['\x27']), rfl, by decide, ?_⟩
    have value : scanCharValue ('\x5c' :: (e ++ '\x27' :: cs)) = (some b, '\x27' :: cs) := by
      rw [scanCharValue, if_pos rfl, escape.scanEscape_append]
    rw [scan, if_neg (by decide), if_pos rfl]
    simp only [List.cons_append, List.append_assoc, List.nil_append, scanChar, value]
  | @text v s quote =>
    refine ⟨'\x22', v ++ ['\x22'], rfl, by decide, ?_⟩
    rw [scan, if_pos rfl, scanText, List.append_assoc, List.singleton_append,
      quote.scanText_append cs (by rw [List.length_append]; omega)]
    simp
  | @special c mem => exact ⟨c, [], rfl, not_isBlank_of_special mem, scan_of_special mem cs⟩

/-! ### The word that was read -/

/-- Whether a token is a word of the language. -/
def Token.isWord : Token → Bool
  | invalid _ | stop => false
  | _ => true

/-- Whether a token is a number. -/
def Token.isNumber : Token → Bool
  | integer _ | hexadecimal _ | real _ => true
  | _ => false

theorem head?_dropWhile_eq_false {p : Char → Bool} {cs : List Char} {c : Char}
    (h : (cs.dropWhile p).head? = some c) : p c = false := by
  have := List.head?_dropWhile_not p cs
  rw [h] at this
  simpa using this

theorem all_takeWhile (p : Char → Bool) (cs : List Char) : ∀ c ∈ cs.takeWhile p, p c = true :=
  List.all_eq_true.1 List.all_takeWhile

theorem escape_of_scanEscape {cs rest : List Char} {b : UInt8}
    (e : scanEscape cs = (some b, rest)) : ∃ w, cs = w ++ rest ∧ Escape w b := by
  unfold scanEscape at e
  split at e
  · cases e
  · next c d cs =>
    obtain ⟨value, rfl⟩ := Prod.mk.inj e
    exact ⟨['x', c, d], rfl, .byte value⟩
  · cases e
  · next c cs _ _ =>
    obtain ⟨value, rfl⟩ := Prod.mk.inj e
    exact ⟨[c], rfl, .letter value⟩

theorem quote_of_scanTextFrom {t : Token} (word : t.isWord = true) :
    ∀ {fuel : Nat} {read cs rest : List Char}, scanTextFrom fuel read cs = (t, rest) →
      ∃ w s, cs = w ++ '\x22' :: rest ∧ Quote w s ∧ t = .text (String.ofList (read.reverse ++ s))
  | 0, _, _, _, e => by
    cases e
    cases word
  | _ + 1, _, [], _, e => by
    cases e
    cases word
  | fuel + 1, read, c :: cs, rest, e => by
    rw [scanTextFrom] at e
    split at e
    · next quote =>
      cases e
      exact ⟨[], [], congrArg (· :: cs) quote, .nil, by rw [List.append_nil]⟩
    · next quote =>
      split at e
      · next backslash =>
        split at e
        · next b behind escaped =>
          obtain ⟨v, rfl, escape⟩ := escape_of_scanEscape escaped
          obtain ⟨w, s, rfl, body, rfl⟩ := quote_of_scanTextFrom word e
          exact ⟨'\x5c' :: (v ++ w), Text.byteChar b :: s, by rw [backslash]; simp,
            .escape escape body, by simp⟩
        · cases e
          cases word
      · next backslash =>
        split at e
        · next ascii =>
          obtain ⟨w, s, rfl, body, rfl⟩ := quote_of_scanTextFrom word e
          exact ⟨c :: w, c :: s, rfl, .plain ascii quote backslash body, by simp⟩
        · cases e
          cases word

theorem word_of_scanChar {t : Token} (word : t.isWord = true) {cs rest : List Char}
    (e : scanChar cs = (t, rest)) :
    ∃ b w, t = .char b ∧ cs = w ++ rest ∧ Word t ('\x27' :: w) := by
  unfold scanChar at e
  split at e
  · next b rest value =>
    cases e
    unfold scanCharValue at value
    split at value
    · cases value
    · next c cs =>
      split at value
      · next backslash =>
        obtain ⟨v, rfl, escape⟩ := escape_of_scanEscape value
        exact ⟨b, '\x5c' :: (v ++ ['\x27']), rfl, by rw [backslash]; simp, .escaped escape⟩
      · next backslash =>
        split at value
        · next plain =>
          simp only [ne_eq, decide_not, Bool.and_eq_true, Bool.not_eq_eq_eq_not, Bool.not_true,
            decide_eq_false_iff_not] at plain
          obtain ⟨value, rfl⟩ := Prod.mk.inj value
          cases value
          exact ⟨_, [c, '\x27'], rfl, rfl, .char plain.1 plain.2 backslash⟩
        · cases value
  · cases e
    cases word

theorem word_of_scanHexadecimal {t : Token} (word : t.isWord = true) {x : Char}
    (letter : x = 'x' ∨ x = 'X') {cs rest : List Char} (e : scanHexadecimal cs = (t, rest)) :
    t.isNumber = true ∧ ∃ w, x :: cs = w ++ rest ∧ Word t ('0' :: w) := by
  unfold scanHexadecimal at e
  dsimp only at e
  split at e
  · cases e
    cases word
  · next proper =>
    cases e
    simp only [Bool.or_eq_true, List.isEmpty_iff, decide_eq_true_eq, not_or, Nat.not_le] at proper
    refine ⟨rfl, x :: cs.takeWhile Text.isHexDigit, ?_,
      .hexadecimal letter proper.1 (all_takeWhile _ cs) proper.2⟩
    rw [List.cons_append, List.takeWhile_append_dropWhile]

theorem fraction_of_scanFraction {cs rest : List Char} {fraction : Option (List Char)}
    (e : scanFraction cs = (fraction, rest)) : ∃ w, cs = w ++ rest ∧ Fraction w fraction := by
  unfold scanFraction at e
  split at e
  · next c cs =>
    split at e
    · next digit =>
      cases e
      refine ⟨'.' :: c :: cs.takeWhile Char.isDigit, by simp, .present ⟨by simp, ?_⟩⟩
      exact List.forall_mem_cons.2 ⟨digit, all_takeWhile _ cs⟩
    · cases e
      exact ⟨[], rfl, .absent⟩
  · cases e
    exact ⟨[], rfl, .absent⟩

theorem exponent_of_scanExponentDigits {cs rest : List Char} {n : Int}
    (e : scanExponentDigits cs = (some n, rest)) :
    ∃ w, cs = w ++ rest ∧ ∀ c, c = 'e' ∨ c = 'E' → Exponent (c :: w) (some n) := by
  have digits {c : Char} (digit : c.isDigit = true) (cs : List Char) :
      Digits (c :: cs.takeWhile Char.isDigit) :=
    ⟨by simp, List.forall_mem_cons.2 ⟨digit, all_takeWhile _ cs⟩⟩
  unfold scanExponentDigits at e
  split at e
  · next c cs =>
    split at e
    · next digit =>
      cases e
      exact ⟨'+' :: c :: cs.takeWhile Char.isDigit, by simp, fun _ h => .plus h (digits digit cs)⟩
    · cases e
  · next c cs =>
    split at e
    · next digit =>
      cases e
      exact ⟨'-' :: c :: cs.takeWhile Char.isDigit, by simp, fun _ h => .minus h (digits digit cs)⟩
    · cases e
  · next c cs _ _ =>
    split at e
    · next digit =>
      cases e
      exact ⟨c :: cs.takeWhile Char.isDigit, by simp, fun _ h => .plain h (digits digit cs)⟩
    · cases e
  · cases e

theorem exponent_of_scanExponent {cs rest : List Char} {exponent : Option Int}
    (e : scanExponent cs = (exponent, rest)) : ∃ w, cs = w ++ rest ∧ Exponent w exponent := by
  unfold scanExponent at e
  split at e
  · split at e
    · next n rest read =>
      cases e
      obtain ⟨w, rfl, h⟩ := exponent_of_scanExponentDigits read
      exact ⟨'e' :: w, rfl, h 'e' (.inl rfl)⟩
    · cases e
      exact ⟨[], rfl, .absent⟩
  · split at e
    · next n rest read =>
      cases e
      obtain ⟨w, rfl, h⟩ := exponent_of_scanExponentDigits read
      exact ⟨'E' :: w, rfl, h 'E' (.inr rfl)⟩
    · cases e
      exact ⟨[], rfl, .absent⟩
  · cases e
    exact ⟨[], rfl, .absent⟩

theorem word_of_scanDecimal {t : Token} (word : t.isWord = true) {d : Char}
    (digit : d.isDigit = true) {cs rest : List Char} (e : scanDecimal d cs = (t, rest)) :
    t.isNumber = true ∧ ∃ w, cs = w ++ rest ∧ Word t (d :: w) := by
  have digits : Digits (d :: cs.takeWhile Char.isDigit) :=
    ⟨by simp, List.forall_mem_cons.2 ⟨digit, all_takeWhile _ cs⟩⟩
  have whole := List.takeWhile_append_dropWhile (p := Char.isDigit) (l := cs)
  unfold scanDecimal at e
  rcases readFraction : scanFraction (cs.dropWhile Char.isDigit) with ⟨fraction, behind⟩
  rcases readExponent : scanExponent behind with ⟨exponent, last⟩
  simp only [readFraction, readExponent] at e
  obtain ⟨f, dropped, hf⟩ := fraction_of_scanFraction readFraction
  obtain ⟨x, rfl, hx⟩ := exponent_of_scanExponent readExponent
  split at e
  · next none =>
    simp only [Bool.and_eq_true, Option.isNone_iff_eq_none] at none
    obtain ⟨rfl, rfl⟩ := none
    cases hf
    cases hx
    split at e
    · cases e
      cases word
    · next bound =>
      cases e
      rw [List.nil_append, List.nil_append] at dropped
      exact ⟨rfl, cs.takeWhile Char.isDigit, by rw [← dropped, whole],
        .integer digits (Nat.not_le.1 bound)⟩
  · next real =>
    cases e
    refine ⟨rfl, cs.takeWhile Char.isDigit ++ (f ++ x), ?_,
      .real digits hf hx (Bool.eq_false_iff.2 real)⟩
    rw [List.append_assoc, List.append_assoc, ← dropped, whole]

theorem word_of_scanNumber {t : Token} (word : t.isWord = true) {d : Char}
    (digit : d.isDigit = true) {cs rest : List Char} (e : scanNumber d cs = (t, rest)) :
    t.isNumber = true ∧ ∃ w, cs = w ++ rest ∧ Word t (d :: w) := by
  unfold scanNumber at e
  split at e
  · exact word_of_scanHexadecimal word (.inl rfl) e
  · exact word_of_scanHexadecimal word (.inr rfl) e
  · exact word_of_scanDecimal word digit e

/-- What is read as a word of the language is written as one, which is as long as it can be unless
it is a number. -/
theorem word_of_scan {t : Token} (word : t.isWord = true) {c : Char} {cs rest : List Char}
    (e : scan c cs = (t, rest)) : ∃ w, cs = w ++ rest ∧ Word t (c :: w) ∧
      (t.isNumber = false → ∀ d, rest.head? = some d → t.grows d = false) := by
  unfold scan at e
  split at e
  · next quote =>
    obtain ⟨w, s, rfl, body, rfl⟩ := quote_of_scanTextFrom word e
    exact ⟨w ++ ['\x22'], by simp, quote ▸ .text body, fun _ _ _ => rfl⟩
  split at e
  · next quote =>
    obtain ⟨b, w, rfl, rfl, read⟩ := word_of_scanChar word e
    exact ⟨w, rfl, quote ▸ read, fun _ _ _ => rfl⟩
  split at e
  · next digit =>
    obtain ⟨number, w, rfl, read⟩ := word_of_scanNumber word digit e
    exact ⟨w, rfl, read, fun other => by rw [number] at other; cases other⟩
  split at e
  · next start =>
    cases e
    exact ⟨cs.takeWhile isNameChar, by simp, .identifier start (all_takeWhile _ cs),
      fun _ _ => head?_dropWhile_eq_false⟩
  split at e
  · next mem =>
    cases e
    exact ⟨[], rfl, .special mem, fun _ _ _ => rfl⟩
  · cases e
    cases word

/-! ### The end of a text -/

theorem scanTextFrom_ne_stop : ∀ (fuel : Nat) (read cs : List Char),
    (scanTextFrom fuel read cs).1 ≠ .stop
  | 0, _, _ | _ + 1, _, [] => nofun
  | fuel + 1, read, c :: cs => by
    rw [scanTextFrom]
    split
    · exact nofun
    · split
      · split
        · exact scanTextFrom_ne_stop fuel _ _
        · exact nofun
      · split
        · exact scanTextFrom_ne_stop fuel _ _
        · exact nofun

/-- No word ends a text. -/
theorem scan_ne_stop (c : Char) (cs : List Char) : (scan c cs).1 ≠ .stop := by
  have hexadecimal (cs : List Char) : (scanHexadecimal cs).1 ≠ .stop := by
    unfold scanHexadecimal
    dsimp only
    split <;> exact nofun
  have decimal (d : Char) (cs : List Char) : (scanDecimal d cs).1 ≠ .stop := by
    unfold scanDecimal
    dsimp only
    split
    · split <;> exact nofun
    · exact nofun
  unfold scan
  split
  · exact scanTextFrom_ne_stop _ _ _
  split
  · unfold scanChar
    split <;> exact nofun
  split
  · unfold scanNumber
    split
    · exact hexadecimal _
    · exact hexadecimal _
    · exact decimal _ _
  split
  · exact nofun
  split <;> exact nofun

end ByteMachine
