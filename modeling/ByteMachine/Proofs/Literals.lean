import ByteMachine.Proofs.Catalogs
import ByteMachine.Proofs.Derivation

/-!
# What a line spells out

The values in the code of a line stand in the line. An integer is below the bound of the literals,
a text is no longer than the line, and a type is a keyword behind which there may be stars; only
the variable of a declaration may be an array of such a type or a reference to one. In expressions
this follows from the grammar, since what is read derives from the tokens that were passed; the
numbers of the elements of an initializer list are below the number of elements, which has to be
an address.

Key definitions: `Ty.Flat`, `Ty.Declared`, `Literal.Spelled`, `Instr.Spelled`, `Parser.Tells`.
Key theorems: `Lexer.spelled_lexemesFrom`, `Derives.spelled`, `Parser.statement_tells`,
`Statement.spelled_of_parse`.
-/

namespace ByteMachine

open Discipline Number

/-! ### Types and values -/

/-- A scalar or `type_t`, or a pointer to such a type. -/
def Ty.Flat : Ty → Prop
  | .scalar _ | .descriptor => True
  | .pointer target => target.Flat
  | _ => False

/-- What a variable may be declared as. -/
def Ty.Declared : Ty → Prop
  | .reference target => target.Flat
  | .array element _ => element.Flat
  | t => t.Flat

/-- A value that a line of at most so many characters may spell out. -/
def Literal.Spelled (length : Nat) : Literal → Prop
  | .integer n => 0 ≤ n ∧ n < Lexer.integerBound
  | .text s => s.length ≤ length
  | .type t => t.Flat
  | _ => True

/-- An instruction whose values and types a line may spell out. -/
def Instr.Spelled (length : Nat) : Instr → Prop
  | .push v => v.Spelled length
  | .pushTyped v t => v = .integer 0 ∧ t = Ty.anyPointer
  | .create t _ _ => t.Declared
  | _ => True

def Token.Spelled (length : Nat) (t : Token) : Prop :=
  ∀ v, t.literal? = some v → v.Spelled length

theorem Literal.Spelled.mono {m n : Nat} (h : m ≤ n) {v : Literal} (k : v.Spelled m) :
    v.Spelled n := by
  cases v with
  | text s => exact Nat.le_trans k h
  | _ => exact k

theorem Token.Spelled.mono {m n : Nat} (h : m ≤ n) {t : Token} (k : t.Spelled m) : t.Spelled n :=
  fun v e => (k v e).mono h

theorem Ty.Flat.plain {t : Ty} (h : t.Flat) : t.isReference = false := by
  cases t with
  | reference => exact h.elim
  | _ => rfl

theorem Ty.flat_starred {t : Ty} (h : t.Flat) : ∀ n : Nat, (t.starred n).Flat
  | 0 => h
  | n + 1 => flat_starred h n

theorem Typed.flat {t : Ty} {ts : List Token} (h : Typed t ts) : t.Flat := by
  obtain ⟨e, -⟩ := h
  refine Ty.flat_starred ?_ _
  unfold Ty.ofKeyword? at e
  split at e
  · cases e
    trivial
  · obtain ⟨s, -, rfl⟩ := Option.map_eq_some_iff.1 e
    trivial

/-! ### Tokens -/

theorem Quote.length_le {w s : List Char} (h : Quote w s) : s.length ≤ w.length := by
  induction h with
  | nil => exact Nat.le_refl _
  | plain _ _ _ _ ih => simpa using ih
  | escape _ _ ih =>
    simp only [List.length_cons, List.length_append]
    omega

theorem Word.spelled {t : Token} {w : List Char} (h : Word t w) : t.Spelled w.length := by
  intro v e
  cases h with
  | integer _ bound | hexadecimal _ _ _ bound =>
    cases e
    exact ⟨Int.natCast_nonneg _, by exact_mod_cast bound⟩
  | text quoted =>
    cases e
    have := quoted.length_le
    simp only [Literal.Spelled, String.length_ofList, List.length_cons, List.length_append]
    omega
  | real | char | escaped =>
    cases e
    trivial
  | identifier | special => cases e

namespace Lexer

theorem suffix_scanEscape (cs : List Char) : (scanEscape cs).2 <:+ cs := by
  unfold scanEscape
  split
  · exact List.suffix_rfl
  · next c d cs => exact ⟨['x', c, d], rfl⟩
  · exact List.nil_suffix
  · exact List.suffix_cons _ _

theorem suffix_scanTextFrom : ∀ (fuel : Nat) (read cs : List Char),
    (scanTextFrom fuel read cs).2 <:+ cs
  | 0, _, _ | _ + 1, _, [] => List.suffix_rfl
  | fuel + 1, read, c :: cs => by
    have escaped := suffix_scanEscape cs
    have behind {rest : List Char} (h : rest <:+ cs) : rest <:+ c :: cs :=
      h.trans (List.suffix_cons c cs)
    rw [scanTextFrom]
    split
    · exact List.suffix_cons c cs
    · split
      · split <;> rename_i e <;> rw [e] at escaped
        · exact behind ((suffix_scanTextFrom fuel _ _).trans escaped)
        · exact behind escaped
      · split
        · exact behind (suffix_scanTextFrom fuel _ _)
        · exact List.suffix_cons c cs

theorem suffix_scanChar (cs : List Char) : (scanChar cs).2 <:+ cs := by
  have value : (scanCharValue cs).2 <:+ cs := by
    cases cs with
    | nil => exact List.suffix_rfl
    | cons c cs =>
      rw [scanCharValue]
      split
      · exact (suffix_scanEscape cs).trans (List.suffix_cons c cs)
      · split <;> exact List.suffix_cons c cs
  unfold scanChar
  split <;> rename_i e <;> rw [e] at value
  · exact (List.suffix_cons _ _).trans value
  · exact (List.drop_suffix 1 _).trans value

theorem suffix_scanFraction (cs : List Char) : (scanFraction cs).2 <:+ cs := by
  unfold scanFraction
  split
  · next c cs =>
    split
    · exact (List.dropWhile_suffix _).trans ⟨['.', c], rfl⟩
    · exact List.suffix_rfl
  · exact List.suffix_rfl

theorem suffix_scanExponentDigits (cs : List Char) : (scanExponentDigits cs).2 <:+ cs := by
  have digits (c : Char) (cs : List Char) : cs.dropWhile Char.isDigit <:+ c :: cs :=
    (List.dropWhile_suffix _).trans (List.suffix_cons c cs)
  unfold scanExponentDigits
  split
  · split
    · exact (digits _ _).trans (List.suffix_cons '+' _)
    · exact List.suffix_rfl
  · split
    · exact (digits _ _).trans (List.suffix_cons '-' _)
    · exact List.suffix_rfl
  · split
    · exact digits _ _
    · exact List.suffix_rfl
  · exact List.suffix_rfl

theorem suffix_scanExponent (cs : List Char) : (scanExponent cs).2 <:+ cs := by
  unfold scanExponent
  split
  · next cs =>
    have digits := suffix_scanExponentDigits cs
    split
    · next read =>
      rw [read] at digits
      exact digits.trans (List.suffix_cons 'e' cs)
    · exact List.suffix_rfl
  · next cs =>
    have digits := suffix_scanExponentDigits cs
    split
    · next read =>
      rw [read] at digits
      exact digits.trans (List.suffix_cons 'E' cs)
    · exact List.suffix_rfl
  · exact List.suffix_rfl

theorem suffix_scanNumber (first : Char) (cs : List Char) : (scanNumber first cs).2 <:+ cs := by
  have hexadecimal (cs : List Char) : (scanHexadecimal cs).2 <:+ cs := by
    unfold scanHexadecimal
    dsimp only
    split <;> exact List.dropWhile_suffix _
  have decimal : (scanDecimal first cs).2 <:+ cs := by
    have whole : cs.dropWhile Char.isDigit <:+ cs := List.dropWhile_suffix _
    have fraction := suffix_scanFraction (cs.dropWhile Char.isDigit)
    have exponent := suffix_scanExponent (scanFraction (cs.dropWhile Char.isDigit)).2
    have all := exponent.trans (fraction.trans whole)
    unfold scanDecimal
    dsimp only
    split <;> exact all
  unfold scanNumber
  split
  · exact (hexadecimal _).trans (List.suffix_cons _ _)
  · exact (hexadecimal _).trans (List.suffix_cons _ _)
  · exact decimal

/-- Reading goes on somewhere behind in the text. -/
theorem suffix_scan (c : Char) (cs : List Char) : (scan c cs).2 <:+ cs := by
  unfold scan
  split
  · exact suffix_scanTextFrom _ _ _
  split
  · exact suffix_scanChar cs
  split
  · exact suffix_scanNumber c cs
  split
  · exact List.dropWhile_suffix _
  split <;> exact List.suffix_rfl

theorem spelled_scan {c : Char} {cs rest : List Char} {t : Token} (e : scan c cs = (t, rest)) :
    t.Spelled (cs.length + 1) := by
  intro v literal
  have word : t.isWord = true := by
    cases t <;> first | rfl | cases literal
  obtain ⟨w, rfl, written, -⟩ := word_of_scan word e
  refine (written.spelled v literal).mono ?_
  simp only [List.length_cons, List.length_append]
  omega

/-- The literals of a text are bounded, and no longer than it. -/
theorem spelled_lexemesFrom : ∀ (fuel column : Nat) (cs : List Char),
    ∀ l ∈ lexemesFrom fuel column cs, l.token.Spelled cs.length
  | 0, column, _ | _ + 1, column, [] => by
    rintro l mem v e
    cases List.mem_singleton.1 mem
    cases e
  | fuel + 1, column, c :: cs => by
    intro l mem
    rw [lexemesFrom] at mem
    split at mem
    · exact (spelled_lexemesFrom fuel _ cs l mem).mono (Nat.le_succ _)
    · have shorter := (suffix_scan c cs).length_le
      rcases e : scan c cs with ⟨t, rest⟩
      rw [e] at mem shorter
      rcases List.mem_cons.1 mem with rfl | mem
      · exact spelled_scan e
      · exact (spelled_lexemesFrom fuel _ rest l mem).mono (Nat.le_succ_of_le shorter)

end Lexer

/-! ### Expressions -/

/-- The code that a phrase goes on from. -/
def Phrase.before : Phrase → List Instr
  | operations left => left
  | indices base => base
  | _ => []

/-- What the tokens of a phrase spell out is all that its code adds to what came before. -/
theorem Derives.spelled {scope : Scope} {apart : List Token → List Token → Prop} {p : Phrase}
    {c : List Instr} {ts : List Token} {length : Nat} (h : Derives scope apart p c ts)
    (tokens : ∀ t ∈ ts, t.Spelled length) (before : ∀ i ∈ p.before, i.Spelled length) :
    ∀ i ∈ c, i.Spelled length := by
  have none : ∀ i ∈ ([] : List Instr), i.Spelled length := List.forall_mem_nil _
  induction h with
  | evaluation _ ih => exact ih tokens none
  | assignment _ _ ih ih' =>
    simp only [List.forall_mem_append, List.forall_mem_cons] at tokens ⊢
    exact ⟨ih tokens.1 none, ih' tokens.2.2 none, trivial, none⟩
  | expression _ _ _ ih ih' =>
    rw [List.forall_mem_append] at tokens
    exact ih' tokens.2 (ih tokens.1 none)
  | noOperation | noIndex => exact before
  | operation op _ _ _ ih ih' =>
    simp only [List.forall_mem_append, List.forall_mem_cons] at tokens
    refine ih' tokens.2.2 ?_
    simp only [Phrase.before, List.forall_mem_append, List.forall_mem_cons]
    exact ⟨before, ih tokens.2.1 none, trivial, none⟩
  | negate _ ih =>
    simp only [List.forall_mem_append, List.forall_mem_cons] at tokens ⊢
    exact ⟨⟨Int.le_refl 0, by decide⟩, ih tokens.2 none, trivial, none⟩
  | positive _ ih => exact ih (List.forall_mem_cons.1 tokens).2 none
  | dereference _ _ ih =>
    simp only [List.forall_mem_append, List.forall_mem_cons] at tokens ⊢
    exact ⟨ih tokens.2.2 none, trivial, none⟩
  | addressOf _ ih | delete _ ih =>
    simp only [List.forall_mem_append, List.forall_mem_cons] at tokens ⊢
    exact ⟨ih tokens.2 none, trivial, none⟩
  | deleteArray _ ih =>
    simp only [List.forall_mem_append, List.forall_mem_cons] at tokens ⊢
    exact ⟨ih tokens.2.2.2 none, trivial, none⟩
  | newObject typed =>
    simp only [List.forall_mem_cons]
    exact ⟨typed.flat, trivial, none⟩
  | newArray typed _ ih =>
    simp only [List.forall_mem_append, List.forall_mem_cons] at tokens ⊢
    exact ⟨typed.flat, ih tokens.2.2.2.1 none, trivial, none⟩
  | operand _ ih => exact ih tokens none
  | indexed _ _ ih ih' =>
    rw [List.forall_mem_append] at tokens
    exact ih' tokens.2 (ih tokens.1 none)
  | index _ _ ih ih' =>
    simp only [List.forall_mem_append, List.forall_mem_cons] at tokens
    refine ih' tokens.2.2.2 ?_
    simp only [Phrase.before, List.forall_mem_append, List.forall_mem_cons]
    exact ⟨before, ih tokens.2.1 none, trivial, none⟩
  | literal value =>
    exact List.forall_mem_singleton.2 (tokens _ (.head _) _ value)
  | null => exact List.forall_mem_singleton.2 ⟨rfl, rfl⟩
  | parenthesized _ ih =>
    simp only [List.forall_mem_append, List.forall_mem_cons] at tokens
    exact ih tokens.2.1 none
  | name | callOfNothing => exact List.forall_mem_singleton.2 trivial
  | call _ _ _ ih =>
    simp only [List.forall_mem_append, List.forall_mem_cons] at tokens ⊢
    exact ⟨ih tokens.2.2.1 none, trivial, none⟩
  | typeArgument typed => exact List.forall_mem_singleton.2 typed.flat
  | argument _ ih | lastArgument _ ih => exact ih tokens none
  | moreArguments _ _ ih ih' =>
    simp only [List.forall_mem_append, List.forall_mem_cons] at tokens ⊢
    exact ⟨ih tokens.1 none, ih' tokens.2.2 none⟩

theorem Ahead.spelled {ls rest : List Lexeme} {ts : List Token} {length : Nat}
    (h : Ahead ls ts rest) (all : ∀ l ∈ ls, l.token.Spelled length) :
    (∀ t ∈ ts, t.Spelled length) ∧ ∀ l ∈ rest, l.token.Spelled length := by
  induction h with
  | nil => exact ⟨List.forall_mem_nil _, all⟩
  | cons _ ih =>
    rw [List.forall_mem_cons] at all
    exact ⟨List.forall_mem_cons.2 ⟨all.1, (ih all.2).1⟩, (ih all.2).2⟩

/-! ### Statements -/

namespace Parser

variable {α β : Type} {length : Nat} {x : Parser α} {post : α → Prop} {scope : Scope}

/-- From tokens that a line may hold on, a reader goes on to such tokens, and its result is as
described. -/
def Tells (length : Nat) (x : Parser α) (post : α → Prop) : Prop :=
  ∀ (r r' : Reading) (a : α), (∀ l ∈ r.ahead, l.token.Spelled length) →
    x.run.run r = (.ok a, r') → (∀ l ∈ r'.ahead, l.token.Spelled length) ∧ post a

theorem tells_pure {a : α} (h : post a) : Tells length (pure a) post := fun _ _ _ ahead e => by
  cases e
  exact ⟨ahead, h⟩

theorem tells_throw (fault : SyntaxFault) : Tells length (throw fault) post :=
  fun _ _ _ _ e => nomatch e

theorem tells_fail (cause : SyntaxCause) : Tells length (fail cause) post :=
  fun _ _ _ _ e => (not_fail e).elim

theorem Tells.bind {mid : α → Prop} (hx : Tells length x mid) {f : α → Parser β}
    {post : β → Prop} (hf : ∀ a, mid a → Tells length (f a) post) :
    Tells length (x >>= f) post := by
  intro r r' b ahead e
  obtain ⟨a, u, first, rest⟩ := run_bind_eq_ok.1 e
  obtain ⟨ahead, told⟩ := hx r u a ahead first
  exact hf a told u r' b ahead rest

theorem Tells.mono {other : α → Prop} (hx : Tells length x post) (h : ∀ a, post a → other a) :
    Tells length x other := fun r r' a ahead e =>
  ⟨(hx r r' a ahead e).1, h a (hx r r' a ahead e).2⟩

/-- A reader that passes tokens. -/
theorem tells_of_ahead (h : ∀ {r r' : Reading} {a : α}, x.run.run r = (.ok a, r') →
    ∃ ts, Ahead r.ahead ts r'.ahead ∧ ((∀ t ∈ ts, t.Spelled length) → post a)) :
    Tells length x post := by
  intro r r' a ahead e
  obtain ⟨ts, passed, told⟩ := h e
  obtain ⟨tokens, rest⟩ := passed.spelled ahead
  exact ⟨rest, told tokens⟩

theorem accept_tells (c : Char) : Tells length (accept c) fun _ => True :=
  tells_of_ahead fun e => by
    rcases accept_cases e with ⟨-, passed⟩ | ⟨-, rfl, -⟩
    · exact ⟨_, passed, fun _ => trivial⟩
    · exact ⟨_, .nil, fun _ => trivial⟩

theorem expect_tells (c : Char) (cause : SyntaxCause) :
    Tells length (expect c cause) fun _ => True :=
  tells_of_ahead fun e => ⟨_, ahead_of_expect e, fun _ => trivial⟩

/-- A reader that leaves the tokens where they are. -/
theorem tells_of_still (h : ∀ r, (x.run.run r).2.ahead = r.ahead) :
    Tells length x fun _ => True := by
  intro r r' a ahead e
  have still := h r
  rw [e] at still
  exact ⟨still ▸ ahead, trivial⟩

theorem remaining_tells : Tells length remaining fun _ => True := tells_of_still fun _ => rfl

theorem atEnd_tells : Tells length atEnd fun _ => True := tells_of_still fun r => by
  rw [run_atEnd]

theorem atType_tells : Tells length atType fun _ => True := tells_of_still fun r => by
  rw [run_atType]

theorem peek_tells : Tells length peek (Token.Spelled length) := by
  rintro ⟨ls, met⟩ r' t ahead e
  rw [run_peek] at e
  cases e
  refine ⟨ahead, ?_⟩
  cases ls with
  | nil => exact fun v literal => nomatch literal
  | cons l ls => exact ahead l (.head _)

theorem advance_tells : Tells length advance fun _ => True := by
  rintro ⟨ls, met⟩ r' ⟨⟩ ahead e
  cases e
  refine ⟨?_, trivial⟩
  dsimp only
  split
  · exact ahead
  · next l rest _ _ => exact fun l mem => ahead l (.tail _ mem)
  · exact ahead

theorem next_tells : Tells length next (Token.Spelled length) :=
  peek_tells.bind fun _ spelled => advance_tells.bind fun _ _ => tells_pure spelled

theorem type_tells : Tells length type Ty.Flat :=
  tells_of_ahead fun e => by
    obtain ⟨ts, typed, passed, -⟩ := typed_of_type e
    exact ⟨ts, passed, fun _ => typed.flat⟩

theorem built_tells (t : Except TypeFault Ty) : Tells length (built t) fun u => t = .ok u := by
  unfold built
  split
  · exact (tells_of_still (x := meet _) fun _ => rfl).bind fun _ _ => tells_pure rfl
  · exact tells_fail _

theorem newName_tells : Tells length newName fun _ => True := by
  refine next_tells.bind fun t _ => ?_
  split
  · split
    · exact tells_throw _
    · split
      · exact tells_pure trivial
      · exact tells_throw _
  · exact tells_fail _

theorem expression_tells :
    Tells length (expression scope) fun e => ∀ i ∈ e.compile, i.Spelled length :=
  tells_of_ahead fun e => by
    obtain ⟨ts, passed, derived⟩ := derives_of_expressionOf sound_fullTerm e
    exact ⟨ts, passed, fun tokens => derived.spelled tokens (List.forall_mem_nil _)⟩

theorem elements_tells : ∀ fuel, Tells length (elements scope fuel) fun es =>
    ∀ e ∈ es, ∀ i ∈ e.compile, i.Spelled length
  | 0 => tells_fail _
  | fuel + 1 => by
    refine expression_tells.bind fun first spelled => (accept_tells _).bind fun comma _ => ?_
    split
    · exact (elements_tells fuel).bind fun rest more =>
        tells_pure (List.forall_mem_cons.2 ⟨spelled, more⟩)
    · exact (expect_tells _ _).bind fun _ _ =>
        tells_pure (List.forall_mem_singleton.2 spelled)

end Parser

namespace Statement

variable {length : Nat}

/-- The numbers of the elements are literals as well. -/
theorem spelled_storeElements (id : Identifier) : ∀ (es : List Expr) (i : Nat),
    i + es.length ≤ addressBound → (∀ e ∈ es, ∀ j ∈ e.compile, j.Spelled length) →
    ∀ j ∈ storeElements id i es, j.Spelled length
  | [], _, _, _ => List.forall_mem_nil _
  | e :: es, i, few, spelled => by
    rw [List.forall_mem_cons] at spelled
    rw [List.length_cons] at few
    have bounded : addressBound ≤ Lexer.integerBound := twoPow_le_twoPow (by decide)
    have number : Instr.Spelled length (.push (.integer i)) :=
      ⟨Int.natCast_nonneg _, by exact_mod_cast (show i < Lexer.integerBound by omega)⟩
    have rest := spelled_storeElements id es (i + 1) (by omega) spelled.2
    simp only [storeElements, List.forall_mem_append, List.forall_mem_cons]
    exact ⟨⟨⟨trivial, number, trivial, List.forall_mem_nil _⟩, spelled.1, trivial, trivial,
      List.forall_mem_nil _⟩, rest⟩

end Statement

theorem Scalar.size_pos {word : Nat} (h : Catalog.isWordSize word = true) {s : Scalar}
    (sized : s ≠ .any) : 0 < s.size word := by
  simp only [Catalog.isWordSize, Bool.or_eq_true, decide_eq_true_eq] at h
  rcases h with (rfl | rfl) | rfl <;> revert sized <;> cases s <;> decide

/-- The elements of an array take some room, and all of them together no more than there are
addresses. -/
theorem Ty.size_of_arrayOf {word count : Nat} {element array : Ty}
    (h : Catalog.isWordSize word = true) (e : arrayOf word element count = .ok array) :
    0 < element.size word ∧ element.size word * count < addressBound := by
  have word_pos := (Catalog.isWordSize_bounds h).1
  unfold arrayOf at e
  split at e
  · cases e
  · cases e
  · cases e
  · next references arrays sized =>
    split at e
    · cases e
    · split at e
      · cases e
      · next small =>
        refine ⟨?_, Nat.not_le.1 small⟩
        cases element with
        | scalar s => exact Scalar.size_pos h fun any => sized (any ▸ rfl)
        | descriptor => exact Nat.one_pos
        | pointer => exact word_pos
        | reference t => exact (references t rfl).elim
        | array t n => exact (arrays t n rfl).elim

/-- The number of elements of an array is an address. -/
theorem Ty.count_lt_of_arrayOf {word count : Nat} {element array : Ty}
    (h : Catalog.isWordSize word = true) (e : arrayOf word element count = .ok array) :
    count < addressBound :=
  Nat.lt_of_le_of_lt (Nat.le_mul_of_pos_left _ (size_of_arrayOf h e).1) (size_of_arrayOf h e).2

namespace Parser

variable {length : Nat} {scope : Scope}

theorem arrayLength_tells : Tells length arrayLength fun _ => True := by
  refine next_tells.bind fun t _ => ?_
  have sized (n : Nat) : Tells length (do
      expect ']' .openLength
      if 0 < n && n < addressBound then return some n else fail .lengthNotPositive) fun _ => True := by
    refine (expect_tells _ _).bind fun _ _ => ?_
    split
    · exact tells_pure trivial
    · exact tells_fail _
  split
  · split
    · exact tells_pure trivial
    · exact tells_fail _
  · exact sized _
  · exact sized _
  · exact tells_fail _

/-- The code of what is read holds what the line spells out. -/
abbrev TellsCode (length : Nat) (x : Parser Statement) : Prop :=
  Tells length x fun s => ∀ i ∈ s.compile, i.Spelled length

theorem arrayDeclaration_tells (word : Catalog.isWordSize scope.word = true) {element : Ty}
    (flat : element.Flat) (id : Identifier) :
    TellsCode length (arrayDeclaration scope element id) := by
  have array (count : Nat) : Tells length (built (Ty.arrayOf scope.word element count)) fun t =>
      t.Declared ∧ count < addressBound := by
    refine (built_tells _).mono fun t e => ⟨?_, Ty.count_lt_of_arrayOf word e⟩
    obtain rfl := Ty.arrayOf_eq_ok e
    exact flat
  refine arrayLength_tells.bind fun count _ => (accept_tells _).bind fun assigned _ => ?_
  split
  · split
    · exact tells_fail _
    · next count =>
      refine atEnd_tells.bind fun ends _ => ?_
      split
      · exact tells_fail _
      · exact (array count).bind fun t told =>
          tells_pure (List.forall_mem_singleton.2 told.1)
  · refine peek_tells.bind fun t spelled => ?_
    split
    · next text =>
      split
      · exact tells_fail _
      · refine advance_tells.bind fun _ _ => (array _).bind fun t told => tells_pure ?_
        simp only [Statement.compile, List.forall_mem_cons]
        exact ⟨told.1, trivial, spelled _ rfl, trivial, trivial, List.forall_mem_nil _⟩
    · refine (expect_tells _ _).bind fun _ _ => remaining_tells.bind fun fuel _ => ?_
      refine (elements_tells fuel).bind fun es elements => ?_
      dsimp only
      split
      · exact tells_fail _
      · next few =>
        refine (array _).bind fun t told => tells_pure ?_
        simp only [Statement.compile, List.forall_mem_cons]
        exact ⟨told.1, Statement.spelled_storeElements id es 0 (by omega) elements⟩

theorem declaration_tells (word : Catalog.isWordSize scope.word = true) :
    TellsCode length (declaration scope) := by
  refine type_tells.bind fun base flat => (accept_tells _).bind fun isReference _ => ?_
  refine newName_tells.bind fun id _ => (accept_tells _).bind fun bracket _ => ?_
  have scalar (initialized : Bool) : Instr.Spelled length (.create base id initialized) := by
    cases base with
    | reference | array => exact flat.elim
    | _ => exact flat
  split
  · split
    · exact tells_fail _
    · exact arrayDeclaration_tells word flat id
  · split
    · refine (accept_tells _).bind fun assigned _ => ?_
      split
      · refine expression_tells.bind fun source spelled => ?_
        refine (built_tells _).bind fun t e => tells_pure ?_
        obtain ⟨rfl, -⟩ := Ty.referenceTo_eq_ok e
        simp only [Statement.compile, List.forall_mem_append, List.forall_mem_singleton]
        exact ⟨spelled, flat⟩
      · refine atEnd_tells.bind fun ends _ => ?_
        split
        · exact tells_throw _
        · exact tells_fail _
    · refine (accept_tells _).bind fun assigned _ => ?_
      split
      · refine expression_tells.bind fun e spelled => tells_pure ?_
        simp only [Statement.compile, List.forall_mem_append, List.forall_mem_singleton]
        exact ⟨spelled, scalar true⟩
      · refine atEnd_tells.bind fun ends _ => ?_
        split
        · exact tells_pure (List.forall_mem_singleton.2 (scalar false))
        · exact tells_fail _

theorem assignmentOrExpression_tells : TellsCode length (assignmentOrExpression scope) :=
  tells_of_ahead fun e => by
    obtain ⟨ts, passed, derived⟩ := derives_of_assignmentOrExpression e
    exact ⟨ts, passed, fun tokens => derived.spelled tokens (List.forall_mem_nil _)⟩

theorem statement_tells (word : Catalog.isWordSize scope.word = true) :
    Tells length (statement scope) fun s? =>
      ∀ s, s? = some s → ∀ i ∈ s.compile, i.Spelled length := by
  refine atEnd_tells.bind fun blank _ => ?_
  split
  · exact tells_pure fun _ e => nomatch e
  · refine atType_tells.bind fun declares _ => ?_
    have whole {x : Parser Statement} (h : TellsCode length x) : Tells length (do
        let s ← x
        if (← atEnd) then return some s else fail (.unexpected (← peek)))
        fun s? => ∀ s, s? = some s → ∀ i ∈ s.compile, i.Spelled length := by
      refine h.bind fun s spelled => atEnd_tells.bind fun ends _ => ?_
      split
      · refine tells_pure fun _ e => ?_
        cases e
        exact spelled
      · exact peek_tells.bind fun _ _ => tells_fail _
    split
    · exact whole (declaration_tells word)
    · exact whole assignmentOrExpression_tells

end Parser

namespace Statement

theorem length_cleanChars (cs : List Char) : (cleanChars cs).length ≤ cs.length := by
  have before : ∀ (s : Quoting) (cs : List Char), (beforeComment s cs).length ≤ cs.length := by
    intro s cs
    induction cs generalizing s with
    | nil => exact Nat.le_refl _
    | cons c cs ih =>
      rw [beforeComment]
      split
      · exact Nat.zero_le _
      · exact Nat.succ_le_succ (ih _)
  have dropEnd (p : Char → Bool) (cs : List Char) : (Text.dropEndWhile p cs).length ≤ cs.length := by
    rw [Text.dropEndWhile, List.length_reverse]
    exact Nat.le_trans (List.dropWhile_suffix p).length_le (Nat.le_of_eq List.length_reverse)
  calc (cleanChars cs).length
      ≤ (Text.dropEndWhile (fun c => c = ';') (Text.trim (beforeComment .outside cs))).length :=
        dropEnd _ _
    _ ≤ (Text.trim (beforeComment .outside cs)).length := dropEnd _ _
    _ ≤ (Text.trimStart (beforeComment .outside cs)).length := dropEnd _ _
    _ ≤ (beforeComment .outside cs).length := (List.dropWhile_suffix _).length_le
    _ ≤ cs.length := before _ _

/-- The code of a line holds only values and types that the line spells out. -/
theorem spelled_of_parse {scope : Scope} {line : String} {s : Statement}
    (word : Catalog.isWordSize scope.word = true) (e : (parse scope line).1 = .ok (some s)) :
    ∀ i ∈ s.compile, i.Spelled line.length := by
  have tokens : ∀ l ∈ lexemes line, l.token.Spelled line.length := fun l mem =>
    (Lexer.spelled_lexemesFrom _ _ _ l mem).mono (length_cleanChars line.toList)
  have told : Parser.Tells line.length (Parser.statement scope) _ := Parser.statement_tells word
  unfold parse at e
  generalize lexemes line = ls at tokens e
  rcases k : (Parser.statement scope).run.run ⟨ls, []⟩ with ⟨result, r'⟩
  rw [k] at e
  obtain rfl : result = .ok (some s) := e
  exact (told _ _ _ tokens k).2 s rfl

end Statement

end ByteMachine
