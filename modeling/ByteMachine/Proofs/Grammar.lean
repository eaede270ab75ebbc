import ByteMachine.Proofs.Spelling
import ByteMachine.Statement.Parser

/-!
# The grammar of expressions and assignments

The sentences of the language that declare nothing, each with its code in post-order: an operand
before its operator, the arguments before the call. All binary operators bind alike and to the
left, so what stands behind a term is read with the code of all that comes before it, and so are
the indices behind a primary. A run of stars before a term is one instruction.

How tokens may follow a term is a parameter of the grammar. With nothing asked for it is the
grammar as one would write it down, and a product behind a `new` without a length is a sentence of
it. With `TypesClosed` the stars behind such a `new` all belong to its type.

Every sentence begins as no declaration does, holds no semicolon and no two slashes in a row, and
has a special character behind each number that is not its last token.

Key definitions: `Phrase`, `Typed`, `Derives`, `beginsType`, `EndsInType`, `TypesClosed`.
Key theorems: `Derives.opens`, `Derives.closes`, `Derives.new_of_endsInType`, `Derives.fine`.
-/

namespace ByteMachine

/-- The parts of a statement. -/
inductive Phrase where
  | statement
  | expression
  /-- The operators and terms behind what has the code `left`. -/
  | operations (left : List Instr)
  | term
  /-- A primary and the indices behind it. -/
  | indexed
  /-- The indices behind what has the code `base`. -/
  | indices (base : List Instr)
  | primary
  | argument
  /-- So many arguments, at least one. -/
  | arguments (count : Nat)

/-- The literal that a token is. -/
def Token.literal? : Token → Option Literal
  | integer n | hexadecimal n => some (.integer n)
  | real x => some (.float x)
  | char b => some (.char b)
  | text s => some (.text s)
  | _ => none

/-- A type: a keyword and at most three stars. -/
inductive Typed : Ty → List Token → Prop
  | stars {keyword : String} {t : Ty} {n : Nat} : Ty.ofKeyword? keyword = some t →
      n ≤ Ty.maxStars →
      Typed (t.starred n) (.identifier keyword :: List.replicate n (.special '*'))

/-- The tokens form a phrase with the code. Behind a term that is an operand of an operator only
what is `apart` from it may follow. -/
inductive Derives (scope : Scope) (apart : List Token → List Token → Prop) :
    Phrase → List Instr → List Token → Prop
  | evaluation {c ts} : Derives scope apart .expression c ts → Derives scope apart .statement c ts
  | assignment {c d ts us} : Derives scope apart .term c ts → Derives scope apart .expression d us →
      Derives scope apart .statement (c ++ (d ++ [.assign])) (ts ++ .special '=' :: us)
  | expression {c d ts us} : Derives scope apart .term c ts →
      Derives scope apart (.operations c) d us → apart ts us →
      Derives scope apart .expression d (ts ++ us)
  | noOperation {c} : Derives scope apart (.operations c) c []
  | operation {c d e ts us} (op : Operator) : Derives scope apart .term d ts →
      Derives scope apart (.operations (c ++ (d ++ [.binary op]))) e us → apart ts us →
      Derives scope apart (.operations c) e (.special op.symbol :: (ts ++ us))
  /-- A negative term is subtracted from zero. -/
  | negate {c ts} : Derives scope apart .term c ts →
      Derives scope apart .term (.push (.integer 0) :: (c ++ [.binary .sub])) (.special '-' :: ts)
  | positive {c ts} : Derives scope apart .term c ts →
      Derives scope apart .term c (.special '+' :: ts)
  /-- A run of stars that cannot be longer. -/
  | dereference {c ts} {n : Nat} : Derives scope apart .term c ts →
      ts.head? ≠ some (.special '*') →
      Derives scope apart .term (c ++ [.dereference (n + 1)])
        (.special '*' :: (List.replicate n (.special '*') ++ ts))
  | addressOf {c ts} : Derives scope apart .term c ts →
      Derives scope apart .term (c ++ [.addressOf]) (.special '&' :: ts)
  | newObject {t ts} : Typed t ts →
      Derives scope apart .term [.push (.type t), .call "new" 1] (.identifier "new" :: ts)
  | newArray {t c ts us} : Typed t ts → Derives scope apart .expression c us →
      Derives scope apart .term (.push (.type t) :: (c ++ [.call "new[]" 2]))
        (.identifier "new" :: (ts ++ .special '[' :: (us ++ [.special ']'])))
  | delete {c ts} : Derives scope apart .term c ts →
      Derives scope apart .term (c ++ [.call "delete" 1]) (.identifier "delete" :: ts)
  | deleteArray {c ts} : Derives scope apart .term c ts →
      Derives scope apart .term (c ++ [.call "delete" 1])
        (.identifier "delete" :: .special '[' :: .special ']' :: ts)
  | operand {c ts} : Derives scope apart .indexed c ts → Derives scope apart .term c ts
  | indexed {c d ts us} : Derives scope apart .primary c ts →
      Derives scope apart (.indices c) d us → Derives scope apart .indexed d (ts ++ us)
  | noIndex {c} : Derives scope apart (.indices c) c []
  | index {c d e ts us} : Derives scope apart .expression d ts →
      Derives scope apart (.indices (c ++ (d ++ [.index]))) e us →
      Derives scope apart (.indices c) e (.special '[' :: (ts ++ .special ']' :: us))
  | literal {t : Token} {v : Literal} : t.literal? = some v →
      Derives scope apart .primary [.push v] [t]
  | null {name : String} : name = "null" ∨ name = "NULL" →
      Derives scope apart .primary [.pushTyped (.integer 0) Ty.anyPointer] [.identifier name]
  | parenthesized {c ts} : Derives scope apart .expression c ts →
      Derives scope apart .primary c (.special '(' :: (ts ++ [.special ')']))
  | name {name : String} : Identifier.isName name = true → Ty.isKeyword name = false →
      name ∉ Identifier.reserved →
      Derives scope apart .primary [.pushName (.named name)] [.identifier name]
  | callOfNothing {function : String} : function ∉ Identifier.reserved →
      (Ty.isKeyword function = true ∨ scope.isVariable function = false) →
      Derives scope apart .primary [.call function 0]
        [.identifier function, .special '(', .special ')']
  | call {function : String} {c ts} {n : Nat} : function ∉ Identifier.reserved →
      (Ty.isKeyword function = true ∨ scope.isVariable function = false) →
      Derives scope apart (.arguments n) c ts →
      Derives scope apart .primary (c ++ [.call function n])
        (.identifier function :: .special '(' :: (ts ++ [.special ')']))
  | typeArgument {t ts} : Typed t ts → Derives scope apart .argument [.push (.type t)] ts
  | argument {c ts} : Derives scope apart .expression c ts → Derives scope apart .argument c ts
  | lastArgument {c ts} : Derives scope apart .argument c ts →
      Derives scope apart (.arguments 1) c ts
  | moreArguments {c d ts us} {n : Nat} : Derives scope apart .argument c ts →
      Derives scope apart (.arguments n) d us →
      Derives scope apart (.arguments (n + 1)) (c ++ d) (ts ++ .special ',' :: us)

/-- The tokens begin as a declaration does: with the keyword of a type that is not called. -/
def beginsType : List Token → Bool
  | .identifier name :: ts => Ty.isKeyword name && ts.head? != some (.special '(')
  | _ => false

/-- The last token is a star or the keyword of a type. -/
def EndsInType (ts : List Token) : Prop :=
  ∃ t, ts.getLast? = some t ∧
    (t = .special '*' ∨ ∃ keyword, t = .identifier keyword ∧ Ty.isKeyword keyword = true)

theorem EndsInType.behind {ts : List Token} (h : EndsInType ts) (us : List Token) :
    EndsInType (us ++ ts) := by
  obtain ⟨t, last, type⟩ := h
  refine ⟨t, ?_, type⟩
  rw [List.getLast?_append, last]
  rfl

theorem Typed.endsInType {t : Ty} {ts : List Token} (h : Typed t ts) : EndsInType ts := by
  cases h with
  | @stars keyword t n e =>
    cases n with
    | zero => exact ⟨_, rfl, .inr ⟨keyword, rfl, by rw [Ty.isKeyword, e]; rfl⟩⟩
    | succ n =>
      refine ⟨.special '*', ?_, .inl rfl⟩
      rw [List.replicate_succ', ← List.cons_append, List.getLast?_concat]

/-- A star does not follow a type. A term that ends in one ends in a `new` without a length. -/
def TypesClosed (ts us : List Token) : Prop :=
  us.head? = some (.special '*') → ¬ EndsInType ts

/-! ### How phrases open -/

/-- The tokens that come before a term or a type in a term. -/
def Token.prefixes : List Token :=
  [.special '-', .special '+', .special '*', .special '&', .identifier "new", .identifier "delete"]

/-- The tokens that a primary starts with. -/
def Token.opensPrimary : Token → Bool
  | identifier name => name ≠ "new" && name ≠ "delete"
  | special c => c = '('
  | invalid _ | stop => false
  | _ => true

/-- The tokens that a term starts with. -/
def Token.opensTerm : Token → Bool
  | identifier _ => true
  | special c => c ∈ ['(', '-', '+', '*', '&']
  | invalid _ | stop => false
  | _ => true

theorem Token.not_mem_prefixes {t : Token} (h : t.opensPrimary = true) : t ∉ prefixes := by
  have others : ∀ u ∈ prefixes, u.opensPrimary = false := by decide
  intro m
  rw [others t m] at h
  cases h

theorem Token.opensTerm_of_opensPrimary {t : Token} (h : t.opensPrimary = true) :
    t.opensTerm = true := by
  cases t with
  | special c =>
    unfold opensPrimary at h
    simp only [decide_eq_true_eq] at h
    subst h
    rfl
  | invalid | stop => cases h
  | _ => rfl

/-- A phrase that is not a type opens with such a token, and the keyword of a type comes first
only as the name of a function. -/
def Begins (opens : Token → Bool) (ts : List Token) : Prop :=
  ∃ t us, ts = t :: us ∧ opens t = true ∧
    ∀ name, t = .identifier name → Ty.isKeyword name = true → us.head? = some (.special '(')

theorem Begins.append {opens : Token → Bool} {ts : List Token} (h : Begins opens ts)
    (us : List Token) : Begins opens (ts ++ us) := by
  obtain ⟨t, vs, rfl, first, call⟩ := h
  refine ⟨t, vs ++ us, rfl, first, fun name e keyword => ?_⟩
  rw [List.head?_append, call name e keyword]
  rfl

theorem Begins.beginsType_append {opens : Token → Bool} {ts : List Token} (h : Begins opens ts)
    (us : List Token) : beginsType (ts ++ us) = false := by
  obtain ⟨t, vs, e, -, call⟩ := h.append us
  rw [e]
  cases t with
  | identifier name =>
    cases keyword : Ty.isKeyword name with
    | false => simp [beginsType, keyword]
    | true => simp [beginsType, call name rfl keyword]
  | _ => rfl

theorem begins_special {opens : Token → Bool} {c : Char} (h : opens (.special c) = true)
    (ts : List Token) : Begins opens (.special c :: ts) :=
  ⟨_, ts, rfl, h, fun _ e => nomatch e⟩

theorem begins_word {opens : Token → Bool} {name : String} (h : opens (.identifier name) = true)
    (plain : Ty.isKeyword name = false) (ts : List Token) :
    Begins opens (.identifier name :: ts) := by
  refine ⟨_, ts, rfl, h, fun _ e keyword => ?_⟩
  cases e
  rw [plain] at keyword
  cases keyword

/-- The tokens may be a phrase as far as the first of them tells. -/
def Phrase.Opens : Phrase → List Token → Prop
  | operations _, ts => ∀ t, ts.head? = some t → ∃ op : Operator, t = .special op.symbol
  | indices _, ts => ∀ t, ts.head? = some t → t = .special '['
  | argument, ts | arguments _, ts => ∃ t us, ts = t :: us ∧ t.opensTerm = true
  | indexed, ts | primary, ts => Begins Token.opensPrimary ts
  | statement, ts | expression, ts | term, ts => Begins Token.opensTerm ts

theorem Token.literal?_opens {t : Token} {v : Literal} (h : t.literal? = some v) :
    Begins opensPrimary [t] := by
  cases t with
  | identifier | special | invalid | stop => cases h
  | _ => exact ⟨_, [], rfl, rfl, fun _ e => nomatch e⟩

theorem opensPrimary_of_not_reserved {name : String} (h : name ∉ Identifier.reserved) :
    (Token.identifier name).opensPrimary = true := by
  simp only [Identifier.reserved, List.mem_cons, List.not_mem_nil, or_false, not_or] at h
  unfold Token.opensPrimary
  simp [h.1, h.2.1]

variable {scope : Scope} {apart : List Token → List Token → Prop} {p : Phrase} {c : List Instr}
  {ts : List Token}

theorem Derives.opens (h : Derives scope apart p c ts) : p.Opens ts := by
  induction h with
  | evaluation _ ih => exact ih
  | assignment _ _ ih | expression _ _ _ ih | indexed _ _ ih => exact ih.append _
  | noOperation | noIndex => exact fun _ e => nomatch e
  | operation =>
    rintro _ ⟨⟩
    exact ⟨_, rfl⟩
  | index =>
    rintro _ ⟨⟩
    rfl
  | negate | positive | dereference | addressOf => exact begins_special (by decide) _
  | newObject | newArray | delete | deleteArray => exact begins_word rfl (by decide) _
  | operand _ ih =>
    obtain ⟨t, us, e, first, call⟩ := ih
    exact ⟨t, us, e, t.opensTerm_of_opensPrimary first, call⟩
  | literal e => exact Token.literal?_opens e
  | null e => rcases e with rfl | rfl <;> exact begins_word (by decide) (by decide) _
  | parenthesized => exact begins_special (by decide) _
  | name _ plain free => exact begins_word (opensPrimary_of_not_reserved free) plain _
  | callOfNothing free | call free =>
    exact ⟨_, _, rfl, opensPrimary_of_not_reserved free, fun _ _ _ => rfl⟩
  | typeArgument typed =>
    cases typed
    exact ⟨_, _, rfl, rfl⟩
  | argument _ ih =>
    obtain ⟨t, us, e, first, -⟩ := ih
    exact ⟨t, us, e, first⟩
  | lastArgument _ ih => exact ih
  | moreArguments _ _ ih =>
    obtain ⟨t, us, rfl, first⟩ := ih
    exact ⟨t, _, rfl, first⟩

/-! ### How phrases close -/

/-- The tokens that a primary or its indices end with. -/
def Token.closesPrimary : Token → Bool
  | identifier name => !Ty.isKeyword name
  | special c => c = ')' || c = ']'
  | invalid _ | stop => false
  | _ => true

/-- The tokens that a term ends with. -/
def Token.closesTerm : Token → Bool
  | identifier _ => true
  | special c => c ∈ [')', ']', '*']
  | invalid _ | stop => false
  | _ => true

theorem Token.closesTerm_of_closesPrimary {t : Token} (h : t.closesPrimary = true) :
    t.closesTerm = true := by
  cases t with
  | special c =>
    unfold closesPrimary at h
    simp only [Bool.or_eq_true, decide_eq_true_eq] at h
    rcases h with rfl | rfl <;> rfl
  | invalid | stop => cases h
  | _ => rfl

/-- How the tokens of a phrase may end. -/
def Phrase.closes : Phrase → Token → Bool
  | indexed | indices _ | primary => Token.closesPrimary
  | _ => Token.closesTerm

/-- The last token, if there is one, closes. -/
def Ends (closes : Token → Bool) (ts : List Token) : Prop :=
  ∀ t, ts.getLast? = some t → closes t = true

theorem Ends.append {closes : Token → Bool} {ts us : List Token} (h : Ends closes ts)
    (k : Ends closes us) : Ends closes (ts ++ us) := by
  intro t e
  rw [List.getLast?_append] at e
  rcases last : us.getLast? with _ | u <;> rw [last] at e
  · exact h t e
  · exact k t (last.trans e)

theorem Ends.behind {closes : Token → Bool} {us : List Token} (h : Ends closes us) (some : us ≠ [])
    (ts : List Token) : Ends closes (ts ++ us) := by
  intro t e
  rw [List.getLast?_append_of_ne_nil _ some] at e
  exact h t e

theorem ends_single {closes : Token → Bool} {t : Token} (h : closes t = true) :
    Ends closes [t] := by
  rintro _ ⟨⟩
  exact h

theorem Begins.ne_nil {opens : Token → Bool} {ts : List Token} (h : Begins opens ts) : ts ≠ [] := by
  obtain ⟨t, us, rfl, -⟩ := h
  simp

theorem Typed.ends {t : Ty} {ts : List Token} (h : Typed t ts) : Ends Token.closesTerm ts := by
  cases h with
  | @stars keyword t n =>
    intro u e
    have mem := List.mem_of_getLast? e
    rw [List.mem_cons, List.mem_replicate] at mem
    rcases mem with rfl | ⟨-, rfl⟩ <;> rfl

theorem Typed.ne_nil {t : Ty} {ts : List Token} (h : Typed t ts) : ts ≠ [] := by
  cases h
  simp

theorem Derives.ne_nil (h : Derives scope apart p c ts)
    (whole : p = .statement ∨ p = .expression ∨ p = .term ∨ p = .argument ∨
      ∃ n, p = .arguments n) : ts ≠ [] := by
  have opens := h.opens
  rcases whole with rfl | rfl | rfl | rfl | ⟨n, rfl⟩
  · exact Begins.ne_nil opens
  · exact Begins.ne_nil opens
  · exact Begins.ne_nil opens
  · obtain ⟨t, us, rfl, -⟩ := opens
    simp
  · obtain ⟨t, us, rfl, -⟩ := opens
    simp

theorem Derives.closes (h : Derives scope apart p c ts) : Ends p.closes ts := by
  have bracket {closes : Token → Bool} {c : Char} (h : closes (.special c) = true)
      (ts : List Token) : Ends closes (ts ++ [.special c]) :=
    (ends_single h).behind (by simp) ts
  induction h with
  | evaluation _ ih | argument _ ih | lastArgument _ ih => exact ih
  | assignment _ value _ ih => exact (ih.behind (value.ne_nil (by simp)) [_]).behind (by simp) _
  | expression _ _ _ ih ih' => exact ih.append ih'
  | noOperation | noIndex => exact fun _ e => nomatch e
  | operation _ term _ _ ih ih' =>
    refine (ih.append ih').behind ?_ [_]
    simp [term.ne_nil (by simp)]
  | negate term ih | positive term ih | addressOf term ih | delete term ih =>
    exact ih.behind (term.ne_nil (by simp)) [_]
  | deleteArray term ih => exact ih.behind (term.ne_nil (by simp)) [_, _, _]
  | @dereference _ _ n term _ ih =>
    exact ih.behind (term.ne_nil (by simp)) (_ :: List.replicate n _)
  | newObject typed => exact typed.ends.behind typed.ne_nil [_]
  | @newArray _ _ ts us => simpa using bracket rfl (.identifier "new" :: (ts ++ .special '[' :: us))
  | operand _ ih => exact fun t e => t.closesTerm_of_closesPrimary (ih t e)
  | indexed _ _ ih ih' => exact ih.append ih'
  | @index _ _ _ ts us _ _ _ ih =>
    have closed : Ends Token.closesPrimary (.special '[' :: ts ++ [.special ']'] ++ us) :=
      (bracket rfl (.special '[' :: ts)).append ih
    rwa [List.append_assoc] at closed
  | @literal t v e => exact ends_single (by cases t <;> first | rfl | cases e)
  | null e => rcases e with rfl | rfl <;> exact ends_single (by decide)
  | @parenthesized _ ts => simpa using bracket rfl (.special '(' :: ts)
  | name _ plain _ => exact ends_single (congrArg not plain)
  | @callOfNothing function => exact bracket rfl [.identifier function, .special '(']
  | @call function _ ts => simpa using bracket rfl (.identifier function :: .special '(' :: ts)
  | typeArgument typed => exact typed.ends
  | moreArguments _ more _ ih => exact (ih.behind (more.ne_nil (by simp)) [_]).behind (by simp) _

/-- Only a `new` without a length ends in a type. -/
theorem Ends.not_endsInType {ts : List Token} (h : Ends Token.closesPrimary ts) :
    ¬ EndsInType ts := by
  rintro ⟨t, e, rfl | ⟨keyword, rfl, type⟩⟩
  · exact absurd (h _ e) (by decide)
  · cases (congrArg not type).symm.trans (h _ e)

theorem not_endsInType_bracket (ts : List Token) : ¬ EndsInType (ts ++ [.special ']']) :=
  ((ends_single (by decide)).behind (by simp) ts).not_endsInType

/-- What comes before a term does not change how it ends. -/
theorem EndsInType.of_behind (us : List Token) {ts : List Token} (h : EndsInType (us ++ ts))
    (nonempty : ts ≠ []) : EndsInType ts := by
  obtain ⟨t, last, type⟩ := h
  rw [List.getLast?_append_of_ne_nil _ nonempty] at last
  exact ⟨t, last, type⟩

/-- A term that ends in a type ends in a `new` without a length. -/
theorem Derives.new_of_endsInType (h : Derives scope apart p c ts) (term : p = .term)
    (ends : EndsInType ts) : ∃ us t vs, ts = us ++ .identifier "new" :: vs ∧ Typed t vs := by
  have longer {ts : List Token} (front : List Token)
      (h : ∃ us t vs, ts = us ++ .identifier "new" :: vs ∧ Typed t vs) :
      ∃ us t vs, front ++ ts = us ++ .identifier "new" :: vs ∧ Typed t vs := by
    obtain ⟨us, t, vs, rfl, typed⟩ := h
    exact ⟨front ++ us, t, vs, (List.append_assoc ..).symm, typed⟩
  induction h with
  | negate inner ih | positive inner ih | addressOf inner ih | delete inner ih =>
    exact longer [_] (ih rfl (ends.of_behind [_] (inner.ne_nil (by simp))))
  | deleteArray inner ih =>
    exact longer [_, _, _] (ih rfl (ends.of_behind [_, _, _] (inner.ne_nil (by simp))))
  | @dereference _ _ n inner _ ih =>
    have ends := ends.of_behind (_ :: List.replicate n _) (inner.ne_nil (by simp))
    exact longer (_ :: List.replicate n _) (ih rfl ends)
  | @newObject t ts typed => exact ⟨[], t, ts, rfl, typed⟩
  | @newArray _ _ ts us =>
    have closed := not_endsInType_bracket (.identifier "new" :: (ts ++ .special '[' :: us))
    exact absurd ends (by simpa using closed)
  | operand inner => exact absurd ends inner.closes.not_endsInType
  | _ => cases term

/-! ### How tokens follow each other -/

/-- A token of the language that is no semicolon. -/
def Token.isProper : Token → Bool
  | special c => c ≠ ';'
  | t => t.isWord

theorem Token.isWord_of_isProper {t : Token} (h : t.isProper = true) : t.isWord = true := by
  cases t with
  | special => rfl
  | _ => exact h

/-- Proper tokens, with nothing behind a number that could belong to it and no two slashes in a
row. -/
structure Fine (ts : List Token) : Prop where
  proper : ∀ t ∈ ts, t.isProper = true
  parted : ts.IsChain Parted

theorem fine_nil : Fine [] := ⟨by simp, .nil⟩

theorem Fine.cons {t : Token} {ts : List Token} (h : Fine ts) (proper : t.isProper = true)
    (parted : ∀ u, ts.head? = some u → Parted t u) : Fine (t :: ts) :=
  ⟨List.forall_mem_cons.2 ⟨proper, h.proper⟩, List.isChain_cons.2 ⟨parted, h.parted⟩⟩

theorem fine_single {t : Token} (proper : t.isProper = true) : Fine [t] :=
  fine_nil.cons proper fun _ e => nomatch e

theorem parted_name (name : String) (u : Token) : Parted (.identifier name) u :=
  ⟨(fun e => nomatch e), (fun e => nomatch e)⟩

theorem parted_special {c : Char} (slash : c ≠ '/') (u : Token) : Parted (.special c) u :=
  ⟨(fun e => nomatch e), fun e => absurd (Token.special.inj e) slash⟩

/-- No term starts with a slash. -/
theorem parted_opensTerm (c : Char) {ts : List Token}
    (h : ∃ t us, ts = t :: us ∧ t.opensTerm = true) :
    ∀ u, ts.head? = some u → Parted (.special c) u := by
  obtain ⟨t, us, rfl, first⟩ := h
  rintro _ ⟨⟩
  refine ⟨(fun e => nomatch e), fun _ => ?_⟩
  rintro rfl
  exact absurd first (by decide)

/-- What closes a term may have any special character behind it but a point. -/
theorem parted_of_closesTerm {t : Token} (h : t.closesTerm = true) {c : Char} (point : c ≠ '.') :
    Parted t (.special c) :=
  ⟨fun _ => ⟨c, rfl, point⟩, fun e => by rw [e] at h; exact absurd h (by decide)⟩

/-- What closes may be followed by what starts with a special character. -/
theorem Fine.append {ts us : List Token} (h : Fine ts) (closes : Ends Token.closesTerm ts)
    (k : Fine us) (special : ∀ u, us.head? = some u → ∃ c, u = .special c ∧ c ≠ '.') :
    Fine (ts ++ us) := by
  refine ⟨fun t m => (List.mem_append.1 m).elim (h.proper t) (k.proper t),
    List.isChain_append.2 ⟨h.parted, k.parted, fun t last u first => ?_⟩⟩
  obtain ⟨c, rfl, point⟩ := special u first
  exact parted_of_closesTerm (closes t last) point

theorem Operator.symbol_ne (op : Operator) : op.symbol ≠ '.' ∧ op.symbol ≠ ';' := by
  cases op <;> decide

theorem Operator.eq_symbol_of_ofSymbol? {c : Char} {op : Operator}
    (e : Operator.ofSymbol? c = some op) : c = op.symbol := by
  unfold Operator.ofSymbol? at e
  repeat' split at e
  all_goals cases e
  all_goals assumption

theorem Begins.opensTerm {ts : List Token} (h : Begins Token.opensTerm ts) :
    ∃ t us, ts = t :: us ∧ t.opensTerm = true := by
  obtain ⟨t, us, e, first, -⟩ := h
  exact ⟨t, us, e, first⟩

theorem fine_stars {ts : List Token} (h : Fine ts) : ∀ n : Nat,
    Fine (List.replicate n (.special '*') ++ ts)
  | 0 => h
  | n + 1 => (fine_stars h n).cons rfl fun u _ => parted_special (by decide) u

theorem Typed.fine {t : Ty} {ts : List Token} (h : Typed t ts) : Fine ts := by
  cases h with
  | @stars keyword t n =>
    have stars := fine_stars fine_nil n
    rw [List.append_nil] at stars
    exact stars.cons rfl fun u _ => parted_name keyword u

theorem Token.literal?_isProper {t : Token} {v : Literal} (h : t.literal? = some v) :
    t.isProper = true := by
  cases t with
  | identifier | special | invalid | stop => cases h
  | _ => rfl

theorem Derives.fine (h : Derives scope apart p c ts) : Fine ts := by
  -- A special character goes before or behind a phrase that is fine.
  have before {ts : List Token} (h : Fine ts) {c : Char} (proper : c ≠ ';')
      (first : ∃ t us, ts = t :: us ∧ t.opensTerm = true) : Fine (.special c :: ts) :=
    h.cons (decide_eq_true proper) (parted_opensTerm c first)
  have behind {ts us : List Token} (h : Fine ts) (closes : Ends Token.closesTerm ts) {c : Char}
      (proper : c ≠ '.') (k : Fine (.special c :: us)) : Fine (ts ++ .special c :: us) :=
    h.append closes k fun _ e => ⟨c, (Option.some.inj e).symm, proper⟩
  induction h with
  | evaluation _ ih | operand _ ih | argument _ ih | lastArgument _ ih => exact ih
  | assignment term value ih ih' =>
    exact behind ih term.closes (by decide) (before ih' (by decide) value.opens.opensTerm)
  | expression term more _ ih ih' =>
    refine ih.append term.closes ih' fun u e => ?_
    obtain ⟨op, rfl⟩ := more.opens u e
    exact ⟨_, rfl, op.symbol_ne.1⟩
  | noOperation | noIndex => exact fine_nil
  | @operation _ _ _ _ us op term more _ ih ih' =>
    have both := ih.append term.closes ih' fun u e => by
      obtain ⟨op, rfl⟩ := more.opens u e
      exact ⟨_, rfl, op.symbol_ne.1⟩
    exact before both op.symbol_ne.2 (term.opens.append us).opensTerm
  | negate term ih | positive term ih | addressOf term ih =>
    exact before ih (by decide) term.opens.opensTerm
  | @dereference _ _ n _ _ ih => exact fine_stars ih (n + 1)
  | newObject typed => exact typed.fine.cons rfl fun u _ => parted_name _ u
  | newArray typed count ih =>
    have closed := behind ih count.closes (by decide) (fine_single (t := .special ']') rfl)
    have length := closed.cons (t := .special '[') rfl fun u _ => parted_special (by decide) u
    exact (behind typed.fine typed.ends (by decide) length).cons rfl fun u _ => parted_name _ u
  | delete _ ih => exact ih.cons rfl fun u _ => parted_name _ u
  | deleteArray _ ih =>
    have closed := ih.cons (t := .special ']') rfl fun u _ => parted_special (by decide) u
    have opened := closed.cons (t := .special '[') rfl fun u _ => parted_special (by decide) u
    exact opened.cons rfl fun u _ => parted_name _ u
  | indexed primary more ih ih' =>
    refine ih.append (fun t e => t.closesTerm_of_closesPrimary (primary.closes t e)) ih'
      fun u e => ?_
    cases more.opens u e
    exact ⟨_, rfl, by decide⟩
  | index position _ ih ih' =>
    have closed := ih'.cons (t := .special ']') rfl fun u _ => parted_special (by decide) u
    exact (behind ih position.closes (by decide) closed).cons rfl
      fun u _ => parted_special (by decide) u
  | literal e => exact fine_single (Token.literal?_isProper e)
  | null | name => exact fine_single rfl
  | parenthesized inner ih =>
    have closed := behind ih inner.closes (by decide) (fine_single (t := .special ')') rfl)
    exact closed.cons rfl fun u _ => parted_special (by decide) u
  | callOfNothing =>
    have closed := (fine_single (t := .special ')') rfl).cons (t := .special '(') rfl
      fun u _ => parted_special (by decide) u
    exact closed.cons rfl fun u _ => parted_name _ u
  | call _ _ inner ih =>
    have closed := behind ih inner.closes (by decide) (fine_single (t := .special ')') rfl)
    have opened := closed.cons (t := .special '(') rfl fun u _ => parted_special (by decide) u
    exact opened.cons rfl fun u _ => parted_name _ u
  | typeArgument typed => exact typed.fine
  | moreArguments argument more ih ih' =>
    exact behind ih argument.closes (by decide) (before ih' (by decide) more.opens)

end ByteMachine
