import ByteMachine.Proofs.Acceptance

/-!
# What is read is in the grammar

The other way round a reader of terms that succeeds has passed a term of the grammar with the code
of its expression, and no star behind it would belong to its type. From this the same is shown of
each reader that is built on one of terms, and with these of the reader of terms one level deeper.
So exactly the sentences in which stars belong to types are read, and each gets its own code. This
is less than the grammar as one would write it down, which has a product behind a `new`.

Key definitions: `Parser.Found`, `Parser.Sound`.
Key theorems: `Parser.sound_term`, `Statement.spells_of_parse`, `Statement.reads_sentences`.
-/

namespace ByteMachine

open Discipline

namespace Parser

variable {α β : Type} {r r' : Reading} {b : Bool} {c : Char} {t : Token} {scope : Scope}

/-! ### Readers of tokens -/

theorem not_fail {cause : SyntaxCause} {a : α} (ok : (fail cause).run.run r = (.ok a, r')) :
    False := by
  obtain ⟨column, u, -, ok⟩ := run_bind_eq_ok.1 ok
  cases ok

theorem ahead_of_advance {a : Unit} (ok : advance.run.run r = (.ok a, r'))
    (e : upcoming r.ahead = t) (word : t ≠ .stop) : Ahead r.ahead [t] r'.ahead := by
  rcases r with ⟨_ | ⟨⟨u, column⟩, ls⟩, met⟩
  · exact absurd e.symm word
  · obtain rfl : u = t := e
    rw [run_advance word] at ok
    cases ok
    exact .cons .nil

theorem ahead_of_next (ok : next.run.run r = (.ok t, r')) (word : t ≠ .stop) :
    Ahead r.ahead [t] r'.ahead := by
  obtain ⟨u, v, peeked, ok⟩ := run_bind_eq_ok.1 ok
  rw [run_peek] at peeked
  cases peeked
  obtain ⟨⟨⟩, v, advanced, ok⟩ := run_bind_eq_ok.1 ok
  cases ok
  exact ahead_of_advance advanced rfl word

theorem accept_cases (ok : (accept c).run.run r = (.ok b, r')) :
    (b = true ∧ Ahead r.ahead [.special c] r'.ahead) ∨
      (b = false ∧ r' = r ∧ upcoming r.ahead ≠ .special c) := by
  by_cases e : upcoming r.ahead = .special c
  · rcases r with ⟨_ | ⟨⟨t, column⟩, ls⟩, met⟩
    · cases e
    · obtain rfl : t = .special c := e
      rw [run_accept_special] at ok
      cases ok
      exact .inl ⟨rfl, .cons .nil⟩
  · rw [run_accept_other e] at ok
    cases ok
    exact .inr ⟨rfl, rfl, e⟩

theorem ahead_of_expect {cause : SyntaxCause} {a : Unit}
    (ok : (expect c cause).run.run r = (.ok a, r')) : Ahead r.ahead [.special c] r'.ahead := by
  obtain ⟨b, u, accepted, ok⟩ := run_bind_eq_ok.1 ok
  rcases accept_cases accepted with ⟨rfl, ahead⟩ | ⟨rfl, -⟩
  · cases ok
    exact ahead
  · exact (not_fail ok).elim

/-! ### Types and runs of stars -/

theorem ahead_of_stars {keyword : String} {u v : Ty} (e : Ty.ofKeyword? keyword = some u) :
    ∀ {fuel k : Nat} {r r' : Reading}, r.ahead.length ≤ fuel → k ≤ Ty.maxStars →
      (stars fuel (u.starred k)).run.run r = (.ok v, r') →
      ∃ n, k + n ≤ Ty.maxStars ∧ v = u.starred (k + n) ∧
        Ahead r.ahead (List.replicate n (.special '*')) r'.ahead ∧ upcoming r'.ahead ≠ .special '*'
  | 0, k, r, r', enough, few, ok => by
    cases ok
    have none := List.length_eq_zero_iff.1 (Nat.le_zero.1 enough)
    exact ⟨0, few, rfl, .nil, by rw [none]; exact nofun⟩
  | fuel + 1, k, r, r', enough, few, ok => by
    obtain ⟨b, s, accepted, rest⟩ := run_bind_eq_ok.1 ok
    rcases accept_cases accepted with ⟨rfl, star⟩ | ⟨rfl, rfl, other⟩
    · rw [if_pos rfl, pointerTo_starred e] at rest
      split at rest
      · obtain ⟨_, _, built, -⟩ := run_bind_eq_ok.1 rest
        exact (not_fail built).elim
      · next more =>
        rw [run_bind, run_built] at rest
        have length := star.length_eq
        obtain ⟨n, few, rfl, stars, last⟩ :=
          ahead_of_stars e (by simp only [List.length_singleton] at length ⊢; omega)
            (Nat.not_lt.1 more) rest
        refine ⟨n + 1, by omega, by rw [Nat.add_right_comm, Nat.add_assoc], star.append stars, last⟩
    · cases rest
      exact ⟨0, few, rfl, .nil, other⟩

theorem typed_of_type {u : Ty} (ok : type.run.run r = (.ok u, r')) :
    ∃ ts, Typed u ts ∧ Ahead r.ahead ts r'.ahead ∧ upcoming r'.ahead ≠ .special '*' := by
  obtain ⟨t, s, first, ok⟩ := run_bind_eq_ok.1 ok
  split at ok
  · next name =>
    split at ok
    · next u e =>
      obtain ⟨count, s, counted, ok⟩ := run_bind_eq_ok.1 ok
      cases counted
      obtain ⟨n, few, rfl, stars, last⟩ :=
        ahead_of_stars e (k := 0) (Nat.le_refl _) (Nat.zero_le _) ok
      rw [Nat.zero_add] at few ⊢
      exact ⟨_, .stars e few, (ahead_of_next first (by nofun)).append stars, last⟩
    · exact (not_fail ok).elim
  · exact (not_fail ok).elim

theorem ahead_of_starRun : ∀ {fuel n : Nat} {r r' : Reading}, r.ahead.length ≤ fuel →
    (starRun fuel).run.run r = (.ok n, r') →
    Ahead r.ahead (List.replicate n (.special '*')) r'.ahead ∧ upcoming r'.ahead ≠ .special '*'
  | 0, n, r, r', enough, ok => by
    cases ok
    have none := List.length_eq_zero_iff.1 (Nat.le_zero.1 enough)
    exact ⟨.nil, by rw [none]; exact nofun⟩
  | fuel + 1, n, r, r', enough, ok => by
    obtain ⟨b, s, accepted, rest⟩ := run_bind_eq_ok.1 ok
    rcases accept_cases accepted with ⟨rfl, star⟩ | ⟨rfl, rfl, other⟩
    · obtain ⟨m, s', counted, last⟩ := run_bind_eq_ok.1 rest
      cases last
      have length := star.length_eq
      obtain ⟨stars, last⟩ :=
        ahead_of_starRun (by simp only [List.length_singleton] at length; omega) counted
      exact ⟨star.append stars, last⟩
    · cases rest
      exact ⟨.nil, other⟩

/-! ### Phrases inside a term -/

/-- Before the rest there is a term of the grammar with the code of the expression, and no star that
would belong to its type comes behind it. -/
def Found (scope : Scope) (ls rest : List Lexeme) (e : Expr) : Prop :=
  ∃ ts, Ahead ls ts rest ∧ Derives scope TypesClosed .term e.compile ts ∧
    (upcoming rest = .special '*' → ¬ EndsInType ts)

/-- Every term that is read is one of the grammar. -/
def Sound (scope : Scope) (T : Parser Expr) : Prop :=
  ∀ {r r' : Reading} {e : Expr}, T.run.run r = (.ok e, r') → Found scope r.ahead r'.ahead e

variable {T : Parser Expr} {e left : Expr}

theorem derives_of_operations (sound : Sound scope T) : ∀ {count : Nat} {left : Expr}
    {r r' : Reading}, (operations T count left).run.run r = (.ok e, r') →
    ∃ ts, Ahead r.ahead ts r'.ahead ∧
      Derives scope TypesClosed (.operations left.compile) e.compile ts
  | 0, _, _, _, ok => by
    cases ok
    exact ⟨[], .nil, .noOperation⟩
  | count + 1, left, r, r', ok => by
    rw [operations, run_bind, run_peek] at ok
    dsimp only at ok
    split at ok
    · next x found =>
      split at ok
      · next op symbol =>
        obtain ⟨⟨⟩, s, advanced, more⟩ := run_bind_eq_ok.1 ok
        obtain ⟨right, s', read, more⟩ := run_bind_eq_ok.1 more
        obtain rfl := Operator.eq_symbol_of_ofSymbol? symbol
        obtain ⟨ts, ahead, term, apart⟩ := sound read
        obtain ⟨us, ahead', operations⟩ := derives_of_operations sound more
        rw [Expr.compile] at operations
        have operator := ahead_of_advance advanced found (by simp)
        exact ⟨.special op.symbol :: (ts ++ us), operator.append (ahead.append ahead'),
          .operation op term operations fun star => apart (ahead'.upcoming_eq star)⟩
      · cases ok
        exact ⟨[], .nil, .noOperation⟩
    · cases ok
      exact ⟨[], .nil, .noOperation⟩

theorem derives_of_restOfExpression (sound : Sound scope T) {left : Expr}
    (ok : (restOfExpression T left).run.run r = (.ok e, r')) :
    ∃ ts, Ahead r.ahead ts r'.ahead ∧
      Derives scope TypesClosed (.operations left.compile) e.compile ts := by
  rw [restOfExpression, run_bind, run_remaining] at ok
  exact derives_of_operations sound ok

theorem derives_of_expressionOf (sound : Sound scope T)
    (ok : (expressionOf T).run.run r = (.ok e, r')) :
    ∃ ts, Ahead r.ahead ts r'.ahead ∧ Derives scope TypesClosed .expression e.compile ts := by
  obtain ⟨first, s, read, more⟩ := run_bind_eq_ok.1 ok
  obtain ⟨ts, ahead, term, apart⟩ := sound read
  obtain ⟨us, ahead', operations⟩ := derives_of_restOfExpression sound more
  exact ⟨_, ahead.append ahead', .expression term operations fun star =>
    apart (ahead'.upcoming_eq star)⟩

/-- A whole expression and what closes it. -/
theorem derives_of_closed (sound : Sound scope T) {x : Char} {cause : SyntaxCause}
    {f : Expr → Parser Expr} (ok : (do
      let e ← expressionOf T
      expect x cause
      f e : Parser Expr).run.run r = (.ok e, r')) :
    ∃ inner s ts, Ahead r.ahead (ts ++ [.special x]) s.ahead ∧
      Derives scope TypesClosed .expression inner.compile ts ∧
      (f inner).run.run s = (.ok e, r') := by
  obtain ⟨inner, s, read, more⟩ := run_bind_eq_ok.1 ok
  obtain ⟨⟨⟩, s', closed, more⟩ := run_bind_eq_ok.1 more
  obtain ⟨ts, ahead, expression⟩ := derives_of_expressionOf sound read
  exact ⟨inner, s', ts, ahead.append (ahead_of_expect closed), expression, more⟩

theorem derives_of_argument (sound : Sound scope T) (ok : (argument T).run.run r = (.ok e, r')) :
    ∃ ts, Ahead r.ahead ts r'.ahead ∧ Derives scope TypesClosed .argument e.compile ts := by
  rw [argument, run_bind, run_atType] at ok
  dsimp only at ok
  split at ok
  · obtain ⟨u, s, read, more⟩ := run_bind_eq_ok.1 ok
    cases more
    obtain ⟨ts, typed, ahead, -⟩ := typed_of_type read
    exact ⟨ts, ahead, .typeArgument typed⟩
  · obtain ⟨ts, ahead, expression⟩ := derives_of_expressionOf sound ok
    exact ⟨ts, ahead, .argument expression⟩

theorem derives_of_arguments (sound : Sound scope T) {function : String} :
    ∀ {count : Nat} {r r' : Reading} {es : List Expr},
      (arguments T function count).run.run r = (.ok es, r') →
      ∃ ts, Ahead r.ahead (ts ++ [.special ')']) r'.ahead ∧
        Derives scope TypesClosed (.arguments es.length) (Expr.compileAll es) ts
  | 0, _, _, _, ok => (not_fail ok).elim
  | count + 1, r, r', es, ok => by
    obtain ⟨first, s, read, more⟩ := run_bind_eq_ok.1 ok
    obtain ⟨ts, ahead, argument⟩ := derives_of_argument sound read
    obtain ⟨b, s', accepted, rest⟩ := run_bind_eq_ok.1 more
    rcases accept_cases accepted with ⟨rfl, comma⟩ | ⟨rfl, rfl, -⟩
    · obtain ⟨others, s'', read', last⟩ := run_bind_eq_ok.1 rest
      cases last
      obtain ⟨us, ahead', arguments⟩ := derives_of_arguments sound read'
      refine ⟨ts ++ .special ',' :: us, ?_, .moreArguments argument arguments⟩
      have whole := ahead.append (comma.append ahead')
      rwa [List.append_assoc]
    · obtain ⟨⟨⟩, s'', closed, last⟩ := run_bind_eq_ok.1 rest
      cases last
      refine ⟨ts, ahead.append (ahead_of_expect closed), ?_⟩
      have code : Expr.compileAll [first] = first.compile := by
        rw [Expr.compileAll, Expr.compileAll, List.append_nil]
      exact code ▸ .lastArgument argument

theorem derives_of_indices (sound : Sound scope T) : ∀ {count : Nat} {base : Expr}
    {r r' : Reading}, (indices T count base).run.run r = (.ok e, r') →
    ∃ ts, Ahead r.ahead ts r'.ahead ∧
      Derives scope TypesClosed (.indices base.compile) e.compile ts
  | 0, _, _, _, ok => by
    cases ok
    exact ⟨[], .nil, .noIndex⟩
  | count + 1, base, r, r', ok => by
    obtain ⟨b, s, accepted, more⟩ := run_bind_eq_ok.1 ok
    rcases accept_cases accepted with ⟨rfl, opened⟩ | ⟨rfl, rfl, -⟩
    · rw [if_pos rfl] at more
      obtain ⟨position, s', ts, ahead, expression, more⟩ := derives_of_closed sound more
      obtain ⟨us, ahead', indices⟩ := derives_of_indices sound more
      rw [Expr.compile] at indices
      refine ⟨_, ?_, .index expression indices⟩
      have whole := opened.append (ahead.append ahead')
      rwa [List.append_assoc] at whole
    · cases more
      exact ⟨[], .nil, .noIndex⟩

/-- What comes behind the name of a function and the parenthesis. -/
theorem derives_of_call (sound : Sound scope T) {function : String}
    (free : function ∉ Identifier.reserved) (ok : (call scope T function).run.run r = (.ok e, r')) :
    ∃ ts, Ahead r.ahead ts r'.ahead ∧ Derives scope TypesClosed .primary e.compile
      (.identifier function :: .special '(' :: ts) := by
  unfold call at ok
  split at ok
  · exact (not_fail ok).elim
  · next callable =>
    have callable : Ty.isKeyword function = true ∨ scope.isVariable function = false := by
      cases keyword : Ty.isKeyword function with
      | true => exact .inl rfl
      | false => exact .inr (by simpa [keyword] using callable)
    obtain ⟨b, s, accepted, more⟩ := run_bind_eq_ok.1 ok
    rcases accept_cases accepted with ⟨rfl, closed⟩ | ⟨rfl, rfl, -⟩
    · cases more
      exact ⟨_, closed, .callOfNothing free callable⟩
    · rw [if_neg (by decide), run_bind, run_remaining] at more
      obtain ⟨es, s, read, last⟩ := run_bind_eq_ok.1 more
      cases last
      obtain ⟨ts, ahead, arguments⟩ := derives_of_arguments sound read
      exact ⟨_, ahead, .call free callable arguments⟩

/-- What comes behind a word that is the name of a variable or of a function. -/
theorem derives_of_word (sound : Sound scope T) {name : String} (free : name ∉ Identifier.reserved)
    (ok : (do
      if (← accept '(') then call scope T name
      else if Ty.isKeyword name then fail (.typeAsValue name)
      else
        match Identifier.ofName? name with
        | some id => return .name id
        | none => throw (.badName name) : Parser Expr).run.run r = (.ok e, r')) :
    ∃ ts, Ahead r.ahead ts r'.ahead ∧
      Derives scope TypesClosed .primary e.compile (.identifier name :: ts) := by
  obtain ⟨b, s, accepted, more⟩ := run_bind_eq_ok.1 ok
  rcases accept_cases accepted with ⟨rfl, opened⟩ | ⟨rfl, same, -⟩
  · obtain ⟨ts, ahead, whole⟩ := derives_of_call sound free more
    exact ⟨_, opened.append ahead, whole⟩
  · rw [if_neg Bool.false_ne_true] at more
    split at more
    · exact (not_fail more).elim
    · next plain =>
      split at more
      · next id found =>
        cases more
        unfold Identifier.ofName? at found
        split at found
        · next valid =>
          cases found
          rw [same]
          exact ⟨[], .nil, .name valid (Bool.eq_false_iff.2 plain) free⟩
        · cases found
      · cases more

theorem derives_of_primary (sound : Sound scope T)
    (other : ∀ name, upcoming r.ahead = .identifier name → name ≠ "new" ∧ name ≠ "delete")
    (ok : (primary scope T).run.run r = (.ok e, r')) :
    ∃ ts, Ahead r.ahead ts r'.ahead ∧ Derives scope TypesClosed .primary e.compile ts := by
  obtain ⟨t, s, first, more⟩ := run_bind_eq_ok.1 ok
  have ahead := ahead_of_next first
  cases t with
  | identifier name =>
    have ahead := ahead (by simp)
    dsimp only at more
    split at more
    · next null =>
      obtain ⟨⟨⟩, s', noted, last⟩ := run_bind_eq_ok.1 more
      cases noted
      cases last
      exact ⟨_, ahead, .null (by simpa using null)⟩
    · next null =>
      have word := other name (ahead.upcoming_eq rfl)
      have free : name ∉ Identifier.reserved := by
        simpa [Identifier.reserved, word] using null
      obtain ⟨ts, ahead', whole⟩ := derives_of_word sound free more
      exact ⟨_, ahead.append ahead', whole⟩
  | special c =>
    dsimp only at more
    split at more
    · next parenthesis =>
      subst parenthesis
      obtain ⟨inner, s', ts, ahead', expression, last⟩ := derives_of_closed sound more
      cases last
      exact ⟨_, (ahead (by simp)).append ahead', .parenthesized expression⟩
    · exact (not_fail more).elim
  | invalid | stop => exact (not_fail more).elim
  | _ =>
    cases more
    exact ⟨_, ahead (by simp), .literal rfl⟩

theorem derives_of_indexed (sound : Sound scope T)
    (other : ∀ name, upcoming r.ahead = .identifier name → name ≠ "new" ∧ name ≠ "delete")
    (ok : (indexed scope T).run.run r = (.ok e, r')) :
    ∃ ts, Ahead r.ahead ts r'.ahead ∧ Derives scope TypesClosed .indexed e.compile ts := by
  obtain ⟨base, s, read, more⟩ := run_bind_eq_ok.1 ok
  rw [run_bind, run_remaining] at more
  obtain ⟨ts, ahead, primary⟩ := derives_of_primary sound other read
  obtain ⟨us, ahead', indices⟩ := derives_of_indices sound more
  exact ⟨_, ahead.append ahead', .indexed primary indices⟩

/-! ### Terms -/

theorem derives_of_newTerm (sound : Sound scope T) (ok : (newTerm T).run.run r = (.ok e, r')) :
    ∃ ts, Ahead r.ahead ts r'.ahead ∧
      Derives scope TypesClosed .term e.compile (.identifier "new" :: ts) ∧
      (upcoming r'.ahead = .special '*' → ¬ EndsInType (.identifier "new" :: ts)) := by
  rw [newTerm, run_bind, run_atType] at ok
  dsimp only at ok
  split at ok
  · exact (not_fail ok).elim
  · obtain ⟨u, s, read, more⟩ := run_bind_eq_ok.1 ok
    obtain ⟨ts, typed, ahead, longest⟩ := typed_of_type read
    obtain ⟨b, s', accepted, rest⟩ := run_bind_eq_ok.1 more
    rcases accept_cases accepted with ⟨rfl, opened⟩ | ⟨rfl, rfl, -⟩
    · rw [if_pos rfl] at rest
      obtain ⟨count, s'', us, ahead', expression, last⟩ := derives_of_closed sound rest
      cases last
      refine ⟨ts ++ Token.special '[' :: (us ++ [Token.special ']']),
        ahead.append (opened.append ahead'), .newArray typed expression, fun _ => ?_⟩
      have closed := not_endsInType_bracket (.identifier "new" :: (ts ++ .special '[' :: us))
      simpa using closed
    · cases rest
      exact ⟨ts, ahead, .newObject typed, fun star => absurd star longest⟩

/-- What is deleted, behind the word and the brackets. -/
theorem derives_of_deleted (sound : Sound scope T) (ok : (do
      if (← atEnd) then fail .expectedAfterDelete else return .delete (← T) :
      Parser Expr).run.run r = (.ok e, r')) :
    ∃ c ts, e.compile = c ++ [.call "delete" 1] ∧ Ahead r.ahead ts r'.ahead ∧
      Derives scope TypesClosed .term c ts ∧
      (upcoming r'.ahead = .special '*' → ¬ EndsInType ts) := by
  rw [run_bind, run_atEnd] at ok
  dsimp only at ok
  split at ok
  · exact (not_fail ok).elim
  · obtain ⟨inner, s, read, last⟩ := run_bind_eq_ok.1 ok
    cases last
    obtain ⟨ts, ahead, term, apart⟩ := sound read
    exact ⟨inner.compile, ts, by rw [Expr.compile], ahead, term, apart⟩

theorem derives_of_deleteTerm (sound : Sound scope T)
    (ok : (deleteTerm T).run.run r = (.ok e, r')) :
    ∃ ts, Ahead r.ahead ts r'.ahead ∧
      Derives scope TypesClosed .term e.compile (.identifier "delete" :: ts) ∧
      (upcoming r'.ahead = .special '*' → ¬ EndsInType (.identifier "delete" :: ts)) := by
  unfold deleteTerm at ok
  obtain ⟨b, s, accepted, more⟩ := run_bind_eq_ok.1 ok
  rcases accept_cases accepted with ⟨rfl, opened⟩ | ⟨rfl, same, -⟩
  · obtain ⟨⟨⟩, s', closed, last⟩ := run_bind_eq_ok.1 more
    obtain ⟨c, ts, code, ahead, term, apart⟩ := derives_of_deleted sound last
    refine ⟨Token.special '[' :: Token.special ']' :: ts,
      opened.append ((ahead_of_expect closed).append ahead), code ▸ .deleteArray term,
      fun star ends => ?_⟩
    exact apart star (ends.of_behind [_, _, _] (term.ne_nil (by simp)))
  · rw [if_neg Bool.false_ne_true] at more
    obtain ⟨c, ts, code, ahead, term, apart⟩ := derives_of_deleted sound more
    rw [same] at ahead
    exact ⟨ts, ahead, code ▸ .delete term, fun star ends =>
      apart star (ends.of_behind [_] (term.ne_nil (by simp)))⟩

variable {k column : Nat} {ls : List Lexeme} {met : List Ty}

theorem found_behind (sound : Sound scope (term scope k)) {f : Expr → Expr}
    (derive : ∀ {inner ts}, Derives scope TypesClosed .term inner.compile ts →
      Derives scope TypesClosed .term (f inner).compile (t :: ts))
    (ok : (do return f (← term scope k) : Parser Expr).run.run ⟨ls, met⟩ = (.ok e, r')) :
    Found scope (⟨t, column⟩ :: ls) r'.ahead e := by
  obtain ⟨inner, s, read, last⟩ := run_bind_eq_ok.1 ok
  cases last
  obtain ⟨ts, ahead, term, apart⟩ := sound read
  exact ⟨t :: ts, .cons ahead, derive term, fun star ends =>
    apart star (ends.of_behind [t] (term.ne_nil (by simp)))⟩

theorem found_dereference (sound : Sound scope (term scope k)) (ok : (do
      let levels ← starRun (← remaining)
      return Expr.dereference levels (← term scope k) : Parser Expr).run.run
        ⟨⟨.special '*', column⟩ :: ls, met⟩ = (.ok e, r')) :
    Found scope (⟨.special '*', column⟩ :: ls) r'.ahead e := by
  rw [run_bind, run_remaining] at ok
  obtain ⟨levels, s, counted, more⟩ := run_bind_eq_ok.1 ok
  obtain ⟨inner, s', read, last⟩ := run_bind_eq_ok.1 more
  cases last
  obtain ⟨stars, longest⟩ := ahead_of_starRun (Nat.le_refl _) counted
  obtain ⟨ts, ahead, term, apart⟩ := sound read
  cases levels with
  | zero =>
    rw [← stars.eq_of_nil] at longest
    exact absurd rfl longest
  | succ n =>
    exact ⟨_, stars.append ahead, .dereference term fun star => longest (ahead.upcoming_eq star),
      fun star ends => apart star (ends.of_behind _ (term.ne_nil (by simp)))⟩

/-- Every term that is read is in the grammar, however deep. -/
theorem sound_term : ∀ fuel : Nat, Sound scope (term scope fuel)
  | 0, _, _, _, ok => (not_fail ok).elim
  | k + 1, ⟨[], met⟩, r', e, ok => by
    have operand : (indexed scope (term scope k)).run.run ⟨[], met⟩ = (.ok e, r') := ok
    obtain ⟨ts, ahead, indexed⟩ := derives_of_indexed (sound_term k) (fun _ e => by cases e) operand
    exact ⟨ts, ahead, .operand indexed, fun _ => indexed.closes.not_endsInType⟩
  | k + 1, ⟨⟨t, column⟩ :: ls, met⟩, r', e, ok => by
    have sound : Sound scope (term scope k) := sound_term k
    by_cases m : t ∈ Token.prefixes
    · simp only [Token.prefixes, List.mem_cons, List.not_mem_nil, or_false] at m
      rcases m with rfl | rfl | rfl | rfl | rfl | rfl
      · rw [run_term_minus] at ok
        exact found_behind sound .negate ok
      · rw [run_term_plus, ← bind_pure (term scope k)] at ok
        exact found_behind (f := id) sound .positive ok
      · rw [run_term_star] at ok
        exact found_dereference sound ok
      · rw [run_term_and] at ok
        exact found_behind sound .addressOf ok
      · rw [run_term_new] at ok
        obtain ⟨ts, ahead, term, apart⟩ := derives_of_newTerm sound ok
        exact ⟨_, .cons ahead, term, apart⟩
      · rw [run_term_delete] at ok
        obtain ⟨ts, ahead, term, apart⟩ := derives_of_deleteTerm sound ok
        exact ⟨_, .cons ahead, term, apart⟩
    · rw [run_term_other m] at ok
      have other (name : String) (word : t = .identifier name) :
          name ≠ "new" ∧ name ≠ "delete" := by
        constructor <;> rintro rfl <;> exact m (by rw [word]; decide)
      obtain ⟨ts, ahead, indexed⟩ :=
        derives_of_indexed (r := ⟨⟨t, column⟩ :: ls, met⟩) sound other ok
      exact ⟨ts, ahead, .operand indexed, fun _ => indexed.closes.not_endsInType⟩

theorem sound_fullTerm : Sound scope (fullTerm scope) := fun ok => by
  rw [fullTerm, run_bind, run_remaining] at ok
  exact sound_term _ ok

/-! ### Statements -/

theorem derives_of_assignmentOrExpression {s : Statement}
    (ok : (assignmentOrExpression scope).run.run r = (.ok s, r')) :
    ∃ ts, Ahead r.ahead ts r'.ahead ∧ Derives scope TypesClosed .statement s.compile ts := by
  obtain ⟨first, u, read, more⟩ := run_bind_eq_ok.1 ok
  obtain ⟨ts, ahead, term, apart⟩ := sound_fullTerm read
  obtain ⟨b, v, accepted, rest⟩ := run_bind_eq_ok.1 more
  rcases accept_cases accepted with ⟨rfl, assigned⟩ | ⟨rfl, same, -⟩
  · obtain ⟨value, w, read', last⟩ := run_bind_eq_ok.1 rest
    cases last
    obtain ⟨us, ahead', expression⟩ := derives_of_expressionOf sound_fullTerm read'
    exact ⟨ts ++ Token.special '=' :: us, ahead.append (assigned.append ahead'),
      .assignment term expression⟩
  · obtain ⟨e, w, read', last⟩ := run_bind_eq_ok.1 rest
    cases last
    obtain ⟨us, ahead', operations⟩ := derives_of_restOfExpression sound_fullTerm read'
    rw [same] at ahead'
    exact ⟨ts ++ us, ahead.append ahead', .evaluation (.expression term operations fun star =>
      apart (ahead'.upcoming_eq star))⟩

end Parser

/-- The tokens before the end are all that there are. -/
theorem tokens_of_ahead {ls rest : List Lexeme} {ts us : List Token}
    (tokens : ls.map Lexeme.token = us ++ [.stop]) (once : .stop ∉ us) (ahead : Ahead ls ts rest)
    (words : .stop ∉ ts) (ends : upcoming rest = .stop) : ls.map Lexeme.token = ts ++ [.stop] := by
  have whole := ahead.map_token
  rw [tokens] at whole ⊢
  rcases List.append_eq_append_iff.1 whole with ⟨vs, e, last⟩ | ⟨vs, e, last⟩
  · rcases vs with _ | ⟨v, vs⟩
    · rw [e, List.append_nil]
    · -- Otherwise the end would be one of the tokens.
      obtain ⟨rfl, -⟩ := List.cons.inj last
      exact absurd (e ▸ by simp) words
  · rcases vs with _ | ⟨v, vs⟩
    · rw [e, List.append_nil]
    · rcases rest with _ | ⟨⟨t, column⟩, rest⟩
      · cases last
      · obtain rfl : t = .stop := ends
        obtain ⟨rfl, -⟩ := List.cons.inj last
        exact absurd (e ▸ by simp) once

theorem sentence_of_statement {ls : List Lexeme} {met : List Ty} {r' : Reading} {scope : Scope}
    {s : Statement} (plain : beginsType (ls.map Lexeme.token) = false)
    (ok : (Parser.statement scope).run.run ⟨ls, met⟩ = (.ok (some s), r')) :
    ∃ ts, Ahead ls ts r'.ahead ∧ Derives scope TypesClosed .statement s.compile ts ∧
      upcoming r'.ahead = .stop := by
  rw [Parser.statement, run_bind, Parser.run_atEnd] at ok
  dsimp only at ok
  split at ok
  · cases ok
  · rw [run_bind, Parser.run_atType, plain] at ok
    obtain ⟨s, u, read, rest⟩ := run_bind_eq_ok.1 ok
    obtain ⟨ts, ahead, sentence⟩ := Parser.derives_of_assignmentOrExpression read
    rw [run_bind, Parser.run_atEnd] at rest
    dsimp only at rest
    split at rest
    · next ends =>
      cases rest
      exact ⟨ts, ahead, sentence, of_decide_eq_true ends⟩
    · obtain ⟨_, _, -, failed⟩ := run_bind_eq_ok.1 rest
      exact (Parser.not_fail failed).elim

/-- A statement that does not begin as a declaration and is read is a sentence of the grammar with
its code, and the cleaned line spells it. -/
theorem Statement.spells_of_parse {scope : Scope} {line : String} {s : Statement} {met : List Ty}
    (ok : parse scope line = (.ok (some s), met))
    (plain : beginsType ((lexemes line).map Lexeme.token) = false) :
    ∃ ts, Derives scope TypesClosed .statement s.compile ts ∧
      Spells ts (cleanChars line.toList) := by
  obtain ⟨us, tokens, once⟩ := stop_of_lexemes line
  have spelled {ts : List Token} (fine : Fine ts)
      (e : (lexemes line).map Lexeme.token = ts ++ [.stop]) : Spells ts (cleanChars line.toList) :=
    spells_of_lexemes e (fun t m => Token.isWord_of_isProper (fine.proper t m)) fine.parted
  unfold parse at ok
  generalize lexemes line = ls at ok plain tokens spelled
  rcases k : (Parser.statement scope).run.run ⟨ls, []⟩ with ⟨result, r'⟩
  rw [k] at ok
  cases ok
  obtain ⟨ts, ahead, sentence, ends⟩ := sentence_of_statement plain k
  have stop : .stop ∉ ts := fun m => absurd (sentence.fine.proper _ m) (by decide)
  exact ⟨ts, sentence, spelled sentence.fine (tokens_of_ahead tokens once ahead stop ends)⟩

/-- A scope without variables. -/
def Scope.empty : Scope := ⟨4, fun _ => false⟩

namespace Statement

/-- A line that falls into the tokens of a sentence and needs no cleaning spells it. -/
theorem spells_of_tokens {scope : Scope} {apart : List Token → List Token → Prop} {c : List Instr}
    {ts : List Token} (h : Derives scope apart .statement c ts) (line : String)
    (tokens : (lexemes line).map Lexeme.token = ts ++ [.stop])
    (clean : cleanChars line.toList = line.toList) : Spells ts line.toList := by
  have words (t : Token) (m : t ∈ ts) := Token.isWord_of_isProper (h.fine.proper t m)
  exact clean ▸ spells_of_lexemes tokens words h.fine.parted

/-- Exactly the sentences of the grammar in which stars belong to types are read, each with its
code: every text that spells one is read as a statement with that code, and of every statement
that is read and does not begin as a declaration the cleaned text spells a sentence with its
code. -/
theorem reads_sentences (scope : Scope) (line : String) :
    (∀ (c : List Instr) (ts : List Token), Derives scope TypesClosed .statement c ts →
      Spells ts line.toList → ∃ s met, parse scope line = (.ok (some s), met) ∧ s.compile = c) ∧
    ∀ (s : Statement) (met : List Ty), parse scope line = (.ok (some s), met) →
      beginsType ((lexemes line).map Lexeme.token) = false →
        ∃ ts, Derives scope TypesClosed .statement s.compile ts ∧
          Spells ts (cleanChars line.toList) :=
  ⟨fun _ _ h spelled => parse_of_spells h spelled, fun _ _ ok plain => spells_of_parse ok plain⟩

/-- A product with a value behind two pointers that is assigned. -/
theorem reads_sentences_assignment : ∃ s met,
    parse Scope.empty "a = 2 * **p" = (.ok (some s), met) ∧
    s.compile = [.pushName (.named "a"), .push (.integer 2), .pushName (.named "p"),
      .dereference 2, .binary .mul, .assign] ∧
    ∃ ts, Derives Scope.empty TypesClosed .statement s.compile ts ∧
      Spells ts (cleanChars "a = 2 * **p".toList) := by
  have name (name : String) (valid : Identifier.isName name = true)
      (plain : Ty.isKeyword name = false) (free : name ∉ Identifier.reserved) :
      Derives Scope.empty TypesClosed .term [.pushName (.named name)] [.identifier name] :=
    .operand (.indexed (.name valid plain free) .noIndex)
  have two : Derives Scope.empty TypesClosed .term [.push (.integer 2)] [.integer 2] :=
    .operand (.indexed (.literal rfl) .noIndex)
  have pointed := (name "p" (by decide) (by decide) (by decide)).dereference (n := 1) (by decide)
  have product := Derives.expression two (.operation .mul pointed .noOperation nofun)
    fun _ => Ends.not_endsInType (ends_single rfl)
  have sentence := Derives.assignment (name "a" (by decide) (by decide) (by decide)) product
  have spelled := spells_of_tokens sentence "a = 2 * **p" (by decide +kernel) (by decide +kernel)
  obtain ⟨s, met, read, code⟩ := (reads_sentences Scope.empty "a = 2 * **p").1 _ _ sentence spelled
  exact ⟨s, met, read, code,
    (reads_sentences Scope.empty "a = 2 * **p").2 s met read (by decide +kernel)⟩

/-- A product behind a `new` without a length is a sentence, if nothing is asked for what comes
behind a type, and yet it is not read: the star belongs to the type. -/
theorem product_behind_new : ∃ c ts,
    Derives Scope.empty (fun _ _ => True) .statement c ts ∧ Spells ts "new int * 3".toList ∧
    c = [.push (.type Ty.int), .call "new" 1, .push (.integer 3), .binary .mul] ∧
    ¬ ∃ s met, parse Scope.empty "new int * 3" = (.ok (some s), met) := by
  have int : Typed Ty.int [.identifier "int"] :=
    .stars (n := 0) (by decide : Ty.ofKeyword? "int" = some Ty.int) (Nat.zero_le _)
  have three : Derives Scope.empty (fun _ _ => True) .term [.push (.integer 3)] [.integer 3] :=
    .operand (.indexed (.literal rfl) .noIndex)
  have sentence := Derives.evaluation (.expression (.newObject int)
    (.operation .mul three .noOperation trivial) trivial)
  have spelled := spells_of_tokens sentence "new int * 3" (by decide +kernel) (by decide +kernel)
  refine ⟨_, _, sentence, spelled, rfl, fun ⟨s, met, read⟩ => ?_⟩
  have failed : (parse Scope.empty "new int * 3").1.isOk = false := by decide +kernel
  rw [read] at failed
  cases failed

end Statement

end ByteMachine
