import ByteMachine.Proofs.Discipline
import ByteMachine.Proofs.Grammar

/-!
# What is in the grammar is read

A reader of a phrase gets past exactly the tokens of the phrase, with an expression of its code,
whenever they are followed by what may follow them: behind a whole expression what closes it,
behind a term nothing that would be read as a part of it. Readers of terms are given to the readers
of what they occur in, so for each phrase it is asked that it is read with any reader of terms that
is deep enough, and a reader is deep enough for the tokens that are left. The induction is on the
derivation.

Key definitions: `Ahead`, `Parser.Reads`, `Parser.Behind`, `Parser.Deep`, `Parser.Accepted`.
Key theorems: `Parser.accepted_of_derives`, `Statement.parse_of_spells`.
-/

namespace ByteMachine

open Discipline

/-! ### Tokens ahead -/

/-- The tokens stand before the rest. -/
inductive Ahead : List Lexeme → List Token → List Lexeme → Prop
  | nil {ls : List Lexeme} : Ahead ls [] ls
  | cons {t : Token} {column : Nat} {ls : List Lexeme} {ts : List Token} {rest : List Lexeme} :
      Ahead ls ts rest → Ahead (⟨t, column⟩ :: ls) (t :: ts) rest

/-- The token that comes next. -/
def upcoming : List Lexeme → Token
  | l :: _ => l.token
  | [] => .stop

namespace Ahead

variable {ls mid rest : List Lexeme} {ts us : List Token}

theorem append (h : Ahead ls ts mid) (k : Ahead mid us rest) : Ahead ls (ts ++ us) rest := by
  induction h with
  | nil => exact k
  | cons _ ih => exact .cons (ih k)

theorem split : ∀ {ts : List Token} {ls : List Lexeme}, Ahead ls (ts ++ us) rest →
    ∃ mid, Ahead ls ts mid ∧ Ahead mid us rest
  | [], ls, h => ⟨ls, .nil, h⟩
  | t :: ts, _, .cons h => by
    obtain ⟨mid, first, second⟩ := split h
    exact ⟨mid, .cons first, second⟩

theorem length_eq (h : Ahead ls ts rest) : ls.length = ts.length + rest.length := by
  induction h with
  | nil => exact (Nat.zero_add _).symm
  | cons _ ih =>
    rw [List.length_cons, List.length_cons, ih]
    omega

theorem eq_of_nil (h : Ahead ls [] rest) : ls = rest := by
  cases h
  rfl

theorem upcoming_eq {t : Token} (h : Ahead ls ts rest) (head : ts.head? = some t) :
    upcoming ls = t := by
  cases h with
  | nil => cases head
  | cons => exact Option.some.inj head

/-- The first of the tokens comes next, or what comes behind them. -/
theorem upcoming_cases (h : Ahead ls ts rest) :
    ts.head? = some (upcoming ls) ∨ (ts = [] ∧ ls = rest) := by
  cases h with
  | nil => exact .inr ⟨rfl, rfl⟩
  | cons => exact .inl rfl

theorem map_token (h : Ahead ls ts rest) :
    ls.map Lexeme.token = ts ++ rest.map Lexeme.token := by
  induction h with
  | nil => rfl
  | cons _ ih => rw [List.map_cons, ih, List.cons_append]

end Ahead

theorem ahead_of_map : ∀ {ls : List Lexeme} {ts : List Token},
    ls.map Lexeme.token = ts ++ [.stop] → ∃ column, Ahead ls ts [⟨.stop, column⟩]
  | [], ts, e => by simp at e
  | ⟨t, column⟩ :: ls, [], e => by
    obtain ⟨rfl, last⟩ := List.cons.inj e
    rw [List.map_eq_nil_iff] at last
    subst last
    exact ⟨column, .nil⟩
  | ⟨t, column⟩ :: ls, u :: ts, e => by
    obtain ⟨rfl, more⟩ := List.cons.inj e
    obtain ⟨last, ahead⟩ := ahead_of_map more
    exact ⟨last, .cons ahead⟩

/-! ### Readers that succeed -/

namespace Parser

variable {α β : Type} {x : Parser α} {r r' : Reading} {mid rest : List Lexeme} {post : α → Prop}

/-- The reader succeeds with such a result and leaves the rest. -/
def Reads (x : Parser α) (r : Reading) (rest : List Lexeme) (post : α → Prop) : Prop :=
  ∃ a r', x.run.run r = (.ok a, r') ∧ r'.ahead = rest ∧ post a

theorem reads_pure {a : α} {met : List Ty} (h : post a) : Reads (pure a) ⟨rest, met⟩ rest post :=
  ⟨a, _, rfl, rfl, h⟩

/-- A reader that runs as another one does. -/
theorem Reads.of_run {y : Parser α} (h : Reads y r' rest post) (run : x.run.run r = y.run.run r') :
    Reads x r rest post := by
  obtain ⟨a, u, run', h⟩ := h
  exact ⟨a, u, run.trans run', h⟩

theorem Reads.bind (hx : Reads x r mid post) {f : α → Parser β} {post' : β → Prop}
    (hf : ∀ a met, post a → Reads (f a) ⟨mid, met⟩ rest post') :
    Reads (x >>= f) r rest post' := by
  obtain ⟨a, u, run, rfl, h⟩ := hx
  obtain ⟨b, v, run', ahead, h'⟩ := hf a u.met h
  exact ⟨b, v, run_bind_eq_ok.2 ⟨a, u, run, run'⟩, ahead, h'⟩

/-- After a step whose result is known. -/
theorem reads_bind_of_run {a : α} (run : x.run.run r = (.ok a, r')) {f : α → Parser β}
    {post : β → Prop} (hf : Reads (f a) r' rest post) : Reads (x >>= f) r rest post := by
  obtain ⟨b, v, run', h⟩ := hf
  exact ⟨b, v, run_bind_eq_ok.2 ⟨a, r', run, run'⟩, h⟩

theorem run_peek (r : Reading) : peek.run.run r = (.ok (upcoming r.ahead), r) := by
  rcases r with ⟨_ | ⟨l, ls⟩, met⟩ <;> rfl

theorem run_remaining (r : Reading) : remaining.run.run r = (.ok r.ahead.length, r) := rfl

variable {ls : List Lexeme} {met : List Ty} {t : Token} {c : Char} {column k : Nat} {scope : Scope}

theorem run_advance (word : t ≠ .stop) :
    advance.run.run ⟨⟨t, column⟩ :: ls, met⟩ = (.ok (), ⟨ls, met⟩) := by
  cases t with
  | stop => exact absurd rfl word
  | _ => rfl

theorem run_next (word : t ≠ .stop) :
    next.run.run ⟨⟨t, column⟩ :: ls, met⟩ = (.ok t, ⟨ls, met⟩) :=
  run_bind_eq_ok.2 ⟨t, _, rfl, run_bind_eq_ok.2 ⟨(), _, run_advance word, rfl⟩⟩

theorem run_accept_special :
    (accept c).run.run ⟨⟨.special c, column⟩ :: ls, met⟩ = (.ok true, ⟨ls, met⟩) := by
  refine run_bind_eq_ok.2 ⟨.special c, _, rfl, ?_⟩
  rw [if_pos rfl]
  rfl

theorem run_accept_other (other : upcoming r.ahead ≠ .special c) :
    (accept c).run.run r = (.ok false, r) := by
  refine run_bind_eq_ok.2 ⟨_, _, run_peek r, ?_⟩
  rw [if_neg other]
  rfl

theorem run_expect_special {cause : SyntaxCause} :
    (expect c cause).run.run ⟨⟨.special c, column⟩ :: ls, met⟩ = (.ok (), ⟨ls, met⟩) :=
  run_bind_eq_ok.2 ⟨true, _, run_accept_special, rfl⟩

theorem run_atEnd (r : Reading) :
    atEnd.run.run r = (.ok (decide (upcoming r.ahead = .stop)), r) :=
  run_bind_eq_ok.2 ⟨_, _, run_peek r, rfl⟩

theorem run_atType (r : Reading) :
    atType.run.run r = (.ok (beginsType (r.ahead.map Lexeme.token)), r) := by
  rcases r with ⟨_ | ⟨⟨t, column⟩, ls⟩, met⟩
  · rfl
  · cases t with
    | identifier name =>
      refine Prod.ext (congrArg Except.ok ?_) rfl
      simp [beginsType, List.head?_map]
    | _ => rfl

/-! ### The cases of a term -/

theorem run_term_minus : (term scope (k + 1)).run.run ⟨⟨.special '-', column⟩ :: ls, met⟩ =
    (do return Expr.negate (← term scope k) : Parser Expr).run.run ⟨ls, met⟩ := rfl

theorem run_term_plus : (term scope (k + 1)).run.run ⟨⟨.special '+', column⟩ :: ls, met⟩ =
    (term scope k).run.run ⟨ls, met⟩ := rfl

theorem run_term_star : (term scope (k + 1)).run.run ⟨⟨.special '*', column⟩ :: ls, met⟩ =
    (do
      let levels ← starRun (← remaining)
      return Expr.dereference levels (← term scope k) : Parser Expr).run.run
        ⟨⟨.special '*', column⟩ :: ls, met⟩ := rfl

theorem run_term_and : (term scope (k + 1)).run.run ⟨⟨.special '&', column⟩ :: ls, met⟩ =
    (do return Expr.addressOf (← term scope k) : Parser Expr).run.run ⟨ls, met⟩ := rfl

theorem run_term_new : (term scope (k + 1)).run.run ⟨⟨.identifier "new", column⟩ :: ls, met⟩ =
    (newTerm (term scope k)).run.run ⟨ls, met⟩ := rfl

theorem run_term_delete :
    (term scope (k + 1)).run.run ⟨⟨.identifier "delete", column⟩ :: ls, met⟩ =
      (deleteTerm (term scope k)).run.run ⟨ls, met⟩ := rfl

theorem run_term_other (h : t ∉ Token.prefixes) :
    (term scope (k + 1)).run.run ⟨⟨t, column⟩ :: ls, met⟩ =
      (indexed scope (term scope k)).run.run ⟨⟨t, column⟩ :: ls, met⟩ := by
  simp only [Token.prefixes, List.mem_cons, List.not_mem_nil, or_false, not_or] at h
  obtain ⟨minus, plus, star, and, new, delete⟩ := h
  cases t with
  | special c =>
    rw [Token.special.injEq] at minus plus star and
    show StateT.run (ExceptT.run (if c = '-' then _ else if c = '+' then _ else
      if c = '*' then _ else if c = '&' then _ else indexed scope (term scope k))) _ = _
    rw [if_neg minus, if_neg plus, if_neg star, if_neg and]
  | identifier name =>
    rw [Token.identifier.injEq] at new delete
    show StateT.run (ExceptT.run (if name = "new" then _ else if name = "delete" then _ else
      indexed scope (term scope k))) _ = _
    rw [if_neg new, if_neg delete]
  | _ => rfl

/-! ### Types -/

theorem pointerTo_starred {keyword : String} {t : Ty} (e : Ty.ofKeyword? keyword = some t)
    (n : Nat) :
    (t.starred n).pointerTo =
      if Ty.maxStars < n + 1 then .error (.tooManyStars (t.starred n).name)
      else .ok (t.starred (n + 1)) := by
  have plain : t.stars = 0 ∧ ∀ u, t ≠ .reference u := by
    unfold Ty.ofKeyword? at e
    split at e
    · cases e
      exact ⟨rfl, fun _ => nofun⟩
    · obtain ⟨s, -, rfl⟩ := Option.map_eq_some_iff.1 e
      exact ⟨rfl, fun _ => nofun⟩
  have stars : (t.starred n).stars = n := by
    induction n with
    | zero => exact plain.1
    | succ n ih => exact congrArg (· + 1) ih
  have other : ∀ u, t.starred n ≠ .reference u := by
    cases n with
    | zero => exact plain.2
    | succ n => exact fun _ => nofun
  rw [Ty.starred]
  generalize t.starred n = u at stars other
  unfold Ty.pointerTo
  split
  · exact absurd rfl (other _)
  · rw [stars]

theorem run_built (u : Ty) (r : Reading) :
    (built (.ok u)).run.run r = (.ok u, ⟨r.ahead, r.met ++ [u]⟩) := rfl

/-- As many stars as there are, and then none. -/
theorem stars_reads {keyword : String} {u : Ty} (e : Ty.ofKeyword? keyword = some u) :
    ∀ {n fuel k : Nat} {ls : List Lexeme} {met : List Ty} {rest : List Lexeme}, n ≤ fuel →
      k + n ≤ Ty.maxStars → Ahead ls (List.replicate n (.special '*')) rest →
      upcoming rest ≠ .special '*' →
      Reads (stars fuel (u.starred k)) ⟨ls, met⟩ rest (· = u.starred (k + n))
  | 0, 0, k, _, met, _, _, _, .nil, _ => reads_pure rfl
  | 0, fuel + 1, k, _, met, _, _, _, .nil, follow =>
    reads_bind_of_run (run_accept_other follow) (reads_pure rfl)
  | n + 1, fuel + 1, k, _, met, _, enough, few, .cons ahead, follow => by
    refine reads_bind_of_run run_accept_special ?_
    rw [if_pos rfl, pointerTo_starred e, if_neg (by omega)]
    refine reads_bind_of_run (run_built _ _) ?_
    rw [show k + (n + 1) = k + 1 + n by omega]
    exact stars_reads e (Nat.succ_le_succ_iff.1 enough) (by omega) ahead follow

theorem type_reads {u : Ty} {ts : List Token} (typed : Typed u ts) (ahead : Ahead ls ts rest)
    (follow : upcoming rest ≠ .special '*') : Reads type ⟨ls, met⟩ rest (· = u) := by
  cases typed with
  | @stars keyword u n e few =>
    cases ahead with
    | cons ahead =>
      refine reads_bind_of_run (run_next (by nofun)) ?_
      simp only [e]
      refine reads_bind_of_run (run_remaining _) ?_
      have length := ahead.length_eq
      rw [List.length_replicate] at length
      rw [← Nat.zero_add n]
      exact stars_reads e (k := 0) (by simp only; omega) (by omega) ahead follow

/-- A type that comes next is seen. -/
theorem beginsType_of_typed {u : Ty} {ts : List Token} (typed : Typed u ts)
    (ahead : Ahead ls ts rest) (follow : upcoming rest ≠ .special '(') :
    beginsType (ls.map Lexeme.token) = true := by
  cases typed with
  | @stars keyword u n e few =>
    have called : (List.replicate n (Token.special '*') ++ rest.map Lexeme.token).head? ≠
        some (.special '(') := by
      cases n with
      | zero =>
        rcases rest with _ | ⟨l, rest⟩
        · exact fun e => nomatch e
        · exact fun e => follow (Option.some.inj e)
      | succ n => exact fun e => absurd (Option.some.inj e) (by decide)
    rw [ahead.map_token, List.cons_append, beginsType, Ty.isKeyword, e]
    exact bne_iff_ne.2 called

/-! ### What follows -/

/-- The tokens that come behind a whole expression. -/
def Closing (u : Token) : Prop :=
  u = .special ')' ∨ u = .special ']' ∨ u = .special ',' ∨ u = .stop

/-- A token that is no part of a term, coming behind it. -/
structure Behind (ts : List Token) (u : Token) : Prop where
  call : u ≠ .special '('
  index : u ≠ .special '['
  type : u = .special '*' → ¬ EndsInType ts

theorem Closing.behind {u : Token} (h : Closing u) (ts : List Token) : Behind ts u := by
  rcases h with rfl | rfl | rfl | rfl <;>
    exact ⟨by decide, by decide, fun e => absurd e (by decide)⟩

theorem Closing.not_operator {c : Char} (h : Closing (.special c)) :
    Operator.ofSymbol? c = none := by
  simp only [Closing, Token.special.injEq, reduceCtorEq, or_false] at h
  rcases h with rfl | rfl | rfl <;> rfl

/-- What comes behind tokens comes behind the last of them. -/
theorem Behind.within (us : List Token) {ts : List Token} {u : Token} (h : Behind (us ++ ts) u) :
    Behind ts u :=
  ⟨h.call, h.index, fun e ends => h.type e (ends.behind us)⟩

/-! ### Phrases that are read -/

/-- A reader of terms that is deep enough for terms of `n` tokens. -/
def Deep (scope : Scope) (n : Nat) (T : Parser Expr) : Prop :=
  ∀ r : Reading, ∃ fuel, min n r.ahead.length ≤ fuel ∧ T.run.run r = (term scope fuel).run.run r

theorem deep_term {n fuel : Nat} (enough : n ≤ fuel) : Deep scope n (term scope fuel) :=
  fun _ => ⟨fuel, by omega, rfl⟩

theorem deep_fullTerm (n : Nat) : Deep scope n (fullTerm scope) :=
  fun r => ⟨r.ahead.length + 1, by omega, by rw [fullTerm, run_bind, run_remaining]⟩

theorem Deep.mono {m n : Nat} {T : Parser Expr} (h : Deep scope n T) (le : m ≤ n) :
    Deep scope m T := fun r => by
  obtain ⟨fuel, enough, run⟩ := h r
  exact ⟨fuel, by omega, run⟩

/-- The phrase is read by its reader, whatever reads the terms in it, and has its code. -/
def Accepted (scope : Scope) : Phrase → List Instr → List Token → Prop
  | .statement, c, ts => ∀ {ls : List Lexeme} {met column}, Ahead ls ts [⟨.stop, column⟩] →
      Reads (assignmentOrExpression scope) ⟨ls, met⟩ [⟨.stop, column⟩] (·.compile = c)
  | .expression, c, ts => ∀ {T ls met rest}, Deep scope ts.length T → Ahead ls ts rest →
      Closing (upcoming rest) → ∃ first r', T.run.run ⟨ls, met⟩ = (.ok first, r') ∧
        upcoming r'.ahead ≠ .special '=' ∧
        Reads (restOfExpression T first) r' rest (·.compile = c)
  | .operations left, c, ts => ∀ {T count e ls met rest}, Deep scope ts.length T →
      ts.length ≤ count → e.compile = left → Ahead ls ts rest → Closing (upcoming rest) →
      Reads (operations T count e) ⟨ls, met⟩ rest (·.compile = c)
  | .term, c, ts => ∀ {T ls met rest}, Deep scope ts.length T → Ahead ls ts rest →
      Behind ts (upcoming rest) → Reads T ⟨ls, met⟩ rest (·.compile = c)
  | .indexed, c, ts => ∀ {T ls met rest}, Deep scope (ts.length - 1) T → Ahead ls ts rest →
      Behind ts (upcoming rest) → Reads (Parser.indexed scope T) ⟨ls, met⟩ rest (·.compile = c)
  | .indices base, c, ts => ∀ {T count e ls met rest}, Deep scope (ts.length - 1) T →
      ts.length ≤ count → e.compile = base → Ahead ls ts rest → upcoming rest ≠ .special '[' →
      Reads (Parser.indices T count e) ⟨ls, met⟩ rest (·.compile = c)
  | .primary, c, ts => ∀ {T ls met rest}, Deep scope (ts.length - 1) T → Ahead ls ts rest →
      upcoming rest ≠ .special '(' →
      Reads (Parser.primary scope T) ⟨ls, met⟩ rest (·.compile = c)
  | .argument, c, ts => ∀ {T ls met rest}, Deep scope ts.length T → Ahead ls ts rest →
      Closing (upcoming rest) → Reads (Parser.argument T) ⟨ls, met⟩ rest (·.compile = c)
  | .arguments n, c, ts => ∀ {T function count ls met column rest}, Deep scope ts.length T →
      ts.length ≤ count → Ahead ls ts (⟨.special ')', column⟩ :: rest) →
      Reads (Parser.arguments T function count) ⟨ls, met⟩ rest
        fun es => es.length = n ∧ Expr.compileAll es = c

variable {c d : List Instr} {ts us : List Token} {x : Char}

theorem Deep.cons {T : Parser Expr} (deep : Deep scope (ts.length + 1) T)
    (ahead : Ahead ls ts rest) :
    ∃ k, ts.length ≤ k ∧ T.run.run ⟨⟨t, column⟩ :: ls, met⟩ =
      (term scope (k + 1)).run.run ⟨⟨t, column⟩ :: ls, met⟩ := by
  obtain ⟨fuel, enough, run⟩ := deep ⟨⟨t, column⟩ :: ls, met⟩
  rw [List.length_cons, ahead.length_eq] at enough
  obtain ⟨k, rfl⟩ := Nat.exists_eq_succ_of_ne_zero (n := fuel) (by omega)
  exact ⟨k, by omega, run⟩

/-- A whole expression. -/
theorem Accepted.expressionOf (h : Accepted scope .expression c ts) {T : Parser Expr}
    (deep : Deep scope ts.length T) (ahead : Ahead ls ts rest) (closing : Closing (upcoming rest)) :
    Reads (expressionOf T) ⟨ls, met⟩ rest (·.compile = c) := by
  obtain ⟨first, r', run, -, more⟩ := h deep ahead closing
  exact reads_bind_of_run run more

/-- A whole expression and what closes it. -/
theorem Accepted.closed (h : Accepted scope .expression c ts) {T : Parser Expr}
    (deep : Deep scope ts.length T) (closing : Closing (.special x))
    (ahead : Ahead ls (ts ++ .special x :: us) rest) {cause : SyntaxCause} {f : Expr → Parser β}
    {post : β → Prop} (hf : ∀ e mid met, Ahead mid us rest → e.compile = c →
      Reads (f e) ⟨mid, met⟩ rest post) :
    Reads (do
      let e ← Parser.expressionOf T
      expect x cause
      f e) ⟨ls, met⟩ rest post := by
  obtain ⟨mid, inner, ahead⟩ := ahead.split
  cases ahead with
  | cons ahead =>
    refine (h.expressionOf deep inner closing).bind fun e met compiled => ?_
    exact reads_bind_of_run run_expect_special (hf e _ met ahead compiled)

/-! ### Terms -/

/-- A term behind one token that does something to it. -/
theorem accepted_behind {f : Expr → Expr}
    (run : ∀ {k column ls met}, (term scope (k + 1)).run.run ⟨⟨t, column⟩ :: ls, met⟩ =
      (do return f (← term scope k) : Parser Expr).run.run ⟨ls, met⟩)
    (code : ∀ e, e.compile = c → (f e).compile = d) (h : Accepted scope .term c ts) :
    Accepted scope .term d (t :: ts) := by
  rintro T _ met rest deep (_ | ahead) behind
  obtain ⟨k, enough, deeper⟩ := deep.cons ahead
  refine Reads.of_run ?_ (deeper.trans run)
  exact (h (deep_term enough) ahead (behind.within [t])).bind fun e _ compiled =>
    reads_pure (code e compiled)

theorem accepted_negate (h : Accepted scope .term c ts) :
    Accepted scope .term (.push (.integer 0) :: (c ++ [.binary .sub])) (.special '-' :: ts) :=
  accepted_behind run_term_minus (fun e compiled => by rw [Expr.compile, compiled]) h

theorem accepted_positive (h : Accepted scope .term c ts) :
    Accepted scope .term c (.special '+' :: ts) :=
  accepted_behind (f := id) (by simp only [run_term_plus, id, bind_pure, implies_true])
    (fun _ => id) h

theorem accepted_addressOf (h : Accepted scope .term c ts) :
    Accepted scope .term (c ++ [.addressOf]) (.special '&' :: ts) :=
  accepted_behind run_term_and (fun e compiled => by rw [Expr.compile, compiled]) h

theorem starRun_reads : ∀ {n fuel : Nat} {ls : List Lexeme} {met : List Ty}, n ≤ fuel →
    Ahead ls (List.replicate n (.special '*')) mid → upcoming mid ≠ .special '*' →
    Reads (starRun fuel) ⟨ls, met⟩ mid (· = n)
  | 0, 0, _, met, _, .nil, _ => reads_pure rfl
  | 0, fuel + 1, _, met, _, .nil, follow =>
    reads_bind_of_run (run_accept_other follow) (reads_pure rfl)
  | n + 1, fuel + 1, _, met, enough, .cons ahead, follow => by
    refine reads_bind_of_run run_accept_special ?_
    rw [if_pos rfl]
    refine (starRun_reads (Nat.succ_le_succ_iff.1 enough) ahead follow).bind fun m _ e => ?_
    exact reads_pure (congrArg (· + 1) e)

theorem accepted_dereference {n : Nat} (h : Accepted scope .term c ts) (nonempty : ts ≠ [])
    (longest : ts.head? ≠ some (.special '*')) :
    Accepted scope .term (c ++ [.dereference (n + 1)])
      (.special '*' :: (List.replicate n (.special '*') ++ ts)) := by
  rintro T _ met rest deep (_ | ahead) behind
  obtain ⟨k, enough, deeper⟩ := deep.cons ahead
  refine Reads.of_run ?_ (deeper.trans run_term_star)
  rw [List.length_append, List.length_replicate] at enough
  have length := ahead.length_eq
  rw [List.length_append, List.length_replicate] at length
  obtain ⟨mid, stars, ahead⟩ := ahead.split
  refine reads_bind_of_run (run_remaining _) ?_
  have follow : upcoming mid ≠ .special '*' := by
    rcases ahead.upcoming_cases with head | ⟨rfl, -⟩
    · exact fun e => longest (e ▸ head)
    · exact absurd rfl nonempty
  refine Reads.bind (starRun_reads (n := n + 1) ?_ (.cons stars) follow) fun levels _ e => ?_
  · simp only [List.length_cons]
    omega
  have within : Behind ts (upcoming rest) := by
    exact Behind.within (.special '*' :: List.replicate n (.special '*')) behind
  refine (h (deep_term (by omega)) ahead within).bind fun e' _ compiled => reads_pure ?_
  rw [Expr.compile, compiled, e]

theorem accepted_newObject {u : Ty} (typed : Typed u ts) :
    Accepted scope .term [.push (.type u), .call "new" 1] (.identifier "new" :: ts) := by
  rintro T _ met rest deep (_ | ahead) behind
  obtain ⟨k, enough, deeper⟩ := deep.cons ahead
  refine Reads.of_run ?_ (deeper.trans run_term_new)
  have within := behind.within [_]
  refine reads_bind_of_run (run_atType _) ?_
  rw [beginsType_of_typed typed ahead within.call]
  refine Reads.bind (type_reads typed ahead fun e => within.type e typed.endsInType)
    fun v _ e => ?_
  refine reads_bind_of_run (run_accept_other within.index) ?_
  subst e
  exact reads_pure rfl

theorem accepted_newArray {u : Ty} (typed : Typed u ts) (h : Accepted scope .expression c us) :
    Accepted scope .term (.push (.type u) :: (c ++ [.call "new[]" 2]))
      (.identifier "new" :: (ts ++ .special '[' :: (us ++ [.special ']']))) := by
  rintro T _ met rest deep (_ | ahead) behind
  obtain ⟨k, enough, deeper⟩ := deep.cons ahead
  refine Reads.of_run ?_ (deeper.trans run_term_new)
  obtain ⟨mid, type, ahead⟩ := ahead.split
  cases ahead with
  | cons ahead =>
    refine reads_bind_of_run (run_atType _) ?_
    rw [beginsType_of_typed typed type (by simp [upcoming])]
    refine Reads.bind (type_reads typed type (by simp [upcoming])) fun v _ e => ?_
    refine reads_bind_of_run run_accept_special ?_
    have shorter : us.length ≤ k := by
      simp only [List.length_append, List.length_cons] at enough
      omega
    refine h.closed (deep_term shorter) (.inr (.inl rfl)) ahead fun e' mid met last compiled => ?_
    cases last
    refine reads_pure ?_
    rw [Expr.compile, compiled, e]

/-- What is deleted, behind the word and the brackets. -/
theorem deleted_reads (h : Accepted scope .term c ts) (opens : Begins Token.opensTerm ts)
    (enough : ts.length ≤ k) (ahead : Ahead ls ts rest) (behind : Behind ts (upcoming rest)) :
    Reads (do
      if (← atEnd) then fail .expectedAfterDelete
      else return .delete (← term scope k) : Parser Expr) ⟨ls, met⟩ rest
        (·.compile = c ++ [.call "delete" 1]) := by
  obtain ⟨t, vs, rfl, first, -⟩ := opens
  have upcoming := ahead.upcoming_eq (t := t) rfl
  have word : t ≠ .stop := by
    rintro rfl
    exact absurd first (by decide)
  refine reads_bind_of_run (run_atEnd _) ?_
  simp only [upcoming, word, decide_false]
  refine (h (deep_term enough) ahead behind).bind fun e _ compiled => reads_pure ?_
  rw [Expr.compile, compiled]

theorem accepted_delete (h : Accepted scope .term c ts) (opens : Begins Token.opensTerm ts) :
    Accepted scope .term (c ++ [.call "delete" 1]) (.identifier "delete" :: ts) := by
  rintro T _ met rest deep (_ | ahead) behind
  obtain ⟨k, enough, deeper⟩ := deep.cons ahead
  refine Reads.of_run ?_ (deeper.trans run_term_delete)
  refine reads_bind_of_run (run_accept_other ?_)
    (deleted_reads h opens enough ahead (behind.within [_]))
  obtain ⟨t, vs, rfl, first, -⟩ := opens
  rw [ahead.upcoming_eq (t := t) rfl]
  rintro rfl
  exact absurd first (by decide)

theorem accepted_deleteArray (h : Accepted scope .term c ts) (opens : Begins Token.opensTerm ts) :
    Accepted scope .term (c ++ [.call "delete" 1])
      (.identifier "delete" :: .special '[' :: .special ']' :: ts) := by
  rintro T _ met rest deep (_ | ahead) behind
  obtain ⟨k, enough, deeper⟩ := deep.cons ahead
  refine Reads.of_run ?_ (deeper.trans run_term_delete)
  rcases ahead with _ | _ | ahead
  have shorter : ts.length ≤ k := by
    simp only [List.length_cons] at enough
    omega
  refine reads_bind_of_run run_accept_special ?_
  refine reads_bind_of_run run_expect_special ?_
  exact deleted_reads h opens shorter ahead (behind.within [_, _, _])

theorem accepted_operand (h : Accepted scope .indexed c ts)
    (opens : Begins Token.opensPrimary ts) : Accepted scope .term c ts := by
  intro T ls met rest deep ahead behind
  obtain ⟨t, vs, rfl, first, -⟩ := opens
  cases ahead with
  | cons ahead =>
    obtain ⟨k, enough, deeper⟩ := deep.cons ahead
    exact (h (deep_term enough) (.cons ahead) behind).of_run
      (deeper.trans (run_term_other (t.not_mem_prefixes first)))

/-! ### Operators and indices -/

theorem accepted_noOperation : Accepted scope (.operations c) c [] := by
  rintro T count e ls met rest - - compiled (_ | _) closing
  cases count with
  | zero => exact reads_pure compiled
  | succ count =>
    refine reads_bind_of_run (run_peek _) ?_
    split
    · next op found =>
      rw [found] at closing
      rw [closing.not_operator]
      exact reads_pure compiled
    · exact reads_pure compiled

/-- What comes behind a term are operators, or it is the last of its expression. -/
theorem behind_of_operations (opens : (Phrase.operations d).Opens us) (apart : TypesClosed ts us)
    (ahead : Ahead ls us rest) (closing : Closing (upcoming rest)) :
    Behind ts (upcoming ls) ∧ upcoming ls ≠ .special '=' := by
  rcases ahead.upcoming_cases with head | ⟨rfl, rfl⟩
  · obtain ⟨op, e⟩ := opens _ head
    refine ⟨⟨?_, ?_, fun star => apart (head.trans (congrArg _ star))⟩, ?_⟩ <;>
      rw [e] <;> cases op <;> decide
  · refine ⟨closing.behind ts, ?_⟩
    rcases closing with e | e | e | e <;> rw [e] <;> decide

theorem accepted_operation {op : Operator} {e : List Instr} (h : Accepted scope .term d ts)
    (k : Accepted scope (.operations (c ++ (d ++ [.binary op]))) e us)
    (opens : (Phrase.operations (c ++ (d ++ [.binary op]))).Opens us) (apart : TypesClosed ts us) :
    Accepted scope (.operations c) e (.special op.symbol :: (ts ++ us)) := by
  rintro T count left _ met rest deep enough compiled (_ | ahead) closing
  obtain ⟨mid, first, more⟩ := ahead.split
  simp only [List.length_cons, List.length_append] at deep enough
  obtain ⟨count, rfl⟩ := Nat.exists_eq_succ_of_ne_zero (n := count) (by omega)
  refine reads_bind_of_run (run_peek _) ?_
  simp only [upcoming, Operator.ofSymbol?_symbol]
  refine reads_bind_of_run (run_advance (by nofun)) ?_
  have behind := (behind_of_operations opens apart more closing).1
  refine (h (deep.mono (by omega)) first behind).bind fun right met compiled' => ?_
  refine k (deep.mono (by omega)) (by omega) ?_ more closing
  rw [Expr.compile, compiled, compiled']

theorem accepted_expression (h : Accepted scope .term c ts)
    (k : Accepted scope (.operations c) d us) (opens : (Phrase.operations c).Opens us)
    (apart : TypesClosed ts us) : Accepted scope .expression d (ts ++ us) := by
  intro T ls met rest deep ahead closing
  obtain ⟨mid, first, more⟩ := ahead.split
  rw [List.length_append] at deep
  obtain ⟨behind, other⟩ := behind_of_operations opens apart more closing
  have read : Reads T ⟨ls, met⟩ mid (·.compile = c) := h (deep.mono (by omega)) first behind
  obtain ⟨e, r', run, rfl, compiled⟩ := read
  refine ⟨e, r', run, other, ?_⟩
  refine reads_bind_of_run (run_remaining _) ?_
  have length := more.length_eq
  exact k (deep.mono (by omega)) (by omega) compiled more closing

theorem accepted_noIndex : Accepted scope (.indices c) c [] := by
  rintro T count e ls met rest - - compiled (_ | _) follow
  cases count with
  | zero => exact reads_pure compiled
  | succ count =>
    exact reads_bind_of_run (run_accept_other follow) (reads_pure compiled)

theorem accepted_index {e : List Instr} (h : Accepted scope .expression d ts)
    (k : Accepted scope (.indices (c ++ (d ++ [.index]))) e us) :
    Accepted scope (.indices c) e (.special '[' :: (ts ++ .special ']' :: us)) := by
  rintro T count base _ met rest deep enough compiled (_ | ahead) follow
  simp only [List.length_cons, List.length_append] at deep enough
  obtain ⟨count, rfl⟩ := Nat.exists_eq_succ_of_ne_zero (n := count) (by omega)
  refine reads_bind_of_run run_accept_special ?_
  refine h.closed (deep.mono (by omega)) (.inr (.inl rfl)) ahead fun e' mid met more compiled' => ?_
  refine k (deep.mono (by omega)) (by omega) ?_ more follow
  rw [Expr.compile, compiled, compiled']

theorem accepted_indexed (h : Accepted scope .primary c ts) (k : Accepted scope (.indices c) d us)
    (opens : (Phrase.indices c).Opens us) : Accepted scope .indexed d (ts ++ us) := by
  intro T ls met rest deep ahead behind
  obtain ⟨mid, first, more⟩ := ahead.split
  rw [List.length_append] at deep
  have call : upcoming mid ≠ .special '(' := by
    rcases more.upcoming_cases with head | ⟨rfl, rfl⟩
    · rw [opens _ head]
      decide
    · exact behind.call
  refine (h (deep.mono (by omega)) first call).bind fun base met compiled => ?_
  refine reads_bind_of_run (run_remaining _) ?_
  have length := more.length_eq
  exact k (deep.mono (by omega)) (by simp only; omega) compiled more behind.index

/-! ### Primaries -/

theorem accepted_literal {v : Literal} (e : t.literal? = some v) :
    Accepted scope .primary [.push v] [t] := by
  rintro T _ met rest - (_ | _ | _) -
  cases t with
  | identifier | special | invalid | stop => cases e
  | _ =>
    cases e
    exact reads_bind_of_run (run_next (by nofun)) (reads_pure rfl)

theorem accepted_null {name : String} (e : name = "null" ∨ name = "NULL") :
    Accepted scope .primary [.pushTyped (.integer 0) Ty.anyPointer] [.identifier name] := by
  rintro T _ met rest - (_ | _ | _) -
  refine reads_bind_of_run (run_next (by nofun)) ?_
  simp only [Bool.or_eq_true, decide_eq_true_eq, e, if_true]
  exact reads_bind_of_run rfl (reads_pure rfl)

theorem accepted_parenthesized (h : Accepted scope .expression c ts) :
    Accepted scope .primary c (.special '(' :: (ts ++ [.special ')'])) := by
  rintro T _ met rest deep (_ | ahead) -
  simp only [List.length_cons, List.length_append, List.length_nil] at deep
  refine reads_bind_of_run (run_next (by nofun)) ?_
  refine h.closed (deep.mono (by omega)) (.inl rfl) ahead fun e mid met last compiled => ?_
  cases last
  exact reads_pure compiled

theorem not_null_of_not_reserved {name : String} (free : name ∉ Identifier.reserved) :
    ¬ (name = "null" ∨ name = "NULL") := by
  simp only [Identifier.reserved, List.mem_cons, List.not_mem_nil, or_false, not_or] at free
  exact not_or.2 free.2.2

/-- A name that may be one of a variable is read as that where no arguments follow. -/
theorem run_primary_name {name : String} (valid : Identifier.isName name = true)
    (plain : Ty.isKeyword name = false) (free : name ∉ Identifier.reserved)
    (call : upcoming ls ≠ .special '(') (T : Parser Expr) :
    (primary scope T).run.run ⟨⟨.identifier name, column⟩ :: ls, met⟩ =
      (.ok (.name (.named name)), ⟨ls, met⟩) := by
  refine run_bind_eq_ok.2 ⟨_, _, run_next (by nofun), ?_⟩
  simp only [Bool.or_eq_true, decide_eq_true_eq, not_null_of_not_reserved free, if_false]
  refine run_bind_eq_ok.2 ⟨_, _, run_accept_other call, ?_⟩
  simp only [plain, Identifier.ofName?, valid, if_true]
  rfl

theorem accepted_name {name : String} (valid : Identifier.isName name = true)
    (plain : Ty.isKeyword name = false) (free : name ∉ Identifier.reserved) :
    Accepted scope .primary [.pushName (.named name)] [.identifier name] := by
  rintro T _ met rest - (_ | _ | _) call
  exact ⟨_, _, run_primary_name valid plain free call T, rfl, rfl⟩

/-- The arguments of a function that may be called are read next. -/
theorem call_of_primary {function : String} (free : function ∉ Identifier.reserved)
    (callable : Ty.isKeyword function = true ∨ scope.isVariable function = false)
    {T : Parser Expr} {column' : Nat} {post : Expr → Prop}
    (h : Reads (do
      if (← accept ')') then return .call function []
      else return .call function (← arguments T function (← remaining))) ⟨ls, met⟩ rest post) :
    Reads (primary scope T) ⟨⟨.identifier function, column⟩ :: ⟨.special '(', column'⟩ :: ls, met⟩
      rest post := by
  refine reads_bind_of_run (run_next (by nofun)) ?_
  simp only [Bool.or_eq_true, decide_eq_true_eq, not_null_of_not_reserved free, if_false]
  refine reads_bind_of_run run_accept_special ?_
  unfold call
  rw [if_pos rfl, if_neg]
  · exact h
  · rcases callable with keyword | other
    · simp [keyword]
    · simp [other]

theorem accepted_callOfNothing {function : String} (free : function ∉ Identifier.reserved)
    (callable : Ty.isKeyword function = true ∨ scope.isVariable function = false) :
    Accepted scope .primary [.call function 0]
      [.identifier function, .special '(', .special ')'] := by
  rintro T _ met rest - (_ | _ | _ | _ | _) -
  exact call_of_primary free callable (reads_bind_of_run run_accept_special (reads_pure rfl))

theorem accepted_call {function : String} {n : Nat} (free : function ∉ Identifier.reserved)
    (callable : Ty.isKeyword function = true ∨ scope.isVariable function = false)
    (h : Accepted scope (.arguments n) c ts) (opens : ∃ t us, ts = t :: us ∧ t.opensTerm = true) :
    Accepted scope .primary (c ++ [.call function n])
      (.identifier function :: .special '(' :: (ts ++ [.special ')'])) := by
  rintro T _ met rest deep (_ | _ | ahead) -
  simp only [List.length_cons, List.length_append, List.length_nil] at deep
  refine call_of_primary free callable ?_
  obtain ⟨t, us, e, first⟩ := opens
  have other : t ≠ .special ')' := by
    rintro rfl
    exact absurd first (by decide)
  have next := ahead.upcoming_eq (t := t) (by rw [e]; rfl)
  refine reads_bind_of_run (run_accept_other (next ▸ other)) ?_
  refine reads_bind_of_run (run_remaining _) ?_
  have length := ahead.length_eq
  simp only [List.length_append] at length
  obtain ⟨mid, inner, last⟩ := ahead.split
  rcases last with _ | _ | _
  refine Reads.bind (h (deep.mono (by omega)) (by simp only; omega) inner) fun es _ read => ?_
  refine reads_pure ?_
  rw [Expr.compile, read.1, read.2]

theorem accepted_typeArgument {u : Ty} (typed : Typed u ts) :
    Accepted scope .argument [.push (.type u)] ts := by
  intro T ls met rest deep ahead closing
  have behind := closing.behind ts
  refine reads_bind_of_run (run_atType _) ?_
  rw [beginsType_of_typed typed ahead behind.call, if_pos rfl]
  refine Reads.bind (type_reads typed ahead fun e => behind.type e typed.endsInType) fun v _ e => ?_
  subst e
  exact reads_pure rfl

theorem accepted_argument (h : Accepted scope .expression c ts)
    (opens : Begins Token.opensTerm ts) : Accepted scope .argument c ts := by
  intro T ls met rest deep ahead closing
  refine reads_bind_of_run (run_atType _) ?_
  rw [ahead.map_token, opens.beginsType_append, if_neg (by decide)]
  exact h.expressionOf deep ahead closing

theorem accepted_lastArgument (h : Accepted scope .argument c ts) (nonempty : ts ≠ []) :
    Accepted scope (.arguments 1) c ts := by
  intro T function count ls met column rest deep enough ahead
  have some := List.length_pos_iff.2 nonempty
  obtain ⟨count, rfl⟩ := Nat.exists_eq_succ_of_ne_zero (n := count) (by omega)
  refine Reads.bind (h deep ahead (.inl rfl)) fun e _ compiled => ?_
  refine reads_bind_of_run (run_accept_other (by simp [upcoming])) ?_
  refine reads_bind_of_run run_expect_special (reads_pure ⟨rfl, ?_⟩)
  rw [Expr.compileAll, Expr.compileAll, List.append_nil, compiled]

theorem accepted_moreArguments {n : Nat} (h : Accepted scope .argument c ts)
    (k : Accepted scope (.arguments n) d us) :
    Accepted scope (.arguments (n + 1)) (c ++ d) (ts ++ .special ',' :: us) := by
  intro T function count ls met column rest deep enough ahead
  simp only [List.length_cons, List.length_append] at deep enough
  obtain ⟨count, rfl⟩ := Nat.exists_eq_succ_of_ne_zero (n := count) (by omega)
  obtain ⟨mid, first, more⟩ := ahead.split
  cases more with
  | cons more =>
    refine Reads.bind (h (deep.mono (by omega)) first (.inr (.inr (.inl rfl))))
      fun e _ compiled => ?_
    refine reads_bind_of_run run_accept_special ?_
    refine Reads.bind (k (deep.mono (by omega)) (by omega) more) fun es _ read => reads_pure ?_
    exact ⟨by rw [List.length_cons, read.1], by rw [Expr.compileAll, compiled, read.2]⟩

/-! ### Statements -/

theorem accepted_evaluation (h : Accepted scope .expression c ts) :
    Accepted scope .statement c ts := by
  intro ls met column ahead
  obtain ⟨first, r', run, other, more⟩ :=
    @h _ _ met _ (deep_fullTerm _) ahead (.inr (.inr (.inr rfl)))
  refine reads_bind_of_run run ?_
  refine reads_bind_of_run (run_accept_other other) ?_
  exact more.bind fun e _ compiled => reads_pure compiled

theorem accepted_assignment (h : Accepted scope .term c ts) (k : Accepted scope .expression d us) :
    Accepted scope .statement (c ++ (d ++ [.assign])) (ts ++ .special '=' :: us) := by
  intro ls met column ahead
  obtain ⟨mid, target, value⟩ := ahead.split
  cases value with
  | cons value =>
    have behind : Behind ts (.special '=') :=
      ⟨by decide, by decide, fun e => absurd e (by decide)⟩
    refine (h (deep_fullTerm _) target behind).bind fun e _ compiled => ?_
    refine reads_bind_of_run run_accept_special ?_
    refine (k.expressionOf (deep_fullTerm _) value (.inr (.inr (.inr rfl)))).bind
      fun e' _ compiled' => reads_pure ?_
    rw [Statement.compile, compiled, compiled']

/-- Every phrase of the grammar in which stars belong to types is read. -/
theorem accepted_of_derives {p : Phrase} (h : Derives scope TypesClosed p c ts) :
    Accepted scope p c ts := by
  induction h with
  | evaluation _ ih => exact accepted_evaluation ih
  | assignment _ _ ih ih' => exact accepted_assignment ih ih'
  | expression _ more apart ih ih' => exact accepted_expression ih ih' more.opens apart
  | noOperation => exact accepted_noOperation
  | operation _ _ more apart ih ih' => exact accepted_operation ih ih' more.opens apart
  | negate _ ih => exact accepted_negate ih
  | positive _ ih => exact accepted_positive ih
  | dereference term longest ih => exact accepted_dereference ih (term.ne_nil (by simp)) longest
  | addressOf _ ih => exact accepted_addressOf ih
  | newObject typed => exact accepted_newObject typed
  | newArray typed _ ih => exact accepted_newArray typed ih
  | delete term ih => exact accepted_delete ih term.opens
  | deleteArray term ih => exact accepted_deleteArray ih term.opens
  | operand inner ih => exact accepted_operand ih inner.opens
  | indexed _ more ih ih' => exact accepted_indexed ih ih' more.opens
  | noIndex => exact accepted_noIndex
  | index _ _ ih ih' => exact accepted_index ih ih'
  | literal e => exact accepted_literal e
  | null e => exact accepted_null e
  | parenthesized _ ih => exact accepted_parenthesized ih
  | name valid plain free => exact accepted_name valid plain free
  | callOfNothing free callable => exact accepted_callOfNothing free callable
  | call free callable inner ih => exact accepted_call free callable ih inner.opens
  | typeArgument typed => exact accepted_typeArgument typed
  | argument inner ih => exact accepted_argument ih inner.opens
  | lastArgument inner ih => exact accepted_lastArgument ih (inner.ne_nil (by simp))
  | moreArguments _ _ ih ih' => exact accepted_moreArguments ih ih'

end Parser

/-- A line that spells a sentence is read as a statement with the code of the sentence. -/
theorem Statement.parse_of_spells {scope : Scope} {line : String} {c : List Instr} {ts : List Token}
    (h : Derives scope TypesClosed .statement c ts) (spelled : Spells ts line.toList) :
    ∃ s met, parse scope line = (.ok (some s), met) ∧ s.compile = c := by
  have proper (t : Token) (m : t ∈ ts) : t ≠ .special ';' := by
    rintro rfl
    exact absurd (h.fine.proper _ m) (by decide)
  have tokens := spelled.lexemes h.fine.parted proper
  obtain ⟨column, ahead⟩ := ahead_of_map tokens
  have begins : Begins Token.opensTerm ts := h.opens
  have plain := begins.beginsType_append [.stop]
  obtain ⟨t, us, rfl, first, -⟩ := begins
  have word : t ≠ .stop := by
    rintro rfl
    exact absurd first (by decide)
  unfold parse
  generalize lexemes line = ls at tokens ahead
  have whole : Parser.Reads (Parser.statement scope) ⟨ls, []⟩ [⟨.stop, column⟩]
      fun s? => ∃ s, s? = some s ∧ s.compile = c := by
    refine Parser.reads_bind_of_run (Parser.run_atEnd _) ?_
    rw [ahead.upcoming_eq (t := t) rfl, if_neg (by simpa using word)]
    refine Parser.reads_bind_of_run (Parser.run_atType _) ?_
    rw [tokens, plain, if_neg (by decide)]
    refine Parser.Reads.bind (Parser.accepted_of_derives h ahead) fun s met compiled => ?_
    exact Parser.reads_bind_of_run (Parser.run_atEnd _) (Parser.reads_pure ⟨s, rfl, compiled⟩)
  obtain ⟨_, r', run, -, s, rfl, compiled⟩ := whole
  rw [run]
  exact ⟨s, r'.met, rfl, compiled⟩

end ByteMachine
