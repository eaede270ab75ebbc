import ByteMachine.Proofs.Catalogs
import ByteMachine.Proofs.StackEffect

/-!
# Runs in lockstep

Two states are alike if they differ in the types met so far only, and the second has met all that
the first has. A computation is steady with an effect if from two states that are alike it does the
same: it fails in both or gives the same in both, and leaves states that are alike again; and if it
does to the stack what the effect says. The one way to tell the states apart is to read a byte as a
type that only the second has met: the run from the first fails then.

The rules take a computation apart along its text. Where it looks at the catalog the two runs go
on with different catalogs, so that rule asks for two computations that run in lockstep.

Key definitions: `Catalog.Below`, `Core.Alike`, `Run.Lockstep`, `Run.Steady`.
Key theorems: `Run.Steady.bind`, `Run.Steady.andThen`, `Run.steady_catalog_bind`,
`Run.Steady.caught`, `Memory.load_below`.
-/

namespace ByteMachine

open Discipline

/-! ### Catalogs -/

namespace Catalog

/-- The types of `c` were met in `d` as well. -/
structure Below (c d : Catalog) : Prop where
  word : d.word = c.word
  known : c.known ⊆ d.known

variable {c d : Catalog}

namespace Below

theorem refl (c : Catalog) : c.Below c := ⟨rfl, fun _ m => m⟩

theorem size (h : c.Below d) (t : Ty) : d.size t = c.size t := by
  unfold Catalog.size
  rw [h.word]

theorem intern (h : c.Below d) (t : Ty) : (c.intern t).Below (d.intern t) where
  word := by rw [intern_word, intern_word, h.word]
  known := fun _ m => mem_intern.2 ((mem_intern.1 m).imp_left fun old => h.known old)

theorem internAll (h : c.Below d) (ts : List Ty) : (c.internAll ts).Below (d.internAll ts) := by
  induction ts generalizing c d with
  | nil => exact h
  | cons t ts ih => exact ih (h.intern t)

theorem internDecay (h : c.Below d) (t : Ty) : (c.internDecay t).Below (d.internDecay t) := by
  unfold Catalog.internDecay
  split
  · split
    · exact h.intern _
    · exact h
  · exact h

theorem internCompared (h : c.Below d) (a b : Ty) :
    (c.internCompared a b).Below (d.internCompared a b) :=
  (h.internDecay a).internDecay b

end Below

theorem Extends.below (h : c.Extends d) : c.Below d := ⟨h.word, h.known.subset⟩

end Catalog

namespace Catalog

variable {c d : Catalog}

theorem Below.met? (h : c.Below d) {t u : Ty} (e : c.met? t = some u) : d.met? t = some u := by
  unfold Catalog.met? at e ⊢
  split at e
  · next mem => rwa [if_pos (h.known mem)]
  · cases e

theorem Below.pointer? (h : c.Below d) {t u : Ty} {stars : Nat}
    (e : c.pointer? t stars = some u) : d.pointer? t stars = some u := by
  unfold Catalog.pointer? at e ⊢
  split at e
  · next found =>
    simp only [Bool.and_eq_true, decide_eq_true_eq] at found ⊢
    rwa [if_pos ⟨found.1, h.known found.2⟩]
  · cases e

end Catalog

/-- A byte means the same under the larger catalog, if it means anything under the smaller. -/
theorem TypeTag.resolve_below {c d : Catalog} (h : c.Below d) (tag : UInt8) :
    resolve c tag = .error (.invalidTag tag) ∨ resolve c tag = resolve d tag := by
  unfold resolve
  split
  · exact .inr rfl
  · dsimp only
    split
    · next t found =>
      right
      obtain ⟨s, index, found⟩ := Option.bind_eq_some_iff.1 found
      have whole : ∀ u, (if referenceWeight ≤ tag.toNat then c.met? (.reference u) else some u) =
          some t → (if referenceWeight ≤ tag.toNat then d.met? (.reference u) else some u) =
            some t := by
        intro u e
        split at e
        · next low => rw [if_pos low, h.met? e]
        · next low => rw [if_neg low, e]
      simp only [index, Option.bind_eq_bind, Option.bind_some] at found ⊢
      split at found
      · next none => rw [if_pos none, whole _ found]
      · next some =>
        obtain ⟨u, pointer, found⟩ := Option.bind_eq_some_iff.1 found
        rw [if_neg some, h.pointer? pointer, Option.bind_some, whole u found]
    · exact .inl rfl

/-- A result that is not the failure to read a type. -/
def Tagless {α : Type} (x : Except Fault α) : Prop := ∀ tag, x ≠ .error (.invalidTag tag)

theorem tagless_ok {α : Type} (a : α) : Tagless (.ok a) := fun _ => nofun

/-- Whether a failure is that of reading a byte as a type. -/
def Fault.isTag : Fault → Bool
  | invalidTag _ => true
  | _ => false

theorem tagless_error_iff {α : Type} (fault : Fault) :
    Tagless (.error fault : Except Fault α) ↔ fault.isTag = false := by
  unfold Tagless
  cases fault <;> simp [Fault.isTag]

instance {α : Type} : (x : Except Fault α) → Decidable (Tagless x)
  | .ok a => isTrue (tagless_ok a)
  | .error fault => decidable_of_iff _ (tagless_error_iff fault).symm

theorem Tagless.bind {α β : Type} {x : Except Fault α} (h : Tagless x) {f : α → Except Fault β}
    (k : ∀ a, Tagless (f a)) : Tagless (x >>= f) := by
  cases x with
  | error fault => exact fun tag e => h tag (by cases e; rfl)
  | ok a => exact k a

/-- Two results that are the same, unless the first is the failure to read a type. -/
def Agree {α : Type} (x y : Except Fault α) : Prop := (∃ tag, x = .error (.invalidTag tag)) ∨ x = y

namespace Agree

variable {α β : Type} {x y : Except Fault α}

theorem refl (x : Except Fault α) : Agree x x := .inr rfl

theorem bind (h : Agree x y) {f g : α → Except Fault β} (k : ∀ a, Agree (f a) (g a)) :
    Agree (x >>= f) (y >>= g) := by
  rcases h with ⟨tag, rfl⟩ | rfl
  · exact .inl ⟨tag, rfl⟩
  · cases x with
    | error => exact .inr rfl
    | ok a => exact k a

theorem map (h : Agree x y) (f : α → β) : Agree (x.map f) (y.map f) := by
  rcases h with ⟨tag, rfl⟩ | rfl
  · exact .inl ⟨tag, rfl⟩
  · exact .inr rfl

end Agree

namespace Memory

variable {c d : Catalog}

theorem load_below (h : c.Below d) (m : Memory) (address : Nat) : ∀ t : Ty,
    Agree (m.load c address t) (m.load d address t)
  | .reference target => load_below h m address target
  | .array _ _ => .refl _
  | .descriptor => by
    refine (Agree.refl (m.read address 1)).bind fun bytes => ?_
    split
    · next tag _ =>
      rcases TypeTag.resolve_below h tag with invalid | same
      · exact .map (.inl ⟨tag, invalid⟩) _
      · exact .map (.inr same) _
    · exact .refl _
  | .pointer _ => by
    simp only [load, h.word]
    exact .refl _
  | .scalar s => by
    have same : m.load c address (.scalar s) = m.load d address (.scalar s) := by
      cases s <;> simp only [load, h.word]
    exact .inr same

theorem present_below (h : c.Below d) (m : Memory) (address : Nat) (t : Ty) :
    Agree (m.present c address t) (m.present d address t) := by
  unfold present
  split
  · exact (load_below h m address t).bind fun _ => .refl _
  · rw [h.word]
    split
    · exact .refl _
    · exact load_below h m address t

theorem valueOf_below (h : c.Below d) (m : Memory) (v : Variable) :
    Agree (m.valueOf c v) (m.valueOf d v) := by
  unfold valueOf
  split
  · exact .refl _
  · dsimp only
    split
    · exact .refl _
    · exact present_below h m _ _

theorem encode_congr (h : c.word = d.word) (o : ByteOrder) (v : Literal) : ∀ t : Ty,
    encode o c v t = encode o d v t
  | .reference target => encode_congr h o v target
  | .array _ _ | .descriptor => rfl
  | .pointer _ => by simp only [encode, h]
  | .scalar _ => by simp only [encode, h]

theorem store_congr (h : c.word = d.word) (m : Memory) (address : Nat) (t : Ty) (v : Literal) :
    m.store c address t v = m.store d address t v := by
  unfold store
  rw [encode_congr h]

end Memory

/-! ### States -/

/-- Two states that differ in the types met only, of which the second has all of the first. -/
structure Core.Alike (s t : Core) : Prop where
  catalog : s.catalog.Below t.catalog
  memory : t.memory = s.memory
  symbols : t.symbols = s.symbols
  console : t.console = s.console
  stack : t.stack = s.stack

theorem Core.Alike.refl (s : Core) : s.Alike s := ⟨.refl _, rfl, rfl, rfl, rfl⟩

/-- How two runs end that do the same: both fail or both give the same, in states that are alike.
The first may also fail to read a type. -/
inductive SameEnd {σ α : Type} (alike : σ → σ → Prop) :
    Except Fault α × σ → Except Fault α × σ → Prop where
  | untyped (tag : UInt8) (s : σ) (end' : Except Fault α × σ) :
    SameEnd alike (.error (.invalidTag tag), s) end'
  | failed (fault fault' : Fault) {s t : σ} (h : alike s t) :
    SameEnd alike (.error fault, s) (.error fault', t)
  | done (a : α) {s t : σ} (h : alike s t) : SameEnd alike (.ok a, s) (.ok a, t)

namespace Run

variable {α β : Type} {e f : Effect} {s t : Core} {x y : Run α}

theorem sameEnd_bind (h : SameEnd Core.Alike (x.run.run s) (y.run.run t)) {g g' : α → Run β}
    (k : ∀ a u v, u.Alike v → SameEnd Core.Alike ((g a).run.run u) ((g' a).run.run v)) :
    SameEnd Core.Alike ((x >>= g).run.run s) ((y >>= g').run.run t) := by
  rw [run_bind, run_bind]
  generalize x.run.run s = p at h ⊢
  generalize y.run.run t = q at h ⊢
  cases h with
  | untyped tag s => exact .untyped tag s _
  | failed fault fault' alike => exact .failed fault fault' alike
  | done a alike => exact k a _ _ alike

theorem sameEnd_get_bind {g : Core → Run β} :
    SameEnd Core.Alike ((get >>= g).run.run s) ((get >>= g).run.run t) ↔
      SameEnd Core.Alike ((g s).run.run s) ((g t).run.run t) := Iff.rfl

/-- From a state the computation changes the stack as the effect says, if it succeeds. What lies
below the operands it may take is spared in any case. -/
structure Moves (e : Effect) (s : Core) (x : Run α) : Prop where
  spares : e.Spares s.stack (x.run.run s).2.stack
  turns : ∀ a, (x.run.run s).1 = .ok a → e.Turns s.stack (x.run.run s).2.stack

theorem Moves.bind (hx : Moves e s x) {g : α → Run β} (hg : ∀ a u, Moves f u (g a)) :
    Moves (e.andThen f) s (x >>= g) := by
  obtain ⟨spares, turns⟩ := hx
  rcases k : x.run.run s with ⟨fault | a, u⟩ <;> rw [k] at spares turns
  · have run : (x >>= g).run.run s = (.error fault, u) := by rw [run_bind, k]
    constructor <;> rw [run]
    · exact spares.widen f
    · exact fun _ e => nomatch e
  · have run : (x >>= g).run.run s = (g a).run.run u := by rw [run_bind, k]
    constructor <;> rw [run]
    · exact (turns a rfl).andThen_spares (hg a u).spares
    · exact fun b e => (turns a rfl).andThen ((hg a u).turns b e)

/-- `x` and `y` do the same from states that are alike, and `x` has the effect on the stack. -/
structure Lockstep (e : Effect) (x y : Run α) : Prop where
  moves : ∀ s, Moves e s x
  same : ∀ {s t : Core}, s.Alike t → SameEnd Core.Alike (x.run.run s) (y.run.run t)

/-- The types met so far do not matter to a computation that has a fixed effect on the stack. -/
def Steady (e : Effect) (x : Run α) : Prop := Lockstep e x x

theorem steady_pure (a : α) : Steady .still (pure a : Run α) :=
  ⟨fun _ => ⟨Effect.spares_refl _ _, fun _ _ => Effect.turns_still _⟩, fun h => .done a h⟩

theorem lockstep_throw (fault fault' : Fault) :
    Lockstep e (throw fault : Run α) (throw fault') :=
  ⟨fun _ => ⟨Effect.spares_refl _ _, fun _ k => nomatch k⟩, fun h => .failed fault fault' h⟩

theorem steady_throw (fault : Fault) : Steady e (throw fault : Run α) := lockstep_throw fault fault

theorem lockstep_lift {x y : Except Fault α} (h : Agree x y) :
    Lockstep .still (lift x) (lift y) := by
  rcases h with ⟨tag, rfl⟩ | rfl
  · exact ⟨fun _ => ⟨Effect.spares_refl _ _, fun _ k => nomatch k⟩, fun _ => .untyped tag _ _⟩
  · cases x with
    | error => exact lockstep_throw _ _
    | ok a => exact steady_pure a

theorem steady_lift (x : Except Fault α) : Steady .still (lift x) := lockstep_lift (.refl x)

/-- One computation after another has one effect after the other. -/
theorem Lockstep.bind (hx : Lockstep e x y) {g g' : α → Run β}
    (hg : ∀ a, Lockstep f (g a) (g' a)) : Lockstep (e.andThen f) (x >>= g) (y >>= g') where
  moves := fun s => (hx.moves s).bind fun a => (hg a).moves
  same := fun h => sameEnd_bind (hx.same h) fun a _ _ => (hg a).same

/-- A computation that leaves the stack alone, before another. -/
theorem Lockstep.still_bind (hx : Lockstep .still x y) {g g' : α → Run β}
    (hg : ∀ a, Lockstep f (g a) (g' a)) : Lockstep f (x >>= g) (y >>= g') :=
  Effect.still_andThen f ▸ hx.bind hg

theorem Steady.andThen (hx : Steady e x) {g : α → Run β} (hg : ∀ a, Steady f (g a)) :
    Steady (e.andThen f) (x >>= g) :=
  Lockstep.bind hx hg

theorem Steady.bind (hx : Steady .still x) {g : α → Run β} (hg : ∀ a, Steady f (g a)) :
    Steady f (x >>= g) :=
  Lockstep.still_bind hx hg

theorem Steady.map (hx : Steady e x) (g : α → β) : Steady e (g <$> x) := by
  rw [map_eq_pure_bind]
  exact Effect.andThen_still e ▸ hx.andThen fun a => steady_pure (g a)

/-! ### Looking at the state -/

/-- What is done is done with a part of the state, which is the same in states that are alike. -/
theorem steady_get_bind {γ : Type} {p : Core → γ} {g : γ → Run β}
    (same : ∀ {s t : Core}, s.Alike t → p t = p s) (hg : ∀ c, Steady e (g c)) :
    Steady e (get >>= fun s => g (p s)) where
  moves := fun s => ⟨((hg (p s)).moves s).spares, ((hg (p s)).moves s).turns⟩
  same := fun {s t} h => by
    show SameEnd Core.Alike ((g (p s)).run.run s) ((g (p t)).run.run t)
    rw [same h]
    exact (hg _).same h

theorem steady_memory_bind {g : Memory → Run β} (hg : ∀ m, Steady e (g m)) :
    Steady e (memory >>= g) :=
  steady_get_bind (p := Core.memory) (fun h => h.memory) hg

theorem steady_symbols_bind {g : Symbols → Run β} (hg : ∀ table, Steady e (g table)) :
    Steady e (symbols >>= g) :=
  steady_get_bind (p := Core.symbols) (fun h => h.symbols) hg

theorem steady_word_bind {g : Nat → Run β} (hg : ∀ n, Steady e (g n)) :
    Steady e (word >>= g) :=
  steady_get_bind (p := fun s => s.catalog.word) (fun h => h.catalog.word) hg

theorem steady_catalog_bind {g : Catalog → Run β}
    (hg : ∀ {c d : Catalog}, c.Below d → Lockstep e (g c) (g d)) : Steady e (catalog >>= g) where
  moves := fun s =>
    have moves := (hg (.refl s.catalog)).moves s
    ⟨moves.spares, moves.turns⟩
  same := fun h => (hg h.catalog).same h

/-- Only the word size matters of the catalog. -/
theorem steady_word_of {g : Catalog → Run β}
    (same : ∀ {c d : Catalog}, d.word = c.word → g d = g c) (hg : ∀ c, Steady e (g c)) :
    Steady e (catalog >>= g) :=
  steady_catalog_bind fun h => same h.word ▸ hg _

/-! ### Changing the state -/

/-- A change that keeps states alike and does not touch the stack. -/
theorem steady_modify {g : Core → Core} (alike : ∀ {s t : Core}, s.Alike t → (g s).Alike (g t))
    (stack : ∀ s, (g s).stack = s.stack) : Steady .still (modify g : Run Unit) where
  moves := fun s =>
    have left : s.stack = (g s).stack := (stack s).symm
    ⟨left ▸ Effect.spares_refl _ _, fun _ _ => left ▸ Effect.turns_still _⟩
  same := fun h => .done () (alike h)

theorem setMemory_steady (m : Memory) : Steady .still (setMemory m) :=
  steady_modify (g := fun s => { s with memory := m })
    (fun h => ⟨h.catalog, rfl, h.symbols, h.console, h.stack⟩) fun _ => rfl

theorem setSymbols_steady (t : Symbols) : Steady .still (setSymbols t) :=
  steady_modify (g := fun s => { s with symbols := t })
    (fun h => ⟨h.catalog, h.memory, rfl, h.console, h.stack⟩) fun _ => rfl

/-- The catalog may grow, if it grows alike. -/
theorem setCatalog_steady {g : Catalog → Catalog}
    (grows : ∀ {c d : Catalog}, c.Below d → (g c).Below (g d)) :
    Steady .still (modify fun s => { s with catalog := g s.catalog } : Run Unit) :=
  steady_modify (g := fun s => { s with catalog := g s.catalog })
    (fun h => ⟨grows h.catalog, h.memory, h.symbols, h.console, h.stack⟩) fun _ => rfl

theorem setConsole_steady (g : Console → Console) :
    Steady .still (modify fun s => { s with console := g s.console } : Run Unit) :=
  steady_modify (g := fun s => { s with console := g s.console })
    (fun h => ⟨h.catalog, h.memory, h.symbols, congrArg g h.console, h.stack⟩) fun _ => rfl

theorem push_steady (o : Operand) : Steady ⟨0, 1⟩ (push o) where
  moves := fun _ => ⟨⟨[o], rfl⟩, fun _ _ => ⟨Nat.zero_le _, [o], rfl, rfl⟩⟩
  same := fun h =>
    .done () ⟨h.catalog, h.memory, h.symbols, h.console, congrArg (o :: ·) h.stack⟩

theorem pushValue_steady (v : Literal) (t : Ty) : Steady ⟨0, 1⟩ (pushValue v t) := push_steady _

/-! ### Taking operands -/

theorem run_pop (s : Core) : pop.run.run s =
    match s.stack with
    | o :: rest => (.ok o, { s with stack := rest })
    | [] => (.error .missingOperand, s) := by
  rcases s with ⟨c, m, table, console, _ | ⟨o, rest⟩⟩ <;> rfl

theorem pop_bind_eq_ok {α : Type} {f : Operand → Run α} {s t : Core} {a : α}
    (e : (pop >>= f).run.run s = (.ok a, t)) :
    ∃ o rest, s.stack = o :: rest ∧ (f o).run.run { s with stack := rest } = (.ok a, t) := by
  obtain ⟨o, u, popped, e⟩ := run_bind_eq_ok.1 e
  rw [run_pop] at popped
  split at popped
  · next o' rest stack =>
    cases popped
    exact ⟨o, rest, stack, e⟩
  · cases popped

theorem pop_steady : Steady ⟨1, 0⟩ pop where
  moves := fun s => by
    have run := run_pop s
    rcases k : s.stack with _ | ⟨o, rest⟩ <;> rw [k] at run <;> constructor <;> rw [run, k]
    · exact Effect.spares_refl _ _
    · exact fun _ e => nomatch e
    · exact ⟨[], rfl⟩
    · exact fun _ _ => ⟨Nat.succ_pos _, [], rfl, rfl⟩
  same := fun {s t} h => by
    rw [run_pop, run_pop, h.stack]
    rcases s.stack with _ | ⟨o, rest⟩
    · exact .failed _ _ h
    · exact .done o ⟨h.catalog, h.memory, h.symbols, h.console, rfl⟩

/-- The first of the operands that an instruction takes. -/
theorem steady_pop_bind {n k : Nat} {g : Operand → Run β} (hg : ∀ o, Steady ⟨n, k⟩ (g o)) :
    Steady ⟨n + 1, k⟩ (pop >>= g) := by
  have whole : (Effect.mk 1 0).andThen ⟨n, k⟩ = ⟨n + 1, k⟩ := by
    simp [Effect.andThen, Nat.add_comm]
  exact whole ▸ pop_steady.andThen hg

/-- As many operands as asked for, taken at once. -/
def takeAll (n : Nat) (fault : Fault) : Run (List Operand) := do
  let stack := (← get).stack
  if stack.length < n then throw fault
  else
    modify fun s => { s with stack := stack.drop n }
    return stack.take n

theorem run_takeAll (n : Nat) (fault : Fault) (s : Core) : (takeAll n fault).run.run s =
    if s.stack.length < n then (.error fault, s)
    else (.ok (s.stack.take n), { s with stack := s.stack.drop n }) := by
  show StateT.run (ExceptT.run (if s.stack.length < n then _ else _)) s = _
  split <;> rfl

theorem takeAll_steady (n : Nat) (fault : Fault) : Steady ⟨n, 0⟩ (takeAll n fault) where
  moves := fun s => by
    constructor <;> rw [run_takeAll] <;> split
    · exact Effect.spares_refl _ _
    · exact ⟨[], rfl⟩
    · exact fun _ e => nomatch e
    · next enough => exact fun _ _ => ⟨Nat.le_of_not_lt enough, [], rfl, rfl⟩
  same := fun {s t} h => by
    rw [run_takeAll, run_takeAll, h.stack]
    split
    · exact .failed _ _ h
    · exact .done _ ⟨h.catalog, h.memory, h.symbols, h.console, rfl⟩

/-! ### Caught failures -/

/-- From a state the computation leaves the stack alone, also if it fails, and it does not fail to
read a type. -/
def Plain (s : Core) (x : Run α) : Prop :=
  (x.run.run s).2.stack = s.stack ∧ Tagless (x.run.run s).1

theorem plain_pure (s : Core) (a : α) : Plain s (pure a : Run α) := ⟨rfl, tagless_ok a⟩

theorem plain_throw (s : Core) {fault : Fault} (h : fault.isTag = false) :
    Plain s (throw fault : Run α) :=
  ⟨rfl, (tagless_error_iff fault).2 h⟩

theorem plain_lift (s : Core) {x : Except Fault α} (h : Tagless x) : Plain s (lift x) := by
  cases x with
  | error fault => exact ⟨rfl, h⟩
  | ok a => exact plain_pure s a

theorem Plain.bind (hx : Plain s x) {g : α → Run β}
    (hg : ∀ a u, x.run.run s = (.ok a, u) → Plain u (g a)) : Plain s (x >>= g) := by
  obtain ⟨stack, tagless⟩ := hx
  rcases k : x.run.run s with ⟨fault | a, u⟩ <;> rw [k] at stack tagless
  · have run : (x >>= g).run.run s = (.error fault, u) := by rw [run_bind, k]
    unfold Plain
    rw [run]
    exact ⟨stack, fun tag e => tagless tag (by cases e; rfl)⟩
  · have run : (x >>= g).run.run s = (g a).run.run u := by rw [run_bind, k]
    obtain ⟨stack', tagless'⟩ := hg a u k
    unfold Plain
    rw [run]
    exact ⟨stack'.trans stack, tagless'⟩

/-- A failure that is caught, if it is not that a type cannot be read. -/
theorem Steady.caught (hx : Steady .still x) {g : Fault → Run α} (plain : ∀ s, Plain s x)
    (hg : ∀ fault fault', Lockstep .still (g fault) (g fault')) :
    Steady .still (tryCatch x g) where
  moves := fun s => by
    obtain ⟨-, turns⟩ := hx.moves s
    have stack := (plain s).1
    have run := run_tryCatch x g s
    rcases k : x.run.run s with ⟨fault | a, u⟩ <;> rw [k] at run turns stack <;>
      constructor <;> rw [run]
    · exact stack ▸ ((hg fault fault).moves u).spares
    · exact stack ▸ ((hg fault fault).moves u).turns
    · exact (turns a rfl).spares
    · exact fun _ _ => turns a rfl
  same := fun {s t} h => by
    have tagless := (plain s).2
    have same := hx.same h
    have run := run_tryCatch x g s
    have run' := run_tryCatch x g t
    rw [run, run']
    generalize x.run.run s = p at same tagless ⊢
    generalize x.run.run t = q at same ⊢
    cases same with
    | untyped tag => exact absurd rfl (tagless tag)
    | failed fault fault' alike => exact (hg fault fault').same alike
    | done a alike => exact .done a alike

end Run

end ByteMachine
