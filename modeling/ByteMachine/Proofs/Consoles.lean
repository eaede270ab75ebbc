import ByteMachine.Proofs.Hereditary

/-!
# Runs on two consoles

Two machines that differ in their consoles only do the same, as long as the consoles give the same
answers to those who ask for input. A bond is a relation between consoles that writing to either
side does not break; a computation is twinned under a bond if from two states that differ in
bonded consoles only it gives the same result, or fails alike, and leaves two such states again. All
that a statement does but reading a line is twinned under every bond, and reading a line is
twinned under a bond of consoles that answer alike.

Key definitions: `Console.Bond`, `Console.answering`, `Console.holding`, `Core.Twin`,
`Run.Twinned`.
Key theorems: `Run.Twinned.bind`, `Run.twinned`, `Run.twinned_step`, `Run.twinned_statement`.
-/

namespace ByteMachine

open Discipline

/-! ### Consoles -/

namespace Console

/-- What a console answers when it is asked for the line behind `n` others. -/
def answer? : Nat → Console → Option String
  | 0, c => (c.readLine "").1
  | n + 1, c => answer? n (c.readLine "").2

/-- A relation of consoles that no output breaks. -/
structure Bond where
  rel : Console → Console → Prop
  writeLeft : ∀ {a b : Console} (text : String), rel a b → rel (a.write text) b
  writeRight : ∀ {a b : Console} (text : String), rel a b → rel a (b.write text)

/-- Bonded consoles give the same line and stay bonded. -/
def Bond.Answers (β : Bond) : Prop :=
  ∀ {a b : Console} (prompt : String), β.rel a b →
    (b.readLine prompt).1 = (a.readLine prompt).1 ∧
      β.rel (a.readLine prompt).2 (b.readLine prompt).2

theorem Bond.write {β : Bond} {a b : Console} (h : β.rel a b) (text : String) :
    β.rel (a.write text) (b.write text) :=
  β.writeRight text (β.writeLeft text h)

/-- Answers come from the lines that wait, whatever was written. -/
theorem answer?_scripted (pending : List String) (out out' : String) : ∀ n : Nat,
    (scripted pending out).answer? n = (scripted pending out').answer? n
  | 0 => by cases pending <;> rfl
  | n + 1 => by
    cases pending with
    | nil => exact answer?_scripted [] out out' n
    | cons line pending => exact answer?_scripted pending _ _ n

theorem answer?_streamed (pending : List Char) (out out' : String) : ∀ n : Nat,
    (streamed pending out).answer? n = (streamed pending out').answer? n
  | 0 => by cases pending <;> rfl
  | n + 1 => by
    cases pending with
    | nil => exact answer?_streamed [] _ _ n
    | cons c cs => exact answer?_streamed _ _ _ n

theorem answer?_write (c : Console) (text : String) (n : Nat) :
    (c.write text).answer? n = c.answer? n := by
  cases c with
  | silent => rfl
  | scripted pending out => exact answer?_scripted pending _ _ n
  | streamed pending out => exact answer?_streamed pending _ _ n

/-- The prompt does not matter to the answers. -/
theorem answer?_readLine (c : Console) (prompt : String) :
    (c.readLine prompt).1 = c.answer? 0 ∧
      ∀ n, (c.readLine prompt).2.answer? n = c.answer? (n + 1) := by
  cases c with
  | silent => exact ⟨rfl, fun _ => rfl⟩
  | scripted pending out =>
    cases pending with
    | nil => exact ⟨rfl, fun _ => rfl⟩
    | cons line pending => exact ⟨rfl, answer?_scripted pending _ _⟩
  | streamed pending out =>
    cases pending with
    | nil => exact ⟨rfl, answer?_streamed [] _ _⟩
    | cons c cs => exact ⟨rfl, answer?_streamed _ _ _⟩

/-- Consoles that answer alike, however often they are asked. -/
def answering : Bond where
  rel a b := ∀ n, b.answer? n = a.answer? n
  writeLeft text h n := by rw [answer?_write, h n]
  writeRight text h n := by rw [answer?_write, h n]

theorem answering_answers : answering.Answers := by
  intro a b prompt h
  obtain ⟨first, rest⟩ := answer?_readLine a prompt
  obtain ⟨first', rest'⟩ := answer?_readLine b prompt
  exact ⟨by rw [first, first', h 0], fun n => by rw [rest, rest', h (n + 1)]⟩

/-- Any console, and one that streams what is left of a text. -/
def holding (pending : List Char) : Bond where
  rel _ b := ∃ out, b = .streamed pending out
  writeLeft _ h := h
  writeRight text h := by
    obtain ⟨out, rfl⟩ := h
    exact ⟨out ++ text, rfl⟩

end Console

open Console (Bond)

variable {α γ : Type} {β : Bond}

/-! ### States -/

/-- Two states that differ in their consoles only, which are bonded. -/
structure Core.Twin (β : Bond) (s t : Core) : Prop where
  catalog : t.catalog = s.catalog
  memory : t.memory = s.memory
  symbols : t.symbols = s.symbols
  stack : t.stack = s.stack
  console : β.rel s.console t.console

/-- Two ends of a run that are the same but for the console. -/
def SameRun (β : Bond) (p q : Except Fault α × Core) : Prop := q.1 = p.1 ∧ p.2.Twin β q.2

namespace Run

/-- From states that differ in bonded consoles only, the computation does the same. -/
def Twinned (β : Bond) (x : Run α) : Prop :=
  ∀ s t : Core, s.Twin β t → SameRun β (x.run.run s) (x.run.run t)

theorem twinned_pure (a : α) : Twinned β (pure a : Run α) := fun _ _ h => ⟨rfl, h⟩

theorem twinned_throw (fault : Fault) : Twinned β (throw fault : Run α) := fun _ _ h => ⟨rfl, h⟩

theorem twinned_lift (x : Except Fault α) : Twinned β (lift x) := by
  cases x with
  | error fault => exact twinned_throw fault
  | ok a => exact twinned_pure a

theorem Twinned.bind {x : Run α} {f : α → Run γ} (hx : Twinned β x) (hf : ∀ a, Twinned β (f a)) :
    Twinned β (x >>= f) := by
  intro s t h
  obtain ⟨same, twin⟩ := hx s t h
  rw [run_bind, run_bind]
  generalize x.run.run s = p at same twin ⊢
  generalize x.run.run t = q at same twin ⊢
  obtain ⟨p, u⟩ := p
  obtain ⟨q, v⟩ := q
  obtain rfl : q = p := same
  cases q with
  | error fault => exact ⟨rfl, twin⟩
  | ok a => exact hf a u v twin

theorem Twinned.map {x : Run α} (hx : Twinned β x) (f : α → γ) : Twinned β (f <$> x) := by
  rw [map_eq_pure_bind]
  exact hx.bind fun a => twinned_pure (f a)

theorem Twinned.caught {x : Run α} {f : Fault → Run α} (hx : Twinned β x)
    (hf : ∀ fault, Twinned β (f fault)) : Twinned β (tryCatch x f) := by
  intro s t h
  obtain ⟨same, twin⟩ := hx s t h
  rw [run_tryCatch, run_tryCatch]
  generalize x.run.run s = p at same twin ⊢
  generalize x.run.run t = q at same twin ⊢
  obtain ⟨p, u⟩ := p
  obtain ⟨q, v⟩ := q
  obtain rfl : q = p := same
  cases q with
  | error fault => exact hf fault u v twin
  | ok a => exact ⟨rfl, twin⟩

/-- A look at the state must not be a look at the console. -/
theorem twinned_get_bind {f : Core → Run α}
    (h : ∀ s t : Core, s.Twin β t → SameRun β ((f s).run.run s) ((f t).run.run t)) :
    Twinned β (get >>= f) :=
  h

theorem twinned_modify {f : Core → Core} (h : ∀ s t : Core, s.Twin β t → (f s).Twin β (f t)) :
    Twinned β (modify f : Run Unit) :=
  fun s t twin => ⟨rfl, h s t twin⟩

theorem twinned_catalog : Twinned β catalog :=
  twinned_get_bind fun s t h => by
    rw [h.catalog]
    exact twinned_pure _ s t h

theorem twinned_memory : Twinned β memory :=
  twinned_get_bind fun s t h => by
    rw [h.memory]
    exact twinned_pure _ s t h

theorem twinned_symbols : Twinned β symbols :=
  twinned_get_bind fun s t h => by
    rw [h.symbols]
    exact twinned_pure _ s t h

theorem twinned_setMemory (m : Memory) : Twinned β (setMemory m) :=
  twinned_modify fun _ _ h => ⟨h.catalog, rfl, h.symbols, h.stack, h.console⟩

theorem twinned_setSymbols (t : Symbols) : Twinned β (setSymbols t) :=
  twinned_modify fun _ _ h => ⟨h.catalog, h.memory, rfl, h.stack, h.console⟩

theorem twinned_meet (f : Catalog → Catalog) :
    Twinned β (modify fun s => { s with catalog := f s.catalog }) :=
  twinned_modify fun _ _ h => ⟨congrArg f h.catalog, h.memory, h.symbols, h.stack, h.console⟩

theorem twinned_setStack (f : List Operand → List Operand) :
    Twinned β (modify fun s => { s with stack := f s.stack }) :=
  twinned_modify fun _ _ h => ⟨h.catalog, h.memory, h.symbols, congrArg f h.stack, h.console⟩

theorem twinned_allocate (id : Identifier) (t : Ty) : Twinned β (allocate id t) :=
  twinned_catalog.bind fun _ => twinned_symbols.bind fun _ => (twinned_lift _).bind fun _ =>
    (twinned_lift _).bind fun _ => (twinned_setSymbols _).bind fun _ => twinned_pure _

theorem twinned_temporary (v : Literal) (t : Ty) (address : Nat) :
    Twinned β (temporary v t address) :=
  twinned_symbols.bind fun _ => (twinned_setSymbols _).bind fun _ => twinned_catalog.bind fun _ =>
    twinned_pure _

/-- What does not read the console is twinned; writing keeps consoles bonded. -/
theorem twinned : Hereditary (Twinned β) where
  pure := twinned_pure
  throw := fun _ => twinned_throw _
  bind := Twinned.bind
  caught := Twinned.caught
  look := fun only good => twinned_get_bind fun s t h => by
    rw [only t s h.stack]
    exact good s s t h
  setStack := twinned_setStack
  catalog := twinned_catalog
  meet := twinned_meet
  memory := twinned_memory
  setMemory := twinned_setMemory
  write := fun text => twinned_modify fun _ _ h =>
    ⟨h.catalog, h.memory, h.symbols, h.stack, Bond.write h.console text⟩
  symbols := twinned_symbols
  allocateHeap := fun t => twinned_symbols.bind fun _ => (twinned_setSymbols _).bind fun _ =>
    twinned_allocate _ t
  removeBlock := fun _ => twinned_symbols.bind fun _ => (twinned_lift _).bind fun _ =>
    twinned_setSymbols _
  temporary := twinned_temporary

/-- Reading a line gives the same on consoles that answer alike. -/
theorem twinned_readLine (answers : β.Answers) (prompt : String) :
    Twinned β (readLine prompt) := by
  refine twinned_get_bind fun s t h => ?_
  obtain ⟨line, bonded⟩ := answers prompt h.console
  have twin : Core.Twin β { s with console := (s.console.readLine prompt).2 }
      { t with console := (t.console.readLine prompt).2 } :=
    ⟨h.catalog, h.memory, h.symbols, h.stack, bonded⟩
  dsimp only
  rw [line]
  generalize (s.console.readLine prompt).1 = answer
  cases answer with
  | some line => exact ⟨rfl, twin⟩
  | none => exact ⟨rfl, twin⟩

/-! ### Declarations -/

theorem twinned_makeScalar (id : Identifier) (t : Ty) (initial : Option Operand) :
    Twinned β (makeScalar id t initial) := by
  refine twinned_catalog.bind fun c => ?_
  split
  · exact twinned_throw _
  · split
    · exact (twinned_allocate id t).bind fun _ => twinned_pure _
    · exact (twinned.read _).bind fun ⟨_, found⟩ =>
        (twinned.checkCompatible t found).bind fun _ => (twinned_allocate id t).bind fun _ =>
          twinned.storeValue _ t _

theorem twinned_createScalar (id : Identifier) (t : Ty) (initialized : Bool) :
    Twinned β (createScalar id t initialized) := by
  unfold createScalar
  cases initialized with
  | true => exact (twinned.pop.map some).bind fun initial => twinned_makeScalar id t initial
  | false => exact (twinned_pure none).bind fun initial => twinned_makeScalar id t initial

theorem twinned_createReference (id : Identifier) (t target : Ty) :
    Twinned β (createReference id t target) := by
  refine twinned.pop.bind fun source => (twinned.storage? source).bind fun place => ?_
  split
  · exact twinned_throw _
  · split
    · exact twinned_throw _
    · refine (twinned.ownerOf? source).bind fun owner => ?_
      split
      · exact twinned_throw _
      · exact twinned_catalog.bind fun _ => twinned_symbols.bind fun _ =>
          (twinned_lift _).bind fun _ => twinned_setSymbols _

theorem twinned_createArray (id : Identifier) (t : Ty) (initialized : Bool) :
    Twinned β (createArray id t initialized) := by
  refine (twinned_allocate id t).bind fun address => ?_
  split
  · exact twinned_catalog.bind fun _ => twinned_memory.bind fun _ => (twinned_lift _).bind fun _ =>
      twinned_setMemory _
  · exact twinned_pure _

theorem twinned_create (t : Ty) (id : Identifier) (initialized : Bool) :
    Twinned β (create t id initialized) := by
  refine twinned_symbols.bind fun table => ?_
  split
  · exact twinned_throw _
  · dsimp only
    split
    · exact (twinned_createReference _ _ _).bind fun _ => twinned.push _
    · exact (twinned_createArray _ _ _).bind fun _ => twinned.push _
    · exact (twinned_createScalar _ _ _).bind fun _ => twinned.push _

end Run

/-- The instruction asks the console for a line. -/
def Instr.asks : Instr → Bool
  | .call function _ => function = "input"
  | _ => false

namespace Run

/-- One instruction is twinned, unless it asks on consoles that do not answer alike. -/
theorem twinned_step {i : Instr} (h : β.Answers ∨ i.asks = false) : Twinned β (step i) := by
  cases i with
  | create t id initialized => exact twinned_create t id initialized
  | call function count =>
    refine twinned.call (fun asks prompt => ?_) count
    have answers : β.Answers := h.resolve_right (by simp [Instr.asks, asks])
    exact twinned_readLine answers prompt
  | _ => exact twinned.step (fun _ _ _ => nofun) (fun _ => nofun)

/-- So is code. -/
theorem twinned_code : ∀ {is : List Instr}, (β.Answers ∨ ∀ i ∈ is, i.asks = false) →
    Twinned β (code is)
  | [], _ => twinned_pure _
  | i :: is, h => by
    have first := h.imp_right fun quiet => quiet i List.mem_cons_self
    have rest := h.imp_right fun quiet j (m : j ∈ is) => quiet j (List.mem_cons_of_mem i m)
    exact (twinned_step first).bind fun _ => twinned_code rest

theorem twinned_statement {is : List Instr} (h : β.Answers ∨ ∀ i ∈ is, i.asks = false) :
    Twinned β (statement is) := by
  refine (twinned_code h).bind fun _ => twinned_get_bind fun s t twin => ?_
  rw [twin.stack]
  split
  · exact twinned_pure _ s t twin
  · exact (twinned.pop.bind fun o => (twinned.resultOf o).map some) s t twin
  · exact twinned_throw _ s t twin

end Run

end ByteMachine
