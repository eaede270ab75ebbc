import ByteMachine.Proofs.Bytes
import ByteMachine.Proofs.Observation
import ByteMachine.Proofs.StackDiscipline

/-!
# Pointers to variables

A pointer that is declared with the address of a variable takes storage and keeps the low bytes of
the address in it, as many as a word has. Following it leads to what is found at the address that
these bytes make: that is the variable itself exactly if its address fits in a word, and else
whatever is there, if anything is.

Key definitions: `Core.Aims`.
Key theorems: `Run.run_addressOf_name`, `Run.create_pointer_eq_ok`, `Run.declarePointer_eq_ok`,
`Run.run_dereference_name`, `Run.run_dereference_owner`, `Run.dereference_eq_name_iff`.
-/

namespace ByteMachine

open Discipline Number

/-- A type without too many stars has a pointer to it. -/
theorem Ty.pointerTo_of_plain {t : Ty} (plain : t.isReference = false)
    (few : t.stars < maxStars) : t.pointerTo = .ok (.pointer t) := by
  have short : ¬ maxStars < t.stars + 1 := by omega
  rw [pointerTo_eq_of_plain plain, if_neg short]

theorem Ty.arrayShape?_of_single {t : Ty} (single : t.isArray = false) : t.arrayShape? = none := by
  rw [isArray] at single
  cases k : t.arrayShape? with
  | none => rfl
  | some shape => rw [k] at single; cases single

theorem Ty.compatible_self (t : Ty) : t.compatible t = true := by
  simp only [Ty.compatible, beq_self_eq_true, Bool.or_true, Bool.true_or]

namespace Run

variable {s t : Core} {x : Variable} {p : Identifier}

/-! ### Declaring a pointer to a variable -/

theorem run_lookup_found {v : Variable} (found : s.symbols.get? p = some v) :
    (lookup p).run.run s = (.ok v, s) := by
  rw [run_lookup, found]

/-- A registered name leads to the bytes of the variable. -/
theorem run_storage?_named {v : Variable} (found : s.symbols.get? p = some v) :
    (storage? (.named p)).run.run s = (.ok (some (v.address, v.type.strip)), s) :=
  run_bind_eq_ok.2 ⟨v, s, run_lookup_found found, rfl⟩

theorem run_typeOf_named {v : Variable} (found : s.symbols.get? p = some v) :
    (typeOf (.named p)).run.run s = (.ok v.type, s) :=
  run_bind_eq_ok.2 ⟨v, s, run_lookup_found found, rfl⟩

theorem run_pushName {v : Variable} (found : s.symbols.get? p = some v) :
    (pushName p).run.run s = (.ok (), { s with stack := .named p :: s.stack }) := by
  rw [pushName, run_bind, run_lookup_found found]
  rfl

theorem run_name {v : Variable} (found : s.symbols.get? p = some v) :
    (code (Expr.name p).compile).run.run s = (.ok (), { s with stack := .named p :: s.stack }) := by
  show (pushName p >>= fun _ => pure ()).run.run s = _
  rw [bind_pure_unit, run_pushName found]

/-- The address of a variable is pushed as a pointer to its type. -/
theorem run_addressOf_name (found : s.symbols.get? x.id = some x)
    (plain : x.type.isReference = false) (single : x.type.isArray = false)
    (few : x.type.stars < Ty.maxStars) :
    (code (Expr.addressOf (.name x.id)).compile).run.run s =
      (.ok (), { s with
        catalog := s.catalog.intern (.pointer x.type)
        stack := .value (.integer x.address) (.pointer x.type) :: s.stack }) := by
  have place : (storage? (.named x.id)).run.run s = (.ok (some (x.address, x.type)), s) :=
    Ty.strip_of_plain plain ▸ run_storage?_named found
  have shape := Ty.arrayShape?_of_single single
  have pointer := Ty.pointerTo_of_plain plain few
  have addressed : addressOf.run.run { s with stack := .named x.id :: s.stack } =
      (.ok (), { s with
        catalog := s.catalog.intern (.pointer x.type)
        stack := .value (.integer x.address) (.pointer x.type) :: s.stack }) := by
    rw [addressOf, run_bind, run_pop]
    dsimp only
    rw [run_bind, place]
    simp only [shape, pointerTo, pointer]
    rfl
  show (pushName x.id >>= fun _ => addressOf >>= fun _ => pure ()).run.run s = _
  rw [run_bind, run_pushName found]
  dsimp only
  rw [run_bind, addressed]
  rfl

/-- Comparing types that are no arrays meets no type. -/
theorem run_areCompatible_single {a b : Ty} (first : a.isArray = false) (second : b.isArray = false) :
    (areCompatible a b).run.run s = (.ok (a.compatible b), s) := by
  have kept : s.catalog.internCompared a b = s.catalog := by
    simp only [Catalog.internCompared, Catalog.internDecay, first, second, Bool.false_eq_true,
      if_false]
  show ((.ok (a.compatible b), { s with
    catalog := s.catalog.internCompared a b }) : Except Fault Bool × Core) = _
  rw [kept]

/-- Compatible types that are no arrays pass the check, and no type is met by it. -/
theorem run_checkCompatible_single {a b : Ty} (first : a.isArray = false)
    (second : b.isArray = false) (fits : a.compatible b = true) :
    (checkCompatible a b).run.run s = (.ok (), s) := by
  rw [checkCompatible, run_bind, run_areCompatible_single first second, fits]
  rfl

theorem run_checkCompatible_self {type : Ty} (single : type.isArray = false) :
    (checkCompatible type type).run.run s = (.ok (), s) :=
  run_checkCompatible_single single single (Ty.compatible_self type)

theorem allocate_eq_ok {type : Ty} {address : Nat} :
    (allocate p type).run.run s = (.ok address, t) ↔
      ∃ table grown, s.symbols.allocate (s.catalog.size type) = .ok (address, table) ∧
        table.insert (.owner s.catalog p type address) = .ok grown ∧
        t = { s with symbols := grown } := by
  constructor
  · intro ok
    rw [allocate, run_catalog_bind, run_symbols_bind] at ok
    obtain ⟨⟨a, table⟩, found, ok⟩ := lift_bind_eq_ok ok
    obtain ⟨grown, inserted, ok⟩ := lift_bind_eq_ok ok
    cases ok
    exact ⟨table, grown, found, inserted, rfl⟩
  · rintro ⟨table, grown, found, inserted, rfl⟩
    simp only [allocate, run_bind, run_catalog, run_symbols, run_lift, run_setSymbols, run_pure,
      found, inserted]

/-- An address is stored as it is. -/
theorem storeValue_address_eq_ok {address : Nat} {type : Ty} {n : Int} :
    (storeValue address type (.integer n)).run.run s = (.ok (), t) ↔
      ∃ m, s.memory.store s.catalog address type (.integer n) = .ok m ∧
        t = { s with memory := m } := by
  show (lift (s.memory.store s.catalog address type (.integer n)) >>= setMemory).run.run s = _ ↔ _
  constructor
  · intro ok
    obtain ⟨m, stored, ok⟩ := lift_bind_eq_ok ok
    cases ok
    exact ⟨m, stored, rfl⟩
  · rintro ⟨m, stored, rfl⟩
    rw [stored]
    rfl

/-- A pointer that is given a value of its own type takes storage, and the value is stored there. -/
theorem run_create_pointer {target : Ty} {v : Literal} {rest : List Operand}
    (new : s.symbols.contains p = false) (word : 0 < s.catalog.word)
    (stack : s.stack = .value v (.pointer target) :: rest) :
    (create (.pointer target) p true).run.run s = (do
      let address ← allocate p (.pointer target)
      storeValue address (.pointer target) v
      push (.named p) : Run Unit).run.run { s with stack := rest } := by
  have sized : s.catalog.size (.pointer target) ≠ 0 := Nat.ne_of_gt word
  have popped : (some <$> pop).run.run s =
      (.ok (some (.value v (.pointer target))), { s with stack := rest }) := by
    rw [map_eq_pure_bind, run_bind, run_pop, stack]
    rfl
  have made : (makeScalar p (.pointer target)
      (some (.value v (.pointer target)))).run.run { s with stack := rest } = (do
        let address ← allocate p (.pointer target)
        storeValue address (.pointer target) v : Run Unit).run.run
          { s with stack := rest } := by
    rw [makeScalar, run_catalog_bind, if_neg sized]
    show (checkCompatible (.pointer target) (.pointer target) >>= _).run.run _ = _
    rw [run_bind, run_checkCompatible_self rfl]
  have scalar : (createScalar p (.pointer target) true).run.run s = (do
      let address ← allocate p (.pointer target)
      storeValue address (.pointer target) v : Run Unit).run.run
        { s with stack := rest } := by
    rw [createScalar, if_pos rfl, run_bind, popped]
    exact made
  rw [create, run_symbols_bind, new, if_neg Bool.false_ne_true]
  dsimp only
  rw [run_bind, scalar, ← run_bind, bind_assoc]

/-- Making such a pointer succeeds if there is room for it. -/
theorem create_pointer_eq_ok {target : Ty} {n : Int} {rest : List Operand}
    (word : 0 < s.catalog.word)
    (stack : s.stack = .value (.integer n) (.pointer target) :: rest) :
    (create (.pointer target) p true).run.run s = (.ok (), t) ↔
      ∃ address table grown m,
        s.symbols.allocate s.catalog.word = .ok (address, table) ∧
        table.insert (.owner s.catalog p (.pointer target) address) = .ok grown ∧
        s.memory.store s.catalog address (.pointer target) (.integer n) = .ok m ∧
        t = { s with symbols := grown, memory := m, stack := .named p :: rest } := by
  constructor
  · intro ok
    cases new : s.symbols.contains p with
    | true =>
      rw [create, run_symbols_bind, if_pos new] at ok
      cases ok
    | false =>
      rw [run_create_pointer new word stack] at ok
      obtain ⟨address, u, allocated, ok⟩ := run_bind_eq_ok.1 ok
      obtain ⟨table, grown, room, inserted, rfl⟩ := allocate_eq_ok.1 allocated
      obtain ⟨⟨⟩, u, filled, ok⟩ := run_bind_eq_ok.1 ok
      obtain ⟨m, stored, rfl⟩ := storeValue_address_eq_ok.1 filled
      cases ok
      exact ⟨address, table, grown, m, room, inserted, stored, rfl⟩
  · rintro ⟨address, table, grown, m, room, inserted, stored, rfl⟩
    have new : s.symbols.contains p = false := by
      obtain ⟨stream, -, rfl⟩ := Symbols.allocate_eq_ok room
      exact Bool.eq_false_iff.2 fun old =>
        (Symbols.insert_eq_ok inserted).1 (Symbols.contains_iff.1 old)
    rw [run_create_pointer new word stack]
    refine run_bind_eq_ok.2 ⟨address, _, allocate_eq_ok.2 ⟨table, grown, room, inserted, rfl⟩, ?_⟩
    exact run_bind_eq_ok.2 ⟨(), _, storeValue_address_eq_ok.2 ⟨m, stored, rfl⟩, rfl⟩

/-- Declaring a pointer to a variable succeeds if there is room for it, and then its storage has
the address of the variable. -/
theorem declarePointer_eq_ok (sound : s.Sound) (mem : x ∈ s.symbols.entries)
    (owner : x.isAlias = false) (single : x.type.isArray = false)
    (few : x.type.stars < Ty.maxStars) :
    (code (Statement.scalarDeclaration (.pointer x.type) p
        (some (.addressOf (.name x.id)))).compile).run.run s = (.ok (), t) ↔
      ∃ address table grown m,
        s.symbols.allocate s.catalog.word = .ok (address, table) ∧
        table.insert (.owner s.catalog p (.pointer x.type) address) = .ok grown ∧
        s.memory.store s.catalog address (.pointer x.type) (.integer x.address) = .ok m ∧
        t = { s with
          catalog := s.catalog.intern (.pointer x.type)
          symbols := grown
          memory := m
          stack := .named p :: s.stack } := by
  let c := s.catalog.intern (.pointer x.type)
  have same : c.word = s.catalog.word := Catalog.intern_word _ _
  have plain := (sound.fits.agree x mem).plain owner
  have start := run_addressOf_name (sound.fits.table.get?_id mem) plain single few
  have whole : (code (Statement.scalarDeclaration (.pointer x.type) p
      (some (.addressOf (.name x.id)))).compile).run.run s =
        (create (.pointer x.type) p true >>= fun _ => pure ()).run.run { s with
          catalog := c
          stack := .value (.integer x.address) (.pointer x.type) :: s.stack } := by
    rw [Statement.compile, code_append, run_bind, start]
    rfl
  have made (a : Nat) : Variable.owner c p (.pointer x.type) a =
      .owner s.catalog p (.pointer x.type) a := by
    simp only [Variable.owner, Catalog.size, same]
  rw [whole, bind_pure_unit, create_pointer_eq_ok (s := { s with catalog := c, stack := _ })
    (same ▸ sound.closed.word_pos) rfl]
  simp only [same, made, Memory.store_congr same]
  exact Iff.rfl

end Run

/-! ### Following the pointer -/

/-- The variable `p` is a pointer to the type of `x` and holds the address of `x`, as far as that
fits in a word. -/
def Core.Aims (s : Core) (p : Identifier) (x : Variable) : Prop :=
  ∃ v, s.symbols.get? p = some v ∧ v.type = .pointer x.type ∧
    s.memory.load s.catalog v.address (.pointer x.type) =
      .ok (.integer (x.address % byteRange s.catalog.word : Nat))

/-- It does not matter which types were met. -/
theorem Core.Aims.congr {s t : Core} {p : Identifier} {x : Variable} (h : s.Aims p x)
    (memory : t.memory = s.memory) (symbols : t.symbols = s.symbols)
    (word : t.catalog.word = s.catalog.word) : t.Aims p x := by
  obtain ⟨v, found, type, loaded⟩ := h
  refine ⟨v, symbols ▸ found, type, ?_⟩
  simp only [Memory.load, memory, word] at loaded ⊢
  exact loaded

/-- An owner has no type without a size. -/
theorem Fits.isAny_owner {c : Catalog} {m : Memory} {t : Symbols} (h : Fits c m t) {x : Variable}
    (mem : x ∈ t.entries) (owner : x.isAlias = false) : x.type.isAny = false := by
  have agrees := h.agree x mem
  have room : 0 < c.size x.type := by
    rw [← agrees.size_owner owner]
    exact (h.table.room x mem owner).1
  have flat := Ty.strip_of_plain (agrees.plain owner)
  rw [Ty.isAny, Ty.scalar?, flat]
  cases k : x.type with
  | scalar s =>
    cases s with
    | any => rw [k] at room; cases room
    | _ => rfl
  | _ => rfl

theorem Number.byteRange_le_addressBound {word : Nat} (h : Catalog.isWordSize word = true) :
    byteRange word ≤ addressBound := by
  have few := (Catalog.isWordSize_bounds h).2
  unfold byteRange addressBound
  exact twoPow_le_twoPow (by omega)

theorem Literal.toAddress?_integer {a : Nat} (low : a < addressBound) :
    (integer a).toAddress? = some a := by
  have inside : (0 ≤ (a : Int) && (a : Int) < (addressBound : Int)) = true := by
    simp only [Bool.and_eq_true, decide_eq_true_eq]
    exact ⟨Int.natCast_nonneg a, Int.ofNat_lt.2 low⟩
  rw [toAddress?, toInteger?, Option.bind_some, Number.toAddress?, if_pos inside]
  rfl

namespace Run

variable {s t : Core} {x w : Variable} {p : Identifier}

/-- A pointer is followed to what is found at the address it holds. -/
theorem run_follow {o : Operand} {a : Nat} {target : Ty}
    (value : (read o).run.run s = (.ok (.integer a, .pointer target), s)) (low : a < addressBound)
    (sized : target.isAny = false) : (follow o).run.run s = (resolve a target).run.run s := by
  have found : targetOf (.pointer target) = pure target := by
    show (if target.isAny then _ else _) = _
    rw [sized]
    rfl
  have address := Literal.toAddress?_integer low
  rw [follow, run_bind, value]
  simp only [found, pure_bind, address]

/-- A pointer variable reads as the address in its storage. -/
theorem run_read_pointer {v : Variable} {value : Literal} {target : Ty}
    (found : s.symbols.get? p = some v) (type : v.type = .pointer target)
    (loaded : s.memory.load s.catalog v.address (.pointer target) = .ok value) :
    (read (.named p)).run.run s = (.ok (value, .pointer target), s) := by
  rw [read, run_bind, run_lookup, found]
  simp only [type]
  show (lift (s.memory.load s.catalog v.address (.pointer target)) >>= _).run.run s = _
  rw [loaded]
  rfl

theorem run_dereference_name (aims : s.Aims p x) (word : Catalog.isWordSize s.catalog.word = true)
    (sized : x.type.isAny = false) :
    (code (Expr.dereference 1 (.name p)).compile).run.run s =
      (do push (← resolve (x.address % byteRange s.catalog.word) x.type) : Run Unit).run.run s := by
  obtain ⟨v, found, type, loaded⟩ := aims
  have held : x.address % byteRange s.catalog.word < byteRange s.catalog.word :=
    Nat.mod_lt _ (twoPow_pos _)
  have low := Nat.lt_of_lt_of_le held (byteRange_le_addressBound word)
  generalize x.address % byteRange s.catalog.word = a at loaded low ⊢
  have value : (read (.named p)).run.run s = (.ok (.integer a, .pointer x.type), s) :=
    run_read_pointer found type loaded
  have dereferenced : (dereference 1).run.run { s with stack := .named p :: s.stack } =
      (do push (← resolve a x.type) : Run Unit).run.run s := by
    rw [dereference, run_bind, run_pop]
    show (follow (.named p) >>= pure >>= push).run.run s = _
    rw [bind_pure, run_bind, run_follow value low sized, ← run_bind]
  show (pushName p >>= fun _ => dereference 1 >>= fun _ => pure ()).run.run s = _
  rw [run_bind, run_pushName found, bind_pure_unit]
  exact dereferenced

/-- An owner is what is found at its address, if it has the type. -/
theorem run_resolve_owner (sound : s.symbols.Sound) (mem : w ∈ s.symbols.entries)
    (owner : w.isAlias = false) :
    (resolve w.address w.type).run.run s = (.ok (.named w.id), s) := by
  have first : w.address ≠ 0 := Nat.ne_of_gt (sound.room w mem owner).2.1
  rw [resolve, run_catalog_bind, if_neg first, run_symbols_bind,
    sound.findTyped?_owner mem owner rfl]
  rfl

/-- A variable is found at its own address only. -/
theorem address_of_resolve (sound : s.symbols.Sound) {address : Nat} {type : Ty}
    {id : Identifier} (ok : (resolve address type).run.run s = (.ok (.named id), t))
    (mem : w ∈ s.symbols.entries) (named : w.id = id) : w.address = address := by
  rw [resolve, run_catalog_bind] at ok
  split at ok
  · cases ok
  · rw [run_symbols_bind] at ok
    split at ok
    · next v found =>
      cases ok
      obtain ⟨here, -⟩ := Symbols.findTyped?_eq_some found
      obtain ⟨mv, address⟩ := sound.mem_startingAt.1 here
      rw [sound.eq_of_id mem mv named, address]
    · split at ok <;> cases ok

/-- Following the pointer leads to the owner of its type at the address it holds. -/
theorem run_dereference_owner (fits : Fits s.catalog s.memory s.symbols)
    (word : Catalog.isWordSize s.catalog.word = true) (aims : s.Aims p x)
    (mem : w ∈ s.symbols.entries) (owner : w.isAlias = false)
    (address : w.address = x.address % byteRange s.catalog.word) (type : w.type = x.type) :
    (code (Expr.dereference 1 (.name p)).compile).run.run s =
      (.ok (), { s with stack := .named w.id :: s.stack }) := by
  have sized : x.type.isAny = false := type ▸ fits.isAny_owner mem owner
  rw [run_dereference_name aims word sized, ← address, ← type, run_bind,
    run_resolve_owner fits.table mem owner]
  rfl

/-- A pointer that was given the address of a variable leads to it exactly if the address fits in
a word. -/
theorem dereference_eq_name_iff (fits : Fits s.catalog s.memory s.symbols)
    (word : Catalog.isWordSize s.catalog.word = true) (aims : s.Aims p x)
    (mem : x ∈ s.symbols.entries) (owner : x.isAlias = false) :
    (code (Expr.dereference 1 (.name p)).compile).run.run s =
        (code (Expr.name x.id).compile).run.run s ↔
      x.address < byteRange s.catalog.word := by
  have table := fits.table
  rw [run_name (table.get?_id mem)]
  constructor
  · intro same
    have sized := fits.isAny_owner mem owner
    rw [run_dereference_name aims word sized] at same
    obtain ⟨o, u, resolved, pushed⟩ := run_bind_eq_ok.1 same
    obtain ⟨-, kept⟩ := (resolve_looks _ _).eq_of_run resolved
    have top : o :: u.stack = .named x.id :: s.stack :=
      congrArg (fun r : Except Fault Unit × Core => r.2.stack) pushed
    obtain ⟨rfl, -⟩ := List.cons.inj top
    have address := address_of_resolve table resolved mem rfl
    rw [address]
    exact Nat.mod_lt _ (twoPow_pos _)
  · intro low
    exact run_dereference_owner fits word aims mem owner (Nat.mod_eq_of_lt low).symm rfl

/-- A statement whose code leaves a registered name has that variable as its result. -/
theorem statement_of_named {is : List Instr} {v : Variable}
    (done : (code is).run.run s = (.ok (), t)) (stack : t.stack = [.named p])
    (found : t.symbols.get? p = some v) :
    (statement is).run.run s = (.ok (some v), { t with stack := [] }) := by
  have taken : (do some <$> resultOf (← pop) : Run (Option Variable)).run.run t =
      (.ok (some v), { t with stack := [] }) := by
    rw [run_bind, run_pop, stack]
    dsimp only
    rw [map_eq_pure_bind, run_bind, resultOf, run_lookup, found]
    rfl
  refine run_bind_eq_ok.2 ⟨(), t, done, run_bind_eq_ok.2 ⟨t, t, rfl, ?_⟩⟩
  split
  · next empty =>
    rw [stack] at empty
    cases empty
  · exact taken
  · next several => exact (several _ stack).elim

/-- A statement whose code leaves a value has a temporary of that value as its result. -/
theorem statement_of_value {is : List Instr} {v : Literal} {type : Ty}
    (done : (code is).run.run s = (.ok (), t)) (stack : t.stack = [.value v type]) :
    (statement is).run.run s =
      (.ok (some ⟨t.symbols.nextTemporary.1, type, 0, t.catalog.size type, .temporary v⟩),
        { t with symbols := t.symbols.nextTemporary.2, stack := [] }) := by
  rw [statement, run_bind, done]
  obtain ⟨c, m, table, console, _⟩ := t
  cases stack
  rfl

/-- Only what the target leads to matters of an assignment. -/
theorem statement_assignment_congr {target other value : Expr}
    (same : (code target.compile).run.run s = (code other.compile).run.run s) :
    (statement (Statement.assignment target value).compile).run.run s =
      (statement (Statement.assignment other value).compile).run.run s := by
  simp only [statement, Statement.compile, code_append, run_bind, same]

end Run

end ByteMachine
