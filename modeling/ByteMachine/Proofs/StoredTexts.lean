import ByteMachine.Proofs.Collection
import ByteMachine.Proofs.Release
import ByteMachine.Proofs.StoredValues
import ByteMachine.Proofs.TextLines

/-!
# Stored texts

A text that is stored is read back. A `char*` that is declared with a text gets the address of a heap
block that is made for it and holds its characters and a zero byte. The block and the pointer lie
apart, so the address that is written last leaves the text alone, and a word holds that address if it
can hold those of all of memory. An array of characters gets the text itself, if it has room for the
zero byte too. Either way what is read is the text up to its first NUL, and `strlen` counts as many
characters.

Key definitions: `Core.LeadsToText`, `Machine.lettered`.
Key theorems: `Run.declareText_eq_ok`, `Core.Sound.leadsToText_of_stored`,
`Machine.Sound.declareText_committed`, `Machine.assignText_committed`,
`Machine.Reachable.stored_text`.
-/

namespace ByteMachine

open Discipline Number

/-! ### A text and a pointer to it -/

namespace Memory

variable {m n o : Memory} {c : Catalog} {a b : Nat} {bytes : List UInt8}

/-- A text that is written somewhere and a pointer to it that is then stored apart from it are both
found, if the address of the text fits in a word. -/
theorem text_of_stored (valid : Catalog.isWordSize c.word = true) (low : b < byteRange c.word)
    (written : m.write b (bytes ++ [0]) = .ok n)
    (stored : n.store c a Ty.charPointer (.integer b) = .ok o)
    (apart : a + c.size Ty.charPointer ≤ b ∨ b + (bytes.length + 1) ≤ a) :
    o.Holds b bytes ∧ o.load c a Ty.charPointer = .ok (.integer b) := by
  constructor
  · refine (holds_of_write written).frame (store_eq_ok stored).1 fun d first last => ?_
    refine store_frame rfl stored ?_
    have same : c.size Ty.charPointer.strip = c.size Ty.charPointer := rfl
    omega
  · have loaded := load_stored_address valid stored
    rwa [Nat.mod_eq_of_lt low] at loaded

end Memory

/-! ### Running the code -/

namespace Run

variable {s u : Core} {t : String} {bytes : List UInt8} {p : Identifier}

/-- A text is pushed as a pointer to characters, a type that every machine has met. -/
theorem run_text (closed : s.catalog.Closed) :
    (code (Expr.literal (.text t)).compile).run.run s =
      (.ok (), { s with stack := .value (.text t) Ty.charPointer :: s.stack }) := by
  have known : s.catalog.intern Ty.charPointer = s.catalog := if_pos closed.charPointer
  show (Except.ok (), { s with
    catalog := s.catalog.intern Ty.charPointer
    stack := .value (.text t) Ty.charPointer :: s.stack }) = _
  rw [known]

/-- A text is copied with a zero byte behind it if there is room for both. -/
theorem run_copyText (e : textBytes t = .ok bytes) (a capacity : Nat) :
    (copyText a capacity t).run.run s =
      if capacity < bytes.length + 1 then (.error (.textTooLong bytes.length capacity), s)
      else (lift (s.memory.write a (bytes ++ [0])) >>= setMemory).run.run s := by
  rw [copyText, e]
  show StateT.run (ExceptT.run (if _ then _ else _)) s = _
  split <;> rfl

theorem copyText_eq_ok (e : textBytes t = .ok bytes) {a capacity : Nat}
    (ok : (copyText a capacity t).run.run s = (.ok (), u)) :
    bytes.length < capacity ∧ s.memory.write a (bytes ++ [0]) = .ok u.memory ∧
      u = { s with memory := u.memory } := by
  rw [run_copyText e] at ok
  split at ok
  · cases ok
  · next room =>
    obtain ⟨m, written, ok⟩ := lift_bind_eq_ok ok
    cases ok
    exact ⟨by omega, written, rfl⟩

/-- A heap block is registered behind the other variables under a name of its own. -/
theorem allocateHeap_eq_ok {type : Ty} {a : Nat}
    (ok : (allocateHeap type).run.run s = (.ok a, u)) :
    ∃ w : Variable, w.id.isHeap = true ∧ w = .owner s.catalog w.id type a ∧
      u.symbols.entries = s.symbols.entries ++ [w] ∧ u = { s with symbols := u.symbols } := by
  obtain ⟨table, grown, found, inserted, rfl⟩ :=
    allocate_eq_ok (s := { s with symbols := s.symbols.nextHeap.2 }).1 ok
  exact ⟨_, rfl, rfl, Symbols.entries_of_placed (s := s.symbols.nextHeap.2) found inserted, rfl⟩

/-- A text gets a block with room for its characters and the zero byte. -/
theorem allocateText_eq_ok (e : textBytes t = .ok bytes) {a : Nat}
    (ok : (allocateText t).run.run s = (.ok a, u)) :
    ∃ w : Variable, w.id.isHeap = true ∧
      w = .owner u.catalog w.id (.array Ty.char (bytes.length + 1)) a ∧
      u.symbols.entries = s.symbols.entries ++ [w] ∧
      s.memory.write a (bytes ++ [0]) = .ok u.memory ∧ u.stack = s.stack := by
  obtain ⟨found, same, ok⟩ := lift_bind_eq_ok ok
  cases e.symm.trans same
  obtain ⟨type, s₁, typed, ok⟩ := run_bind_eq_ok.1 ok
  obtain ⟨b, s₂, allocated, ok⟩ := run_bind_eq_ok.1 ok
  obtain ⟨⟨⟩, s₃, copied, ok⟩ := run_bind_eq_ok.1 ok
  cases ok
  obtain ⟨⟨-, same⟩, -, rfl⟩ := (arrayOf_looks _ _).of_run trivial typed
  obtain ⟨w, heap, made, entries, placed⟩ := allocateHeap_eq_ok allocated
  obtain ⟨-, written, filled⟩ := copyText_eq_ok e copied
  rw [filled, placed, same] at *
  exact ⟨w, heap, made, entries, written, rfl⟩

/-- A text is stored in a `char*` as the address of a copy. -/
theorem storeValue_text_eq_ok (e : textBytes t = .ok bytes) {a : Nat}
    (ok : (storeValue a Ty.charPointer (.text t)).run.run s = (.ok (), u)) :
    ∃ (w : Variable) (m : Memory), w.id.isHeap = true ∧
      w = .owner u.catalog w.id (.array Ty.char (bytes.length + 1)) w.address ∧
      u.symbols.entries = s.symbols.entries ++ [w] ∧
      s.memory.write w.address (bytes ++ [0]) = .ok m ∧
      m.store u.catalog a Ty.charPointer (.integer w.address) = .ok u.memory ∧
      u.stack = s.stack := by
  obtain ⟨stored, s₁, value, ok⟩ := run_bind_eq_ok.1 ok
  obtain ⟨b, s₂, allocated, value⟩ := run_bind_eq_ok.1 value
  cases value
  obtain ⟨w, heap, made, entries, written, stack⟩ := allocateText_eq_ok e allocated
  rw [run_memory_bind, run_catalog_bind] at ok
  obtain ⟨m, filled, ok⟩ := lift_bind_eq_ok ok
  cases ok
  have here : w.address = b := by rw [made]; rfl
  subst here
  exact ⟨w, _, heap, made, entries, written, filled, stack⟩

/-- Declaring a `char*` with a text registers the pointer and behind it the block of the copy. The
bytes of the text are written to the block and its address to the pointer. -/
theorem declareText_eq_ok (closed : s.catalog.Closed) (e : textBytes t = .ok bytes)
    (ok : (code (Statement.scalarDeclaration Ty.charPointer p
      (some (.literal (.text t)))).compile).run.run s = (.ok (), u)) :
    ∃ (v w : Variable) (m : Memory), v = .owner s.catalog p Ty.charPointer v.address ∧
      w.id.isHeap = true ∧
      w = .owner u.catalog w.id (.array Ty.char (bytes.length + 1)) w.address ∧
      u.symbols.entries = s.symbols.entries ++ [v, w] ∧
      s.memory.write w.address (bytes ++ [0]) = .ok m ∧
      m.store u.catalog v.address Ty.charPointer (.integer w.address) = .ok u.memory ∧
      u.stack = .named p :: s.stack := by
  let filled : Core := { s with stack := .value (.text t) Ty.charPointer :: s.stack }
  have whole : (create Ty.charPointer p true).run.run filled = (.ok (), u) :=
    (run_code_last (j := .create Ty.charPointer p true) (run_text closed)).symm.trans ok
  cases new : s.symbols.contains p with
  | true =>
    rw [create, run_symbols_bind, if_pos new] at whole
    cases whole
  | false =>
    have made : (create Ty.charPointer p true).run.run filled = _ :=
      run_create_pointer (s := filled) new closed.word_pos rfl
    rw [made] at whole
    obtain ⟨a, s₁, allocated, whole⟩ := run_bind_eq_ok.1 whole
    obtain ⟨⟨⟩, s₂, stored, whole⟩ := run_bind_eq_ok.1 whole
    cases whole
    obtain ⟨table, grown, room, inserted, rfl⟩ := allocate_eq_ok.1 allocated
    obtain ⟨w, m, heap, made, entries, written, filled, stack⟩ := storeValue_text_eq_ok e stored
    refine ⟨.owner s.catalog p Ty.charPointer a, w, m, rfl, heap, made, ?_, written, filled, ?_⟩
    · rw [entries, Symbols.entries_of_placed room inserted, List.append_assoc]
      rfl
    · exact congrArg (Operand.named p :: ·) stack

/-- A text that is assigned to an array of characters is copied into it. -/
theorem run_assignText {c : Variable} {count : Nat} (closed : s.catalog.Closed)
    (found : s.symbols.get? p = some c) (array : c.type.strip = .array Ty.char count) :
    (code (Statement.assignment (.name p) (.literal (.text t))).compile).run.run s =
      (do
        copyText c.address count t
        push (.named p) : Run Unit).run.run s := by
  have place := run_storage?_named found
  rw [array] at place
  have pushed := run_text (t := t) (s := { s with stack := .named p :: s.stack }) closed
  have last := run_code_last (j := .assign) pushed
  rw [Statement.compile, code_append, run_bind, run_name found]
  refine last.trans ?_
  show (storage? (.named p) >>= _ : Run Unit).run.run s = _
  rw [run_bind, place]
  rfl

end Run

/-! ### Reading the text of a pointer -/

/-- A variable that holds its value in memory is shown as its type says. -/
theorem Memory.valueOf_of_stored {v : Variable} (stored : v.isTemporary = false) (m : Memory)
    (c : Catalog) : m.valueOf c v =
      if v.type.strip.isArray && !v.type.strip.isCharArray then .ok (.integer v.address)
      else m.present c v.address v.type.strip := by
  unfold Memory.valueOf
  unfold Variable.isTemporary at stored
  split
  · next value role =>
    rw [role] at stored
    cases stored
  · rfl

/-- The value of an array that holds a text is the text up to its first NUL. -/
theorem Memory.Holds.valueOf {m : Memory} {x : Variable} {t : String} {count : Nat}
    (holds : m.Holds x.address (t.toList.map Text.latinByte)) (latin : Text.IsLatin t)
    (stored : x.isTemporary = false) (array : x.type.strip = .array Ty.char count)
    (short : t.length < count) (inside : x.address + count ≤ m.size) (c : Catalog) :
    m.valueOf c x = .ok (.text (Text.beforeNul t)) := by
  have shown : m.present c x.address (.array Ty.char count) = .ok (.text (Text.beforeNul t)) := by
    rw [← latin.ofBytes]
    refine holds.present rfl ?_ inside
    rwa [List.length_map, String.length_toList]
  rw [Memory.valueOf_of_stored stored, array]
  exact shown

/-- The variable `p` is a pointer to characters that leads to where memory holds the text. -/
def Core.LeadsToText (s : Core) (p : Variable) (t : String) : Prop :=
  s.symbols.get? p.id = some p ∧ p.type = Ty.charPointer ∧ p.isTemporary = false ∧
    ∃ v b, s.memory.load s.catalog p.address Ty.charPointer = .ok v ∧ v.toAddress? = some b ∧
      b ≠ 0 ∧ s.memory.Holds b (t.toList.map Text.latinByte)

section

variable {s : Core} {p : Variable} {t : String}

/-- A pointer leads to a text that was written to a block before the address of the block was written
to the pointer, if a word can hold the addresses of all of memory. -/
theorem Core.Sound.leadsToText_of_stored (h : s.Sound)
    (small : s.memory.size ≤ byteRange s.catalog.word) {w : Variable}
    (mp : p ∈ s.symbols.entries) (mw : w ∈ s.symbols.entries) (p_owner : p.isAlias = false)
    (w_owner : w.isAlias = false) (p_type : p.type = Ty.charPointer)
    (w_type : w.type = .array Ty.char (t.length + 1)) {m n : Memory}
    (written : m.write w.address (t.toList.map Text.latinByte ++ [0]) = .ok n)
    (stored : n.store s.catalog p.address Ty.charPointer (.integer w.address) = .ok s.memory) :
    s.LeadsToText p t := by
  have valid := h.closed.word
  have p_size := (h.fits.agree p mp).size_owner p_owner
  have w_size := (h.fits.agree w mw).size_owner w_owner
  have characters : s.catalog.size (.array Ty.char (t.length + 1)) = t.length + 1 := Nat.one_mul _
  rw [p_type] at p_size
  rw [w_type, characters] at w_size
  obtain ⟨-, nonzero, stop⟩ := h.fits.table.room w mw w_owner
  rw [h.fits.capacity, Variable.stop, w_size] at stop
  have low : w.address < byteRange s.catalog.word := by omega
  have other : p ≠ w := by
    rintro rfl
    cases p_type.symm.trans w_type
  have apart := h.fits.table.spans_apart mp mw other p_owner w_owner
  simp only [Variable.stop, p_size, w_size] at apart
  have length : (t.toList.map Text.latinByte).length = t.length := by
    rw [List.length_map, String.length_toList]
  obtain ⟨holds, loaded⟩ := Memory.text_of_stored valid low written stored (length ▸ apart)
  have address : (Literal.integer w.address).toAddress? = some w.address :=
    Literal.toAddress?_integer (Nat.lt_of_lt_of_le low (byteRange_le_addressBound valid))
  exact ⟨h.fits.table.get?_id mp, p_type, h.fits.table.registered p mp, _, _, loaded, address,
    Nat.ne_of_gt nonzero, holds⟩

/-- The value of such a pointer is the text up to its first NUL. -/
theorem Core.LeadsToText.valueOf (h : s.LeadsToText p t) (latin : Text.IsLatin t) :
    s.memory.valueOf s.catalog p = .ok (.text (Text.beforeNul t)) := by
  obtain ⟨-, type, stored, v, b, loaded, address, nonzero, holds⟩ := h
  rw [Memory.valueOf_of_stored stored, type]
  show s.memory.present s.catalog p.address Ty.charPointer = _
  rw [Memory.present_charPointer loaded address nonzero, holds.loadText nonzero, latin.ofBytes]
  rfl

/-- So is the text that a function is given with it. -/
theorem Core.LeadsToText.run_readText (h : s.LeadsToText p t) (latin : Text.IsLatin t) :
    (Run.readText (.named p.id)).run.run s = (.ok (Text.beforeNul t), s) := by
  obtain ⟨found, type, stored, v, b, loaded, address, nonzero, holds⟩ := h
  have place := Run.run_storage?_named found
  have declared := Run.run_typeOf_named found
  rw [type] at place declared
  have value : (Run.read (.named p.id)).run.run s = (.ok (v, Ty.charPointer), s) :=
    Run.run_read_pointer found type loaded
  have text := holds.loadText nonzero
  rw [latin.ofBytes] at text
  show (Run.readStoredText (.named p.id)).run.run s = _
  rw [Run.readStoredText, run_bind, place]
  show (Run.followText (.named p.id)).run.run s = _
  rw [Run.followText, run_bind, declared]
  show (Run.read (.named p.id) >>= _).run.run s = _
  rw [run_bind, value]
  simp only [address]
  rw [Run.run_memory_bind, text]
  rfl

/-- The length of the text of such a pointer is that up to its first NUL. -/
theorem Core.LeadsToText.run_strlen (h : s.LeadsToText p t) (latin : Text.IsLatin t) :
    (Run.strlen (.named p.id)).run.run s =
      (.ok (), { s with
        stack := .value (.integer (Text.beforeNul t).length) Ty.uint :: s.stack }) := by
  have bytes := latin.beforeNul.textBytes
  rw [Run.strlen, run_bind, h.run_readText latin]
  dsimp only
  rw [bytes]
  show (Run.pushValue (.integer (List.map _ _).length) Ty.uint).run.run s = _
  rw [List.length_map, String.length_toList]
  rfl

/-- A call of `strlen` on the pointer passes the check of its argument and leaves that length. -/
theorem Core.LeadsToText.run_call_strlen (h : s.LeadsToText p t) (latin : Text.IsLatin t)
    (empty : s.stack = []) :
    (Run.code (Expr.call "strlen" [.name p.id]).compile).run.run s =
      (.ok (), { s with stack := [.value (.integer (Text.beforeNul t).length) Ty.uint] }) := by
  have declared := Run.run_typeOf_named h.1
  rw [h.2.1] at declared
  have checked : (Run.checkArguments "strlen" 1 [("text", Ty.charPointer)]
      [.named p.id]).run.run s = (.ok (), s) := by
    rw [Run.checkArguments, run_bind, declared]
    dsimp only
    rw [run_bind, Run.run_areCompatible_single rfl rfl, Ty.compatible_self]
    rfl
  have body : (Run.call "strlen" 1).run.run { s with stack := [.named p.id] } = (do
      Run.checkArguments "strlen" 1 [("text", Ty.charPointer)] [.named p.id]
      Run.strlen (.named p.id) : Run Unit).run.run s :=
    Run.run_call_single (f := .strlen) rfl rfl empty
  have named := Run.run_name h.1
  rw [empty] at named
  have last := Run.run_code_last (j := .call "strlen" 1) named
  show (Run.code ((Expr.name p.id).compile ++ [.call "strlen" 1])).run.run s = _
  rw [last]
  show (Run.call "strlen" 1).run.run { s with stack := [.named p.id] } = _
  rw [body, run_bind, checked]
  dsimp only
  rw [h.run_strlen latin, empty]

end

/-! ### The statements -/

namespace Machine

variable {m n : Machine} {line t : String} {p : Identifier} {met : List Ty}

/-- A committed declaration of a `char*` with a text has registered the pointer and one block, and
the pointer leads to the text in the block. -/
theorem Sound.declareText_committed (h : m.Sound)
    (small : m.config.memorySize ≤ byteRange m.config.word) (latin : Text.IsLatin t)
    (read : Statement.parse m.scope (Statement.clean line) =
      (.ok (some (.scalarDeclaration Ty.charPointer p (some (.literal (.text t))))), met))
    {r : Option Variable} (done : m.execute line = (.ok r, n)) :
    ∃ v w, r = some v ∧ v.id = p ∧ w.id.isHeap = true ∧ w.isAlias = false ∧
      w.type = .array Ty.char (t.length + 1) ∧
      n.core.symbols.entries = m.core.symbols.entries ++ [v, w] ∧ n.core.LeadsToText v t := by
  obtain ⟨u, coded, config, memory, catalog, whole⟩ := coded_eq_ok h read done
  obtain ⟨v, w, filled, v_eq, heap, w_eq, more, written, stored, stack⟩ :=
    Run.declareText_eq_ok (sound_start h read).closed latin.textBytes coded
  rw [← memory, ← catalog] at stored
  rw [List.length_map, String.length_toList] at w_eq
  have v_owner : v.isAlias = false := v_eq ▸ Variable.isAlias_owner _ _ _ _
  have w_owner : w.isAlias = false := w_eq ▸ Variable.isAlias_owner _ _ _ _
  have owners : ∀ x ∈ [v, w], x.isAlias = false := by simp [v_owner, w_owner]
  obtain ⟨kept, named⟩ := whole [v, w] more owners
  rw [more] at kept
  have mv : v ∈ n.core.symbols.entries := kept ▸ List.mem_append_right _ List.mem_cons_self
  have mw : w ∈ n.core.symbols.entries :=
    kept ▸ List.mem_append_right _ (.tail _ (List.mem_singleton_self w))
  have later := h.of_done done
  have room : n.core.memory.size ≤ byteRange n.core.catalog.word := by
    rw [later.configured.memory, later.configured.word, config]
    exact small
  have v_id : v.id = p := congrArg Variable.id v_eq
  have w_type : w.type = .array Ty.char (t.length + 1) := congrArg Variable.type w_eq
  have leads : n.core.LeadsToText v t :=
    later.core.leadsToText_of_stored room mv mw v_owner w_owner (congrArg Variable.type v_eq) w_type
      written stored
  obtain ⟨x, result, found⟩ := named p stack
  cases (v_id ▸ leads.1).symm.trans found
  exact ⟨v, w, result, v_id, heap, w_owner, w_type, kept, leads⟩

/-- A line that asks for the length of the text that a pointer leads to has it as its result. -/
theorem strlen_committed {x : Variable} (leads : m.core.LeadsToText x t) (latin : Text.IsLatin t)
    (read : Statement.parse m.scope (Statement.clean line) =
      (.ok (some (.expression (.call "strlen" [.name x.id]))), [])) :
    ∃ y k, m.execute line = (.ok (some y), k) ∧ y.type = Ty.uint ∧
      k.valueOf y = .ok (.integer (Text.beforeNul t).length) := by
  have called := leads.run_call_strlen (s := { m.core with stack := [] }) latin rfl
  have ran := Run.statement_of_value called rfl
  rw [(execute_read read).2]
  exact ⟨_, _, perform_done ran, rfl, rfl⟩

/-- All elements of an array are in memory, also where it is known by an alias. -/
theorem Sound.array_inside (h : m.Sound) {x : Variable} {count : Nat}
    (mem : x ∈ m.core.symbols.entries) (array : x.type.strip = .array Ty.char count) :
    x.address + count ≤ m.core.memory.size := by
  obtain ⟨owner, mo, ⟨plain, spans⟩, -⟩ := h.core.fits.denotes_named h.bound mem
  obtain ⟨-, -, stop⟩ := h.core.fits.table.room owner mo plain
  have size : x.size = count := by
    rw [(h.core.fits.agree x mem).size, array]
    exact Nat.one_mul _
  rw [h.core.fits.capacity] at stop
  exact Nat.le_trans (size ▸ (Variable.spans_iff.1 spans).2) stop

section

variable {x : Variable} {count : Nat} (h : m.Sound) (latin : Text.IsLatin t)
  (mem : x ∈ m.core.symbols.entries) (array : x.type.strip = .array Ty.char count)
  (read : Statement.parse m.scope (Statement.clean line) =
    (.ok (some (.assignment (.name x.id) (.literal (.text t)))), []))

include h latin mem array read

/-- A text with its end that is longer than the array is refused. -/
theorem assignText_refused (empty : m.core.stack = []) (long : count < t.length + 1) :
    m.execute line = (.error (.textTooLong t.length count), m) := by
  have found := h.core.fits.table.get?_id mem
  have ran := Run.run_assignText (s := { m.core with stack := [] }) (t := t) h.core.closed found array
  have failed := Run.run_copyText (s := { m.core with stack := [] }) latin.textBytes x.address count
  rw [List.length_map, String.length_toList, if_pos long] at failed
  rw [run_bind, failed] at ran
  have stopped : (Run.statement (Statement.assignment (.name x.id) (.literal (.text t))).compile).run.run
      { (m.meet []).core with stack := [] } =
        (.error (.textTooLong t.length count), { m.core with stack := [] }) := by
    have coded : (Run.code _).run.run { (m.meet []).core with stack := [] } = _ := ran
    rw [Run.statement, run_bind, coded]
  rw [h.execute_undone read stopped, ← empty]

/-- Any other is copied to the start of the array. Nothing else is changed. -/
theorem assignText_committed (empty : m.core.stack = []) (short : t.length + 1 ≤ count) :
    ∃ k, m.execute line = (.ok (some x), k) ∧ k.valueOf x = .ok (.text (Text.beforeNul t)) ∧
      (∀ a : Nat, a < x.address ∨ x.address + (t.length + 1) ≤ a →
        k.core.memory.bytes[a]? = m.core.memory.bytes[a]?) ∧
      k.core = { m.core with memory := k.core.memory } ∧ k.config = m.config := by
  have found := h.core.fits.table.get?_id mem
  have inside := h.array_inside mem array
  have length : (t.toList.map Text.latinByte ++ [0]).length = t.length + 1 := by
    rw [List.length_append, List.length_map, String.length_toList, List.length_singleton]
  obtain ⟨filled, written⟩ : ∃ filled,
      m.core.memory.write x.address (t.toList.map Text.latinByte ++ [0]) = .ok filled :=
    Memory.write_of_inside (by omega)
  have ran := Run.run_assignText (s := { m.core with stack := [] }) (t := t) h.core.closed found array
  have copied := Run.run_copyText (s := { m.core with stack := [] }) latin.textBytes x.address count
  rw [List.length_map, String.length_toList, if_neg (Nat.not_lt.2 short), written] at copied
  rw [run_bind, copied] at ran
  have done := Run.statement_of_named ran rfl found
  have core : (m.commit (Statement.clean line)
      { m.core with memory := filled, stack := [] }).core = { m.core with memory := filled } := by
    show ({ m.core with
      memory := filled, symbols := m.core.symbols.collect, stack := [] } : Core) = _
    rw [h.bound.collect_eq, ← empty]
  rw [(execute_read read).2]
  refine ⟨_, perform_done done, ?_, fun a outside => ?_, core, rfl⟩
  · refine (Memory.holds_of_write written).valueOf latin (h.core.fits.table.registered x mem) array
      short ?_ _
    rw [(Memory.write_eq_ok written).1]
    exact inside
  · exact Memory.getElem?_write_outside written (length ▸ outside)

end

/-- Stored text reads back. Every text of characters up to U+00FF can be written in a line. One that
declares a `char*` with it registers the pointer and one heap block, of as many characters as the
text has and one more; the value of the pointer is then the text, up to its first NUL if it has any,
and `strlen` of it, called where no variable has that name, is its length. A line that assigns the
text to an array of characters is committed exactly if the text fits with one character more; then
the value of the array is the text up to its first NUL, and nothing is changed but as many bytes.
Otherwise nothing is changed at all. -/
theorem Reachable.stored_text (h : m.Reachable)
    (small : m.config.memorySize ≤ byteRange m.config.word) (latin : Text.IsLatin t) :
    ('\x00' ∉ t.toList → Text.beforeNul t = t) ∧
    (∀ name, (Identifier.named name).Registrable →
      (∃ line, Statement.tokens line =
        [.identifier "char", .special '*', .identifier name, .special '=', .text t, .stop]) ∧
      ∃ line, Statement.tokens line = [.identifier name, .special '=', .text t, .stop]) ∧
    (∀ (line name : String) (r : Option Variable) (n : Machine),
      Statement.tokens line =
        [.identifier "char", .special '*', .identifier name, .special '=', .text t, .stop] →
      m.execute line = (.ok r, n) →
      ∃ v w, r = some v ∧ v.id = .named name ∧ v.type = Ty.charPointer ∧
        n.core.symbols.entries = m.core.symbols.entries ++ [v, w] ∧
        w.id.isHeap = true ∧ w.isAlias = false ∧ w.type = .array Ty.char (t.length + 1) ∧
        n.valueOf v = .ok (.text (Text.beforeNul t)) ∧
        (Run.code (Expr.call "strlen" [.name v.id]).compile).run.run n.core =
          (.ok (), { n.core with
            stack := [.value (.integer (Text.beforeNul t).length) Ty.uint] }) ∧
        ∀ ask, Statement.tokens ask =
            [.identifier "strlen", .special '(', .identifier name, .special ')', .stop] →
          n.scope.isVariable "strlen" = false →
          ∃ y k, n.execute ask = (.ok (some y), k) ∧ y.type = Ty.uint ∧
            k.valueOf y = .ok (.integer (Text.beforeNul t).length)) ∧
    ∀ (line name : String) (x : Variable) (count : Nat), x ∈ m.core.symbols.entries →
      x.id = .named name → x.type.strip = .array Ty.char count →
      Statement.tokens line = [.identifier name, .special '=', .text t, .stop] →
      ((∃ r n, m.execute line = (.ok r, n)) ↔ t.length + 1 ≤ count) ∧
      (∀ r n, m.execute line = (.ok r, n) →
        r = some x ∧ n.valueOf x = .ok (.text (Text.beforeNul t)) ∧
        (∀ a : Nat, a < x.address ∨ x.address + (t.length + 1) ≤ a →
          n.core.memory.bytes[a]? = m.core.memory.bytes[a]?) ∧
        n.core = { m.core with memory := n.core.memory } ∧ n.config = m.config) ∧
      (count < t.length + 1 → m.execute line = (.error (.textTooLong t.length count), m)) := by
  have sound := h.sound
  have empty := h.stack_empty
  refine ⟨Text.beforeNul_of_not_mem, fun name proper => ⟨Statement.exists_declareText latin proper,
    Statement.exists_assignText latin proper⟩, ?_, ?_⟩
  · intro line name r n tokens done
    rcases k : Statement.parse m.scope (Statement.clean line) with ⟨fault | s, met⟩
    · rw [execute_misread k] at done
      cases done
    · obtain ⟨rfl, rfl⟩ := Statement.parse_declareText tokens k
      obtain ⟨v, w, rfl, id, heap, owner, type, entries, leads⟩ :=
        sound.declareText_committed small latin k done
      have called := leads.run_call_strlen latin (h.of_done done).stack_empty
      refine ⟨v, w, rfl, id, leads.2.1, entries, heap, owner, type, leads.valueOf latin, called, ?_⟩
      intro ask tokens' callable
      have proper : v.id.Registrable := by
        refine ((h.of_done done).sound.core.fits.agree v ?_).name
        exact entries ▸ List.mem_append_right _ List.mem_cons_self
      rw [id] at proper
      have read := Statement.parse_strlen tokens' callable proper
      rw [← id] at read
      exact strlen_committed leads latin read
  · intro line name x count mem id array tokens
    have proper := (sound.core.fits.agree x mem).name
    rw [id] at proper
    have read : Statement.parse m.scope (Statement.clean line) = _ :=
      Statement.parse_assignText tokens proper
    rw [← id] at read
    have refused := assignText_refused sound latin mem array read empty
    have committed := assignText_committed sound latin mem array read empty
    have fits {r : Option Variable} {n : Machine} (done : m.execute line = (.ok r, n)) :
        t.length + 1 ≤ count := by
      by_contra long
      cases done.symm.trans (refused (by omega))
    refine ⟨⟨fun ⟨r, n, done⟩ => fits done, fun short => ?_⟩, fun r n done => ?_, refused⟩
    · obtain ⟨k, done, -⟩ := committed short
      exact ⟨_, _, done⟩
    · obtain ⟨k, done', left⟩ := committed (fits done)
      cases done.symm.trans done'
      exact ⟨rfl, left⟩

/-- A machine with an array of four characters. -/
def lettered : Machine := (fresh.execute "char c[4]").2

/-- A pointer is given a text with a character above U+007F, and a text of four characters does not
fit in the array. -/
theorem stored_text_lettered :
    (∃ v w n, lettered.execute "char* s = \x22h\x5cxe9\x22" = (.ok (some v), n) ∧
      n.core.symbols.entries = lettered.core.symbols.entries ++ [v, w] ∧
      w.type = .array Ty.char 3 ∧ n.valueOf v = .ok (.text "h\xe9") ∧
      ∃ y k, n.execute "strlen(s)" = (.ok (some y), k) ∧ k.valueOf y = .ok (.integer 2)) ∧
    lettered.execute "c = \x22four\x22" = (.error (.textTooLong 4 4), lettered) := by
  have reached : lettered.Reachable := reachable_fresh.executed _
  have small : lettered.config.memorySize ≤ byteRange lettered.config.word := by decide +kernel
  constructor
  · obtain ⟨plain, -, pointed, -⟩ := reached.stored_text small (t := "h\xe9") (by decide)
    have tokens : Statement.tokens "char* s = \x22h\x5cxe9\x22" =
        [.identifier "char", .special '*', .identifier "s", .special '=', .text "h\xe9", .stop] := by
      decide +kernel
    have asks : Statement.tokens "strlen(s)" =
        [.identifier "strlen", .special '(', .identifier "s", .special ')', .stop] := by
      decide +kernel
    let n : Machine := (lettered.execute "char* s = \x22h\x5cxe9\x22").2
    have done : lettered.execute "char* s = \x22h\x5cxe9\x22" =
        (.ok (some ⟨.named "s", Ty.charPointer, 20, 4, .pointer⟩), n) := by
      decide +kernel
    have free : n.scope.isVariable "strlen" = false := by decide +kernel
    obtain ⟨v, w, result, -, -, entries, -, -, type, value, -, length⟩ :=
      pointed _ _ _ _ tokens done
    rw [plain (by decide)] at value length
    obtain ⟨y, k, asked, -, two⟩ := length _ asks free
    exact ⟨v, w, n, result ▸ done, entries, type, value, y, k, asked, two⟩
  · obtain ⟨-, -, -, assigned⟩ := reached.stored_text small (t := "four") (by decide)
    have mem : (⟨.named "c", .array Ty.char 4, 16, 4, .array Ty.char 4⟩ : Variable) ∈
        lettered.core.symbols.entries := by
      decide +kernel
    have tokens : Statement.tokens "c = \x22four\x22" =
        [.identifier "c", .special '=', .text "four", .stop] := by
      decide +kernel
    exact (assigned _ _ _ _ mem rfl rfl tokens).2.2 (by decide)

end Machine

end ByteMachine
