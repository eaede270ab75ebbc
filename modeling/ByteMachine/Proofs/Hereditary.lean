import ByteMachine.Machine.Settings
import ByteMachine.Proofs.Discipline

/-!
# What computations have from their steps

A property of computations is hereditary if all that gives a result or fails has it, a sequence has
it from its parts, and the few ways there are to look at the core and to change it have it. Then
every instruction has it that declares nothing, whichever it is; this is said here once for all such
properties. Reading a line of the console and registering a variable that a statement declares are
left to those who know the property.

One failure is kept apart, that of a name that is taken: only registering a variable can fail so,
and a hereditary property says nothing of it.

Key definitions: `Fault.isDuplicate`, `Undoubled`, `Run.Hereditary`.
Key theorems: `Memory.undoubled_load`, `Memory.undoubled_store`, `Arithmetic.undoubled_apply`,
`Run.Hereditary.read`, `Run.Hereditary.invoke`, `Run.Hereditary.step`.
-/

namespace ByteMachine

open Number

/-! ### Failures -/

/-- Whether a failure is that of a name that is taken. -/
def Fault.isDuplicate : Fault → Bool
  | duplicateVariable _ => true
  | _ => false

/-- A result that is not the failure of a name that is taken. -/
def Undoubled {α : Type} (x : Except Fault α) : Prop :=
  ∀ fault, x = .error fault → fault.isDuplicate = false

section

variable {α β : Type} {x : Except Fault α}

theorem undoubled_ok (a : α) : Undoubled (.ok a) := nofun

theorem undoubled_error {fault : Fault} (other : fault.isDuplicate = false) :
    Undoubled (.error fault : Except Fault α) := fun _ e => by
  cases e
  exact other

theorem Undoubled.bind (h : Undoubled x) {f : α → Except Fault β} (k : ∀ a, Undoubled (f a)) :
    Undoubled (x >>= f) := by
  cases x with
  | error fault => exact undoubled_error (h fault rfl)
  | ok a => exact k a

theorem Undoubled.map (h : Undoubled x) (f : α → β) : Undoubled (x.map f) := by
  cases x with
  | error fault => exact undoubled_error (h fault rfl)
  | ok a => exact undoubled_ok _

end

namespace ByteOrder

theorem undoubled_encodeInt (o : ByteOrder) (n : Int) (width : Nat) :
    Undoubled (o.encodeInt n width) := by
  unfold encodeInt
  split
  · exact undoubled_ok _
  · exact undoubled_error rfl

theorem undoubled_decodeInt (o : ByteOrder) (bytes : List UInt8) (signed : Bool) :
    Undoubled (o.decodeInt bytes signed) := by
  unfold decodeInt
  split
  · exact undoubled_ok _
  · exact undoubled_error rfl

theorem undoubled_encodeFloat (o : ByteOrder) (x : Binary64) (width : Nat) :
    Undoubled (o.encodeFloat x width) := by
  unfold encodeFloat
  split
  iterate 4 exact undoubled_ok _
  exact undoubled_error rfl

theorem undoubled_decodeFloat (o : ByteOrder) (bytes : List UInt8) :
    Undoubled (o.decodeFloat bytes) := by
  unfold decodeFloat
  dsimp only
  split
  iterate 4 exact undoubled_ok _
  exact undoubled_error rfl

end ByteOrder

namespace TypeTag

theorem undoubled_untaggable (t : Ty) : Undoubled (untaggable t) := undoubled_error rfl

theorem undoubled_number : ∀ t : Ty, Undoubled (number t)
  | .descriptor | .scalar _ => undoubled_ok _
  | .pointer _ => by
    unfold number
    split
    · split
      · exact undoubled_ok _
      · exact undoubled_untaggable _
    · exact undoubled_untaggable _
  | .array _ _ => by
    unfold number
    split
    · split
      · exact undoubled_ok _
      · exact undoubled_untaggable _
    · exact undoubled_untaggable _
  | .reference target => by
    unfold number
    split
    · split
      · exact undoubled_untaggable _
      · exact undoubled_ok _
    · next fault e => exact undoubled_error (undoubled_number target fault e)

theorem undoubled_encode (t : Ty) : Undoubled (encode t) := (undoubled_number t).map _

theorem undoubled_resolve (c : Catalog) (tag : UInt8) : Undoubled (resolve c tag) := by
  unfold resolve
  split
  · exact undoubled_ok _
  · dsimp only
    split
    · exact undoubled_ok _
    · exact undoubled_error rfl

end TypeTag

theorem undoubled_latinBytes : ∀ cs : List Char, Undoubled (latinBytes cs)
  | [] => undoubled_ok _
  | c :: cs => by
    unfold latinBytes
    split
    · exact (undoubled_latinBytes cs).map _
    · exact undoubled_error rfl

theorem undoubled_textBytes (text : String) : Undoubled (textBytes text) := undoubled_latinBytes _

namespace Memory

variable (m : Memory) (c : Catalog) (address : Nat)

theorem undoubled_read (length : Nat) : Undoubled (m.read address length) := by
  unfold read
  split
  · exact undoubled_ok _
  · exact undoubled_error rfl

theorem undoubled_write (bytes : List UInt8) : Undoubled (m.write address bytes) := by
  unfold write
  split
  · exact undoubled_ok _
  · exact undoubled_error rfl

theorem undoubled_load : ∀ t : Ty, Undoubled (m.load c address t)
  | .reference target => undoubled_load target
  | .array _ _ => undoubled_error rfl
  | .descriptor => (undoubled_read m address 1).bind fun bytes => by
    split
    · exact (TypeTag.undoubled_resolve c _).map _
    · exact undoubled_error rfl
  | .pointer _ => (undoubled_read m address _).bind fun _ =>
    (ByteOrder.undoubled_decodeInt _ _ _).bind fun _ => undoubled_ok _
  | .scalar s => by
    cases s with
    | any => exact undoubled_error rfl
    | char =>
      refine (undoubled_read m address 1).bind fun bytes => ?_
      split
      · exact undoubled_ok _
      · exact undoubled_error rfl
    | _ =>
      refine (undoubled_read m address _).bind fun bytes => ?_
      split
      · exact (ByteOrder.undoubled_decodeFloat _ _).bind fun _ => undoubled_ok _
      · exact (ByteOrder.undoubled_decodeInt _ _ _).bind fun _ => undoubled_ok _

theorem undoubled_loadText : Undoubled (m.loadText address) := by
  unfold loadText
  split
  · exact undoubled_error rfl
  · refine (undoubled_read m address _).bind fun tail => ?_
    split
    · exact undoubled_ok _
    · exact undoubled_error rfl

theorem undoubled_present (t : Ty) : Undoubled (m.present c address t) := by
  unfold present
  split
  · refine (undoubled_load m c address t).bind fun pointer => ?_
    split
    · exact undoubled_ok _
    · exact undoubled_ok _
    · exact (undoubled_loadText m _).bind fun _ => undoubled_ok _
  · split
    · exact (undoubled_read m address _).bind fun _ => undoubled_ok _
    · exact undoubled_load m c address t

theorem undoubled_encode (o : ByteOrder) (v : Literal) : ∀ t : Ty, Undoubled (encode o c v t)
  | .reference target => undoubled_encode o v target
  | .array _ _ => undoubled_error rfl
  | .descriptor => by
    unfold encode
    split
    · exact (TypeTag.undoubled_encode _).map _
    · exact undoubled_error rfl
  | .pointer _ => by
    unfold encode
    split
    · exact o.undoubled_encodeInt _ _
    · exact undoubled_error rfl
  | .scalar s => by
    unfold encode
    split
    · exact undoubled_error rfl
    · split
      · split
        · exact o.undoubled_encodeFloat _ _
        · exact undoubled_error rfl
      · split
        · exact o.undoubled_encodeInt _ _
        · exact undoubled_error rfl

theorem undoubled_store (t : Ty) (v : Literal) : Undoubled (m.store c address t v) :=
  (undoubled_encode c m.order v t).bind fun _ => undoubled_write m address _

end Memory

namespace Arithmetic

theorem undoubled_integers (op : Operator) (a b : Int) : Undoubled (integers op a b) := by
  cases op with
  | add | sub | mul => exact undoubled_ok _
  | div | mod =>
    unfold integers
    dsimp only
    split
    · exact undoubled_error rfl
    · exact undoubled_ok _

theorem undoubled_numbers (word : Nat) (op : Operator) (left : Literal) (lt : Ty)
    (right : Literal) (rt : Ty) : Undoubled (numbers word op left lt right rt) := by
  unfold numbers
  split
  · split
    · split
      · exact undoubled_ok _
      · exact undoubled_error rfl
    · split
      · exact (undoubled_integers op _ _).bind fun _ => undoubled_ok _
      · exact undoubled_error rfl
  · exact undoubled_error rfl

theorem undoubled_refused (op : Operator) (t : Ty) : Undoubled (refused op t) :=
  undoubled_error rfl

theorem undoubled_offset (word : Nat) (op : Operator) (pointer : Literal) (pt : Ty)
    (steps : Literal) (st : Ty) : Undoubled (offset word op pointer pt steps st) := by
  unfold offset
  split
  · exact undoubled_refused op pt
  · split
    · exact undoubled_error rfl
    · split
      · exact undoubled_ok _
      · exact undoubled_error rfl
      · exact undoubled_error rfl

theorem undoubled_distance (word : Nat) (op : Operator) (left : Literal) (lt : Ty)
    (right : Literal) : Undoubled (distance word op left lt right) := by
  unfold distance
  split
  · exact undoubled_refused op lt
  · split
    · exact undoubled_ok _
    · exact undoubled_error rfl

theorem undoubled_apply (word : Nat) (op : Operator) (left : Literal) (lt : Ty) (right : Literal)
    (rt : Ty) : Undoubled (apply word op left lt right rt) := by
  unfold apply
  split
  · exact undoubled_distance _ _ _ _ _
  · exact undoubled_offset _ _ _ _ _ _
  · split
    · exact undoubled_offset _ _ _ _ _ _
    · exact undoubled_refused op rt
  · exact undoubled_numbers _ _ _ _ _ _

end Arithmetic

namespace Symbols

theorem undoubled_allocate (s : Symbols) (size : Nat) : Undoubled (s.allocate size) := by
  unfold allocate
  split
  · exact undoubled_ok _
  · exact undoubled_error rfl

theorem undoubled_heapBlockAt (s : Symbols) (address : Nat) :
    Undoubled (s.heapBlockAt address) := by
  unfold heapBlockAt
  split
  · exact undoubled_ok _
  · exact undoubled_error rfl

end Symbols

/-! ### Computations -/

namespace Run

/-- A property of computations that is handed on from steps to what is made of them. -/
structure Hereditary (good : ∀ {α : Type}, Run α → Prop) : Prop where
  pure : ∀ {α : Type} (a : α), good (pure a : Run α)
  throw : ∀ {α : Type} {fault : Fault}, fault.isDuplicate = false → good (throw fault : Run α)
  bind : ∀ {α β : Type} {x : Run α} {f : α → Run β}, good x → (∀ a, good (f a)) → good (x >>= f)
  caught : ∀ {α : Type} {x : Run α} {f : Fault → Run α}, good x → (∀ fault, good (f fault)) →
    good (tryCatch x f)
  /-- The core may be looked at for its stack. -/
  look : ∀ {α : Type} {f : Core → Run α}, (∀ s t : Core, s.stack = t.stack → f s = f t) →
    (∀ s, good (f s)) → good (get >>= f)
  setStack : ∀ f : List Operand → List Operand, good (modify fun s => { s with stack := f s.stack })
  catalog : good catalog
  meet : ∀ f : Catalog → Catalog, good (modify fun s => { s with catalog := f s.catalog })
  memory : good memory
  setMemory : ∀ m : Memory, good (setMemory m)
  write : ∀ text : String, good (modify fun s => { s with console := s.console.write text })
  symbols : good symbols
  /-- The table changes by heap blocks that come and go, and by numbers given out. -/
  allocateHeap : ∀ t : Ty, good (allocateHeap t)
  removeBlock : ∀ address : Nat, good do
    let table ← Run.symbols
    let block ← lift (table.heapBlockAt address)
    setSymbols (table.remove block)
  temporary : ∀ (v : Literal) (t : Ty) (address : Nat), good (temporary v t address)

namespace Hereditary

variable {good : ∀ {α : Type}, Run α → Prop} (h : Hereditary good)

include h

/-! ### Parts of the core -/

theorem map {α β : Type} {x : Run α} (hx : good x) (f : α → β) : good (f <$> x) := by
  rw [map_eq_pure_bind]
  exact h.bind hx fun a => h.pure (f a)

theorem lift {α : Type} {x : Except Fault α} (hx : Undoubled x) : good (lift x) := by
  cases x with
  | error fault => exact h.throw (hx fault rfl)
  | ok a => exact h.pure a

theorem word : good word := by
  change good (Run.catalog >>= fun c => Pure.pure c.word)
  exact h.bind h.catalog fun c => h.pure c.word

theorem push (o : Operand) : good (push o) := h.setStack fun os => o :: os

theorem pushValue (v : Literal) (t : Ty) : good (pushValue v t) := h.push _

theorem pop : good pop := by
  refine h.look (fun s t same => by simp only [same]) fun s => ?_
  split
  · next o rest _ => exact h.bind (h.setStack fun _ => rest) fun _ => h.pure o
  · exact h.throw rfl

/-! ### Types -/

theorem built (x : Except TypeFault Ty) : good (built x) := by
  unfold Run.built
  split
  · next t => exact h.bind (h.meet fun c => c.intern t) fun _ => h.pure t
  · exact h.throw rfl

theorem pointerTo (t : Ty) : good (pointerTo t) := h.built _

theorem arrayOf (t : Ty) (count : Nat) : good (arrayOf t count) :=
  h.bind h.word fun _ => h.built _

theorem areCompatible (a b : Ty) : good (areCompatible a b) :=
  h.bind (h.meet fun c => c.internCompared a b) fun _ => h.pure _

theorem checkCompatible (a b : Ty) : good (checkCompatible a b) := by
  refine h.bind (h.areCompatible a b) fun ok => ?_
  split
  · exact h.throw rfl
  · exact h.pure _

theorem naturalType (v : Literal) : good (naturalType v) := by
  cases v with
  | integer => exact h.bind h.word fun _ => h.pure _
  | text => exact h.pointerTo _
  | _ => exact h.pure _

/-! ### Operands -/

theorem lookup (id : Identifier) : good (lookup id) := by
  refine h.bind h.symbols fun table => ?_
  split
  · exact h.pure _
  · exact h.throw rfl

theorem typeOf (o : Operand) : good (typeOf o) := by
  cases o with
  | named id => exact h.bind (h.lookup id) fun _ => h.pure _
  | _ => exact h.pure _

theorem storage? (o : Operand) : good (storage? o) := by
  cases o with
  | named id => exact h.bind (h.lookup id) fun _ => h.pure _
  | _ => exact h.pure _

theorem ownerOf? (o : Operand) : good (ownerOf? o) := by
  cases o with
  | named id =>
    refine h.bind (h.lookup id) fun v => ?_
    split <;> exact h.pure _
  | _ => exact h.pure _

theorem readStorage (address : Nat) (t : Ty) : good (readStorage address t) := by
  unfold Run.readStorage
  split
  · exact h.bind (h.meet fun c => c.internDecay t) fun _ => h.pure _
  · exact h.bind h.memory fun m => h.bind h.catalog fun c =>
      h.bind (h.lift (m.undoubled_load c address t)) fun _ => h.pure _

theorem read (o : Operand) : good (read o) := by
  cases o with
  | value v t => exact h.pure _
  | place address t owner => exact h.readStorage address _
  | named id => exact h.bind (h.lookup id) fun _ => h.readStorage _ _

theorem readInteger (o : Operand) : good (readInteger o) := by
  refine h.bind (h.read o) fun ⟨v, t⟩ => ?_
  dsimp only
  split
  · exact h.throw rfl
  · split
    · exact h.pure _
    · exact h.bind h.catalog fun _ => h.throw rfl

theorem readFloat (o : Operand) : good (readFloat o) := by
  refine h.bind (h.read o) fun ⟨v, t⟩ => ?_
  dsimp only
  split
  · split
    · exact h.pure _
    · exact h.throw rfl
  · exact h.throw rfl

theorem readIndex (o : Operand) : good (readIndex o) := by
  refine h.bind (h.read o) fun ⟨v, t⟩ => ?_
  dsimp only
  split
  · exact h.throw rfl
  · split
    · exact h.pure _
    · exact h.throw rfl

theorem followText (o : Operand) : good (followText o) := by
  refine h.bind (h.typeOf o) fun t => ?_
  split
  · exact h.throw rfl
  · refine h.bind (h.read o) fun ⟨pointer, _⟩ => ?_
    dsimp only
    split
    · exact h.bind h.memory fun m => h.lift (m.undoubled_loadText _)
    · exact h.throw rfl

theorem readStoredText (o : Operand) : good (readStoredText o) := by
  refine h.bind (h.storage? o) fun place => ?_
  split
  · next address t =>
    split
    · refine h.bind h.memory fun m => h.bind h.catalog fun c =>
        h.bind (h.lift (m.undoubled_present c address t)) fun v => ?_
      split
      · exact h.pure _
      · exact h.throw rfl
    · exact h.followText o
  · exact h.followText o

theorem readText (o : Operand) : good (readText o) := by
  unfold Run.readText
  split
  · exact h.pure _
  · exact h.readStoredText o

/-! ### Storage -/

theorem resolve (address : Nat) (t : Ty) : good (resolve address t) := by
  refine h.bind h.catalog fun c => ?_
  dsimp only
  split
  · exact h.throw rfl
  · refine h.bind h.symbols fun table => ?_
    split
    · exact h.pure _
    · split
      · exact h.pure _
      · exact h.throw rfl

theorem targetOf (t : Ty) : good (targetOf t) := by
  unfold Run.targetOf
  split
  · exact h.throw rfl
  · split
    · exact h.throw rfl
    · exact h.pure _

theorem follow (o : Operand) : good (follow o) := by
  refine h.bind (h.read o) fun ⟨v, t⟩ => h.bind (h.targetOf t) fun target => ?_
  split
  · exact h.resolve _ _
  · exact h.bind h.catalog fun _ => h.throw rfl

theorem followTimes : ∀ (levels : Nat) (o : Operand), good (followTimes levels o)
  | 0, _ => h.pure _
  | levels + 1, o => h.bind (h.follow o) fun p => followTimes levels p

theorem elementOf (base : Operand) (address : Nat) (element : Ty) (count : Nat) (i : Int) :
    good (elementOf base address element count i) := by
  refine h.bind h.catalog fun c => ?_
  dsimp only
  split
  · exact h.throw rfl
  · refine h.bind (h.ownerOf? base) fun owner => ?_
    split
    · exact h.pure _
    · exact h.throw rfl

theorem elementBehind (base : Operand) (i : Int) : good (elementBehind base i) := by
  refine h.bind (h.read base) fun ⟨v, t⟩ => h.bind (h.targetOf t) fun target =>
    h.bind h.catalog fun c => ?_
  dsimp only
  split
  · exact h.resolve _ _
  · exact h.throw rfl

theorem copyText (address capacity : Nat) (text : String) :
    good (copyText address capacity text) := by
  refine h.bind (h.lift (undoubled_textBytes text)) fun bytes => ?_
  split
  · exact h.throw rfl
  · exact h.bind h.memory fun m => h.bind (h.lift (m.undoubled_write address _)) fun _ =>
      h.setMemory _

theorem allocateText (text : String) : good (allocateText text) :=
  h.bind (h.lift (undoubled_textBytes text)) fun _ => h.bind (h.arrayOf _ _) fun _ =>
    h.bind (h.allocateHeap _) fun _ => h.bind (h.copyText _ _ text) fun _ => h.pure _

theorem storedValue (t : Ty) (v : Literal) : good (storedValue t v) := by
  cases v with
  | text text =>
    unfold Run.storedValue
    dsimp only
    split
    · exact h.bind (h.allocateText text) fun _ => h.pure _
    · exact h.pure _
  | type array => exact h.bind (h.meet fun c => c.internDecay array) fun _ => h.pure _
  | _ => exact h.pure _

theorem storeValue (address : Nat) (t : Ty) (v : Literal) : good (storeValue address t v) :=
  h.bind (h.storedValue t v) fun stored => h.bind h.memory fun m => h.bind h.catalog fun c =>
    h.bind (h.lift (m.undoubled_store c address t stored)) fun _ => h.setMemory _

theorem assignTo (address : Nat) (target : Ty) (source : Operand) :
    good (assignTo address target source) := by
  unfold Run.assignTo
  split
  · split
    · exact h.bind (h.readText source) fun _ => h.copyText _ _ _
    · exact h.throw rfl
  · exact h.bind (h.read source) fun ⟨v, t⟩ =>
      h.bind (h.checkCompatible target t) fun _ => h.storeValue address target v

/-! ### Functions -/

theorem malloc (size : Operand) : good (malloc size) := by
  refine h.bind (h.readInteger size) fun n => ?_
  split
  · exact h.throw rfl
  · exact h.bind (h.arrayOf _ _) fun _ => h.bind (h.allocateHeap _) fun _ =>
      h.bind (h.pointerTo _) fun _ => h.pushValue _ _

theorem release (pointer : Operand) : good (release pointer) := by
  refine h.bind (h.read pointer) fun ⟨v, _⟩ => ?_
  dsimp only
  split
  · exact h.throw rfl
  · split
    · exact h.pure _
    · exact h.removeBlock _

theorem typeArgument (o : Operand) : good (typeArgument o) := by
  refine h.bind (h.read o) fun ⟨v, _⟩ => ?_
  dsimp only
  split
  · refine h.bind h.catalog fun c => ?_
    split
    · exact h.throw rfl
    · exact h.pure _
  · exact h.bind h.catalog fun _ => h.throw rfl

theorem newObject (type : Operand) : good (newObject type) :=
  h.bind (h.typeArgument type) fun _ => h.bind (h.allocateHeap _) fun _ =>
    h.bind (h.pointerTo _) fun _ => h.pushValue _ _

theorem newArray (type count : Operand) : good (newArray type count) := by
  refine h.bind (h.typeArgument type) fun _ => h.bind (h.readInteger count) fun n => ?_
  split
  · exact h.throw rfl
  · exact h.bind (h.arrayOf _ _) fun _ => h.bind (h.allocateHeap _) fun _ =>
      h.bind (h.pointerTo _) fun _ => h.pushValue _ _

theorem reflectedType (o : Operand) : good (reflectedType o) := by
  unfold Run.reflectedType
  split
  · exact h.pure _
  · exact h.bind (h.typeOf o) fun _ => h.pure _

theorem printedValue (o : Operand) : good (printedValue o) := by
  refine h.bind (h.read o) fun ⟨v, t⟩ => ?_
  dsimp only
  split <;> exact h.pure _

theorem printable (o : Operand) : good (printable o) := by
  refine h.bind (h.typeOf o) fun t => ?_
  dsimp only
  split
  · exact h.caught (h.readText o) fun _ => h.printedValue o
  · exact h.printedValue o

theorem abs (o : Operand) : good (abs o) := by
  refine h.bind (h.read o) fun ⟨v, t⟩ => ?_
  dsimp only
  split
  · exact h.throw rfl
  · split
    · exact h.pushValue _ _
    · split
      · exact h.bind h.word fun _ => h.pushValue _ _
      · exact h.throw rfl

theorem cast (target : Scalar) (o : Operand) : good (cast target o) := by
  refine h.bind (h.read o) fun ⟨v, t⟩ => ?_
  dsimp only
  split
  · exact h.throw rfl
  · refine h.bind h.word fun word => ?_
    split
    · exact h.pushValue _ _
    · exact h.bind h.catalog fun _ => h.throw rfl

/-- Only the function `input` reads a line. -/
theorem invoke {f : Builtin} (asked : f = .input → ∀ prompt, good (readLine prompt))
    (arguments : List Operand) : good (invoke f arguments) := by
  unfold Run.invoke
  split
  · exact h.malloc _
  · exact h.release _
  · exact h.release _
  · exact h.newObject _
  · exact h.newArray _ _
  · exact h.bind (h.reflectedType _) fun _ => h.bind h.catalog fun _ => h.pushValue _ _
  · exact h.bind (h.reflectedType _) fun _ => h.pushValue _ _
  · exact h.bind (h.printable _) fun _ => h.write _
  · exact h.bind (h.readText _) fun _ => h.bind (asked rfl _) fun _ =>
      h.bind (h.allocateText _) fun _ => h.bind (h.pointerTo _) fun _ => h.pushValue _ _
  · exact h.bind (h.readText _) fun _ => h.bind (h.lift (undoubled_textBytes _)) fun _ =>
      h.pushValue _ _
  · exact h.abs _
  · exact h.bind (h.readFloat _) fun _ => h.pushValue _ _
  · exact h.bind (h.readFloat _) fun _ => h.bind (h.readFloat _) fun _ => h.pushValue _ _
  · exact h.cast _ _
  · exact h.throw rfl

theorem checkArguments (function : String) : ∀ (ps : List (String × Ty)) (os : List Operand)
    (position : Nat), good (checkArguments function position ps os)
  | [], _, _ => h.pure _
  | _ :: _, [], _ => h.pure _
  | p :: ps, o :: os, position => by
    refine h.bind (h.typeOf o) fun found => h.bind (h.areCompatible p.2 found) fun ok => ?_
    split
    · exact h.throw rfl
    · exact checkArguments function ps os (position + 1)

theorem call {function : String} (asked : function = "input" → ∀ prompt, good (readLine prompt))
    (count : Nat) : good (call function count) := by
  refine h.look (fun s t same => by simp only [same]) fun s => ?_
  dsimp only
  split
  · exact h.throw rfl
  · refine h.bind (h.setStack fun _ => s.stack.drop count) fun _ => ?_
    split
    · exact h.throw rfl
    · next f found =>
      have known : f = .input → ∀ prompt, good (readLine prompt) := fun e => by
        subst e
        have name := List.find?_some (p := fun f : Builtin => f.name = function) found
        exact asked (of_decide_eq_true name).symm
      split
      · exact h.throw rfl
      · exact h.bind (h.checkArguments _ _ _ _) fun _ => h.invoke known _

/-! ### Instructions -/

theorem addressOf : good addressOf := by
  refine h.bind h.pop fun o => h.bind (h.storage? o) fun place => ?_
  split
  · exact h.throw rfl
  · exact h.bind (h.pointerTo _) fun _ => h.pushValue _ _

theorem dereference (levels : Nat) : good (dereference levels) :=
  h.bind h.pop fun o => h.bind (h.followTimes levels o) fun _ => h.push _

theorem index : good index := by
  refine h.bind h.pop fun position => h.bind h.pop fun base =>
    h.bind (h.readIndex position) fun i => h.bind (h.storage? base) fun place => ?_
  split
  · split
    · exact h.bind (h.elementOf _ _ _ _ _) fun _ => h.push _
    · exact h.bind (h.elementBehind _ _) fun _ => h.push _
  · exact h.bind (h.elementBehind _ _) fun _ => h.push _

theorem binary (op : Operator) : good (binary op) :=
  h.bind h.pop fun _ => h.bind h.pop fun left => h.bind (h.read left) fun ⟨_, lt⟩ =>
    h.bind (h.read _) fun ⟨_, rt⟩ => h.bind (h.checkCompatible lt rt) fun _ =>
      h.bind h.word fun _ => h.bind (h.lift (Arithmetic.undoubled_apply _ op _ _ _ _))
        fun ⟨_, _⟩ => h.pushValue _ _

theorem assign : good assign := by
  refine h.bind h.pop fun source => h.bind h.pop fun target =>
    h.bind (h.storage? target) fun place => ?_
  split
  · exact h.throw rfl
  · exact h.bind (h.assignTo _ _ source) fun _ => h.push target

/-- An instruction has what its parts have, unless it declares a variable. -/
theorem step {i : Instr} (plain : ∀ t id initialized, i ≠ .create t id initialized)
    (asked : ∀ count, i = .call "input" count → ∀ prompt, good (readLine prompt)) :
    good (step i) := by
  cases i with
  | push v => exact h.bind (h.naturalType v) fun _ => h.pushValue v _
  | pushTyped v t => exact h.pushValue v t
  | pushName id => exact h.bind (h.lookup id) fun _ => h.push _
  | addressOf => exact h.addressOf
  | dereference levels => exact h.dereference levels
  | index => exact h.index
  | binary op => exact h.binary op
  | assign => exact h.assign
  | create t id initialized => exact absurd rfl (plain t id initialized)
  | call function count => exact h.call (fun e => asked count (by rw [e])) count
  | discard => exact h.bind h.pop fun _ => h.pure _

/-- The result of a statement is read or numbered. -/
theorem resultOf (o : Operand) : good (resultOf o) := by
  cases o with
  | named id => exact h.lookup id
  | place address t owner =>
    exact h.bind h.memory fun m => h.bind h.catalog fun c =>
      h.bind (h.lift (m.undoubled_load c address t)) fun v => h.temporary v t address
  | value v t => exact h.temporary v t 0

end Hereditary

end Run

end ByteMachine
