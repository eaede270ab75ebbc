import ByteMachine.Symbols.Table

/-!
# History

A snapshot is a name, a memory and a symbol table, whose types are numbers of the catalog there
was. The history keeps snapshots in the order in which they were taken and estimates their size;
when the estimates exceed the budget the oldest snapshots go, but never the newest.

Key definitions: `Snapshot`, `Snapshot.estimatedSize`, `Snapshot.under`, `History`,
`History.push`, `History.truncate`, `History.clear`.
Key theorem: `Snapshot.under_of_prefix`, a catalog that has grown shows a snapshot as it was.
-/

namespace ByteMachine

/-- The memory and the variables at one instant, and what led there. -/
structure Snapshot where
  name : String
  memory : Memory
  symbols : Symbols
  /-- The catalog that numbers the types of the variables. -/
  catalog : Catalog
deriving DecidableEq, Repr, Inhabited

/-- About how many bytes a snapshot takes: its memory, its name and a fixed share for each
variable. -/
def Snapshot.estimatedSize (s : Snapshot) : Nat :=
  s.memory.size + s.name.utf8ByteSize + s.symbols.size * 96

/-- The snapshot as a catalog shows it, in which the numbers of its types may mean others. -/
def Snapshot.under (s : Snapshot) (c : Catalog) : Snapshot :=
  { s with symbols := s.symbols.retype (s.catalog.reread c), catalog := c }

theorem Snapshot.under_of_prefix {s : Snapshot} {c : Catalog}
    (h : s.catalog.known <+: c.known) : s.under c = { s with catalog := c } := by
  have : s.catalog.reread c = fun t => t := funext (Catalog.reread_of_prefix h)
  simp [under, this]

/-- Snapshots, oldest first, with the sum of their estimated sizes and the number of those that
were given up since the last clearing. -/
structure History where
  entries : List Snapshot
  limit : Nat
  usage : Nat
  evicted : Nat
deriving DecidableEq, Repr, Inhabited

namespace History

def empty (limit : Nat) : History := ⟨[], limit, 0, 0⟩

def size (h : History) : Nat := h.entries.length

def get? (h : History) (index : Nat) : Option Snapshot := h.entries[index]?

def latest? (h : History) : Option Snapshot := h.entries.getLast?

/-- The entries, the usage and the evictions after the oldest entries were given up while the
usage is above the limit and more than one is left. -/
def evict (limit : Nat) : List Snapshot → Nat → Nat → List Snapshot × Nat × Nat
  | oldest :: next :: rest, usage, evicted =>
    if limit < usage then evict limit (next :: rest) (usage - oldest.estimatedSize) (evicted + 1)
    else (oldest :: next :: rest, usage, evicted)
  | entries, usage, evicted => (entries, usage, evicted)

/-- The history with one more snapshot, and without the oldest ones above the limit. -/
def push (h : History) (s : Snapshot) : History :=
  let (entries, usage, evicted) :=
    evict h.limit (h.entries ++ [s]) (h.usage + s.estimatedSize) h.evicted
  { h with entries := entries, usage := usage, evicted := evicted }

/-- The sum of the estimated sizes of some snapshots. -/
def totalSize (entries : List Snapshot) : Nat :=
  entries.foldr (fun s size => s.estimatedSize + size) 0

/-- The history without the entries behind `index`. -/
def truncate (h : History) (index : Nat) : History :=
  { h with
    entries := h.entries.take (index + 1)
    usage := h.usage - totalSize (h.entries.drop (index + 1)) }

def clear (h : History) : History := empty h.limit

end History

end ByteMachine
