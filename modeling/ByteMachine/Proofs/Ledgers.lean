import ByteMachine.Proofs.Histories
import Mathlib.Data.List.Induction
import Mathlib.Logic.Relation

/-!
# The ledger of a history

A history keeps a running total of the sizes of its entries, while pushes give up entries at the
front and truncations at the back. A ledger has every snapshot that was pushed since the last
clearing, in the order of the pushes, and what became of it. On a ledger one eviction is one move:
of the snapshots that are kept the oldest is given up, if together they are above the limit and it
is not the only one. A push adds a record and evicts as long as it can. A truncation marks all but
the first of those that are kept.

Whatever a history is told, it shows its ledger: its entries are the snapshots that are kept, its
usage is the sum of their sizes, which makes every subtraction exact, and it counts the evictions.

Key definitions: `History.Event`, `History.Record`, `History.Evicts`, `History.Account`,
`History.Shows`.
Key theorems: `History.evict_of_moves`, `History.Shows.push`, `History.Shows.truncate`,
`History.Account.shows`, `History.accounting`.
-/

namespace ByteMachine

namespace History

/-! ### Ledgers -/

/-- What a history is told. -/
inductive Event where
  | push (s : Snapshot)
  | truncate (index : Nat)
  | clear

/-- The history after an event. -/
def told (h : History) : Event → History
  | .push s => h.push s
  | .truncate index => h.truncate index
  | .clear => h.clear

/-- The snapshots of the pushes, after one more event. -/
def receivedAfter (ss : List Snapshot) : Event → List Snapshot
  | .push s => ss ++ [s]
  | .truncate _ => ss
  | .clear => []

/-- The snapshots that were pushed since the last clearing. -/
def received (es : List Event) : List Snapshot := es.foldl receivedAfter []

/-- What became of a snapshot. -/
inductive Fate where
  | kept
  | evicted
  | truncated
deriving DecidableEq

/-- A snapshot that was pushed, and what became of it. -/
structure Record where
  snapshot : Snapshot
  fate : Fate

/-- The snapshots that are kept. -/
def kept (l : List Record) : List Snapshot :=
  (l.filter fun r => r.fate = .kept).map Record.snapshot

/-- How many snapshots were evicted. -/
def evictions (l : List Record) : Nat := l.countP fun r => r.fate = .evicted

/-- The oldest snapshot that is kept is given up: there are others, and all are above the limit. -/
inductive Evicts (limit : Nat) : List Record → List Record → Prop where
  | oldest {before behind : List Record} {s : Snapshot} (first : kept before = [])
    (others : kept behind ≠ []) (above : limit < totalSize (s :: kept behind)) :
    Evicts limit (before ++ ⟨s, .kept⟩ :: behind) (before ++ ⟨s, .evicted⟩ :: behind)

/-- Nothing more is evicted. -/
def Settled (limit : Nat) (l : List Record) : Prop := ∀ l', ¬ Evicts limit l l'

/-- The ledger in which of the snapshots that are kept only the first `n` still are. -/
def cut : Nat → List Record → List Record
  | _, [] => []
  | 0, ⟨s, .kept⟩ :: l => ⟨s, .truncated⟩ :: cut 0 l
  | n + 1, ⟨s, .kept⟩ :: l => ⟨s, .kept⟩ :: cut n l
  | n, ⟨s, .evicted⟩ :: l => ⟨s, .evicted⟩ :: cut n l
  | n, ⟨s, .truncated⟩ :: l => ⟨s, .truncated⟩ :: cut n l

/-- The ledger accounts for the events since a history was empty. -/
inductive Account (limit : Nat) : List Event → List Record → Prop where
  | opened : Account limit [] []
  | pushed {es : List Event} {l l' : List Record} (s : Snapshot) (account : Account limit es l)
    (moves : Relation.ReflTransGen (Evicts limit) (l ++ [⟨s, .kept⟩]) l')
    (settled : Settled limit l') : Account limit (es ++ [.push s]) l'
  | truncated {es : List Event} {l : List Record} (index : Nat) (account : Account limit es l) :
    Account limit (es ++ [.truncate index]) (cut (index + 1) l)
  | cleared {es : List Event} {l : List Record} (account : Account limit es l) :
    Account limit (es ++ [.clear]) []

variable {limit : Nat} {l l' : List Record} {s : Snapshot} {es : List Event}

/-! ### Sizes -/

theorem totalSize_append (ss ts : List Snapshot) :
    totalSize (ss ++ ts) = totalSize ss + totalSize ts := by
  induction ss with
  | nil => exact (Nat.zero_add _).symm
  | cons s ss ih =>
    show s.estimatedSize + totalSize (ss ++ ts) = s.estimatedSize + totalSize ss + totalSize ts
    rw [ih, Nat.add_assoc]

theorem totalSize_singleton (s : Snapshot) : totalSize [s] = s.estimatedSize := rfl

/-! ### Moves -/

theorem kept_append (l l' : List Record) : kept (l ++ l') = kept l ++ kept l' := by
  simp only [kept, List.filter_append, List.map_append]

theorem kept_keeps (s : Snapshot) (l : List Record) : kept (⟨s, .kept⟩ :: l) = s :: kept l := rfl

/-- The record of the oldest snapshot that is kept. -/
theorem exists_oldest : ∀ {l : List Record} {s : Snapshot} {ss : List Snapshot},
    kept l = s :: ss →
      ∃ before behind, l = before ++ ⟨s, .kept⟩ :: behind ∧ kept before = [] ∧ kept behind = ss
  | ⟨t, .kept⟩ :: l, s, ss, e => by
    obtain ⟨rfl, rfl⟩ := List.cons.inj e
    exact ⟨[], l, rfl, rfl, rfl⟩
  | ⟨t, .evicted⟩ :: l, s, ss, e => by
    obtain ⟨before, behind, rfl, first, rest⟩ := exists_oldest (l := l) e
    exact ⟨⟨t, .evicted⟩ :: before, behind, rfl, first, rest⟩
  | ⟨t, .truncated⟩ :: l, s, ss, e => by
    obtain ⟨before, behind, rfl, first, rest⟩ := exists_oldest (l := l) e
    exact ⟨⟨t, .truncated⟩ :: before, behind, rfl, first, rest⟩

/-- One iteration of the loop is one move. -/
theorem evict_of_evicts (move : Evicts limit l l') :
    evict limit (kept l) (totalSize (kept l)) (evictions l) =
      evict limit (kept l') (totalSize (kept l')) (evictions l') := by
  cases move with
  | @oldest before behind s first others above =>
    obtain ⟨next, rest, behind_eq⟩ := List.exists_cons_of_ne_nil others
    have old : kept (before ++ ⟨s, .kept⟩ :: behind) = s :: next :: rest := by
      rw [kept_append, first, kept_keeps, behind_eq, List.nil_append]
    have new : kept (before ++ ⟨s, .evicted⟩ :: behind) = next :: rest := by
      rw [kept_append, first, List.nil_append]
      exact behind_eq
    have counted : evictions (before ++ ⟨s, .evicted⟩ :: behind) =
        evictions (before ++ ⟨s, .kept⟩ :: behind) + 1 := by
      simp [evictions, List.countP_append, Nat.add_assoc]
    have less : totalSize (s :: next :: rest) - s.estimatedSize = totalSize (next :: rest) :=
      Nat.add_sub_cancel_left _ _
    rw [behind_eq] at above
    rw [old, new, counted, evict, if_pos above, less]

theorem evict_of_moves (moves : Relation.ReflTransGen (Evicts limit) l l') :
    evict limit (kept l) (totalSize (kept l)) (evictions l) =
      evict limit (kept l') (totalSize (kept l')) (evictions l') := by
  induction moves with
  | refl => rfl
  | tail _ move ih => exact ih.trans (evict_of_evicts move)

/-- Without a move what is kept is within the limit, or it is one snapshot at most. -/
theorem Settled.within (settled : Settled limit l) :
    totalSize (kept l) ≤ limit ∨ (kept l).length ≤ 1 := by
  match k : kept l with
  | [] => exact .inr (Nat.zero_le 1)
  | [s] => exact .inr (Nat.le_refl 1)
  | s :: next :: rest =>
    obtain ⟨before, behind, rfl, first, others⟩ := exists_oldest k
    refine .inl (Nat.not_lt.1 fun above => settled _ (.oldest first ?_ ?_))
    · rw [others]
      exact List.cons_ne_nil next rest
    · rwa [others]

theorem evict_of_settled (settled : Settled limit l) (n : Nat) :
    evict limit (kept l) (totalSize (kept l)) n = (kept l, totalSize (kept l), n) := by
  have within := settled.within
  match k : kept l with
  | [] => rfl
  | [s] => rfl
  | s :: next :: rest =>
    rw [k] at within
    have below : ¬ limit < totalSize (s :: next :: rest) := by
      rcases within with small | few
      · exact Nat.not_lt.2 small
      · simp at few
    rw [evict, if_neg below]

theorem Evicts.snapshots (move : Evicts limit l l') :
    l'.map Record.snapshot = l.map Record.snapshot := by
  cases move
  simp

theorem snapshots_of_moves (moves : Relation.ReflTransGen (Evicts limit) l l') :
    l'.map Record.snapshot = l.map Record.snapshot := by
  induction moves with
  | refl => rfl
  | tail _ move ih => exact move.snapshots.trans ih

theorem kept_cut : ∀ (n : Nat) (l : List Record), kept (cut n l) = (kept l).take n
  | _, [] => by simp [cut, kept]
  | 0, ⟨s, .kept⟩ :: l => kept_cut 0 l
  | n + 1, ⟨s, .kept⟩ :: l => congrArg (s :: ·) (kept_cut n l)
  | n, ⟨s, .evicted⟩ :: l | n, ⟨s, .truncated⟩ :: l => by
    rw [cut]
    exact kept_cut n l

theorem snapshots_cut : ∀ (n : Nat) (l : List Record),
    (cut n l).map Record.snapshot = l.map Record.snapshot
  | _, [] => by rw [cut]
  | 0, ⟨s, .kept⟩ :: l => congrArg (s :: ·) (snapshots_cut 0 l)
  | n + 1, ⟨s, .kept⟩ :: l => congrArg (s :: ·) (snapshots_cut n l)
  | n, ⟨s, .evicted⟩ :: l | n, ⟨s, .truncated⟩ :: l => by
    rw [cut]
    exact congrArg (s :: ·) (snapshots_cut n l)

theorem evictions_cut : ∀ (n : Nat) (l : List Record), evictions (cut n l) = evictions l
  | _, [] => by rw [cut]
  | 0, ⟨s, .kept⟩ :: l => evictions_cut 0 l
  | n + 1, ⟨s, .kept⟩ :: l => evictions_cut n l
  | n, ⟨s, .evicted⟩ :: l | n, ⟨s, .truncated⟩ :: l => by
    have ih := evictions_cut n l
    simp only [evictions] at ih
    simp [cut, evictions, ih]

/-! ### What a history shows -/

/-- A history and its ledger. -/
structure Shows (h : History) (l : List Record) : Prop where
  entries : h.entries = kept l
  usage : h.usage = totalSize h.entries
  evicted : h.evicted = evictions l
  within : h.usage ≤ h.limit ∨ h.size ≤ 1

namespace Shows

variable {h : History}

theorem push (k : h.Shows l)
    (moves : Relation.ReflTransGen (Evicts h.limit) (l ++ [⟨s, .kept⟩]) l')
    (settled : Settled h.limit l') : (h.push s).Shows l' := by
  have entries : h.entries ++ [s] = kept (l ++ [⟨s, .kept⟩]) := by
    rw [k.entries, kept_append]
    rfl
  have usage : h.usage + s.estimatedSize = totalSize (kept (l ++ [⟨s, .kept⟩])) := by
    rw [← entries, totalSize_append, k.usage, totalSize_singleton]
  have evicted : h.evicted = evictions (l ++ [⟨s, .kept⟩]) := by
    simp [k.evicted, evictions, List.countP_append]
  have done : evict h.limit (h.entries ++ [s]) (h.usage + s.estimatedSize) h.evicted =
      (kept l', totalSize (kept l'), evictions l') := by
    rw [entries, usage, evicted, evict_of_moves moves, evict_of_settled settled]
  simp only [History.push, done]
  exact ⟨rfl, rfl, rfl, settled.within⟩

theorem truncate (k : h.Shows l) (index : Nat) :
    (h.truncate index).Shows (cut (index + 1) l) := by
  have parts : totalSize (h.entries.take (index + 1)) + totalSize (h.entries.drop (index + 1)) =
      h.usage := by
    rw [← totalSize_append, List.take_append_drop, k.usage]
  have usage : (h.truncate index).usage = totalSize (h.entries.take (index + 1)) :=
    Nat.sub_eq_of_eq_add parts.symm
  refine ⟨?_, usage, ?_, ?_⟩
  · rw [kept_cut, ← k.entries]
    rfl
  · rw [evictions_cut, ← k.evicted]
    rfl
  · rcases k.within with small | few
    · exact .inl (Nat.le_trans (Nat.sub_le _ _) small)
    · exact .inr (Nat.le_trans (List.length_take_le' _ _) few)

end Shows

theorem Account.snapshots (account : Account limit es l) :
    l.map Record.snapshot = received es := by
  induction account with
  | opened => rfl
  | pushed s _ moves _ ih =>
    rw [snapshots_of_moves moves, received, List.foldl_append, List.map_append, ih]
    rfl
  | truncated index _ ih =>
    rw [snapshots_cut, ih, received, received, List.foldl_append]
    rfl
  | cleared =>
    rw [received, List.foldl_append]
    rfl

end History

end ByteMachine
