import Mathlib.Logic.Relation
import OpenShapeForge.Library.RowLocks

/-! Who waits for whom: a transaction whose next lock conflicts with one that is held waits for the
holder, and for whoever came to the same row before it with a request that conflicts with its own. -/

namespace OpenShapeForge.Library.RowLocks.Store
variable {Tx Key Row : Type}

section Relations
variable (store : Store Tx Key Row) (requests : Tx → Option (Key × Strength)) (arrival : Tx → Nat) (tx other : Tx)

def Blocked : Prop :=
  other ≠ tx ∧ ∃ key wanted held, requests tx = some (key, wanted) ∧ store.Holds other key held ∧ conflicts held wanted = true

/-- The other one stands before it in the queue for a row. -/
def Behind : Prop :=
  arrival other < arrival tx ∧
    ∃ key wanted theirs, requests tx = some (key, wanted) ∧ requests other = some (key, theirs) ∧ conflicts theirs wanted = true

/-- A request that conflicts with no lock that is held is granted, whoever is in the queue. -/
def Waits : Prop := store.Blocked requests tx other ∨ Behind requests arrival tx other ∧ ∃ holder, store.Blocked requests tx holder

end Relations

theorem conflicts_through : ∀ held theirs wanted blocking, held ≠ .keyShare → conflicts held theirs = true →
    conflicts theirs wanted = true → conflicts blocking wanted = true → conflicts held wanted = true ∨ conflicts held blocking = true := by
  intro held theirs wanted blocking
  cases held <;> cases theirs <;> cases wanted <;> cases blocking <;> decide

variable {store : Store Tx Key Row} {requests : Tx → Option (Key × Strength)} {arrival : Tx → Nat} {tx other third holder : Tx}

/-- Nobody asks for a lock on a row it has locked already, and keys are never only shared. -/
structure Orderly (store : Store Tx Key Row) (requests : Tx → Option (Key × Strength)) : Prop where
  fresh : ∀ tx key wanted held, requests tx = some (key, wanted) → ¬store.Holds tx key held
  whole : ∀ tx key, ¬store.Holds tx key .keyShare

theorem Blocked.through (consistent : store.Consistent) (orderly : Orderly store requests) (blocked : store.Blocked requests tx holder)
    (behind : Behind requests arrival tx other) (blocks : store.Blocked requests other third) : store.Blocked requests tx third := by
  obtain ⟨-, key, wanted, theirs, isWanted, isTheirs, inQueue⟩ := behind
  obtain ⟨-, atKey, theirWanted, held, isTheirWanted, holds, conflict⟩ := blocks
  obtain ⟨-, atRow, myWanted, blocking, isMine, blocker, blocksMe⟩ := id blocked
  cases isTheirs.symm.trans isTheirWanted
  cases isWanted.symm.trans isMine
  by_cases same : third = holder
  · exact same ▸ blocked
  · have notMine : third ≠ tx := by
      intro mine
      exact orderly.fresh tx key wanted held isWanted (mine ▸ holds)
    have notShared : held ≠ .keyShare := by
      intro shared
      exact orderly.whole third key (shared ▸ holds)
    rcases conflicts_through held theirs wanted blocking notShared conflict inQueue blocksMe with mine | apart
    · exact ⟨notMine, key, wanted, held, isWanted, holds, mine⟩
    · rw [consistent.apart third holder same key held blocking holds blocker] at apart
      cases apart

theorem no_cycle (consistent : store.Consistent) (orderly : Orderly store requests) (rank : Tx → Nat)
    (falls : ∀ tx other, store.Blocked requests tx other → rank other < rank tx) (arrival : Tx → Nat) (tx : Tx) :
    ¬Relation.TransGen (store.Waits requests arrival) tx tx := by
  -- either nothing is passed but the queue of one row, or the rank has fallen below that of a first holder
  have along : ∀ last, Relation.TransGen (store.Waits requests arrival) tx last →
      (arrival last < arrival tx ∧ ∀ third, store.Blocked requests last third → store.Blocked requests tx third) ∨
        ∃ holder, store.Blocked requests tx holder ∧ ∀ third, store.Blocked requests last third → rank third < rank holder := by
    intro last path
    induction path with
    | single waits =>
      rcases waits with blocked | ⟨behind, holder, blocked⟩
      · exact .inr ⟨_, blocked, fun third => falls _ third⟩
      · exact .inl ⟨behind.1, fun third => blocked.through consistent orderly behind⟩
    | tail _ waits ih =>
      rcases ih with ⟨earlier, passes⟩ | ⟨holder, isHolder, below⟩
      · rcases waits with blocked | ⟨behind, between, blocked⟩
        · exact .inr ⟨_, passes _ blocked, fun third => falls _ third⟩
        · exact .inl ⟨behind.1.trans earlier, fun third blocks => passes third (blocked.through consistent orderly behind blocks)⟩
      · rcases waits with blocked | ⟨behind, between, blocked⟩
        · exact .inr ⟨holder, isHolder, fun third blocks => (falls _ third blocks).trans (below _ blocked)⟩
        · exact .inr ⟨holder, isHolder, fun third blocks => below third (blocked.through consistent orderly behind blocks)⟩
  intro cycle
  rcases along tx cycle with ⟨earlier, -⟩ | ⟨holder, isHolder, below⟩
  · exact absurd earlier (lt_irrefl _)
  · exact absurd (below holder isHolder) (lt_irrefl _)

end OpenShapeForge.Library.RowLocks.Store
