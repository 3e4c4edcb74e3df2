import Mathlib.Logic.Function.Basic
import Mathlib.Data.Set.Insert

/-! A store of rows that transactions share, read committed: a transaction sees what is
committed and what it wrote itself, a lock is granted where no other transaction holds one
that conflicts, and all of them are held to the end. -/

namespace OpenShapeForge.Library.RowLocks

inductive Strength where
  | keyShare | share | noKeyUpdate | update
deriving DecidableEq

/-- A row whose key is shared may be updated beside it, but not removed; a row that is shared may only be shared. -/
def conflicts : Strength → Strength → Bool
  | .keyShare, .update | .update, .keyShare => true
  | .keyShare, _ | _, .keyShare => false
  | .share, .share => false
  | _, _ => true

/-- What a transaction holds and has written; a removed row is written as none. -/
structure Session (Key Row : Type) where
  locks : Key → Set Strength
  written : Key → Option (Option Row)

namespace Session
variable {Key Row : Type}

def idle : Session Key Row := ⟨fun _ => ∅, fun _ => none⟩

variable [DecidableEq Key] (session : Session Key Row) (key : Key)

def lock (strength : Strength) : Session Key Row :=
  { session with locks := Function.update session.locks key (insert strength (session.locks key)) }

def write (row : Option Row) : Session Key Row := { session with written := Function.update session.written key (some row) }

section Frames
variable {session key} {strength held : Strength} {row : Option Row} {at' : Key}

theorem mem_lock : held ∈ (session.lock key strength).locks at' ↔ held ∈ session.locks at' ∨ at' = key ∧ held = strength := by
  by_cases atKey : at' = key
  · subst atKey
    simp [lock, or_comm, Set.mem_insert_iff]
  · simp [lock, atKey]

@[simp] theorem lock_written : (session.lock key strength).written = session.written := rfl

@[simp] theorem write_locks : (session.write key row).locks = session.locks := rfl

theorem write_written : (session.write key row).written at' = if at' = key then some row else session.written at' := by
  simp [write, Function.update_apply]

end Frames

end Session

structure Store (Tx Key Row : Type) where
  committed : Key → Option Row
  sessions : Tx → Session Key Row

namespace Store
variable {Tx Key Row : Type}

section Statements
variable (store : Store Tx Key Row) (tx : Tx) (key : Key)

def view : Option Row := ((store.sessions tx).written key).getD (store.committed key)

def Holds (strength : Strength) : Prop := strength ∈ (store.sessions tx).locks key

/-- The locks a row is written under. -/
def Owns : Prop := store.Holds tx key .noKeyUpdate ∨ store.Holds tx key .update

def Grants (strength : Strength) : Prop := ∀ other, other ≠ tx → ∀ held, store.Holds other key held → conflicts held strength = false

variable [DecidableEq Tx]

def put (session : Session Key Row) : Store Tx Key Row := { store with sessions := Function.update store.sessions tx session }

def commit : Store Tx Key Row where
  committed := store.view tx
  sessions := Function.update store.sessions tx .idle

def rollback : Store Tx Key Row := store.put tx .idle

variable [DecidableEq Key]

def lock (strength : Strength) : Store Tx Key Row := store.put tx ((store.sessions tx).lock key strength)

def write (row : Option Row) : Store Tx Key Row := store.put tx ((store.sessions tx).write key row)

end Statements

/-- Locks of two transactions never conflict, and what is written is locked. -/
structure Consistent (store : Store Tx Key Row) : Prop where
  apart : ∀ one two, one ≠ two → ∀ key first second, store.Holds one key first → store.Holds two key second → conflicts first second = false
  owned : ∀ tx key, (store.sessions tx).written key ≠ none → store.Owns tx key
  removed : ∀ tx key, (store.sessions tx).written key = some none → store.Holds tx key .update

section Views
variable {store : Store Tx Key Row} {tx : Tx} {key : Key} {row : Option Row}

theorem view_of_unwritten (unwritten : (store.sessions tx).written key = none) : store.view tx key = store.committed key := by
  unfold view
  rw [unwritten]
  rfl

theorem view_of_written (written : (store.sessions tx).written key = some row) : store.view tx key = row := by
  unfold view
  rw [written]
  rfl

theorem view_idle (idle : store.sessions tx = .idle) : store.view tx = store.committed :=
  funext fun key => view_of_unwritten (by rw [idle]; rfl)

end Views

section Ends
variable [DecidableEq Tx] {store : Store Tx Key Row} {tx other : Tx}

@[simp] theorem commit_committed : (store.commit tx).committed = store.view tx := rfl

theorem rollback_session (different : other ≠ tx) : (store.rollback tx).sessions other = store.sessions other :=
  Function.update_of_ne different _ _

theorem commit_session (different : other ≠ tx) : (store.commit tx).sessions other = store.sessions other :=
  Function.update_of_ne different _ _

@[simp] theorem rollback_own : (store.rollback tx).sessions tx = .idle := Function.update_self _ _ _

@[simp] theorem commit_own : (store.commit tx).sessions tx = .idle := Function.update_self _ _ _

theorem commit_view (different : other ≠ tx) (key : Key) : (store.commit tx).view other key =
    ((store.sessions other).written key).getD (store.view tx key) := by
  unfold view
  rw [commit_session different]
  rfl

end Ends

section Frames
variable [DecidableEq Tx] [DecidableEq Key] {store : Store Tx Key Row} {tx other : Tx} {key at' : Key} {strength held : Strength}
  {row : Option Row}

@[simp] theorem lock_committed : (store.lock tx key strength).committed = store.committed := rfl

@[simp] theorem write_committed : (store.write tx key row).committed = store.committed := rfl

theorem lock_session (different : other ≠ tx) : (store.lock tx key strength).sessions other = store.sessions other :=
  Function.update_of_ne different _ _

theorem write_session (different : other ≠ tx) : (store.write tx key row).sessions other = store.sessions other :=
  Function.update_of_ne different _ _

@[simp] theorem lock_own : (store.lock tx key strength).sessions tx = (store.sessions tx).lock key strength := Function.update_self _ _ _

@[simp] theorem write_own : (store.write tx key row).sessions tx = (store.sessions tx).write key row := Function.update_self _ _ _

theorem lock_written : ((store.lock tx key strength).sessions other).written = (store.sessions other).written := by
  by_cases same : other = tx
  · subst same
    rw [lock_own, Session.lock_written]
  · rw [lock_session same]

theorem lock_view : (store.lock tx key strength).view other = store.view other := by
  funext at'
  unfold view
  rw [lock_written, lock_committed]

theorem write_locks : ((store.write tx key row).sessions other).locks = (store.sessions other).locks := by
  by_cases same : other = tx
  · subst same
    rw [write_own, Session.write_locks]
  · rw [write_session same]

theorem write_holds : (store.write tx key row).Holds other at' held ↔ store.Holds other at' held := by
  unfold Holds
  rw [write_locks]

theorem lock_holds : (store.lock tx key strength).Holds other at' held ↔
    store.Holds other at' held ∨ other = tx ∧ at' = key ∧ held = strength := by
  unfold Holds
  by_cases same : other = tx
  · subst same
    rw [lock_own, Session.mem_lock]
    simp
  · rw [lock_session same]
    simp [same]

theorem write_written : ((store.write tx key row).sessions tx).written at' =
    if at' = key then some row else (store.sessions tx).written at' := by
  rw [write_own, Session.write_written]

theorem write_view : (store.write tx key row).view tx at' = if at' = key then row else store.view tx at' := by
  unfold view
  rw [write_written, write_committed]
  split
  · rfl
  · rfl

end Frames

section Rules
variable {store : Store Tx Key Row} {tx other : Tx} {key : Key} {strength : Strength} {row : Option Row}

theorem conflicts_comm : ∀ first second, conflicts first second = conflicts second first := by
  intro first second
  cases first <;> cases second <;> rfl

theorem Consistent.idle (committed : Key → Option Row) : (⟨committed, fun _ => .idle⟩ : Store Tx Key Row).Consistent where
  apart _ _ _ _ first _ held := absurd held (Set.notMem_empty first)
  owned _ _ written := absurd rfl written
  removed _ _ written := by cases written

theorem Consistent.unwritten_of_held (consistent : store.Consistent) (different : other ≠ tx) (holds : store.Holds tx key strength)
    (whole : strength ≠ .keyShare) : (store.sessions other).written key = none := by
  by_contra written
  rcases consistent.owned other key written with theirs | theirs
  · have apart := consistent.apart tx other different.symm key _ _ holds theirs
    cases strength with
    | keyShare => exact whole rfl
    | share | noKeyUpdate | update => cases apart
  · have apart := consistent.apart tx other different.symm key _ _ holds theirs
    cases strength with
    | keyShare => exact whole rfl
    | share | noKeyUpdate | update => cases apart

theorem Consistent.unwritten (consistent : store.Consistent) (different : other ≠ tx) (owns : store.Owns tx key) :
    (store.sessions other).written key = none := by
  rcases owns with mine | mine
  · exact consistent.unwritten_of_held different mine (by decide)
  · exact consistent.unwritten_of_held different mine (by decide)

theorem Consistent.kept (consistent : store.Consistent) (different : other ≠ tx) (shares : store.Holds tx key .keyShare) :
    (store.sessions other).written key ≠ some none := fun removed =>
  absurd (consistent.apart other tx different key _ _ (consistent.removed other key removed) shares) (by decide)

theorem Consistent.not_shared (consistent : store.Consistent) (different : other ≠ tx) (holds : store.Holds tx key .update) :
    ¬store.Holds other key .keyShare := fun shares =>
  absurd (consistent.apart other tx different key _ _ shares holds) (by decide)

variable [DecidableEq Tx]

theorem Consistent.ended {after : Store Tx Key Row} (consistent : store.Consistent) (own : after.sessions tx = .idle)
    (others : ∀ other, other ≠ tx → after.sessions other = store.sessions other) : after.Consistent := by
  have holds : ∀ other at' held, after.Holds other at' held → other ≠ tx ∧ store.Holds other at' held := by
    intro other at' held isHeld
    unfold Holds at isHeld
    by_cases same : other = tx
    · rw [same, own] at isHeld
      exact absurd isHeld (Set.notMem_empty held)
    · rw [others other same] at isHeld
      exact ⟨same, isHeld⟩
  have written : ∀ other at', (after.sessions other).written at' ≠ none → after.sessions other = store.sessions other := by
    intro other at' isWritten
    by_cases same : other = tx
    · rw [same, own] at isWritten
      exact absurd rfl isWritten
    · exact others other same
  refine ⟨?_, ?_, ?_⟩
  · intro one two different at' first second isFirst isSecond
    exact consistent.apart one two different at' first second (holds one at' first isFirst).2 (holds two at' second isSecond).2
  · intro other at' isWritten
    have same := written other at' isWritten
    unfold Owns Holds
    rw [same] at isWritten ⊢
    exact consistent.owned other at' isWritten
  · intro other at' isWritten
    have same := written other at' (by rw [isWritten]; exact Option.some_ne_none _)
    unfold Holds
    rw [same] at isWritten ⊢
    exact consistent.removed other at' isWritten

theorem Consistent.commit (consistent : store.Consistent) : (store.commit tx).Consistent :=
  consistent.ended commit_own fun _ different => commit_session different

theorem Consistent.rollback (consistent : store.Consistent) : (store.rollback tx).Consistent :=
  consistent.ended rollback_own fun _ different => rollback_session different

theorem Consistent.committed_held (consistent : store.Consistent) (different : other ≠ tx) (holds : store.Holds other key strength)
    (whole : strength ≠ .keyShare) : (store.commit tx).committed key = store.committed key :=
  view_of_unwritten (consistent.unwritten_of_held different.symm holds whole)

theorem Consistent.committed_owned (consistent : store.Consistent) (different : other ≠ tx) (owns : store.Owns other key) :
    (store.commit tx).committed key = store.committed key :=
  view_of_unwritten (consistent.unwritten different.symm owns)

variable [DecidableEq Key]

theorem Consistent.lock (consistent : store.Consistent) (grants : store.Grants tx key strength) : (store.lock tx key strength).Consistent where
  apart one two different at' first second isFirst isSecond := by
    rw [lock_holds] at isFirst isSecond
    rcases isFirst with isFirst | ⟨rfl, rfl, rfl⟩
    · rcases isSecond with isSecond | ⟨rfl, rfl, rfl⟩
      · exact consistent.apart one two different at' first second isFirst isSecond
      · exact grants one different first isFirst
    · rcases isSecond with isSecond | ⟨rfl, -, -⟩
      · rw [conflicts_comm]
        exact grants two different.symm second isSecond
      · exact absurd rfl different
  owned other at' written := by
    rw [lock_written] at written
    rcases consistent.owned other at' written with noKey | update
    · exact .inl (lock_holds.mpr (.inl noKey))
    · exact .inr (lock_holds.mpr (.inl update))
  removed other at' written := by
    rw [lock_written] at written
    exact lock_holds.mpr (.inl (consistent.removed other at' written))

theorem Consistent.write (consistent : store.Consistent) (owns : store.Owns tx key) (removes : row = none → store.Holds tx key .update) :
    (store.write tx key row).Consistent where
  apart one two different at' first second isFirst isSecond :=
    consistent.apart one two different at' first second (write_holds.mp isFirst) (write_holds.mp isSecond)
  owned other at' written := by
    unfold Owns
    rw [write_holds, write_holds]
    by_cases same : other = tx
    · subst same
      rw [write_written] at written
      split at written
      next atKey => exact atKey ▸ owns
      next => exact consistent.owned other at' written
    · rw [write_session same] at written
      exact consistent.owned other at' written
  removed other at' written := by
    rw [write_holds]
    by_cases same : other = tx
    · subst same
      rw [write_written] at written
      split at written
      next atKey => exact atKey ▸ removes (Option.some.inj written)
      next => exact consistent.removed other at' written
    · rw [write_session same] at written
      exact consistent.removed other at' written

end Rules

end Store

end OpenShapeForge.Library.RowLocks
