import OpenShapeForge.Library.RowLocks

/-! How the committed rows of a store follow from one another, where no row is ever removed and
every statement makes of a row only what a given relation allows. -/

namespace OpenShapeForge.Library.RowLocks.Store
variable {Tx Key Row : Type} {follows : Row → Row → Prop}

structure Evolves (follows : Row → Row → Prop) (store : Store Tx Key Row) : Prop where
  kept : ∀ tx key, (store.sessions tx).written key ≠ some none
  written : ∀ tx key after, (store.sessions tx).written key = some (some after) →
    ∀ before, store.committed key = some before → follows before after

def Precedes (follows : Row → Row → Prop) (first second : Key → Option Row) : Prop :=
  ∀ key before, first key = some before → ∃ after, second key = some after ∧ follows before after

theorem Precedes.refl (refl : ∀ row, follows row row) (rows : Key → Option Row) : Precedes follows rows rows :=
  fun _ before isBefore => ⟨before, isBefore, refl before⟩

theorem Precedes.trans (trans : ∀ first second third, follows first second → follows second third → follows first third)
    {first second third : Key → Option Row} (one : Precedes follows first second) (two : Precedes follows second third) :
    Precedes follows first third := by
  intro key before isBefore
  obtain ⟨between, isBetween, early⟩ := one key before isBefore
  obtain ⟨after, isAfter, late⟩ := two key between isBetween
  exact ⟨after, isAfter, trans _ _ _ early late⟩

namespace Evolves
variable {store : Store Tx Key Row} {tx other : Tx} {key : Key} {before after : Row}

theorem idle (committed : Key → Option Row) : Evolves follows (⟨committed, fun _ => .idle⟩ : Store Tx Key Row) where
  kept tx key written := by cases written
  written tx key after written := by cases written

theorem precedes_view (evolves : Evolves follows store) (refl : ∀ row, follows row row) (tx : Tx) :
    Precedes follows store.committed (store.view tx) := by
  intro key before isBefore
  cases written : (store.sessions tx).written key with
  | none => exact ⟨before, (view_of_unwritten written).trans isBefore, refl before⟩
  | some row =>
    cases row with
    | none => exact absurd written (evolves.kept tx key)
    | some after => exact ⟨after, view_of_written written, evolves.written tx key after written before isBefore⟩

theorem absent (evolves : Evolves follows store) (unseen : store.view tx key = none) : store.committed key = none := by
  cases written : (store.sessions tx).written key with
  | none => exact (view_of_unwritten written).symm.trans unseen
  | some row =>
    rw [view_of_written written] at unseen
    exact absurd (unseen ▸ written) (evolves.kept tx key)

variable [DecidableEq Tx]

/-- The end of a transaction, for what the others have written. -/
theorem ended {next : Store Tx Key Row} (evolves : Evolves follows store) (own : next.sessions tx = .idle)
    (others : ∀ other, other ≠ tx → next.sessions other = store.sessions other)
    (committed : ∀ other, other ≠ tx → ∀ key, (store.sessions other).written key ≠ none → next.committed key = store.committed key) :
    Evolves follows next where
  kept other key removed := by
    by_cases same : other = tx
    · rw [same, own] at removed
      cases removed
    · rw [others other same] at removed
      exact evolves.kept other key removed
  written other key after written before isBefore := by
    by_cases same : other = tx
    · rw [same, own] at written
      cases written
    · rw [others other same] at written
      have isWritten : (store.sessions other).written key ≠ none := by
        rw [written]
        exact Option.some_ne_none _
      rw [committed other same key isWritten] at isBefore
      exact evolves.written other key after written before isBefore

theorem rollback (evolves : Evolves follows store) : Evolves follows (store.rollback tx) :=
  evolves.ended rollback_own (fun _ different => rollback_session different) fun _ _ _ _ => rfl

theorem commit (evolves : Evolves follows store) (consistent : store.Consistent) : Evolves follows (store.commit tx) :=
  evolves.ended commit_own (fun _ different => commit_session different) fun _ different key written =>
    consistent.committed_owned different (consistent.owned _ key written)

theorem commit_precedes (evolves : Evolves follows store) (refl : ∀ row, follows row row) :
    Precedes follows store.committed (store.commit tx).committed :=
  evolves.precedes_view refl tx

variable [DecidableEq Key]

theorem write (evolves : Evolves follows store) (fits : ∀ before, store.committed key = some before → follows before after) :
    Evolves follows ((store.lock tx key .update).write tx key (some after)) where
  kept other at' := by
    by_cases same : other = tx
    · subst same
      rw [write_written]
      split
      · simp
      · rw [lock_written]
        exact evolves.kept other at'
    · rw [write_session same, lock_written]
      exact evolves.kept other at'
  written other at' found written before isBefore := by
    rw [write_committed, lock_committed] at isBefore
    by_cases same : other = tx
    · subst same
      rw [write_written] at written
      split at written
      next atKey =>
        cases written
        exact fits before (atKey ▸ isBefore)
      next =>
        rw [lock_written] at written
        exact evolves.written other at' found written before isBefore
    · rw [write_session same, lock_written] at written
      exact evolves.written other at' found written before isBefore

/-- A row that a transaction sees is rewritten. -/
theorem put (evolves : Evolves follows store) (refl : ∀ row, follows row row)
    (trans : ∀ first second third, follows first second → follows second third → follows first third)
    (isBefore : store.view tx key = some before) (step : follows before after) :
    Evolves follows ((store.lock tx key .update).write tx key (some after)) := by
  refine evolves.write fun past isPast => ?_
  obtain ⟨seen, isSeen, early⟩ := evolves.precedes_view refl tx key past isPast
  cases isBefore.symm.trans isSeen
  exact trans _ _ _ early step

theorem insert (evolves : Evolves follows store) (unseen : store.view tx key = none) :
    Evolves follows ((store.lock tx key .update).write tx key (some after)) := by
  refine evolves.write fun past isPast => ?_
  rw [evolves.absent unseen] at isPast
  cases isPast

end Evolves

section Rewrites
variable {store : Store Tx Key Row} {tx other : Tx} {key at' : Key} {row : Row}

theorem grants_of_unlocked {strength : Strength} (unlocked : ∀ other, other ≠ tx → (store.sessions other).locks key = ∅) :
    store.Grants tx key strength := by
  intro other different held holds
  unfold Holds at holds
  rw [unlocked other different] at holds
  exact absurd holds (Set.notMem_empty held)

variable [DecidableEq Tx] [DecidableEq Key]

theorem Consistent.put (consistent : store.Consistent) (grants : store.Grants tx key .update) :
    ((store.lock tx key .update).write tx key (some row)).Consistent :=
  (consistent.lock grants).write (.inr (lock_holds.mpr (.inr ⟨rfl, rfl, rfl⟩))) fun none' => by cases none'

theorem put_view : ((store.lock tx key .update).write tx key (some row)).view tx at' = if at' = key then some row else store.view tx at' := by
  rw [write_view, lock_view]

theorem put_written : (((store.lock tx key .update).write tx key (some row)).sessions tx).written at' =
    if at' = key then some (some row) else (store.sessions tx).written at' := by
  rw [write_written, lock_written]

theorem put_written_other (different : other ≠ tx) :
    (((store.lock tx key .update).write tx key (some row)).sessions other).written = (store.sessions other).written := by
  rw [write_session different, lock_written]

end Rewrites

end OpenShapeForge.Library.RowLocks.Store
