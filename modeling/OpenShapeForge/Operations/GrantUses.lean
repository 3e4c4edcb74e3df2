import Mathlib.Data.List.Count
import OpenShapeForge.Library.Run
import OpenShapeForge.Library.RowHistory
import OpenShapeForge.Operations.CapabilityGrants

/-! A capability grant is used at most as often as it allows, over every run of the transactions
that resolve, consume, issue and revoke grants. -/

namespace OpenShapeForge.Operations.GrantUses
open Js Library Library.RowLocks CapabilityGrants

section Readings
variable {Id Recipient : Type} {row : Grant Id Recipient} {now : Time}

theorem mayConsume_iff : mayConsume row now = true ↔ capabilityGrantStatus row now = .active ∧ isLocked row now = false := by
  unfold mayConsume capabilityGrantStatus
  cases row.revokedAt with
  | some => simp
  | none =>
    cases row.consumedAt with
    | some => simp
    | none =>
      cases usedUp row.maxUses row.uses with
      | true => simp
      | false =>
        by_cases expired : row.expiresAt ≤ now
        · simp [expired]
        · simp [expired, not_le.mp expired]

theorem usedUp_iff {maxUses : Option Nat} {uses : Nat} : usedUp maxUses uses = true ↔ ∃ most, maxUses = some most ∧ most ≤ uses := by
  cases maxUses with
  | none => simp [usedUp]
  | some most => simp [usedUp]

theorem isLocked_iff : isLocked row now = true ↔ ∃ limit, row.lockedUntil = some limit ∧ now < limit := by
  unfold isLocked
  cases row.lockedUntil with
  | none => simp
  | some limit => simp

end Readings

section Revisions
variable {Tx Id Recipient : Type} {hashGrantSecret : Text → Text} {action : Action Tx Id Recipient} {before after : Grant Id Recipient}

/-- What a statement makes of a row that it finds. -/
inductive Revises (hashGrantSecret : Text → Text) : Action Tx Id Recipient → Grant Id Recipient → Grant Id Recipient → Prop
  | resolve {tx : Tx} {id : Id} {secret : Text} {operation : OperationShape} {now : Time} {row : Grant Id Recipient} :
      Revises hashGrantSecret (.resolve tx id secret operation now) row (resolve hashGrantSecret row secret operation now).1
  | consume {tx : Tx} {id : Id} {now : Time} {row : Grant Id Recipient} : mayConsume row now = true →
      Revises hashGrantSecret (.consume tx id now) row (consume row now)
  | retire {tx : Tx} {issue : Issue Id Recipient} {row : Grant Id Recipient} : issue.Supersedes row →
      Revises hashGrantSecret (.proceed tx) row (issue.retire row)
  | revoke {tx : Tx} {reason : Option Text} {now : Time} {row : Grant Id Recipient} :
      Revises hashGrantSecret (.proceed tx) row (revoke row reason now)

/-- How a later version of a row stands to an earlier one. -/
structure Follows (before after : Grant Id Recipient) : Prop where
  holder : after.holder = before.holder
  maxUses : after.maxUses = before.maxUses
  expiresAt : after.expiresAt = before.expiresAt
  uses : before.uses ≤ after.uses
  consumed : after.consumedAt = none → before.consumedAt = none
  revoked : after.revokedAt = none → before.revokedAt = none

theorem Follows.refl (row : Grant Id Recipient) : Follows row row := ⟨rfl, rfl, rfl, le_rfl, id, id⟩

theorem Follows.trans {first second third : Grant Id Recipient} (one : Follows first second) (two : Follows second third) :
    Follows first third where
  holder := two.holder.trans one.holder
  maxUses := two.maxUses.trans one.maxUses
  expiresAt := two.expiresAt.trans one.expiresAt
  uses := one.uses.trans two.uses
  consumed unset := one.consumed (two.consumed unset)
  revoked unset := one.revoked (two.revoked unset)

/-- A use is counted within what is allowed, and the last one closes the grant. -/
structure Sound (row : Grant Id Recipient) : Prop where
  within : ∀ most, row.maxUses = some most → row.uses ≤ most
  consumed : row.consumedAt.isSome = usedUp row.maxUses row.uses

theorem Sound.of_same (sound : Sound before) (maxUses : after.maxUses = before.maxUses) (uses : after.uses = before.uses)
    (consumedAt : after.consumedAt = before.consumedAt) : Sound after where
  within most isMost := uses ▸ sound.within most (maxUses ▸ isMost)
  consumed := by
    rw [maxUses, uses, consumedAt]
    exact sound.consumed

theorem Sound.consumed_iff (sound : Sound before) : before.consumedAt ≠ none ↔ before.maxUses = some before.uses := by
  rw [← Option.isSome_iff_ne_none, sound.consumed, usedUp_iff]
  constructor
  · rintro ⟨most, isMost, reached⟩
    rw [isMost, le_antisymm (sound.within most isMost) reached]
  · exact fun isMost => ⟨before.uses, isMost, le_rfl⟩

theorem sound_consume {now : Time} (allowed : mayConsume before now = true) : Sound (consume before now) := by
  simp only [mayConsume, Bool.and_eq_true, Bool.not_eq_true'] at allowed
  obtain ⟨⟨⟨⟨-, unconsumed⟩, open'⟩, -⟩, -⟩ := allowed
  refine ⟨fun most isMost => ?_, ?_⟩
  · have allows : before.maxUses = some most := isMost
    have below : ¬most ≤ before.uses := fun reached => by
      rw [usedUp_iff.mpr ⟨most, allows, reached⟩] at open'
      cases open'
    change before.uses + 1 ≤ most
    omega
  · change (if usedUp before.maxUses (before.uses + 1) then some now else before.consumedAt).isSome = usedUp before.maxUses (before.uses + 1)
    split
    next last => exact last.symm
    next more =>
      rw [Option.isNone_iff_eq_none.mp unconsumed]
      exact (Bool.eq_false_iff.mpr more).symm

theorem Sound.issue (issue : Issue Id Recipient) : Sound (issue.row hashGrantSecret) where
  within _ _ := Nat.zero_le _
  consumed := by
    have fresh : usedUp issue.maxUses 0 ≠ true := fun reached => by
      obtain ⟨most, isMost, none'⟩ := usedUp_iff.mp reached
      have := issue.positive most isMost
      omega
    exact (Bool.eq_false_iff.mpr fresh).symm

theorem resolve_cases (hashGrantSecret : Text → Text) (row : Grant Id Recipient) (secret : Text) (operation : OperationShape) (now : Time) :
    ∃ attempts window limit, (resolve hashGrantSecret row secret operation now).1 =
      { row with failedAttempts := attempts, windowStartedAt := window, lockedUntil := limit } ∧
      (isLocked row now = true → limit = row.lockedUntil) := by
  have cleared : ∃ attempts window limit, (if 0 < row.failedAttempts || row.lockedUntil.isSome then
      { row with failedAttempts := 0, windowStartedAt := none, lockedUntil := none } else row) =
      { row with failedAttempts := attempts, windowStartedAt := window, lockedUntil := limit } := by
    split
    · exact ⟨_, _, _, rfl⟩
    · exact ⟨_, _, _, rfl⟩
  unfold resolve
  cases locked : isLocked row now with
  | true => exact ⟨_, _, _, rfl, fun _ => rfl⟩
  | false =>
    have never : ∀ limit, False → limit = row.lockedUntil := fun _ => False.elim
    simp only [Bool.false_eq_true, if_false]
    split
    · exact ⟨_, _, _, rfl, never _⟩
    · obtain ⟨attempts, window, limit, same⟩ := cleared
      split
      · exact ⟨attempts, window, limit, same, never limit⟩
      · split
        · exact ⟨attempts, window, limit, same, never limit⟩
        · split
          · exact ⟨attempts, window, limit, same, never limit⟩
          · exact ⟨attempts, window, limit, same, never limit⟩

theorem Revises.follows (revises : Revises hashGrantSecret action before after) : Follows before after := by
  cases revises with
  | @resolve _ _ secret operation now =>
    obtain ⟨attempts, window, limit, same, -⟩ := resolve_cases hashGrantSecret before secret operation now
    rw [same]
    exact ⟨rfl, rfl, rfl, le_rfl, id, id⟩
  | @consume _ _ now _ allowed =>
    refine ⟨rfl, rfl, rfl, Nat.le_succ _, fun unset => ?_, id⟩
    change (if usedUp before.maxUses (before.uses + 1) then some now else before.consumedAt) = none at unset
    split at unset
    · cases unset
    · exact unset
  | retire supersedes => exact ⟨rfl, rfl, rfl, le_rfl, id, fun unset => by cases unset⟩
  | revoke =>
    unfold CapabilityGrants.revoke
    split
    · exact ⟨rfl, rfl, rfl, le_rfl, id, fun unset => by cases unset⟩
    · exact Follows.refl before

def Locks (now : Time) (before after : Grant Id Recipient) : Prop :=
  ∀ limit, before.lockedUntil = some limit → now < limit → after.lockedUntil = some limit

theorem Locks.refl (now : Time) (row : Grant Id Recipient) : Locks now row row := fun _ locks _ => locks

theorem Locks.trans {now : Time} {first second third : Grant Id Recipient} (one : Locks now first second) (two : Locks now second third) :
    Locks now first third := fun limit locks inForce => two limit (one limit locks inForce) inForce

theorem Revises.locked (revises : Revises hashGrantSecret action before after) {now : Time}
    (early : ∀ tx id secret operation at', action = .resolve tx id secret operation at' → at' ≤ now) : Locks now before after := by
  intro limit locks inForce
  cases revises with
  | @resolve tx id secret operation at' =>
    obtain ⟨attempts, window, left, same, kept⟩ := resolve_cases hashGrantSecret before secret operation at'
    rw [same]
    exact (kept (isLocked_iff.mpr ⟨limit, locks, (early tx id secret operation at' rfl).trans_lt inForce⟩)).trans locks
  | consume => exact locks
  | retire => exact locks
  | revoke =>
    unfold CapabilityGrants.revoke
    split
    · exact locks
    · exact locks

theorem Revises.sound (revises : Revises hashGrantSecret action before after) (sound : Sound before) : Sound after := by
  cases revises with
  | @resolve _ _ secret operation now =>
    obtain ⟨attempts, window, limit, same, -⟩ := resolve_cases hashGrantSecret before secret operation now
    rw [same]
    exact sound.of_same rfl rfl rfl
  | consume allowed => exact sound_consume allowed
  | retire => exact sound.of_same rfl rfl rfl
  | revoke =>
    unfold CapabilityGrants.revoke
    split
    · exact sound.of_same rfl rfl rfl
    · exact sound

end Revisions

section Moves
variable {Tx Id Recipient : Type} [DecidableEq Tx] [DecidableEq Id] {hashGrantSecret : Text → Text}
  {state next : State Tx Id Recipient} {action : Action Tx Id Recipient} {follows : Grant Id Recipient → Grant Id Recipient → Prop}

/-- What a step does to the rows. -/
inductive Moves (hashGrantSecret : Text → Text) (grants : Store Tx Id (Grant Id Recipient)) :
    Action Tx Id Recipient → Store Tx Id (Grant Id Recipient) → Prop
  | put {action : Action Tx Id Recipient} {tx : Tx} {id : Id} {before after : Grant Id Recipient} : grants.Grants tx id .update →
      grants.view tx id = some before → Revises hashGrantSecret action before after →
      Moves hashGrantSecret grants action ((grants.lock tx id .update).write tx id (some after))
  | insert {tx : Tx} {issue : Issue Id Recipient} : grants.Grants tx issue.id .update → grants.view tx issue.id = none →
      Moves hashGrantSecret grants (.proceed tx) ((grants.lock tx issue.id .update).write tx issue.id (some (issue.row hashGrantSecret)))
  | same {action : Action Tx Id Recipient} : Moves hashGrantSecret grants action grants
  | commit {tx : Tx} : Moves hashGrantSecret grants (.commit tx) (grants.commit tx)
  | abort {tx : Tx} : Moves hashGrantSecret grants (.abort tx) (grants.rollback tx)

theorem moves (step : Step hashGrantSecret state action next) : Moves hashGrantSecret state.grants action next.grants := by
  cases step with
  | resolve _ grants isRow => exact .put grants isRow .resolve
  | consume _ _ grants isRow allowed => exact .put grants isRow (.consume allowed)
  | issue => exact .same
  | issueBeside => exact .same
  | retire _ grants isRow supersedes => exact .put grants isRow (.retire supersedes)
  | pass => exact .same
  | insert _ grants unseen => exact .insert grants unseen
  | revoke => exact .same
  | revokeRow _ grants isRow => exact .put grants isRow .revoke
  | commit => exact .commit
  | abort => exact .abort
  | tick => exact .same

variable {grants after : Store Tx Id (Grant Id Recipient)}

theorem Moves.consistent (moves : Moves hashGrantSecret grants action after) (consistent : grants.Consistent) : after.Consistent := by
  cases moves with
  | put free => exact consistent.put free
  | insert free => exact consistent.put free
  | same => exact consistent
  | commit => exact consistent.commit
  | abort => exact consistent.rollback

theorem Moves.evolves (moves : Moves hashGrantSecret grants action after) (refl : ∀ row, follows row row)
    (trans : ∀ first second third, follows first second → follows second third → follows first third)
    (revised : ∀ {before after}, Revises hashGrantSecret action before after → follows before after)
    (consistent : grants.Consistent) (evolves : Store.Evolves follows grants) :
    Store.Evolves follows after ∧ Store.Precedes follows grants.committed after.committed := by
  cases moves with
  | put _ isRow revises => exact ⟨evolves.put refl trans isRow (revised revises), .refl refl _⟩
  | insert _ unseen => exact ⟨evolves.insert unseen, .refl refl _⟩
  | same => exact ⟨evolves, .refl refl _⟩
  | commit => exact ⟨evolves.commit consistent, evolves.commit_precedes refl⟩
  | abort => exact ⟨evolves.rollback, .refl refl _⟩

end Moves

section Counts
variable {Tx Id Recipient : Type} [DecidableEq Id] {hashGrantSecret : Text → Text} {state next : State Tx Id Recipient}
  {action : Action Tx Id Recipient} {tx other : Tx} {id at' : Id} {row : Grant Id Recipient} {count : Option Id}

def ownUses (count : Option Id) (id : Id) : Nat := if count = some id then 1 else 0

theorem count_toList (count : Option Id) (id : Id) : count.toList.count id = ownUses count id := by
  cases count with
  | none => rfl
  | some used =>
    by_cases same : used = id
    · simp [ownUses, same]
    · simp [ownUses, same]

/-- Every use that a row counts is one of a committed transaction, or of the open one that wrote the row. -/
structure Counted (state : State Tx Id Recipient) : Prop where
  consistent : state.grants.Consistent
  evolves : Store.Evolves Follows state.grants
  committed : ∀ id row, state.grants.committed id = some row → Sound row ∧ row.uses = state.settled.count id
  written : ∀ tx id row, (state.grants.sessions tx).written id = some (some row) →
    Sound row ∧ row.uses = state.settled.count id + ownUses (state.consuming tx) id
  consuming : ∀ tx id, state.consuming tx = some id → (state.grants.sessions tx).written id ≠ none
  unknown : ∀ id, state.grants.committed id = none → state.settled.count id = 0

theorem counted_empty (clock : Time) : Counted (State.empty clock : State Tx Id Recipient) where
  consistent := .idle _
  evolves := .idle _
  committed _ _ isRow := by cases isRow
  written _ _ _ isRow := by cases isRow
  consuming _ _ isCount := by cases isCount
  unknown _ _ := rfl

theorem Counted.view (counted : Counted state) (isRow : state.grants.view tx id = some row) :
    Sound row ∧ row.uses = state.settled.count id + ownUses (state.consuming tx) id := by
  cases written : (state.grants.sessions tx).written id with
  | none =>
    rw [Store.view_of_unwritten written] at isRow
    have unused : ownUses (state.consuming tx) id = 0 := if_neg fun uses => counted.consuming tx id uses written
    rw [unused]
    exact counted.committed id row isRow
  | some found =>
    rw [Store.view_of_written written] at isRow
    subst isRow
    exact counted.written tx id row written

theorem Counted.unseen (counted : Counted state) (unseen : state.grants.view tx id = none) :
    state.settled.count id = 0 ∧ ownUses (state.consuming tx) id = 0 := by
  refine ⟨counted.unknown id (counted.evolves.absent unseen), if_neg fun uses => ?_⟩
  cases written : (state.grants.sessions tx).written id with
  | none => exact counted.consuming tx id uses written
  | some found =>
    rw [Store.view_of_written written] at unseen
    exact counted.evolves.kept tx id (unseen ▸ written)

theorem Counted.of_same (counted : Counted state) (grants : next.grants = state.grants) (settled : next.settled = state.settled)
    (consuming : next.consuming = state.consuming) : Counted next := by
  constructor
  · exact grants ▸ counted.consistent
  · exact grants ▸ counted.evolves
  · rw [grants, settled]
    exact counted.committed
  · rw [grants, settled, consuming]
    exact counted.written
  · rw [grants, consuming]
    exact counted.consuming
  · rw [grants, settled]
    exact counted.unknown

variable [DecidableEq Tx]

theorem Counted.put (counted : Counted state) (free : state.grants.Grants tx id .update)
    (grants : next.grants = (state.grants.lock tx id .update).write tx id (some row)) (settled : next.settled = state.settled)
    (consuming : next.consuming = Function.update state.consuming tx count)
    (mine : count = state.consuming tx ∨ state.consuming tx = none ∧ count = some id) (evolves : Store.Evolves Follows next.grants)
    (sound : Sound row) (uses : row.uses = state.settled.count id + ownUses count id) : Counted next where
  consistent := grants ▸ counted.consistent.put free
  evolves := evolves
  committed := by
    rw [grants, settled]
    exact counted.committed
  written other at' found written := by
    rw [settled, consuming]
    rw [grants] at written
    by_cases same : other = tx
    · subst same
      rw [Store.put_written] at written
      rw [Function.update_self]
      split at written
      next atId =>
        cases written
        exact atId ▸ ⟨sound, uses⟩
      next elsewhere =>
        have kept : ownUses count at' = ownUses (state.consuming other) at' := by
          rcases mine with same | ⟨fresh, isId⟩
          · rw [same]
          · rw [fresh, isId]
            simp [ownUses, Ne.symm elsewhere]
        rw [kept]
        exact counted.written other at' found written
    · rw [Store.put_written_other same] at written
      rw [Function.update_of_ne same]
      exact counted.written other at' found written
  consuming other at' isCount := by
    rw [grants]
    rw [consuming] at isCount
    by_cases same : other = tx
    · subst same
      rw [Function.update_self] at isCount
      rw [Store.put_written]
      split
      · exact Option.some_ne_none _
      next elsewhere =>
        rcases mine with same | ⟨-, isId⟩
        · exact counted.consuming other at' (same ▸ isCount)
        · exact absurd (Option.some.inj (isCount.symm.trans isId)) elsewhere
    · rw [Function.update_of_ne same] at isCount
      rw [Store.put_written_other same]
      exact counted.consuming other at' isCount
  unknown := by
    rw [grants, settled]
    exact counted.unknown

theorem Counted.commit (counted : Counted state) : Counted (state.commit tx) where
  consistent := counted.consistent.commit
  evolves := counted.evolves.commit counted.consistent
  committed id row isRow := by
    change _ ∧ _ = (state.settled ++ (state.consuming tx).toList).count id
    rw [List.count_append, count_toList]
    exact counted.view isRow
  written other id row written := by
    change _ ∧ _ = (state.settled ++ (state.consuming tx).toList).count id + ownUses (Function.update state.consuming tx none other) id
    change ((state.grants.commit tx).sessions other).written id = _ at written
    by_cases same : other = tx
    · rw [same, Store.commit_own] at written
      cases written
    · rw [Store.commit_session same] at written
      have unshared : ownUses (state.consuming tx) id = 0 := if_neg fun uses => by
        have owns := counted.consistent.owned tx id (counted.consuming tx id uses)
        rw [counted.consistent.unwritten same owns] at written
        cases written
      rw [List.count_append, count_toList, unshared, Function.update_of_ne same, Nat.add_zero]
      exact counted.written other id row written
  consuming other id isCount := by
    change Function.update state.consuming tx none other = some id at isCount
    change ((state.grants.commit tx).sessions other).written id ≠ none
    by_cases same : other = tx
    · rw [same, Function.update_self] at isCount
      cases isCount
    · rw [Function.update_of_ne same] at isCount
      rw [Store.commit_session same]
      exact counted.consuming other id isCount
  unknown id unseen := by
    change (state.settled ++ (state.consuming tx).toList).count id = 0
    obtain ⟨unsettled, unused⟩ := counted.unseen (unseen : state.grants.view tx id = none)
    rw [List.count_append, count_toList, unsettled, unused]

theorem Counted.rollback (counted : Counted state) : Counted (state.rollback tx) where
  consistent := counted.consistent.rollback
  evolves := counted.evolves.rollback
  committed := counted.committed
  written other id row written := by
    change _ ∧ _ = state.settled.count id + ownUses (Function.update state.consuming tx none other) id
    change ((state.grants.rollback tx).sessions other).written id = _ at written
    by_cases same : other = tx
    · rw [same, Store.rollback_own] at written
      cases written
    · rw [Store.rollback_session same] at written
      rw [Function.update_of_ne same]
      exact counted.written other id row written
  consuming other id isCount := by
    change Function.update state.consuming tx none other = some id at isCount
    change ((state.grants.rollback tx).sessions other).written id ≠ none
    by_cases same : other = tx
    · rw [same, Function.update_self] at isCount
      cases isCount
    · rw [Function.update_of_ne same] at isCount
      rw [Store.rollback_session same]
      exact counted.consuming other id isCount
  unknown := counted.unknown

theorem Counted.revise (counted : Counted state) (step : Step hashGrantSecret state action next) (free : state.grants.Grants tx id .update)
    {before : Grant Id Recipient} (isRow : state.grants.view tx id = some before) (revises : Revises hashGrantSecret action before row)
    (uses : row.uses = before.uses) (grants : next.grants = (state.grants.lock tx id .update).write tx id (some row))
    (settled : next.settled = state.settled) (consuming : next.consuming = state.consuming) : Counted next := by
  obtain ⟨sound, isUses⟩ := counted.view isRow
  have evolves := ((moves step).evolves Follows.refl (fun _ _ _ => Follows.trans) Revises.follows counted.consistent counted.evolves).1
  have kept : next.consuming = Function.update state.consuming tx (state.consuming tx) :=
    consuming.trans (Function.update_eq_self _ _).symm
  exact counted.put free grants settled kept (.inl rfl) evolves (revises.sound sound) (uses.trans isUses)

theorem Counted.step (counted : Counted state) (step : Step hashGrantSecret state action next) : Counted next := by
  have evolves := ((moves step).evolves Follows.refl (fun _ _ _ => Follows.trans) Revises.follows counted.consistent counted.evolves).1
  have whole := step
  cases step with
  | @resolve tx id secret operation now row _ free isRow =>
    obtain ⟨attempts, window, limit, same, -⟩ := resolve_cases hashGrantSecret row secret operation now
    exact counted.revise whole free isRow .resolve (by rw [same]) rfl rfl rfl
  | @consume tx id now row _ fresh free isRow allowed =>
    obtain ⟨-, uses⟩ := counted.view isRow
    refine counted.put free rfl rfl rfl (.inr ⟨fresh, rfl⟩) evolves (sound_consume allowed) ?_
    rw [fresh] at uses
    simpa [ownUses, CapabilityGrants.consume] using uses
  | issue => exact counted.of_same rfl rfl rfl
  | issueBeside => exact counted.of_same rfl rfl rfl
  | retire _ free isRow supersedes => exact counted.revise whole free isRow (.retire supersedes) rfl rfl rfl rfl
  | pass => exact counted.of_same rfl rfl rfl
  | @insert tx issue _ free unseen =>
    obtain ⟨unsettled, unused⟩ := counted.unseen unseen
    have kept : state.consuming = Function.update state.consuming tx (state.consuming tx) := (Function.update_eq_self _ _).symm
    refine counted.put free rfl rfl kept (.inl rfl) evolves (Sound.issue issue) ?_
    rw [unsettled, unused]
    rfl
  | revoke => exact counted.of_same rfl rfl rfl
  | @revokeRow tx id reason now row _ free isRow =>
    have revises : Revises hashGrantSecret (.proceed tx) row (CapabilityGrants.revoke row reason now) := .revoke
    refine counted.revise whole free isRow revises ?_ rfl rfl rfl
    unfold CapabilityGrants.revoke
    split
    · rfl
    · rfl
  | commit => exact counted.commit
  | abort => exact counted.rollback
  | tick => exact counted.of_same rfl rfl rfl

end Counts

section Runs
variable {Tx Id Recipient : Type} [DecidableEq Tx] [DecidableEq Id] {hashGrantSecret : Text → Text} {state final : State Tx Id Recipient}
  {labels : List (Action Tx Id Recipient)} {clock : Time}

theorem counted_run (run : Run (Step hashGrantSecret) (State.empty clock) labels final) : Counted final :=
  run.invariant Counted (counted_empty clock) Counted.step

theorem precedes_run {follows : Grant Id Recipient → Grant Id Recipient → Prop} (refl : ∀ row, follows row row)
    (trans : ∀ first second third, follows first second → follows second third → follows first third)
    (consistent : state.grants.Consistent) (evolves : Store.Evolves follows state.grants) (run : Run (Step hashGrantSecret) state labels final)
    (revised : ∀ action ∈ labels, ∀ before after, Revises hashGrantSecret action before after → follows before after) :
    final.grants.Consistent ∧ Store.Evolves follows final.grants ∧ Store.Precedes follows state.grants.committed final.grants.committed := by
  induction run with
  | start => exact ⟨consistent, evolves, .refl refl _⟩
  | @step past middle label next before taken ih =>
    obtain ⟨sane, sofar, early⟩ := ih fun action member => revised action (List.mem_append_left _ member)
    have last := revised label (List.mem_append_right _ (List.mem_singleton_self label))
    obtain ⟨still, late⟩ := (moves taken).evolves refl trans (fun revises => last _ _ revises) sane sofar
    exact ⟨(moves taken).consistent sane, still, early.trans trans late⟩

theorem precedes_seen {follows : Grant Id Recipient → Grant Id Recipient → Prop} (refl : ∀ row, follows row row)
    (trans : ∀ first second third, follows first second → follows second third → follows first third)
    {past rest : List (Action Tx Id Recipient)} {middle : State Tx Id Recipient}
    (early : Run (Step hashGrantSecret) (State.empty clock) past middle) (late : Run (Step hashGrantSecret) middle rest final)
    (revised : ∀ action ∈ past ++ rest, ∀ before after, Revises hashGrantSecret action before after → follows before after) (tx : Tx) :
    Store.Precedes follows middle.grants.committed (final.grants.view tx) := by
  obtain ⟨sane, sofar, -⟩ := precedes_run refl trans (counted_empty clock).consistent (.idle _) early
    fun action member => revised action (List.mem_append_left rest member)
  obtain ⟨-, evolves, precedes⟩ := precedes_run refl trans sane sofar late
    fun action member => revised action (List.mem_append_right past member)
  exact precedes.trans trans (evolves.precedes_view refl tx)

def ResolvedBy (now : Time) (labels : List (Action Tx Id Recipient)) : Prop :=
  ∀ tx id secret operation at', Action.resolve tx id secret operation at' ∈ labels → at' ≤ now

theorem consume_allowed {tx : Tx} {id : Id} {now : Time} {next : State Tx Id Recipient} {row : Grant Id Recipient}
    (step : Step hashGrantSecret state (.consume tx id now) next) (isRow : state.grants.view tx id = some row) : mayConsume row now = true := by
  cases step with
  | consume _ _ _ isFound allowed =>
    cases isRow.symm.trans isFound
    exact allowed

theorem consumed_live {past rest : List (Action Tx Id Recipient)} {middle next : State Tx Id Recipient}
    (early : Run (Step hashGrantSecret) (State.empty clock) past middle) (late : Run (Step hashGrantSecret) middle rest final)
    {tx : Tx} {id : Id} {now : Time} (step : Step hashGrantSecret final (.consume tx id now) next) {row : Grant Id Recipient}
    (isRow : middle.grants.committed id = some row) : row.revokedAt = none ∧ now < row.expiresAt := by
  obtain ⟨seen, isSeen, follows⟩ := precedes_seen Follows.refl (fun _ _ _ => Follows.trans) early late
    (fun _ _ _ _ revises => revises.follows) tx id row isRow
  have allowed := consume_allowed step isSeen
  simp only [mayConsume, Bool.and_eq_true, Option.isNone_iff_eq_none, decide_eq_true_eq] at allowed
  obtain ⟨⟨⟨⟨unrevoked, -⟩, -⟩, lasting⟩, -⟩ := allowed
  exact ⟨follows.revoked unrevoked, follows.expiresAt ▸ lasting⟩

theorem consumed_unlocked {past rest : List (Action Tx Id Recipient)} {middle next : State Tx Id Recipient}
    (early : Run (Step hashGrantSecret) (State.empty clock) past middle) (late : Run (Step hashGrantSecret) middle rest final)
    {tx : Tx} {id : Id} {now : Time} (step : Step hashGrantSecret final (.consume tx id now) next) (resolved : ResolvedBy now (past ++ rest))
    {row : Grant Id Recipient} (isRow : middle.grants.committed id = some row) : isLocked row now = false := by
  have revised : ∀ action ∈ past ++ rest, ∀ before after : Grant Id Recipient, Revises hashGrantSecret action before after →
      Locks now before after := fun action member before after revises =>
    revises.locked fun tx id secret operation at' same => resolved tx id secret operation at' (same ▸ member)
  obtain ⟨seen, isSeen, locks⟩ := precedes_seen (Locks.refl now) (fun _ _ _ => Locks.trans) early late revised tx id row isRow
  have allowed := consume_allowed step isSeen
  by_contra locked
  obtain ⟨limit, isLimit, inForce⟩ := isLocked_iff.mp (Bool.eq_true_of_not_eq_false locked)
  have still := isLocked_iff.mpr ⟨limit, locks limit isLimit inForce, inForce⟩
  rw [(mayConsume_iff.mp allowed).2] at still
  cases still

/-- Uses are those of the committed transactions, never more than allowed, and each was counted
while the grant was live. -/
theorem used_as_allowed (run : Run (Step hashGrantSecret) (State.empty clock) labels final) :
    (∀ id row, final.grants.committed id = some row → row.uses = final.settled.count id ∧
      (∀ most, row.maxUses = some most → row.uses ≤ most) ∧ (row.consumedAt ≠ none ↔ row.maxUses = some row.uses)) ∧
    (∀ tx next, Step hashGrantSecret final (.abort tx) next →
      next.grants.committed = final.grants.committed ∧ next.settled = final.settled) ∧
    ∀ tx id now next, Step hashGrantSecret final (.consume tx id now) next →
      (∀ row, final.grants.view tx id = some row → isLocked row now = false) ∧
      ∀ past rest middle, Run (Step hashGrantSecret) (State.empty clock) past middle → Run (Step hashGrantSecret) middle rest final →
        ∀ row, middle.grants.committed id = some row → row.revokedAt = none ∧ now < row.expiresAt ∧
          (ResolvedBy now (past ++ rest) → isLocked row now = false) := by
  have counted := counted_run run
  refine ⟨fun id row isRow => ?_, fun tx next step => ?_, fun tx id now next step => ⟨fun row isRow => ?_, ?_⟩⟩
  · obtain ⟨sound, uses⟩ := counted.committed id row isRow
    exact ⟨uses, sound.within, sound.consumed_iff⟩
  · cases step with
    | abort => exact ⟨rfl, rfl⟩
  · exact (mayConsume_iff.mp (consume_allowed step isRow)).2
  · intro past rest middle early late row isRow
    obtain ⟨unrevoked, lasting⟩ := consumed_live early late step isRow
    exact ⟨unrevoked, lasting, fun resolved => consumed_unlocked early late step resolved isRow⟩

end Runs

section Instances

def sign : OperationShape := ⟨js "envelopes.envelope.sign", some (js "Envelope")⟩

def signingLink : Issue Nat Unit where
  id := 0
  secret := js "correct"
  operations := [sign.key]
  subjectEntity := js "Envelope"
  subjectId := 7
  recipient := ()
  expiresAt := 10000000
  maxUses := some 2
  supersede := false
  now := 0
  future := by decide
  positive := by decide

def linkRow : Grant Nat Unit := signingLink.row id

/-- A resolution of the link and its commit, one transaction after another. -/
def resolved (state : State Unit Nat Unit) (row : Grant Nat Unit) (secret : Text) (now : Time) : State Unit Nat Unit :=
  (state.put () 0 (resolve id row secret sign now).1).commit ()

def linkSent : State Unit Nat Unit :=
  ((((State.empty 0).enter () (some (.issuing signingLink []))).put () 0 linkRow).enter () none).commit ()

structure Rests (state : State Unit Nat Unit) (row : Grant Nat Unit) : Prop where
  calls : state.calls () = none
  consuming : state.consuming () = none
  seen : state.grants.view () 0 = some row
  committed : state.grants.committed 0 = some row

theorem only_one {state : State Unit Nat Unit} {key : Nat} : state.grants.Grants () key .update :=
  fun other different => absurd (Subsingleton.elim other ()) different

theorem linkSent_run : Run (Step id) (State.empty 0) [.issue () signingLink, .proceed (), .commit ()] linkSent :=
  .cons (.issueBeside rfl rfl) (.cons (.insert rfl only_one rfl) (.cons (.commit rfl) .start))

theorem linkSent_rests : Rests linkSent linkRow := ⟨rfl, rfl, rfl, rfl⟩

theorem Rests.resolve {state : State Unit Nat Unit} {row : Grant Nat Unit} (rests : Rests state row) (secret : Text) (now : Time) :
    Run (Step id) state [.resolve () 0 secret sign now, .commit ()] (resolved state row secret now) ∧
      Rests (resolved state row secret now) (CapabilityGrants.resolve id row secret sign now).1 := by
  have kept : (resolved state row secret now).grants.committed 0 = some (CapabilityGrants.resolve id row secret sign now).1 := by
    change ((state.grants.lock () 0 .update).write () 0 (some _)).view () 0 = some _
    rw [Store.put_view]
    exact if_pos rfl
  have written : (resolved state row secret now).grants.view () 0 = some (CapabilityGrants.resolve id row secret sign now).1 := by
    have idle : (resolved state row secret now).grants.sessions () = .idle := Store.commit_own
    rw [Store.view_idle idle]
    exact kept
  exact ⟨.cons (.resolve rests.calls only_one rests.seen) (.cons (.commit rests.calls) .start), rests.calls, rfl, written, kept⟩

theorem Rests.guess {state : State Unit Nat Unit} {row : Grant Nat Unit} (rests : Rests state row) (times : Nat) :
    ∃ labels next, Run (Step id) state labels next ∧
      Rests next ((fun row => (CapabilityGrants.resolve id row (js "wrong") sign 0).1)^[times] row) := by
  induction times generalizing state row with
  | zero => exact ⟨[], state, .start, rests⟩
  | succ times ih =>
    obtain ⟨first, after⟩ := rests.resolve (js "wrong") 0
    obtain ⟨labels, next, run, resting⟩ := ih after
    exact ⟨_, next, first.append run, resting⟩

def guessed : Grant Nat Unit := (fun row => (resolve id row (js "wrong") sign 0).1)^[5] linkRow

def lifted : Grant Nat Unit := (resolve id guessed (js "correct") sign 900000).1

/-- The link is opened once with the right secret, and signed. -/
def signed : State Unit Nat Unit :=
  (((resolved linkSent linkRow (js "correct") 1).put () 0 (consume (resolve id linkRow (js "correct") sign 1).1 2)).count () 0).commit ()

theorem signed_run : Run (Step id) (State.empty 0) ([.issue () signingLink, .proceed (), .commit ()] ++
    ([.resolve () 0 (js "correct") sign 1, .commit ()] ++ [.consume () 0 2, .commit ()])) signed := by
  obtain ⟨opened, rests⟩ := linkSent_rests.resolve (js "correct") 1
  have allowed : mayConsume (resolve id linkRow (js "correct") sign 1).1 2 = true := by decide +kernel
  exact linkSent_run.append (opened.append
    (.cons (.consume rests.calls rests.consuming only_one rests.seen allowed) (.cons (.commit rests.calls) .start)))

theorem used_as_allowed_signed : (consume (resolve id linkRow (js "correct") sign 1).1 2).uses = 1 :=
  ((used_as_allowed signed_run).1 0 (consume (resolve id linkRow (js "correct") sign 1).1 2) rfl).1

/-- The lock that five wrong secrets bring is in force at 0. A right secret lifts it when it is
over, and a use that still judges by 0 is then counted and committed. -/
theorem use_before_lock_ends : ∃ past rest : List (Action Unit Nat Unit), ∃ middle final next, ∃ row : Grant Nat Unit,
    Run (Step id) (State.empty 0) past middle ∧ Run (Step id) middle rest final ∧ Run (Step id) final [.consume () 0 0, .commit ()] next ∧
      middle.grants.committed 0 = some row ∧ isLocked row 0 = true := by
  obtain ⟨guesses, middle, run, rests⟩ := linkSent_rests.guess 5
  obtain ⟨opened, after⟩ := rests.resolve (js "correct") 900000
  have allowed : mayConsume lifted 0 = true := by decide +kernel
  refine ⟨_, _, middle, _, _, guessed, linkSent_run.append run, opened,
    .cons (.consume after.calls after.consuming only_one after.seen allowed) (.cons (.commit after.calls) .start), rests.committed, ?_⟩
  decide +kernel

end Instances

end OpenShapeForge.Operations.GrantUses
