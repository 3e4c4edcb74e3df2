import Mathlib.Data.Set.Insert
import OpenShapeForge.Js.Text
import OpenShapeForge.Library.RowLocks

/-! Capability grants (apps/api/src/operations/capability-grants.ts and
capability-grant-resolution.ts): the rows of `platform.capability_grants` of one tenant, and the
transactions that issue, resolve, consume and revoke them, statement by statement. -/

namespace OpenShapeForge.Operations.CapabilityGrants
open Js Library.RowLocks

/-- Milliseconds, as `Date.getTime` has them. -/
abbrev Time := Int

structure Grant (Id Recipient : Type) where
  tokenHash : Text
  operations : List Text
  subjectEntity : Text
  subjectId : Id
  recipient : Recipient
  expiresAt : Time
  maxUses : Option Nat
  uses : Nat
  consumedAt : Option Time
  revokedAt : Option Time
  revokedReason : Option Text
  supersededBy : Option Id
  failedAttempts : Nat
  windowStartedAt : Option Time
  lockedUntil : Option Time
deriving DecidableEq

inductive Status where
  | active | consumed | expired | revoked
deriving DecidableEq

inductive RefusalCode where
  | invalid | scope | consumed | expired | revoked | locked
deriving DecidableEq

/-- `REFUSALS`: the HTTP status of each code. -/
def RefusalCode.status : RefusalCode → Nat
  | .invalid => 401
  | .scope => 403
  | .consumed => 409
  | .expired => 410
  | .revoked => 410
  | .locked => 423

/-- `CAPABILITY_GRANT_ATTEMPT_POLICY` -/
def maxFailedAttempts : Nat := 5
def windowMs : Time := 15 * 60 * 1000
def lockMs : Time := 15 * 60 * 1000

structure OperationShape where
  key : Text
  target : Option Text

section Rows
variable {Id Recipient : Type}

def usedUp (maxUses : Option Nat) (uses : Nat) : Bool :=
  match maxUses with
  | none => false
  | some most => decide (most ≤ uses)

def capabilityGrantStatus (row : Grant Id Recipient) (now : Time) : Status :=
  if row.revokedAt.isSome then .revoked
  else if row.consumedAt.isSome || usedUp row.maxUses row.uses then .consumed
  else if row.expiresAt ≤ now then .expired
  else .active

def statusRefusal (row : Grant Id Recipient) (now : Time) : Option RefusalCode :=
  match capabilityGrantStatus row now with
  | .revoked => some .revoked
  | .consumed => some .consumed
  | .expired => some .expired
  | .active => none

/-- `locked_until > now` -/
def isLocked (row : Grant Id Recipient) (now : Time) : Bool :=
  match row.lockedUntil with
  | none => false
  | some until' => decide (now < until')

def recordFailedAttempt (row : Grant Id Recipient) (now : Time) : Grant Id Recipient × RefusalCode :=
  let window := row.windowStartedAt.filter fun start => decide (now - start < windowMs)
  let attempts := if window.isSome then row.failedAttempts + 1 else 1
  let locked := decide (maxFailedAttempts ≤ attempts)
  ({ row with
      failedAttempts := attempts
      windowStartedAt := some (window.getD now)
      lockedUntil := if locked then some (now + lockMs) else none },
    if locked then .locked else .invalid)

/-- `resolveCapabilityGrantSession` on the row it has locked: the row as it leaves it, and its
refusal, or none when a session is answered. -/
def resolve (hashGrantSecret : Text → Text) (row : Grant Id Recipient) (secret : Text) (operation : OperationShape) (now : Time) :
    Grant Id Recipient × Option RefusalCode :=
  if isLocked row now then (row, some .locked)
  else if hashGrantSecret secret ≠ row.tokenHash then (recordFailedAttempt row now).map id some
  else
    let cleared :=
      if 0 < row.failedAttempts || row.lockedUntil.isSome then
        { row with failedAttempts := 0, windowStartedAt := none, lockedUntil := none }
      else row
    let refusal := statusRefusal row now
    if refusal.isSome then (cleared, refusal)
    else if operation.key ∉ row.operations then (cleared, some .scope)
    else if operation.target.any (fun entity => entity ≠ row.subjectEntity) then (cleared, some .scope)
    else (cleared, none)

/-- The `where` of the update that counts a use. -/
def mayConsume (row : Grant Id Recipient) (now : Time) : Bool :=
  row.revokedAt.isNone && row.consumedAt.isNone && !usedUp row.maxUses row.uses && decide (now < row.expiresAt) && !isLocked row now

/-- Its `set`. -/
def consume (row : Grant Id Recipient) (now : Time) : Grant Id Recipient :=
  { row with
    uses := row.uses + 1
    consumedAt := if usedUp row.maxUses (row.uses + 1) then some now else row.consumedAt }

/-- `update … where id = … and revoked_at is null` of `revokeCapabilityGrantInTransaction`. -/
def revoke (row : Grant Id Recipient) (reason : Option Text) (now : Time) : Grant Id Recipient :=
  if row.revokedAt.isNone then { row with revokedAt := some now, revokedReason := reason } else row

end Rows

structure Issue (Id Recipient : Type) where
  id : Id
  secret : Text
  operations : List Text
  subjectEntity : Text
  subjectId : Id
  recipient : Recipient
  expiresAt : Time
  maxUses : Option Nat
  /-- `supersede: "same-subject-and-recipient"` -/
  supersede : Bool
  now : Time
  future : now < expiresAt
  positive : ∀ most, maxUses = some most → 1 ≤ most

def superseded : Text := js "superseded"

section Issues
variable {Id Recipient : Type}

def Grant.holder (row : Grant Id Recipient) : Text × Id × Recipient := (row.subjectEntity, row.subjectId, row.recipient)

def Issue.holder (issue : Issue Id Recipient) : Text × Id × Recipient := (issue.subjectEntity, issue.subjectId, issue.recipient)

def Issue.row (hashGrantSecret : Text → Text) (issue : Issue Id Recipient) : Grant Id Recipient where
  tokenHash := hashGrantSecret issue.secret
  operations := issue.operations.dedup
  subjectEntity := issue.subjectEntity
  subjectId := issue.subjectId
  recipient := issue.recipient
  expiresAt := issue.expiresAt
  maxUses := issue.maxUses
  uses := 0
  consumedAt := none
  revokedAt := none
  revokedReason := none
  supersededBy := none
  failedAttempts := 0
  windowStartedAt := none
  lockedUntil := none

/-- The `where` of the superseding update. -/
def Issue.Supersedes (issue : Issue Id Recipient) (row : Grant Id Recipient) : Prop :=
  row.holder = issue.holder ∧ row.revokedAt = none ∧ row.consumedAt = none ∧ issue.now < row.expiresAt

/-- Its `set`. -/
def Issue.retire (issue : Issue Id Recipient) (row : Grant Id Recipient) : Grant Id Recipient :=
  { row with revokedAt := some issue.now, revokedReason := some superseded, supersededBy := some issue.id }

end Issues

/-- What a transaction is in the middle of, between two statements. -/
inductive Call (Id Recipient : Type) where
  /-- The superseding update with the rows its snapshot matched and it has not come to yet;
  with none left the insert is next. -/
  | issuing (issue : Issue Id Recipient) (pending : List Id)
  /-- The grant was read as active. -/
  | revoking (id : Id) (reason : Option Text) (now : Time)

structure State (Tx Id Recipient : Type) where
  grants : Store Tx Id (Grant Id Recipient)
  calls : Tx → Option (Call Id Recipient)
  /-- The grants that the supersede statements of an open transaction saw, by what they looked for. -/
  looks : Tx → List ((Text × Id × Recipient) × Set Id)
  /-- The grant that an open transaction has counted a use of. -/
  consuming : Tx → Option Id
  /-- The same of the transactions that have committed, in order. -/
  settled : List Id
  clock : Time

def State.empty {Tx Id Recipient : Type} (clock : Time) : State Tx Id Recipient where
  grants := ⟨fun _ => none, fun _ => .idle⟩
  calls _ := none
  looks _ := []
  consuming _ := none
  settled := []
  clock := clock

inductive Action (Tx Id Recipient : Type) where
  | resolve (tx : Tx) (id : Id) (secret : Text) (operation : OperationShape) (now : Time)
  | consume (tx : Tx) (id : Id) (now : Time)
  | issue (tx : Tx) (issue : Issue Id Recipient)
  | revoke (tx : Tx) (id : Id) (reason : Option Text) (now : Time)
  /-- The next statement, or the next row of an update, of the call a transaction is in. -/
  | proceed (tx : Tx)
  | commit (tx : Tx)
  | abort (tx : Tx)
  | tick (now : Time)

section Statements
variable {Tx Id Recipient : Type} [DecidableEq Tx]

namespace State

def enter (state : State Tx Id Recipient) (tx : Tx) (call : Option (Call Id Recipient)) : State Tx Id Recipient :=
  { state with calls := Function.update state.calls tx call }

/-- What a superseding update sees when it begins. -/
def look (state : State Tx Id Recipient) (tx : Tx) (issue : Issue Id Recipient) : State Tx Id Recipient :=
  { state with
    looks := Function.update state.looks tx
      ((issue.holder, { id | (state.grants.view tx id).isSome = true }) :: state.looks tx) }

def count (state : State Tx Id Recipient) (tx : Tx) (id : Id) : State Tx Id Recipient :=
  { state with consuming := Function.update state.consuming tx (some id) }

def commit (state : State Tx Id Recipient) (tx : Tx) : State Tx Id Recipient where
  grants := state.grants.commit tx
  calls := state.calls
  looks := Function.update state.looks tx []
  consuming := Function.update state.consuming tx none
  settled := state.settled ++ (state.consuming tx).toList
  clock := state.clock

def rollback (state : State Tx Id Recipient) (tx : Tx) : State Tx Id Recipient where
  grants := state.grants.rollback tx
  calls := Function.update state.calls tx none
  looks := Function.update state.looks tx []
  consuming := Function.update state.consuming tx none
  settled := state.settled
  clock := state.clock

variable [DecidableEq Id]

/-- A row is locked and written; the lock waits for whoever has written it before. -/
def put (state : State Tx Id Recipient) (tx : Tx) (id : Id) (row : Grant Id Recipient) : State Tx Id Recipient :=
  { state with grants := (state.grants.lock tx id .update).write tx id (some row) }

end State

def Matching (state : State Tx Id Recipient) (tx : Tx) (issue : Issue Id Recipient) (pending : List Id) : Prop :=
  pending.Nodup ∧ ∀ id, id ∈ pending ↔ ∃ row, state.grants.view tx id = some row ∧ issue.Supersedes row

variable [DecidableEq Id]

/-- The statements of the calls, each in a transaction that a caller opened. An update takes a
row as it is once its lock is granted. -/
inductive Step (hashGrantSecret : Text → Text) (state : State Tx Id Recipient) : Action Tx Id Recipient → State Tx Id Recipient → Prop
  /-- The row is locked for update before it is read, and kept as it is where nothing was learned. -/
  | resolve {tx : Tx} {id : Id} {secret : Text} {operation : OperationShape} {now : Time} {row : Grant Id Recipient} :
      state.calls tx = none → state.grants.Grants tx id .update → state.grants.view tx id = some row →
      Step hashGrantSecret state (.resolve tx id secret operation now)
        (state.put tx id (resolve hashGrantSecret row secret operation now).1)
  | consume {tx : Tx} {id : Id} {now : Time} {row : Grant Id Recipient} :
      state.calls tx = none → state.consuming tx = none → state.grants.Grants tx id .update → state.grants.view tx id = some row →
      mayConsume row now = true →
      Step hashGrantSecret state (.consume tx id now) ((state.put tx id (consume row now)).count tx id)
  | issue {tx : Tx} {issue : Issue Id Recipient} {pending : List Id} : state.calls tx = none → issue.supersede = true →
      Matching state tx issue pending →
      Step hashGrantSecret state (.issue tx issue) ((state.look tx issue).enter tx (some (.issuing issue pending)))
  /-- Without `supersede` the insert is the only statement. -/
  | issueBeside {tx : Tx} {issue : Issue Id Recipient} : state.calls tx = none → issue.supersede = false →
      Step hashGrantSecret state (.issue tx issue) (state.enter tx (some (.issuing issue [])))
  | retire {tx : Tx} {issue : Issue Id Recipient} {id : Id} {pending : List Id} {row : Grant Id Recipient} :
      state.calls tx = some (.issuing issue (id :: pending)) → state.grants.Grants tx id .update →
      state.grants.view tx id = some row → issue.Supersedes row →
      Step hashGrantSecret state (.proceed tx) ((state.put tx id (issue.retire row)).enter tx (some (.issuing issue pending)))
  /-- Another transaction has changed the row while this one waited for it. -/
  | pass {tx : Tx} {issue : Issue Id Recipient} {id : Id} {pending : List Id} :
      state.calls tx = some (.issuing issue (id :: pending)) → state.grants.Grants tx id .update →
      (∀ row, state.grants.view tx id = some row → ¬issue.Supersedes row) →
      Step hashGrantSecret state (.proceed tx) (state.enter tx (some (.issuing issue pending)))
  /-- The id is the primary key. -/
  | insert {tx : Tx} {issue : Issue Id Recipient} : state.calls tx = some (.issuing issue []) →
      state.grants.Grants tx issue.id .update → state.grants.view tx issue.id = none →
      Step hashGrantSecret state (.proceed tx) ((state.put tx issue.id (issue.row hashGrantSecret)).enter tx none)
  | revoke {tx : Tx} {id : Id} {reason : Option Text} {now : Time} {row : Grant Id Recipient} :
      state.calls tx = none → state.grants.view tx id = some row → capabilityGrantStatus row now = .active →
      Step hashGrantSecret state (.revoke tx id reason now) (state.enter tx (some (.revoking id reason now)))
  /-- The row may have changed since it was read. -/
  | revokeRow {tx : Tx} {id : Id} {reason : Option Text} {now : Time} {row : Grant Id Recipient} :
      state.calls tx = some (.revoking id reason now) → state.grants.Grants tx id .update → state.grants.view tx id = some row →
      Step hashGrantSecret state (.proceed tx) ((state.put tx id (revoke row reason now)).enter tx none)
  | commit {tx : Tx} : state.calls tx = none → Step hashGrantSecret state (.commit tx) (state.commit tx)
  | abort {tx : Tx} : Step hashGrantSecret state (.abort tx) (state.rollback tx)
  | tick {now : Time} : state.clock ≤ now → Step hashGrantSecret state (.tick now) { state with clock := now }

end Statements

end OpenShapeForge.Operations.CapabilityGrants
