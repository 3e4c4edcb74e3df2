import OpenShapeForge.Js.Whole

/-! Edit leases on one target (apps/api/src/operations/entity/edit-leases.ts): at
most one row, which every transaction reads and writes with its own time. -/

namespace OpenShapeForge.Operations.EditLeases
open Js

/-- `now()` of a transaction, in microseconds. -/
abbrev Timestamp := Int

def secondLength : Int := 1000000

/-- `(\d+)` and a letter, where both are there. -/
def durationPart (letter : CodeUnit) (text : Text) : Nat × Text :=
  let digits := text.takeWhile isDigit
  match text.drop digits.length with
  | c :: rest => if digits ≠ [] ∧ c = letter then (Whole.digitsValue digits, rest) else (0, text)
  | [] => (0, text)

/-- The seconds of `P1DT2H3M4S` in days, hours, minutes and seconds. -/
def durationSeconds (value : Text) : Option Nat :=
  match value with
  | [] => none
  | first :: rest =>
    let (days, rest) := durationPart (unit 'D') rest
    if first ≠ unit 'P' then none
    else
      match rest with
      | [] => some (days * 86400)
      | mark :: rest =>
        let (hours, rest) := durationPart (unit 'H') rest
        let (minutes, rest) := durationPart (unit 'M') rest
        let (seconds, rest) := durationPart (unit 'S') rest
        if mark = unit 'T' ∧ rest = [] then some (days * 86400 + hours * 3600 + minutes * 60 + seconds) else none

structure LeaseProtectedOperation where
  id : Text
  version : Option Text
  /-- `expiresAfterInactivity` of the edit lease. -/
  editLease : Option Text

inductive CurrentVersion where
  | noColumn
  | noTarget
  | found (version : Text)

structure LeaseRow where
  operationId : Text
  ownerUserId : Text
  ownerDisplayName : Option Text
  tokenHash : Text
  acquiredVersion : Text
  inactivityTimeoutSeconds : Nat
  expiresAt : Timestamp

/-- How a lease transaction is refused; it is then rolled back. -/
inductive LeaseFailure where
  | leaseNotSupported
  | durationFormat (value : Text)
  | durationBounds
  | invalidTimestamp
  | versionUnavailable
  | notFound
  | locked (ownerDisplayName : Option Text) (expiresAt : Timestamp)
  | acquireFailed
  | operationUnavailable
  | leaseExpired
  | versionConflict
  | leaseInvalid
deriving DecidableEq

def LeaseFailure.code : LeaseFailure → Option Text
  | leaseNotSupported => js "LEASE_NOT_SUPPORTED"
  | durationFormat _ | durationBounds | invalidTimestamp => none
  | versionUnavailable => js "INTERNAL_SERVER_ERROR"
  | notFound => js "NOT_FOUND"
  | locked _ _ => js "LOCKED"
  | acquireFailed => js "LEASE_ACQUIRE_FAILED"
  | operationUnavailable | leaseExpired => js "LEASE_EXPIRED"
  | versionConflict => js "VERSION_CONFLICT"
  | leaseInvalid => js "LEASE_INVALID"

def LeaseFailure.message : LeaseFailure → Text
  | leaseNotSupported => js "This operation does not require an edit lease."
  | durationFormat value => js "Duration " ++ quoteJson value ++ js " must use fixed ISO-8601 days/time."
  | durationBounds => js "Edit-lease inactivity duration must be between PT30S and P1D."
  | invalidTimestamp => js "expectedUpdatedAt must be an ISO timestamp."
  | versionUnavailable => js "The operation's version contract is not available."
  | notFound => js "Resource not found."
  | locked name _ => js "This record is currently being edited by " ++ name.getD (js "another user") ++ js "."
  | acquireFailed => js "The edit lease could not be acquired."
  | operationUnavailable => js "The edit lease cannot be renewed because its operation is no longer available."
  | leaseExpired => js "The edit lease has expired or does not belong to this identity."
  | versionConflict => js "The record changed after this edit lease was acquired."
  | leaseInvalid => js "The edit lease is invalid, expired, or belongs to another identity."

/-- What the holder is told of a lease; only who acquires it learns the token. -/
structure EntityEditLease where
  operationId : Text
  targetVersion : Text
  expiresAt : Timestamp

inductive Reply where
  | acquired (leaseToken : Text) (lease : EntityEditLease)
  | renewed (lease : EntityEditLease)
  | released (released : Bool)
  | validated
  | consumed

inductive Transaction where
  | acquire (userId : Text) (userDisplayName : Option Text) (operation : LeaseProtectedOperation) (leaseToken : Text)
      (current : CurrentVersion)
  | renew (userId leaseToken : Text) (allowedOperationIds : List Text)
  | release (userId leaseToken : Text)
  | validate (userId : Text) (operation : LeaseProtectedOperation) (expectedVersion leaseToken : Text)
  | consume (userId : Text) (operation : LeaseProtectedOperation) (expectedVersion leaseToken : Text)

def displayName (name : Option Text) : Option Text :=
  match name.map trim with
  | some [] | none => none
  | some name => some name

def lockedError (row : LeaseRow) : LeaseFailure := .locked (displayName row.ownerDisplayName) row.expiresAt

def fixedDurationSeconds (value : Text) : Except LeaseFailure Nat :=
  match durationSeconds value with
  | some seconds => if seconds < 30 ∨ 86400 < seconds then .error .durationBounds else .ok seconds
  | none => .error (.durationFormat value)

def requireLeaseContract (operation : LeaseProtectedOperation) : Except LeaseFailure Text :=
  match operation.version, operation.editLease with
  | some _, some lease => .ok lease
  | _, _ => .error .leaseNotSupported

section Perform
variable (tokenHash : Text → Text) (normalizeTimestampToken : Text → Option Text)

def normalized (value : Text) : Except LeaseFailure Text :=
  match normalizeTimestampToken value with
  | some token => .ok token
  | none => .error .invalidTimestamp

def currentVersion : CurrentVersion → Except LeaseFailure Text
  | .noColumn => .error .versionUnavailable
  | .noTarget => .error .notFound
  | .found version => normalized normalizeTimestampToken version

def reported (row : LeaseRow) : Except LeaseFailure EntityEditLease := do
  let targetVersion ← normalized normalizeTimestampToken row.acquiredVersion
  return ⟨row.operationId, targetVersion, row.expiresAt⟩

def blocks (row : LeaseRow) (userId : Text) (now : Timestamp) : Bool := now < row.expiresAt && row.ownerUserId ≠ userId

def acquireEntityEditLease (row : Option LeaseRow) (now : Timestamp) (userId : Text) (userDisplayName : Option Text)
    (operation : LeaseProtectedOperation) (leaseToken : Text) (current : CurrentVersion) :
    Except LeaseFailure (LeaseRow × EntityEditLease) := do
  let lease ← requireLeaseContract operation
  let inactivitySeconds ← fixedDurationSeconds lease
  let targetVersion ← currentVersion normalizeTimestampToken current
  let acquired : LeaseRow := {
    operationId := operation.id
    ownerUserId := userId
    ownerDisplayName := displayName userDisplayName
    tokenHash := tokenHash leaseToken
    acquiredVersion := targetVersion
    inactivityTimeoutSeconds := inactivitySeconds
    expiresAt := now + inactivitySeconds * secondLength }
  match row.filter (blocks · userId now) with
  | some held => .error (if now < held.expiresAt then lockedError held else .acquireFailed)
  | none => do
    let lease ← reported normalizeTimestampToken acquired
    return (acquired, lease)

def heldBy (row : LeaseRow) (userId leaseToken : Text) : Bool :=
  row.ownerUserId = userId && row.tokenHash = tokenHash leaseToken

def renewEntityEditLease (row : Option LeaseRow) (now : Timestamp) (userId leaseToken : Text) (allowedOperationIds : List Text) :
    Except LeaseFailure (LeaseRow × EntityEditLease) :=
  if allowedOperationIds = [] then .error .operationUnavailable
  else
    match row.filter fun row => heldBy tokenHash row userId leaseToken && decide (row.operationId ∈ allowedOperationIds) &&
        decide (now < row.expiresAt) with
    | none => .error .leaseExpired
    | some held => do
      let renewed := { held with expiresAt := now + held.inactivityTimeoutSeconds * secondLength }
      let lease ← reported normalizeTimestampToken renewed
      return (renewed, lease)

def releases (row : Option LeaseRow) (userId leaseToken : Text) : Bool :=
  (row.filter fun row => heldBy tokenHash row userId leaseToken).isSome

def requireEntityEditLease (row : Option LeaseRow) (now : Timestamp) (userId : Text) (operation : LeaseProtectedOperation)
    (expectedVersion leaseToken : Text) : Except LeaseFailure Unit := do
  let _ ← requireLeaseContract operation
  match row.filter fun row => decide (now < row.expiresAt) with
  | none => .error .leaseInvalid
  | some lease =>
    if lease.ownerUserId ≠ userId then .error (lockedError lease)
    else do
      let acquired ← normalized normalizeTimestampToken lease.acquiredVersion
      let expected ← normalized normalizeTimestampToken expectedVersion
      if acquired ≠ expected then .error .versionConflict
      else if lease.operationId ≠ operation.id ∨ lease.tokenHash ≠ tokenHash leaseToken then .error .leaseInvalid
      else .ok ()

def perform (row : Option LeaseRow) (now : Timestamp) : Transaction → Option LeaseRow × Except LeaseFailure Reply
  | .acquire userId userDisplayName operation leaseToken current =>
    match acquireEntityEditLease tokenHash normalizeTimestampToken row now userId userDisplayName operation leaseToken current with
    | .ok (acquired, lease) => (some acquired, .ok (.acquired leaseToken lease))
    | .error failure => (row, .error failure)
  | .renew userId leaseToken allowedOperationIds =>
    match renewEntityEditLease tokenHash normalizeTimestampToken row now userId leaseToken allowedOperationIds with
    | .ok (renewed, lease) => (some renewed, .ok (.renewed lease))
    | .error failure => (row, .error failure)
  | .release userId leaseToken =>
    if releases tokenHash row userId leaseToken then (none, .ok (.released true)) else (row, .ok (.released false))
  | .validate userId operation expectedVersion leaseToken =>
    (row, (requireEntityEditLease tokenHash normalizeTimestampToken row now userId operation expectedVersion leaseToken).map
      fun _ => .validated)
  | .consume userId operation expectedVersion leaseToken =>
    match requireEntityEditLease tokenHash normalizeTimestampToken row now userId operation expectedVersion leaseToken with
    | .ok _ => (none, .ok .consumed)
    | .error failure => (row, .error failure)

end Perform

end OpenShapeForge.Operations.EditLeases
