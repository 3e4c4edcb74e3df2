import OpenShapeForge.Library.LockWaits
import OpenShapeForge.Operations.DelegatedActions

/-! Record actions of sessions, and whoever withdraws their key, its integration or the grant, in every
order their row locks allow (apps/api/src/db/migrations/record-actions.ts,
operations/entity/record-permissions.ts, auth/api-key/service.ts). -/

namespace OpenShapeForge.Operations.ActionFence
open Js Library RowLocks
open RecordActions
open DelegatedActions (Declaration Caller DelegationRequest Delegation delegation)

section Rows

inductive IntegrationStatus where
  | pending | active | disabled
deriving DecidableEq

/-- `platform.api_key_integrations` -/
structure Integration where
  tenant : RowId
  status : IntegrationStatus
deriving DecidableEq

/-- `platform.api_keys`; instants are milliseconds. -/
structure ApiKey where
  tenant : RowId
  integration : RowId
  revokedAt : Option Int
  expiresAt : Option Int
deriving DecidableEq

inductive Row where
  | integration (row : Integration)
  | apiKey (row : ApiKey)
  | record (tenant : RowId) (acl : Json)

inductive RowKey where
  | integration (id : RowId)
  | apiKey (id : RowId)
  | record (entity id : Text)
deriving DecidableEq

abbrev Rows (Tx : Type) := Store Tx RowKey Row

end Rows

section Gates

inductive RecordActionLock where
  | exclusive | shared
deriving DecidableEq

/-- `RECORD_ACTION_LOCKS` -/
def RecordActionLock.strength : RecordActionLock → Strength
  | .exclusive => .noKeyUpdate
  | .shared => .share

structure RecordActionEntity where
  entity : Text
  keyIsUuid : Bool
  actions : List Text
  reads : OrderedMap Text (List Text)
  locks : OrderedMap Text RecordActionLock

def lockClause (entity : RecordActionEntity) (action : Text) : Strength := ((entity.locks.get? action).getD .exclusive).strength

/-- `UUID_LITERAL`, in any letter case -/
def isUuidLiteral (key : Text) : Bool :=
  let groups := key.splitOn (unit '-')
  decide (groups.map List.length = [8, 4, 4, 4, 12]) && groups.all (·.all Control.OrganizationNaming.isHex)

def recordPredicate (entity : RecordActionEntity) (key : Text) : Option RowKey :=
  if key = [] then none
  else if !entity.keyIsUuid then some (.record entity.entity key)
  else if isUuidLiteral key then some (.record entity.entity (key.map asciiLower))
  else none

/-- What the settings of a session say of its tenant and of the key that it was resolved from. -/
structure ActionSession extends DbSession where
  tenant : Option RowId
  appCredential : Option RowId

structure Credentials where
  principal : RowId
  credential : RowId
  tenant : RowId

def ActionSession.credentials (session : ActionSession) : Option Credentials := do
  return ⟨← session.appPrincipal, ← session.appCredential, ← session.tenant⟩

/-- A call of `assertRecordActionInTransaction`, or of `readRecordForActionInTransaction`. -/
structure Gate where
  session : ActionSession
  entity : RecordActionEntity
  id : Text
  action : Text
  reads : Bool

def Gate.declared (entities : List RecordActionEntity) (gate : Gate) : Prop :=
  gate.entity ∈ entities ∧ gate.action ∈ gate.entity.actions ∧
    (gate.reads = true → ∃ fields, gate.entity.reads.get? gate.action = some fields ∧ fields ≠ [])

def Gate.row (gate : Gate) : Option RowKey := recordPredicate gate.entity gate.id

def Gate.strength (gate : Gate) : Strength := lockClause gate.entity gate.action

def integrationLive (credentials : Credentials) (row : Integration) : Bool :=
  decide (row.tenant = credentials.tenant) && decide (row.status = .active)

def keyLive (credentials : Credentials) (clock : Int) (row : ApiKey) : Bool :=
  decide (row.tenant = credentials.tenant) && decide (row.integration = credentials.principal) &&
    row.revokedAt.isNone && row.expiresAt.all fun expiry => clock < expiry

end Gates

/-- How far a transaction is. -/
inductive Phase where
  | idle
  | gating (gate : Gate)
  | integrationLive (gate : Gate) (credentials : Credentials)
  | principalLive (gate : Gate)
  | allowed (gate : Gate)
  | admitted (gate : Gate)
  | revoking (tenant key : RowId) (now : Int)
  | revoked
  | disabling (tenant integration : RowId) (now : Int)
  | disableLocked (tenant integration : RowId) (now : Int)
  | disableMarked (tenant integration : RowId) (now : Int)
  | disablingKeys (integration : RowId) (now : Int) (pending : List RowId)
  | issuing (tenant integration key : RowId) (expiresAt : Option Int)
  | inserting (tenant integration key : RowId) (expiresAt : Option Int)
  | issued
  | delegating (call : Delegation) (tenant : RowId) (entity id : Text)
  | sharing (call : Delegation) (tenant : RowId) (entity id : Text) (pending active : List RowId)
  | shared (call : Delegation) (tenant : RowId) (entity id : Text)
  | holding (call : Delegation) (tenant : RowId) (entity id : Text) (stored : Json)
  | delegated
  | updating (tenant : RowId) (entity id : Text) (submitted : Json) (forUpdate : Bool)
  | reconciling (tenant : RowId) (entity id : Text) (submitted stored : Json)
  | updated

/-- Nothing is left to do but to commit. -/
def Phase.isDone : Phase → Bool
  | .admitted _ | .revoked | .disablingKeys _ _ [] | .issued | .delegated | .updated => true
  | _ => false

/-- The row that a transaction locks next, and how strongly. -/
def Phase.request : Phase → Option (RowKey × Strength)
  | .gating gate =>
    if gate.session.principalClass = .application then
      gate.session.credentials.map fun credentials => (.integration credentials.principal, .share)
    else none
  | .integrationLive _ credentials => some (.apiKey credentials.credential, .share)
  | .principalLive gate => gate.row.map fun row => (row, gate.strength)
  | .revoking _ key _ => some (.apiKey key, .noKeyUpdate)
  | .disabling _ integration _ => some (.integration integration, .update)
  | .disablingKeys _ _ (key :: _) => some (.apiKey key, .noKeyUpdate)
  | .issuing _ integration _ _ => some (.integration integration, .update)
  | .inserting _ _ key _ => some (.apiKey key, .update)
  | .sharing _ _ _ _ (integration :: _) _ => some (.integration integration, .share)
  | .shared _ _ entity id => some (.record entity id, .update)
  | .updating _ entity id _ forUpdate => some (.record entity id, if forUpdate then .update else .noKeyUpdate)
  | _ => none

structure State (Tx : Type) where
  rows : Rows Tx
  phases : Tx → Phase

/-- The effects of an action may lock more than the gate has. -/
inductive Label where
  | step
  | furtherLock
deriving DecidableEq

variable {Tx : Type} [DecidableEq Tx]

def State.move (state : State Tx) (tx : Tx) (rows : Rows Tx) (phase : Phase) : State Tx := ⟨rows, Function.update state.phases tx phase⟩

def State.enter (state : State Tx) (tx : Tx) (phase : Phase) : State Tx := state.move tx state.rows phase

def State.locks (state : State Tx) (tx : Tx) (key : RowKey) (strength : Strength) (phase : Phase) : State Tx :=
  state.move tx (state.rows.lock tx key strength) phase

def State.writes (state : State Tx) (tx : Tx) (key : RowKey) (row : Row) (phase : Phase) : State Tx :=
  state.move tx (state.rows.write tx key (some row)) phase

def State.locksAndWrites (state : State Tx) (tx : Tx) (key : RowKey) (strength : Strength) (row : Row) (phase : Phase) : State Tx :=
  state.move tx ((state.rows.lock tx key strength).write tx key (some row)) phase

/-- `app.record_action_principal_live`, then `app.record_action_allows`; a refusal rolls back. -/
inductive GateStep (entities : List RecordActionEntity) (state : State Tx) (tx : Tx) : State Tx → Prop
  | assertRecordAction {gate : Gate} (idle : state.phases tx = .idle) (declared : gate.declared entities) :
      GateStep entities state tx (state.enter tx (.gating gate))
  /-- Only an application acts on a credential that can be withdrawn. -/
  | otherPrincipal {gate : Gate} (begun : state.phases tx = .gating gate) (other : gate.session.principalClass ≠ .application) :
      GateStep entities state tx (state.enter tx (.principalLive gate))
  | lockIntegration {gate : Gate} {credentials : Credentials} {row : Integration} (begun : state.phases tx = .gating gate)
      (application : gate.session.principalClass = .application) (known : gate.session.credentials = some credentials)
      (grants : state.rows.Grants tx (.integration credentials.principal) .share)
      (read : state.rows.view tx (.integration credentials.principal) = some (.integration row)) (live : integrationLive credentials row = true) :
      GateStep entities state tx (state.locks tx (.integration credentials.principal) .share (.integrationLive gate credentials))
  | lockCredential {gate : Gate} {credentials : Credentials} {row : ApiKey} {clock : Int}
      (begun : state.phases tx = .integrationLive gate credentials)
      (grants : state.rows.Grants tx (.apiKey credentials.credential) .share)
      (read : state.rows.view tx (.apiKey credentials.credential) = some (.apiKey row)) (live : keyLive credentials clock row = true) :
      GateStep entities state tx (state.locks tx (.apiKey credentials.credential) .share (.principalLive gate))
  | lockAcl {gate : Gate} {key : RowKey} {tenant : RowId} {acl : Json} (begun : state.phases tx = .principalLive gate)
      (row : gate.row = some key) (grants : state.rows.Grants tx key gate.strength)
      (read : state.rows.view tx key = some (.record tenant acl)) (ofTenant : gate.session.tenant = some tenant)
      (allows : recordActionAllows gate.session.toDbSession acl gate.action = true) :
      GateStep entities state tx (state.locks tx key gate.strength (if gate.reads then .allowed gate else .admitted gate))
  /-- The projection repeats a lock that is held. -/
  | project {gate : Gate} {key : RowKey} {tenant : RowId} {acl : Json} (begun : state.phases tx = .allowed gate) (row : gate.row = some key)
      (read : state.rows.view tx key = some (.record tenant acl)) : GateStep entities state tx (state.enter tx (.admitted gate))

/-- What an admitted transaction does is left open, but for what its locks allow. -/
inductive EffectStep (state : State Tx) (tx : Tx) : Label → State Tx → Prop
  | lock {gate : Gate} {key : RowKey} {strength : Strength} (admitted : state.phases tx = .admitted gate)
      (grants : state.rows.Grants tx key strength) : EffectStep state tx .furtherLock (state.locks tx key strength (.admitted gate))
  | write {gate : Gate} {key : RowKey} {row : Option Row} (admitted : state.phases tx = .admitted gate) (owns : state.rows.Owns tx key)
      (removes : row = none → state.rows.Holds tx key .update) :
      EffectStep state tx .step (state.move tx (state.rows.write tx key row) (.admitted gate))

/-- `revokeKey`, `disableIntegration` and `issueKey` -/
inductive KeyStep (state : State Tx) (tx : Tx) : State Tx → Prop
  | revokeKey {tenant key : RowId} {now : Int} (idle : state.phases tx = .idle) : KeyStep state tx (state.enter tx (.revoking tenant key now))
  | revoke {tenant key : RowId} {now : Int} {row : ApiKey} {integration : Integration} (begun : state.phases tx = .revoking tenant key now)
      (grants : state.rows.Grants tx (.apiKey key) .noKeyUpdate) (read : state.rows.view tx (.apiKey key) = some (.apiKey row))
      (ofTenant : row.tenant = tenant) (joined : state.rows.view tx (.integration row.integration) = some (.integration integration)) :
      KeyStep state tx (state.locksAndWrites tx (.apiKey key) .noKeyUpdate (.apiKey { row with revokedAt := some (row.revokedAt.getD now) }) .revoked)
  | disableIntegration {tenant integration : RowId} {now : Int} (idle : state.phases tx = .idle) :
      KeyStep state tx (state.enter tx (.disabling tenant integration now))
  | lockToDisable {tenant integration : RowId} {now : Int} {row : Integration} (begun : state.phases tx = .disabling tenant integration now)
      (grants : state.rows.Grants tx (.integration integration) .update)
      (read : state.rows.view tx (.integration integration) = some (.integration row)) (ofTenant : row.tenant = tenant) :
      KeyStep state tx (state.locks tx (.integration integration) .update (.disableLocked tenant integration now))
  | disable {tenant integration : RowId} {now : Int} {row : Integration} (locked : state.phases tx = .disableLocked tenant integration now)
      (read : state.rows.view tx (.integration integration) = some (.integration row)) :
      KeyStep state tx (state.writes tx (.integration integration) (.integration { row with status := .disabled })
        (.disableMarked tenant integration now))
  /-- The keys that the last statement finds, in whatever order it comes to them. -/
  | findKeys {tenant integration : RowId} {now : Int} {pending : List RowId} (marked : state.phases tx = .disableMarked tenant integration now)
      (once : pending.Nodup) (found : ∀ key, key ∈ pending ↔ ∃ row, state.rows.view tx (.apiKey key) = some (.apiKey row) ∧
        row.integration = integration ∧ row.tenant = tenant ∧ row.revokedAt = none) :
      KeyStep state tx (state.enter tx (.disablingKeys integration now pending))
  | revokeNext {integration key : RowId} {now : Int} {pending : List RowId} {row : ApiKey}
      (begun : state.phases tx = .disablingKeys integration now (key :: pending)) (grants : state.rows.Grants tx (.apiKey key) .noKeyUpdate)
      (read : state.rows.view tx (.apiKey key) = some (.apiKey row)) (unrevoked : row.revokedAt = none) :
      KeyStep state tx (state.locksAndWrites tx (.apiKey key) .noKeyUpdate (.apiKey { row with revokedAt := some now })
        (.disablingKeys integration now pending))
  /-- Revoked in the meantime: locked, but not written. -/
  | skipNext {integration key : RowId} {now : Int} {pending : List RowId} {row : ApiKey}
      (begun : state.phases tx = .disablingKeys integration now (key :: pending)) (grants : state.rows.Grants tx (.apiKey key) .noKeyUpdate)
      (read : state.rows.view tx (.apiKey key) = some (.apiKey row)) (revoked : row.revokedAt ≠ none) :
      KeyStep state tx (state.locks tx (.apiKey key) .noKeyUpdate (.disablingKeys integration now pending))
  | issueKey {tenant integration key : RowId} {expiresAt : Option Int} (idle : state.phases tx = .idle) :
      KeyStep state tx (state.enter tx (.issuing tenant integration key expiresAt))
  | lockToIssue {tenant integration key : RowId} {expiresAt : Option Int} {row : Integration}
      (begun : state.phases tx = .issuing tenant integration key expiresAt) (grants : state.rows.Grants tx (.integration integration) .update)
      (read : state.rows.view tx (.integration integration) = some (.integration row)) (ofTenant : row.tenant = tenant) (active : row.status = .active) :
      KeyStep state tx (state.locks tx (.integration integration) .update (.inserting tenant integration key expiresAt))
  | insert {tenant integration key : RowId} {expiresAt : Option Int} (begun : state.phases tx = .inserting tenant integration key expiresAt)
      (grants : state.rows.Grants tx (.apiKey key) .update) (new : state.rows.view tx (.apiKey key) = none) :
      KeyStep state tx (state.locksAndWrites tx (.apiKey key) .update (.apiKey ⟨tenant, integration, none, expiresAt⟩) .issued)

/-- `applyRecordActionDelegation`, and the ordinary update of a record. -/
inductive AclStep (declarations : Text → List Declaration) (state : State Tx) (tx : Tx) : State Tx → Prop
  | delegate {caller : Caller} {request : DelegationRequest} {call : Delegation} {tenant : RowId} {entity id : Text}
      (idle : state.phases tx = .idle) (ok : delegation (declarations entity) caller request = .ok call) :
      AclStep declarations state tx (state.enter tx (.delegating call tenant entity id))
  /-- The active ones of the integrations it grants to, in whatever order the statement comes to them. -/
  | findIntegrations {call : Delegation} {tenant : RowId} {entity id : Text} {pending : List RowId}
      (begun : state.phases tx = .delegating call tenant entity id) (once : pending.Nodup)
      (found : ∀ integration, integration ∈ pending ↔ (∃ name ∈ call.grant .integrations, name.map asciiLower = integration.1) ∧
        ∃ row, state.rows.view tx (.integration integration) = some (.integration row) ∧ row.tenant = tenant ∧ row.status = .active) :
      AclStep declarations state tx (state.enter tx (.sharing call tenant entity id pending []))
  | shareNext {call : Delegation} {tenant : RowId} {entity id : Text} {integration : RowId} {pending active : List RowId} {row : Integration}
      (begun : state.phases tx = .sharing call tenant entity id (integration :: pending) active)
      (grants : state.rows.Grants tx (.integration integration) .share)
      (read : state.rows.view tx (.integration integration) = some (.integration row)) :
      AclStep declarations state tx (state.locks tx (.integration integration) .share
        (.sharing call tenant entity id pending (if row.status = .active then integration :: active else active)))
  | assertActiveIntegrations {call : Delegation} {tenant : RowId} {entity id : Text} {active : List RowId}
      (begun : state.phases tx = .sharing call tenant entity id [] active)
      (known : ∀ name ∈ call.grant .integrations, ∃ integration ∈ active, integration.1 = name) :
      AclStep declarations state tx (state.enter tx (.shared call tenant entity id))
  | lockAcl {call : Delegation} {tenant : RowId} {entity id : Text} {stored : Json} (begun : state.phases tx = .shared call tenant entity id)
      (grants : state.rows.Grants tx (.record entity id) .update) (read : state.rows.view tx (.record entity id) = some (.record tenant stored)) :
      AclStep declarations state tx (state.locks tx (.record entity id) .update (.holding call tenant entity id stored))
  | rewrite {call : Delegation} {tenant : RowId} {entity id : Text} {stored written : Json}
      (held : state.phases tx = .holding call tenant entity id stored) (valid : (parseRecordPermissions stored).isSome = true)
      (made : delegatedDocument stored call.action call.grant call.revoke = some written) :
      AclStep declarations state tx (state.writes tx (.record entity id) (.record tenant written) .delegated)
  /-- The document is what it was. -/
  | keep {call : Delegation} {tenant : RowId} {entity id : Text} {stored written : Json}
      (held : state.phases tx = .holding call tenant entity id stored) (valid : (parseRecordPermissions stored).isSome = true)
      (made : delegatedDocument stored call.action call.grant call.revoke = some written) :
      AclStep declarations state tx (state.enter tx .delegated)
  | update {tenant : RowId} {entity id : Text} {submitted : Json} {forUpdate : Bool} (idle : state.phases tx = .idle)
      (valid : (parseRecordPermissions submitted).isSome = true) :
      AclStep declarations state tx (state.enter tx (.updating tenant entity id submitted forUpdate))
  | lockRecord {tenant : RowId} {entity id : Text} {submitted stored : Json} {forUpdate : Bool}
      (begun : state.phases tx = .updating tenant entity id submitted forUpdate)
      (grants : state.rows.Grants tx (.record entity id) (if forUpdate then .update else .noKeyUpdate))
      (read : state.rows.view tx (.record entity id) = some (.record tenant stored)) :
      AclStep declarations state tx (state.locks tx (.record entity id) (if forUpdate then .update else .noKeyUpdate)
        (.reconciling tenant entity id submitted stored))
  | store {tenant : RowId} {entity id : Text} {submitted stored written : Json}
      (held : state.phases tx = .reconciling tenant entity id submitted stored)
      (made : assertRecordActionAxisUnchanged submitted stored = some written) :
      AclStep declarations state tx (state.writes tx (.record entity id) (.record tenant written) .updated)

inductive Step (entities : List RecordActionEntity) (declarations : Text → List Declaration) (state : State Tx) : Label → State Tx → Prop
  | gate {tx : Tx} {next : State Tx} (step : GateStep entities state tx next) : Step entities declarations state .step next
  | effect {tx : Tx} {label : Label} {next : State Tx} (step : EffectStep state tx label next) : Step entities declarations state label next
  | key {tx : Tx} {next : State Tx} (step : KeyStep state tx next) : Step entities declarations state .step next
  | acl {tx : Tx} {next : State Tx} (step : AclStep declarations state tx next) : Step entities declarations state .step next
  | commit {tx : Tx} (done : (state.phases tx).isDone = true) : Step entities declarations state .step (state.move tx (state.rows.commit tx) .idle)
  | rollback {tx : Tx} : Step entities declarations state .step (state.move tx (state.rows.rollback tx) .idle)

def started (committed : RowKey → Option Row) : State Tx := ⟨⟨committed, fun _ => .idle⟩, fun _ => .idle⟩

def State.requests (state : State Tx) (tx : Tx) : Option (RowKey × Strength) := (state.phases tx).request

end OpenShapeForge.Operations.ActionFence
