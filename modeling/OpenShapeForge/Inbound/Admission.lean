import OpenShapeForge.Inbound.DeliveryIdentity
import OpenShapeForge.Jobs.JobStore
import OpenShapeForge.Control.OrganizationNaming
import OpenShapeForge.Library.RowHistory
import OpenShapeForge.Library.Run

/-! Admission of an authenticated inbound delivery (apps/api/src/modules/inbound-admission.ts)
and the statements of its store (inbound-store.ts): the receipt and the work that will dispatch
it are written in one transaction, under a key that comes from the verified body. -/

namespace OpenShapeForge.Inbound.Admission
open Js Library RowLocks DeliveryIdentity
open Jobs.JobStore (Timestamp EnqueueJobInput JobRow enqueuedRow)

section Records

structure StoredSecret where
  ciphertext : Text
  keyId : Text
  algorithm : Text
deriving DecidableEq

structure SignatureScheme where
  header : Text
  algorithm : Text
  encoding : Text
  tag : Option Text
deriving DecidableEq

structure UnsignedHeaders where
  deliveryId : Option Text
  eventType : Option Text
deriving DecidableEq

structure EndpointRow where
  id : Text
  tenantId : Text
  endpointKey : Text
  signature : SignatureScheme
  identity : IdentityColumns
  unsignedHeaders : UnsignedHeaders
  maxBodyBytes : Nat
  secret : StoredSecret
  serviceIdentityId : Text
  operationId : Text
  operationInputField : Text
  status : Text
  createdBy : Text

structure InboundAdmissionEndpoint where
  id : Text
  tenantId : Text
  endpointKey : Text
  signature : SignatureScheme
  storedSecret : StoredSecret
  identity : InboundIdentityProfile
  unsignedHeaders : UnsignedHeaders
  maxBodyBytes : Nat
  active : Bool
  serviceIdentityId : Text
  operationId : Text
  inputField : Text
  createdBy : Text
deriving DecidableEq

/-- Nothing where the identity profile no longer normalises. -/
def endpointOf (N : Type) [JsNumber N] (row : EndpointRow) : Option InboundAdmissionEndpoint :=
  (storedInboundIdentity N row.identity).map fun identity => {
    id := row.id
    tenantId := row.tenantId
    endpointKey := row.endpointKey
    signature := { row.signature with tag := row.signature.tag.filter fun tag => tag ≠ [] }
    storedSecret := row.secret
    identity
    unsignedHeaders := row.unsignedHeaders
    maxBodyBytes := row.maxBodyBytes
    active := row.status = js "active"
    serviceIdentityId := row.serviceIdentityId
    operationId := row.operationId
    inputField := row.operationInputField
    createdBy := row.createdBy }

structure RecordInboundDeliveryInput where
  endpoint : InboundAdmissionEndpoint
  deliveryId : Text
  /-- From inside the signature. -/
  eventType : Option Text
  unsignedProviderDeliveryId : Option Text
  unsignedEventType : Option Text
  bodySha256 : Text
  bodyBytes : Nat
  sealedBody : StoredSecret
  idempotencyKey : Text
deriving DecidableEq

structure InboundDelivery where
  id : Text
  tenantId : Text
  endpointId : Text
  endpointKey : Text
  serviceIdentityId : Text
  operationId : Text
  operationInputField : Text
  idempotencyKey : Text
  eventType : Option Text
  unsignedProviderDeliveryId : Option Text
  unsignedEventType : Option Text
  bodySha256 : Text
  bodyBytes : Nat
  body : StoredSecret
  dispatchJobId : Option Text

def RecordInboundDeliveryInput.row (input : RecordInboundDeliveryInput) : InboundDelivery where
  id := input.deliveryId
  tenantId := input.endpoint.tenantId
  endpointId := input.endpoint.id
  endpointKey := input.endpoint.endpointKey
  serviceIdentityId := input.endpoint.serviceIdentityId
  operationId := input.endpoint.operationId
  operationInputField := input.endpoint.inputField
  idempotencyKey := input.idempotencyKey
  eventType := input.eventType
  unsignedProviderDeliveryId := input.unsignedProviderDeliveryId
  unsignedEventType := input.unsignedEventType
  bodySha256 := input.bodySha256
  bodyBytes := input.bodyBytes
  body := input.sealedBody
  dispatchJobId := none

/-- `INBOUND_DISPATCH_KIND`. -/
def inboundDispatchKind : Text := js "osf-inbound.dispatch"

def RecordInboundDeliveryInput.work (N : Type) (input : RecordInboundDeliveryInput) : EnqueueJobInput N where
  tenantId := input.endpoint.tenantId
  actorId := input.endpoint.createdBy
  kind := inboundDispatchKind
  payload := .object [(js "deliveryId", .text input.deliveryId)]
  availableAt := none
  maxAttempts := none

end Records

section Examine

structure InboundAdmissionRequest where
  endpointKey : Text
  endpointId : Text
  header : Text → Option Text
  body : List UInt8

inductive RuntimeInboundAdmission where
  | rejected
  | unavailable
  | accepted (deliveryId : Text)
  | duplicate (deliveryId : Text)
deriving DecidableEq

def RuntimeInboundAdmission.receipt : RuntimeInboundAdmission → Option Text
  | .accepted id | .duplicate id => some id
  | _ => none

/-- `INBOUND_MAX_BODY_BYTES`. -/
def maxBodyBytes : Nat := 256 * 1024

/-- `INBOUND_ENDPOINT_KEY`: `/^[a-z][a-z0-9-]*(\.[a-z][a-z0-9-]*)*$/`. -/
def isEndpointKey (key : Text) : Bool :=
  let isLower (c : CodeUnit) : Bool := 97 ≤ c && c ≤ 122
  (segments key).all fun part => part.head?.any isLower && part.all fun c => isLower c || isDigit c || c == unit '-'

/-- Five groups of hexadecimal digits. -/
def isUuid (text : Text) : Bool :=
  let groups := text.splitOn (unit '-')
  decide (groups.map List.length = [8, 4, 4, 4, 12]) && groups.all (·.all Control.OrganizationNaming.isHex)

def maxMetadataBytes : Nat := 200

/-- Bounded, printable projection of a metadata header. -/
def metadata (value : Option Text) : Option Text :=
  (value.map trim).filter fun trimmed =>
    trimmed ≠ [] ∧ (utf8 trimmed).length ≤ maxMetadataBytes ∧ (trimmed.any fun c => c ≤ 0x1F || c == 0x7F) = false

/-- What the host is built with: its doubles, its hash and its check of signatures. -/
structure Host (N : Type) where
  nearest : ℚ → N
  sha256 : List UInt8 → List UInt8
  normalizeInboundSignatureScheme : SignatureScheme → Option SignatureScheme
  verifyInboundSignature : SignatureScheme → Text → List UInt8 → Option Text → Nat → Bool

/-- What one admission finds: the keyring, what the lookup of the tenant answers where it does
not fail, the registration, its secret where it opens, and the body where it is sealed. -/
structure Surroundings where
  hasKeyring : Bool
  lookup : Option (Option Text)
  row : Option EndpointRow
  secret : Option Text
  sealedBody : Option StoredSecret

variable {N : Type} [JsNumber N] (host : Host N)

def inboundDeliveryKey (endpointId keySource : Text) : Text :=
  js "inbound." ++ endpointId ++ js "." ++ hex (host.sha256 (utf8 keySource))

/-- `createHash("sha256").update(request.body).digest("hex")`. -/
def bodyDigest (body : List UInt8) : Text := hex (host.sha256 body)

def recordOf (request : InboundAdmissionRequest) (endpoint : InboundAdmissionEndpoint) (identity : SignedDeliveryIdentity)
    (sealedBody : StoredSecret) (deliveryId : Text) : RecordInboundDeliveryInput where
  endpoint
  deliveryId
  eventType := identity.eventType
  unsignedProviderDeliveryId := endpoint.unsignedHeaders.deliveryId.bind fun name => metadata (request.header name)
  unsignedEventType := endpoint.unsignedHeaders.eventType.bind fun name => metadata (request.header name)
  bodySha256 := bodyDigest host request.body
  bodyBytes := request.body.length
  sealedBody
  idempotencyKey := inboundDeliveryKey host endpoint.id identity.keySource

/-- admit, as far as what it hands to recordDelivery, or the answer that it gives before. -/
def examine (request : InboundAdmissionRequest) (met : Surroundings) (deliveryId : Text) :
    Except RuntimeInboundAdmission RecordInboundDeliveryInput :=
  if 64 < request.endpointKey.length ∨ isEndpointKey request.endpointKey = false ∨ isUuid request.endpointId = false then .error .rejected
  else if maxBodyBytes < request.body.length then .error .rejected
  else if met.hasKeyring = false then .error .unavailable
  else
    match met.lookup with
    | none => .error .unavailable
    | some none => .error .rejected
    | some (some tenantId) =>
      if isUuid tenantId = false then .error .rejected
      else
        match met.row.bind (endpointOf N) with
        | none => .error .rejected
        | some endpoint =>
          if endpoint.tenantId ≠ tenantId ∨ endpoint.id ≠ request.endpointId ∨ endpoint.endpointKey ≠ request.endpointKey ∨
              endpoint.active = false then .error .rejected
          else
            match host.normalizeInboundSignatureScheme endpoint.signature, met.secret with
            | some scheme, some secret =>
              if host.verifyInboundSignature scheme secret request.body (request.header scheme.header) endpoint.maxBodyBytes = false then
                .error .rejected
              else
                match readSignedDeliveryIdentity host.nearest endpoint.identity request.body (bodyDigest host request.body) with
                | none => .error .rejected
                | some identity =>
                  match met.sealedBody with
                  | none => .error .unavailable
                  | some sealedBody => .ok (recordOf host request endpoint identity sealedBody deliveryId)
            | _, _ => .error .rejected

end Examine

section States

/-- A verified body, and what is to be recorded of it. -/
structure Attempt where
  body : List UInt8
  input : RecordInboundDeliveryInput

/-- How far a transaction of an admission has come. -/
inductive Phase where
  | idle
  | begun (attempt : Attempt)
  | conflicted (attempt : Attempt)
  | inserted (attempt : Attempt)
  | enqueued (attempt : Attempt) (job : Text)
  | recorded (attempt : Attempt) (answer : RuntimeInboundAdmission)

structure Answer where
  body : List UInt8
  admission : RuntimeInboundAdmission

/-- The receipts of an endpoint and the jobs that dispatch them, both by their delivery key,
which is unique, and the answers in their order. -/
structure State (Tx N : Type) where
  deliveries : Store Tx Text InboundDelivery
  jobs : Store Tx Text (Text × JobRow N)
  phases : Tx → Phase
  answers : List Answer

def State.empty {Tx N : Type} : State Tx N where
  deliveries := ⟨fun _ => none, fun _ => .idle⟩
  jobs := ⟨fun _ => none, fun _ => .idle⟩
  phases _ := .idle
  answers := []

inductive Action (Tx : Type) where
  | admitEvent (tx : Tx) (request : InboundAdmissionRequest) (met : Surroundings) (deliveryId : Text)
  | insert (tx : Tx)
  | read (tx : Tx)
  | enqueue (tx : Tx) (job : Text) (now : Timestamp)
  | link (tx : Tx)
  | commit (tx : Tx)
  /-- A statement throws, or the connection is lost. -/
  | fail (tx : Tx)

variable {Tx N : Type} [DecidableEq Tx]

namespace State
variable (state : State Tx N) (tx : Tx)

def enter (phase : Phase) : State Tx N := { state with phases := Function.update state.phases tx phase }

def tell (body : List UInt8) (admission : RuntimeInboundAdmission) : State Tx N :=
  { state with answers := state.answers ++ [⟨body, admission⟩] }

def keep (key : Text) (row : InboundDelivery) : State Tx N :=
  { state with deliveries := (state.deliveries.lock tx key .update).write tx key (some row) }

def queue (key : Text) (row : Text × JobRow N) : State Tx N :=
  { state with jobs := (state.jobs.lock tx key .update).write tx key (some row) }

def commit : State Tx N := { state with deliveries := state.deliveries.commit tx, jobs := state.jobs.commit tx }

def rollback : State Tx N := { state with deliveries := state.deliveries.rollback tx, jobs := state.jobs.rollback tx }

def Present (key : Text) (row : InboundDelivery) : Prop :=
  state.deliveries.committed key = some row ∨ ∃ other, (state.deliveries.sessions other).written key = some (some row)

end State

def Phase.body : Phase → List UInt8
  | .idle => []
  | .begun attempt | .conflicted attempt | .inserted attempt | .enqueued attempt _ | .recorded attempt _ => attempt.body

variable [JsNumber N]

inductive Step (host : Host N) (registered : EndpointRow) (state : State Tx N) : Action Tx → State Tx N → Prop
  | admitEvent {tx : Tx} {request : InboundAdmissionRequest} {met : Surroundings} {deliveryId : Text} {input : RecordInboundDeliveryInput} :
      state.phases tx = .idle → (∀ row, met.row = some row → ∃ status, row = { registered with status }) →
      examine host request met deliveryId = .ok input →
      Step host registered state (.admitEvent tx request met deliveryId) (state.enter tx (.begun ⟨request.body, input⟩))
  | refuse {tx : Tx} {request : InboundAdmissionRequest} {met : Surroundings} {deliveryId : Text} {answer : RuntimeInboundAdmission} :
      state.phases tx = .idle → (∀ row, met.row = some row → ∃ status, row = { registered with status }) →
      examine host request met deliveryId = .error answer →
      Step host registered state (.admitEvent tx request met deliveryId) (state.tell request.body answer)
  /-- The insert waits for whoever has written the key before. The id is the primary key. -/
  | insert {tx : Tx} {attempt : Attempt} : state.phases tx = .begun attempt →
      state.deliveries.Grants tx attempt.input.idempotencyKey .update → state.deliveries.view tx attempt.input.idempotencyKey = none →
      (∀ key row, state.Present key row → row.id ≠ attempt.input.deliveryId) →
      Step host registered state (.insert tx)
        ((state.keep tx attempt.input.idempotencyKey attempt.input.row).enter tx (.inserted attempt))
  /-- `on conflict do nothing`. -/
  | conflict {tx : Tx} {attempt : Attempt} {row : InboundDelivery} : state.phases tx = .begun attempt →
      state.deliveries.view tx attempt.input.idempotencyKey = some row →
      Step host registered state (.insert tx) (state.enter tx (.conflicted attempt))
  | read {tx : Tx} {attempt : Attempt} {row : InboundDelivery} : state.phases tx = .conflicted attempt →
      state.deliveries.view tx attempt.input.idempotencyKey = some row →
      Step host registered state (.read tx) (state.enter tx (.recorded attempt (.duplicate row.id)))
  | enqueue {tx : Tx} {attempt : Attempt} {job : Text} {now : Timestamp} {row : JobRow N} : state.phases tx = .inserted attempt →
      state.jobs.Grants tx attempt.input.idempotencyKey .update → state.jobs.view tx attempt.input.idempotencyKey = none →
      enqueuedRow now (attempt.input.work N) = some row →
      Step host registered state (.enqueue tx job now)
        ((state.queue tx attempt.input.idempotencyKey (job, row)).enter tx (.enqueued attempt job))
  /-- The job is known by its delivery key. -/
  | enqueued {tx : Tx} {attempt : Attempt} {job : Text} {now : Timestamp} {known : Text × JobRow N} : state.phases tx = .inserted attempt →
      state.jobs.view tx attempt.input.idempotencyKey = some known →
      Step host registered state (.enqueue tx job now) (state.enter tx (.enqueued attempt known.1))
  | link {tx : Tx} {attempt : Attempt} {job : Text} {row : InboundDelivery} : state.phases tx = .enqueued attempt job →
      state.deliveries.Grants tx attempt.input.idempotencyKey .update → state.deliveries.view tx attempt.input.idempotencyKey = some row →
      Step host registered state (.link tx)
        ((state.keep tx attempt.input.idempotencyKey { row with dispatchJobId := some job }).enter tx
          (.recorded attempt (.accepted attempt.input.deliveryId)))
  /-- The caller is answered once the transaction has committed. -/
  | commit {tx : Tx} {attempt : Attempt} {answer : RuntimeInboundAdmission} : state.phases tx = .recorded attempt answer →
      Step host registered state (.commit tx) (((state.commit tx).enter tx .idle).tell attempt.body answer)
  | fail {tx : Tx} : state.phases tx ≠ .idle →
      Step host registered state (.fail tx) (((state.rollback tx).enter tx .idle).tell (state.phases tx).body .unavailable)

end States

end OpenShapeForge.Inbound.Admission
