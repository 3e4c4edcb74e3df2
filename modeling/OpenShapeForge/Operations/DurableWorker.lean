import OpenShapeForge.Js.Value
import OpenShapeForge.Library.Parties

/-! The broker of durable work (apps/api/src/operations/durable-worker.ts and
durable-worker-http.ts): calls of authorize and execute on one work item, in any
number of processes, from one await to the next. The resolver keeps dispatch facts. -/

namespace OpenShapeForge.Operations.DurableWorker
open Js Library

/-- In milliseconds. -/
abbrev Instant := Int

structure WorkReference where
  workId : Text
  attempt : Nat
  workerId : Text
deriving DecidableEq

structure ServiceIdentity where
  tenantId : Text
  clientId : Text

structure WorkOperation (N : Type) where
  id : Text
  input : Option (Members N)
  idempotencyKey : Text

/-- What of a work item the broker binds its capabilities to. -/
structure WorkContent (N : Type) where
  tenantId : Text
  serviceIdentityId : Text
  operation : WorkOperation N

structure ResolvedWork (N : Type) extends WorkContent N where
  operationContractFingerprint : Option Text
  /-- Absent where dispatch facts are not kept; else the attempt on record, if any. -/
  dispatch : Option (Option Nat)

inductive IdempotencyMode where
  | none
  | natural
  | keyed
deriving DecidableEq

inductive DataEffect where
  | read
  | write
  | delete
deriving DecidableEq

inductive ExternalEffect where
  | none
  | read
  | write
deriving DecidableEq

structure OperationDefinition (N : Type) where
  id : Text
  intent : Text
  idempotency : IdempotencyMode
  inputField : Option (Value N)
  data : DataEffect
  external : ExternalEffect

structure Failure where
  code : Text
  message : Text
  retryable : Bool
  retryAt : Option Instant

def failure (code message : String) : Failure := ⟨js code, js message, false, none⟩
def retryableFailure (code message : String) (retryAt : Option Instant) : Failure := ⟨js code, js message, true, retryAt⟩

/-- What execute answers. -/
inductive Result (N : Type) where
  | failed (failure : Failure)
  | answered (body : Value N)

structure Response (N : Type) where
  status : Nat
  body : Option (Value N)
  rateLimitHeader : Bool
  retryAfter : Option Instant

structure DurableRequest (N : Type) where
  serviceIdentityId : Text
  /-- The call of authorize that minted it. -/
  capability : Nat
  operationId : Text
  intent : Text
  input : Option (Members N)
  idempotencyKey : Text

structure Minted where
  reference : WorkReference
  workHash : Text
  requestHash : Text
  contractFingerprint : Text
  expiresAt : Instant

/-- The digests a broker compares. -/
structure Fingerprints (N : Type) where
  work : WorkContent N → Text
  request : DurableRequest N → Text
  reference : WorkReference → Text
  contract : OperationDefinition N → Text

structure BrokerOptions (N : Type) where
  fingerprints : Fingerprints N
  identities : List ServiceIdentity
  carriesKey : Text → Bool
  /-- The attempts and the longest delay of the retry policy. -/
  attempts : Nat
  maxDelay : Instant

section Checks
variable {N : Type} [JsNumber N]

def hasWriteEffects (definition : OperationDefinition N) : Bool := definition.data ≠ .read || definition.external = .write

def priorDispatch (work : ResolvedWork N) (reference : WorkReference) : Bool :=
  match work.dispatch with
  | none => decide (1 < reference.attempt)
  | some attempt => attempt.any (· ≠ reference.attempt)

def safeToRepeat (definition : OperationDefinition N) : Bool :=
  definition.idempotency ≠ .none || (definition.data = .read && definition.external ≠ .write)

def contractInvalid : Failure :=
  failure "OPERATION_CONTRACT_INVALID" "De automatische stap heeft geen geldig operatiecontract."

def inputInvalid : Failure :=
  failure "OPERATION_INPUT_INVALID" "De automatische stap heeft geen geldige idempotentiesleutel."

def outcomeUnknown : Failure :=
  failure "OPERATION_OUTCOME_UNKNOWN" "Deze schrijfactie kan al uitgevoerd zijn. Controleer het resultaat voordat de workflow doorgaat."

def contractChanged : Failure :=
  failure "OPERATION_CONTRACT_CHANGED" "De betekenis van deze operatie is gewijzigd nadat de workflowstap werd vastgelegd."

def capabilityExpired : Failure :=
  retryableFailure "DURABLE_CAPABILITY_EXPIRED" "De uitvoerbevoegdheid verliep tijdens het wachten; er is niets uitgevoerd." none

def canonicalOperation (carriesKey : Text → Bool) (work : WorkContent N) (definition : OperationDefinition N) :
    Except Failure (Option (Members N) × Text) := do
  let input := work.operation.input.getD []
  let (input, key) ← (match definition.idempotency, definition.inputField with
    | .keyed, some (.text field) =>
      if trim field = [] then .error (failure "OPERATION_CONTRACT_INVALID" "De automatische stap heeft geen geldig sleutelveld.")
      else
        match (Value.object input).own? field with
        | some (.text authored) => if trim authored = [] then .error inputInvalid else .ok (some input, authored)
        | some _ => .error inputInvalid
        | none => .ok (some (input ++ [(field, .text work.operation.idempotencyKey)]), work.operation.idempotencyKey)
    | .keyed, some _ => .error (failure "OPERATION_CONTRACT_INVALID" "De automatische stap heeft geen geldig sleutelveld.")
    | _, _ => .ok (work.operation.input, work.operation.idempotencyKey) : Except Failure (Option (Members N) × Text))
  if carriesKey key then .ok (input, key) else .error inputInvalid

def isObjectLike : Value N → Bool
  | .object _ | .array _ => true
  | _ => false

def isCanonicalResult (body : Value N) : Bool :=
  match body with
  | .object _ =>
    if (body.own? (js "data")).isSome then true
    else
      match body.own? (js "error") with
      | some .undefined | none =>
        (match body.own? (js "accepted"), body.own? (js "operations") with
        | some (.object _), some (.array _) => true
        | _, _ => false)
      | some error => isObjectLike error
  | _ => false

def isLimiterRefusal (response : Response N) : Bool :=
  if response.status ≠ 429 then false
  else
    match response.body with
    | none => false
    | some body => !isCanonicalResult body && ((match body.own? (js "code") with
        | some (.text code) => decide (code = js "RATE_LIMITED")
        | _ => false) || response.rateLimitHeader)

def retryAtFor (response : Response N) (now : Instant) : Option Instant := response.retryAfter.map (now + ·)

/-- Whether the limiter's answer is waited out, rather than handed back. -/
def waitsFor (options : BrokerOptions N) (response : Response N) (tries : Nat) : Bool :=
  isLimiterRefusal response && decide (tries < options.attempts) && response.retryAfter.all (· ≤ options.maxDelay)

end Checks

/-- How a write to the work item ends, and what the call hears of it. -/
inductive Fate where
  | committed
  | failed
  | unheard
deriving DecidableEq

/-- What execute carries once it has passed its checks. -/
structure Dispatch (N : Type) where
  minted : Minted
  input : DurableRequest N
  definition : OperationDefinition N

structure ExecuteRequest (N : Type) where
  operationId : Text
  intent : Text
  input : Members N
  idempotencyKey : Text
  expectedContractFingerprint : Text

/-- The work item, what the processes remember, and the requests that were sent and not
refused by the limiter, each with its call. -/
structure Shared (N : Type) where
  /-- All claims of the work item, newest first, and whether the newest is live. -/
  claims : List WorkReference
  live : Bool
  content : WorkContent N
  pin : Option Text
  dispatch : Option Nat
  capabilities : Nat → Option (Nat × Minted)
  dispatchedUnsafeClaims : Nat → List Text
  outstanding : List (Nat × ExecuteRequest N)

/-- Which await a call is at: the first four of authorize, the others of execute. -/
inductive Phase (N : Type) where
  | idle
  | resolving (reference : WorkReference)
  | discovering (reference : WorkReference) (work : ResolvedWork N)
  | pinning (reference : WorkReference) (work : ResolvedWork N) (definition : OperationDefinition N)
  | confirming (reference : WorkReference) (work : ResolvedWork N) (definition : OperationDefinition N)
  | authorized (request : DurableRequest N)
  | resuming (minted : Minted) (input : DurableRequest N)
  | rediscovering (minted : Minted) (input : DurableRequest N) (operationId : Text)
  | checking (dispatch : Dispatch N)
  | marking (dispatch : Dispatch N)
  | recording (dispatch : Dispatch N)
  | sending (dispatch : Dispatch N) (tries : Nat)
  | waiting (dispatch : Dispatch N) (tries : Nat)
  | clearing (dispatch : Dispatch N) (result : Result N)
  /-- `reached` is set where a request may have reached the Operation. -/
  | finished (reference : Option WorkReference) (result : Result N) (reached : Bool)
  | crashed (reference : Option WorkReference) (reached : Bool)

structure Local (N : Type) where
  phase : Phase N
  aborted : Bool

inductive Command (N : Type) where
  | authorize (reference : WorkReference)
  | execute (input : DurableRequest N)

structure Call (N : Type) where
  process : Nat
  command : Command N

/-- What happens to a call, or to the work item beside it. -/
inductive Event (N : Type) where
  | begin (now : Instant)
  /-- The work is read again. -/
  | resolve (now : Instant)
  | catalog (answer : Except Failure (OperationDefinition N))
  | pin (fate : Fate)
  | mark (fate : Fate)
  | clear (fate : Fate)
  | response (response : Response N) (now : Instant)
  | unanswered
  /-- What a call awaits fails, its signal included. -/
  | fail
  | abort
  | crash
  | claimed (reference : WorkReference)
  | lapsed
  | renewed
  | changed (content : WorkContent N)

section Perform
variable {N : Type} [JsNumber N] (options : BrokerOptions N) (calls : Nat → Call N)

def Shared.fences (shared : Shared N) (reference : WorkReference) : Bool :=
  shared.live && decide (shared.claims.head? = some reference)

def resolveWork (shared : Shared N) (reference : WorkReference) : Option (ResolvedWork N) :=
  if shared.fences reference then some ⟨shared.content, shared.pin, some shared.dispatch⟩ else none

def resolved (shared : Shared N) (reference : WorkReference) : Except Failure (ResolvedWork N) :=
  if reference.workId = [] ∨ reference.workerId = [] ∨ reference.attempt < 1 then
    .error (failure "DURABLE_CLAIM_REQUIRED" "De automatische stap heeft geen geldige claim.")
  else
    match resolveWork shared reference with
    | none => .error (failure "DURABLE_CLAIM_LOST" "De automatische stap is niet meer aan deze worker toegewezen.")
    | some work =>
      if work.operation.id = [] ∨ work.operation.idempotencyKey = [] then
        .error (failure "DURABLE_CLAIM_LOST" "De automatische stap is niet meer aan deze worker toegewezen.")
      else if !options.identities.any fun identity => identity.tenantId = work.tenantId && identity.clientId = work.serviceIdentityId then
        .error (failure "SERVICE_IDENTITY_REQUIRED" "Voor deze organisatie is geen passende automatische identiteit ingesteld.")
      else .ok work

/-- The checks of `current` on what the catalog answers. -/
def current (operationId : Text) (answer : Except Failure (OperationDefinition N)) : Except Failure (OperationDefinition N) := do
  let definition ← answer
  if definition.id ≠ operationId ∨ definition.intent = [] then .error contractInvalid else .ok definition

abbrev Next (N : Type) := Option (Shared N × Phase N)

def refuse (shared : Shared N) (failure : Failure) : Next N := some (shared, .finished none (.failed failure) false)

def unauthorized : Failure :=
  retryableFailure "SERVICE_IDENTITY_UNAVAILABLE" "De automatische stap kan nu niet worden geautoriseerd." none

def unavailable : Failure :=
  retryableFailure "OPERATION_TEMPORARILY_UNAVAILABLE" "De automatische stap kan nu niet worden uitgevoerd." none

/-- The end of an execute that recorded its dispatch and has nothing on its way. -/
def notDispatched (shared : Shared N) (dispatch : Dispatch N) (failure : Failure) : Next N :=
  some (shared, .clearing dispatch (.failed failure))

/-- The end of an execute whose request may have reached the Operation. -/
def uncertain (shared : Shared N) (dispatch : Dispatch N) (message : String) : Next N :=
  some (shared, .finished (some dispatch.minted.reference)
    (.failed (if safeToRepeat dispatch.definition then unavailable else failure "OPERATION_OUTCOME_UNKNOWN" message)) true)

def Dispatch.request (dispatch : Dispatch N) : ExecuteRequest N := {
  operationId := dispatch.definition.id
  intent := dispatch.definition.intent
  input := dispatch.input.input.getD []
  idempotencyKey := dispatch.input.idempotencyKey
  expectedContractFingerprint := dispatch.minted.contractFingerprint }

def send (party : Nat) (shared : Shared N) (dispatch : Dispatch N) (tries : Nat) : Next N :=
  some ({ shared with outstanding := (party, dispatch.request) :: shared.outstanding }, .sending dispatch tries)

/-- authorize, once the pin was tried. -/
def confirm (party : Nat) (shared : Shared N) (reference : WorkReference) (work : ResolvedWork N)
    (definition : OperationDefinition N) (now : Instant) : Next N :=
  match resolved options shared reference with
  | .error failure => refuse shared failure
  | .ok pinned =>
    if options.fingerprints.work pinned.toWorkContent ≠ options.fingerprints.work work.toWorkContent then
      refuse shared (failure "DURABLE_CLAIM_CHANGED" "De automatische stap is tijdens autorisatie gewijzigd.")
    else
      match pinned.operationContractFingerprint with
      | none => refuse shared (retryableFailure "DURABLE_CONTRACT_PIN_UNAVAILABLE"
          "Het operatiecontract kon niet veilig aan deze workflowstap worden gekoppeld." none)
      | some pin =>
        if pin ≠ options.fingerprints.contract definition then refuse shared contractChanged
        else if !safeToRepeat definition && (priorDispatch pinned reference ||
            (shared.dispatchedUnsafeClaims (calls party).process).contains (options.fingerprints.reference reference)) then
          refuse shared outcomeUnknown
        else
          match canonicalOperation options.carriesKey work.toWorkContent definition with
          | .error failure => refuse shared failure
          | .ok (input, key) =>
            let request : DurableRequest N := ⟨work.serviceIdentityId, party, definition.id, definition.intent, input, key⟩
            let minted : Minted := ⟨reference, options.fingerprints.work pinned.toWorkContent, options.fingerprints.request request,
              options.fingerprints.contract definition, now + 30000⟩
            some ({ shared with capabilities := Function.update shared.capabilities party (some ((calls party).process, minted)) },
              .authorized request)

/-- execute, at the last read of the work before its dispatch. -/
def check (party : Nat) (shared : Shared N) (dispatch : Dispatch N) (now : Instant) : Next N :=
  let minted := dispatch.minted
  match resolved options shared minted.reference with
  | .error failure => refuse shared failure
  | .ok latest =>
    if minted.workHash ≠ options.fingerprints.work latest.toWorkContent ∨
        latest.operationContractFingerprint ≠ some minted.contractFingerprint then
      refuse shared (failure "DURABLE_CLAIM_CHANGED" "De automatische stap is gewijzigd.")
    else if minted.expiresAt ≤ now then refuse shared capabilityExpired
    else if !safeToRepeat dispatch.definition && (priorDispatch latest minted.reference ||
        (shared.dispatchedUnsafeClaims (calls party).process).contains (options.fingerprints.reference minted.reference)) then
      refuse shared outcomeUnknown
    else some (shared, .marking dispatch)

def note (shared : Shared N) (process : Nat) (claim : Text) : Shared N :=
  { shared with
    dispatchedUnsafeClaims := Function.update shared.dispatchedUnsafeClaims process (claim :: shared.dispatchedUnsafeClaims process) }

/-- execute, once its dispatch is marked: the claim is noted as dispatched, and the
request leaves unless the signal aborted. -/
def record (party : Nat) (shared : Shared N) (dispatch : Dispatch N) (aborted : Bool) : Next N :=
  match resolved options shared dispatch.minted.reference with
  | .error failure => refuse shared failure
  | .ok recorded =>
    if recorded.dispatch ≠ some (some dispatch.minted.reference.attempt) then
      refuse shared (retryableFailure "DURABLE_DISPATCH_UNRECORDED"
        "De start van de automatische stap kon niet worden vastgelegd; er is niets uitgevoerd." none)
    else
      let noted := if safeToRepeat dispatch.definition then shared
        else note shared (calls party).process (options.fingerprints.reference dispatch.minted.reference)
      if aborted then notDispatched noted dispatch unavailable else send party noted dispatch 1

/-- execute, before it sends again what the limiter refused. -/
def retry (party : Nat) (shared : Shared N) (dispatch : Dispatch N) (tries : Nat) (now : Instant) : Next N :=
  let minted := dispatch.minted
  match resolved options shared minted.reference with
  | .error failure => notDispatched shared dispatch failure
  | .ok fenced =>
    if minted.workHash ≠ options.fingerprints.work fenced.toWorkContent ∨
        fenced.operationContractFingerprint ≠ some minted.contractFingerprint then
      notDispatched shared dispatch (failure "DURABLE_CLAIM_CHANGED" "De automatische stap is gewijzigd tijdens het wachten.")
    else if minted.expiresAt ≤ now then notDispatched shared dispatch capabilityExpired
    else send party shared dispatch (tries + 1)

def answer (party : Nat) (shared : Shared N) (dispatch : Dispatch N) (tries : Nat) (response : Response N) (now : Instant) : Next N :=
  if isLimiterRefusal response then
    let refused : Shared N := { shared with outstanding := shared.outstanding.filter fun request => decide (request.1 ≠ party) }
    if waitsFor options response tries then some (refused, .waiting dispatch tries)
    else notDispatched refused dispatch (retryableFailure "OPERATION_TEMPORARILY_UNAVAILABLE"
      "De automatische stap wordt tijdelijk afgeremd; er is niets uitgevoerd." (retryAtFor response now))
  else
    match response.body with
    | some body =>
      if !isCanonicalResult body then uncertain shared dispatch
        "Het resultaat van de schrijfactie is niet bevestigd. Controleer dit voordat de workflow doorgaat."
      else if !safeToRepeat dispatch.definition && decide (500 ≤ response.status) then uncertain shared dispatch
        "De schrijfactie gaf een serverfout. Controleer het resultaat voordat de workflow doorgaat."
      else some (shared, .finished (some dispatch.minted.reference) (.answered body) true)
    | none => uncertain shared dispatch
        "Het resultaat van de schrijfactie is niet bevestigd. Controleer dit voordat de workflow doorgaat."

def perform (party : Nat) (shared : Shared N) (phase : Phase N) (aborted : Bool) : Event N → Next N
  | .begin now =>
    match phase, (calls party).command with
    | .idle, .authorize reference => some (shared, .resolving reference)
    | .idle, .execute input =>
      match (shared.capabilities input.capability).filter (·.1 = (calls party).process) with
      | some (_, minted) =>
        if minted.expiresAt ≤ now ∨ minted.requestHash ≠ options.fingerprints.request input then
          refuse shared (failure "DURABLE_CAPABILITY_REQUIRED"
            "De automatische stap heeft geen actuele, passende uitvoerbevoegdheid.")
        else some ({ shared with capabilities := Function.update shared.capabilities input.capability none }, .resuming minted input)
      | none => refuse shared (failure "DURABLE_CAPABILITY_REQUIRED"
          "De automatische stap heeft geen actuele, passende uitvoerbevoegdheid.")
    | _, _ => none
  | .resolve now =>
    match phase with
    | .resolving reference =>
      match resolved options shared reference with
      | .error failure => refuse shared failure
      | .ok work => some (shared, .discovering reference work)
    | .confirming reference work definition => confirm options calls party shared reference work definition now
    | .resuming minted input =>
      match resolved options shared minted.reference with
      | .error failure => refuse shared failure
      | .ok work =>
        if minted.workHash ≠ options.fingerprints.work work.toWorkContent then
          refuse shared (failure "DURABLE_CLAIM_CHANGED" "De automatische stap is na autorisatie gewijzigd.")
        else if work.operationContractFingerprint ≠ some minted.contractFingerprint then refuse shared contractChanged
        else some (shared, .rediscovering minted input work.operation.id)
    | .checking dispatch => check options calls party shared dispatch now
    | .recording dispatch => record options calls party shared dispatch aborted
    | .waiting dispatch tries => retry options party shared dispatch tries now
    | _ => none
  | .catalog answered =>
    match phase with
    | .discovering reference work =>
      match current work.operation.id answered with
      | .error failure => refuse shared failure
      | .ok definition =>
        if work.operationContractFingerprint.any (· ≠ options.fingerprints.contract definition) then refuse shared contractChanged
        else if work.operationContractFingerprint = none ∧ priorDispatch work reference ∧ hasWriteEffects definition then
          refuse shared outcomeUnknown
        else some (shared, .pinning reference work definition)
    | .rediscovering minted input operationId =>
      match current operationId answered with
      | .error failure => refuse shared failure
      | .ok definition =>
        if definition.intent ≠ input.intent ∨ options.fingerprints.contract definition ≠ minted.contractFingerprint then
          refuse shared (failure "OPERATION_CONTRACT_CHANGED" "De betekenis van deze operatie is gewijzigd.")
        else some (shared, .checking ⟨minted, input, definition⟩)
    | _ => none
  | .pin fate =>
    match phase with
    | .pinning reference work definition =>
      some ({ shared with
        pin := if fate ≠ .failed ∧ shared.fences reference = true ∧ shared.pin = none then
          some (options.fingerprints.contract definition) else shared.pin },
        .confirming reference work definition)
    | _ => none
  | .mark fate =>
    match phase with
    | .marking dispatch =>
      if fate = .failed ∨ shared.fences dispatch.minted.reference = false then refuse shared unavailable
      else
        let marked : Shared N := { shared with dispatch := some dispatch.minted.reference.attempt }
        if fate = .committed then some (marked, .recording dispatch) else refuse marked unavailable
    | _ => none
  | .clear fate =>
    match phase with
    | .clearing dispatch result =>
      some ({ shared with
        dispatch := if fate ≠ .failed ∧ shared.fences dispatch.minted.reference = true then none else shared.dispatch },
        .finished (some dispatch.minted.reference) result false)
    | _ => none
  | .response response now =>
    match phase with
    | .sending dispatch tries => answer options party shared dispatch tries response now
    | _ => none
  | .unanswered =>
    match phase with
    | .sending dispatch _ => uncertain shared dispatch
        "Het resultaat van de schrijfactie is niet bevestigd. Controleer dit voordat de workflow doorgaat."
    | _ => none
  | .fail =>
    match phase with
    | .resolving _ | .discovering _ _ | .confirming _ _ _ => refuse shared unauthorized
    | .resuming _ _ | .rediscovering _ _ _ | .checking _ | .recording _ => refuse shared unavailable
    | .waiting dispatch _ => notDispatched shared dispatch unavailable
    | _ => none
  | .abort => some (shared, phase)
  | .crash =>
    match phase with
    | .sending dispatch _ => some (shared, .crashed (some dispatch.minted.reference) true)
    | .finished _ _ _ | .authorized _ | .crashed _ _ => none
    | _ => some (shared, .crashed none false)
  | .claimed reference =>
    if shared.claims.all fun earlier => decide (earlier.attempt < reference.attempt) then
      some ({ shared with claims := reference :: shared.claims, live := true }, phase)
    else none
  | .lapsed => some ({ shared with live := false }, phase)
  | .renewed => some ({ shared with live := true }, phase)
  | .changed content => some ({ shared with content := content }, phase)

def act (party : Nat) (shared : Shared N) (call : Local N) (event : Event N) : Option (Shared N × Local N) :=
  (perform options calls party shared call.phase call.aborted event).map fun (after, next) =>
    (after, ⟨next, call.aborted || (match event with
      | .abort => true
      | _ => false)⟩)

end Perform

/-- A work item that nobody has claimed, and no call begun. -/
def initial {N : Type} (content : WorkContent N) : Parties.State Nat (Shared N) (Local N) :=
  ⟨⟨[], false, content, none, none, fun _ => none, fun _ => [], []⟩, fun _ => ⟨.idle, false⟩⟩

end OpenShapeForge.Operations.DurableWorker
