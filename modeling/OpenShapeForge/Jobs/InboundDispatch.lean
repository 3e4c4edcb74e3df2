import OpenShapeForge.Jobs.JobWorker
import OpenShapeForge.Operations.DurableWorker

/-! The job of an inbound delivery (apps/api/src/jobs/inbound/dispatch.ts and work.ts): its
handler hands the broker the claim it was started under, and every read and mark of the
broker is fenced by the row of the queue. -/

namespace OpenShapeForge.Jobs.InboundDispatch
open Js Library JobStore JobWorker
open Operations.DurableWorker (WorkReference WorkContent BrokerOptions Failure retryableFailure DurableRequest ExecuteRequest Minted)

inductive DeliveryStatus where
  | pending
  | dispatching
  | delivered
  | failed
  | outcomeUnknown
deriving DecidableEq

inductive DispatchState where
  | none
  | started
  | notDispatched
deriving DecidableEq

structure InboundDelivery (N : Type) where
  id : Text
  dispatchJobId : Text
  content : WorkContent N
  status : DeliveryStatus
  completed : Bool
  contractFingerprint : Option Text
  dispatchState : DispatchState
  dispatchAttempt : Option Nat
  endpointActive : Bool

section Work
variable {N : Type}

def InboundDelivery.isOpen (delivery : InboundDelivery N) : Bool := delivery.status = .pending ∨ delivery.status = .dispatching

/-- The queue row is running under the attempt of a reference, within its lease. -/
def claimLive (now : Timestamp) (jobs : JobTable N) (delivery : InboundDelivery N) (reference : WorkReference) : Bool :=
  (jobs.get? delivery.dispatchJobId).any fun row =>
    row.status = .running ∧ row.attempts = reference.attempt ∧ row.leaseUntil.any (now < ·) = true

def claimedDelivery (now : Timestamp) (jobs : JobTable N) (delivery : InboundDelivery N) (reference : WorkReference) : Bool :=
  decide (delivery.id = reference.workId) && delivery.isOpen && claimLive now jobs delivery reference && delivery.endpointActive

/-- The attempt that resolve reports: the one on record as having started a dispatch. -/
def InboundDelivery.startedAttempt (delivery : InboundDelivery N) : Option Nat :=
  if delivery.dispatchState = .started then delivery.dispatchAttempt else none

def pinInboundOperationContract (now : Timestamp) (jobs : JobTable N) (delivery : InboundDelivery N) (reference : WorkReference)
    (fingerprint : Text) : InboundDelivery N :=
  if delivery.id = reference.workId ∧ claimLive now jobs delivery reference = true ∧ delivery.endpointActive = true ∧
      delivery.contractFingerprint = none then
    { delivery with contractFingerprint := some fingerprint }
  else delivery

def markInboundDispatchInTransaction (now : Timestamp) (jobs : JobTable N) (delivery : InboundDelivery N) (reference : WorkReference)
    (state : DispatchState) : Option (InboundDelivery N) :=
  if claimedDelivery now jobs delivery reference then
    some { delivery with dispatchState := state, dispatchAttempt := some reference.attempt, status := .dispatching }
  else none

inductive BodyRefusal where
  | purged
  | keyUnavailable
  | unreadable

def BodyRefusal.failure : BodyRefusal → Failure
  | .purged =>
    Operations.DurableWorker.failure "INBOUND_BODY_PURGED" "The retained payload of this inbound delivery has been removed and cannot be dispatched."
  | .keyUnavailable =>
    retryableFailure "INBOUND_BODY_KEY_UNAVAILABLE" "This worker has no secret keyring and cannot open an inbound delivery payload." none
  | .unreadable =>
    Operations.DurableWorker.failure "INBOUND_BODY_UNREADABLE" "The payload of this inbound delivery cannot be opened with the keys this host holds."

def settleInboundDelivery (delivery : InboundDelivery N) (state : DeliveryStatus) : InboundDelivery N :=
  if delivery.completed then delivery else { delivery with status := state, completed := true }

end Work

section Handler
variable {N : Type} [JsNumber N]

/-- The state that the handler settles the delivery in, if any, and what it returns. -/
structure Decision (N : Type) where
  settlement : Option DeliveryStatus
  outcome : Value N

def isUuid (text : Text) : Bool :=
  let isHex (c : CodeUnit) : Bool := isDigit c || (97 ≤ c && c ≤ 102) || (65 ≤ c && c ≤ 70)
  decide (text.length = 36) && text.zipIdx.all fun (c, index) => if [8, 13, 18, 23].contains index then c == unit '-' else isHex c

def outcomeOf (outcome : String) (members : Members N) : Value N := .object ((js "outcome", .text (js outcome)) :: members)

def errorValue (code : Option Text) (message : Text) : Value N :=
  .object ((js "message", .text message) :: (code.map fun code => (js "code", Value.text code)).toList)

def failedWith (settlement : Option DeliveryStatus) (code message : Text) : Decision N :=
  ⟨settlement, outcomeOf "failed" [(js "error", errorValue (some code) message)]⟩

/-- `UNCERTAIN`. -/
def isUncertain (code : Text) : Bool := code = js "OPERATION_OUTCOME_UNKNOWN"

def deliveryIdOf (payload : Value N) : Option Text :=
  match payload.own? (js "deliveryId") with
  | some (.text id) => if isUuid id then some id else none
  | _ => none

def invalidDelivery : Decision N := failedWith none (js "INBOUND_DELIVERY_INVALID") (js "The job names no inbound delivery.")

def brokerMissing : Decision N :=
  failedWith (some .failed) (js "DURABLE_DISPATCH_UNAVAILABLE") (js "This worker cannot authorize an automatic dispatch.")

def authorizeFailed (cause : Failure) : Decision N :=
  let error : Value N := errorValue (some cause.code) cause.message
  if isUncertain cause.code then ⟨some .outcomeUnknown, outcomeOf "outcome_unknown" [(js "error", error)]⟩
  else if cause.retryable then ⟨none, outcomeOf "retry" [(js "error", error)]⟩
  else ⟨some .failed, outcomeOf "failed" [(js "error", error)]⟩

def ofInt : Int → N
  | .ofNat n => JsNumber.ofNat n
  | .negSucc n => JsNumber.neg (JsNumber.ofNat (n + 1))

/-- What execute answers, read as the handler reads it: its error, whether that can be retried, and when. -/
def errorOf : Operations.DurableWorker.Result N → Option ((Option Text × Text) × Bool × Option N)
  | .failed cause => some ((some cause.code, cause.message), cause.retryable, cause.retryAt.map ofInt)
  | .answered body =>
    let error := (body.own? (js "error")).getD .undefined
    if Operations.DurableWorker.isObjectLike error then
      let code := match error.own? (js "code") with
        | some (.text code) => some code
        | _ => none
      let message := match error.own? (js "message") with
        | some (.text message) => message
        | _ => js "The inbound dispatch failed."
      let retryAt := match error.own? (js "retryAt") with
        | some (.text named) => if named = [] then none else some (JsNumber.timeOfText named)
        | _ => none
      some ((code, message), ((error.own? (js "retryable")).getD .undefined).isTrue, retryAt.filter JsNumber.isFinite)
    else none

def executedDecision (deliveryId : Text) (result : Operations.DurableWorker.Result N) : Decision N :=
  match errorOf result with
  | none => ⟨some .delivered, outcomeOf "done" [(js "result", .object [(js "deliveryId", .text deliveryId)])]⟩
  | some ((code, message), retryable, retryAt) =>
    let error : Value N := errorValue code message
    if code.any isUncertain then ⟨some .outcomeUnknown, outcomeOf "outcome_unknown" [(js "error", error)]⟩
    else if retryable then
      ⟨none, outcomeOf "retry" ((js "error", error) :: (retryAt.map fun time => (js "retryAt", Value.date time)).toList)⟩
    else ⟨some .failed, outcomeOf "failed" [(js "error", error)]⟩

end Handler

section Perform
variable {N : Type} [JsNumber N]

structure InboundOptions (N : Type) where
  worker : WorkerOptions N
  broker : BrokerOptions N
  process : Nat → Nat
  workerId : Nat → Text

/-- The queue, the delivery, what the processes' brokers remember, and the requests that
left and were not refused by the limiter, each with its run. -/
structure Shared (N : Type) where
  queue : JobWorker.Shared N
  delivery : InboundDelivery N
  capabilities : Nat → Option (Nat × Minted)
  dispatchedUnsafeClaims : Nat → List Text
  outstanding : List (Nat × ExecuteRequest N)

/-- How far the handler of a run has come. -/
inductive Stage (N : Type) where
  | starting
  | authorizing
  | executing (input : DurableRequest N)
  | decided (decision : Decision N)

/-- A run, with the last call of the broker that its handler made. -/
structure Local (N : Type) where
  phase : JobWorker.Phase N
  stage : Stage N
  call : Operations.DurableWorker.Phase N

inductive Event (N : Type) where
  /-- Anything that happens to the queue, but the end of a handler that is modelled here. -/
  | queue (event : JobWorker.Event N)
  /-- The handler is entered, with or without a broker. -/
  | enter (hasBroker : Bool)
  /-- A call of the broker goes on, at a time of the database. -/
  | broker (now : Timestamp) (event : Operations.DurableWorker.Event N)
  /-- The body of the delivery cannot be opened. -/
  | unopened (now : Timestamp) (cause : BodyRefusal)
  /-- The handler goes on with what the call has come to. -/
  | resume
  | returns
  | revoke

abbrev Next (N : Type) := Option (Shared N × Local N)

variable (options : InboundOptions N) (run : Nat)

def handled (shared : Shared N) (phase : JobWorker.Phase N) : Option (ClaimedJob N) :=
  match phase with
  | .handling job | .severed job => if job.id = shared.delivery.dispatchJobId then some job else none
  | _ => none

def referenceOf (job : ClaimedJob N) (deliveryId : Text) : WorkReference := ⟨deliveryId, job.attempts, options.workerId (options.process run)⟩

/-- The work item as the broker of a run sees it under a claim. -/
def workOf (now : Timestamp) (shared : Shared N) (reference : WorkReference) : Operations.DurableWorker.Shared N where
  claims := if claimedDelivery now shared.queue.jobs shared.delivery reference then [reference] else []
  live := true
  content := shared.delivery.content
  pin := shared.delivery.contractFingerprint
  dispatch := shared.delivery.startedAttempt
  capabilities := shared.capabilities
  dispatchedUnsafeClaims := shared.dispatchedUnsafeClaims
  outstanding := shared.outstanding

/-- What a step of the broker writes to the delivery, under the reference that it was handed. -/
def written (now : Timestamp) (shared : Shared N) (reference : WorkReference) (call : Operations.DurableWorker.Phase N)
    (event : Operations.DurableWorker.Event N) : InboundDelivery N :=
  match event, call with
  | .pin fate, .pinning own _ definition =>
    if fate = .failed ∨ own ≠ reference then shared.delivery
    else pinInboundOperationContract now shared.queue.jobs shared.delivery reference (options.broker.fingerprints.contract definition)
  | .mark fate, .marking dispatch =>
    if fate = .failed ∨ dispatch.minted.reference ≠ reference then shared.delivery
    else (markInboundDispatchInTransaction now shared.queue.jobs shared.delivery reference .started).getD shared.delivery
  | .clear fate, .clearing dispatch _ =>
    if fate = .failed ∨ dispatch.minted.reference ≠ reference then shared.delivery
    else (markInboundDispatchInTransaction now shared.queue.jobs shared.delivery reference .notDispatched).getD shared.delivery
  | _, _ => shared.delivery

/-- The steps of a call of the broker, which is given no signal to abort on. -/
def ofCall {N : Type} : Operations.DurableWorker.Event N → Bool
  | .begin _ | .resolve _ | .catalog _ | .pin _ | .mark _ | .clear _ | .response _ _ | .unanswered | .fail => true
  | _ => false

def callBroker (now : Timestamp) (shared : Shared N) (reference : WorkReference) (command : Operations.DurableWorker.Command N)
    (call : Operations.DurableWorker.Phase N) (event : Operations.DurableWorker.Event N) :
    Option (Shared N × Operations.DurableWorker.Phase N) :=
  if ofCall event then
    (Operations.DurableWorker.perform options.broker (fun _ => ⟨options.process run, command⟩) run (workOf now shared reference) call false event).map
      fun (after, next) =>
        ({ shared with
          delivery := written options now shared reference call event
          capabilities := after.capabilities
          dispatchedUnsafeClaims := after.dispatchedUnsafeClaims
          outstanding := after.outstanding }, next)
  else none

/-- A failure of the delivery's body in place of one that the broker does not know. -/
def unopenedAs (cause : Failure) : Operations.DurableWorker.Phase N → Operations.DurableWorker.Phase N
  | .finished reference (.failed _) reached => .finished reference (.failed cause) reached
  | .clearing dispatch (.failed _) => .clearing dispatch (.failed cause)
  | other => other

/-- A step of the handler's call, and what the handler is at then. -/
def advance (now : Timestamp) (shared : Shared N) (own : Local N) (event : Operations.DurableWorker.Event N)
    (ends : Operations.DurableWorker.Phase N → Operations.DurableWorker.Phase N) : Next N :=
  (handled shared own.phase).bind fun job =>
    let reference := referenceOf options run job shared.delivery.id
    let command : Option (Operations.DurableWorker.Command N) := match own.stage with
      | .authorizing => some (.authorize reference)
      | .executing input => some (.execute input)
      | _ => none
    command.bind fun command =>
      (callBroker options run now shared reference command own.call event).map fun (after, next) => (after, { own with call := ends next })

/-- The handler of a run, once its call has come to an end. -/
def resume (shared : Shared N) (own : Local N) : Next N :=
  (handled shared own.phase).bind fun _ =>
    match own.stage, own.call with
    | .authorizing, .authorized request => some (shared, { own with stage := .executing request, call := .idle })
    | .authorizing, .finished _ (.failed cause) _ => some (shared, { own with stage := .decided (authorizeFailed cause) })
    | .executing _, .finished _ result _ => some (shared, { own with stage := .decided (executedDecision shared.delivery.id result) })
    | _, _ => none

def enter (shared : Shared N) (own : Local N) (hasBroker : Bool) : Next N :=
  (handled shared own.phase).bind fun job =>
    match own.stage with
    | .starting =>
      match deliveryIdOf job.payload with
      | none => some (shared, { own with stage := .decided invalidDelivery })
      | some named =>
        if named ≠ shared.delivery.id then none
        else some (shared, { own with stage := if hasBroker then .authorizing else .decided brokerMissing })
    | _ => none

def queueStep (shared : Shared N) (own : Local N) (event : JobWorker.Event N) : Next N :=
  (JobWorker.perform options.worker run shared.queue own.phase event).map fun (queue, phase) =>
    let delivery := match own.phase, event, own.stage with
      | .settling job _ _, .finish fate _, .decided ⟨some state, _⟩ =>
        if job.id = shared.delivery.dispatchJobId ∧ fate ≠ .failed then settleInboundDelivery shared.delivery state else shared.delivery
      | _, _, _ => shared.delivery
    ({ shared with queue, delivery }, { own with phase })

def perform (shared : Shared N) (own : Local N) : Event N → Next N
  | .queue event =>
    match event with
    | .answer _ => if (handled shared own.phase).isSome then none else queueStep options run shared own event
    | _ => queueStep options run shared own event
  | .enter hasBroker => enter shared own hasBroker
  | .broker now event => advance options run now shared own event id
  | .unopened now cause => advance options run now shared own .fail (unopenedAs cause.failure)
  | .resume => resume shared own
  | .returns =>
    match own.phase, own.stage with
    | .handling _, .decided decision => queueStep options run shared own (.answer decision.outcome)
    | .severed _, .decided decision => if decision.settlement.isSome then none else queueStep options run shared own (.answer decision.outcome)
    | _, _ => none
  | .revoke => some ({ shared with delivery := { shared.delivery with endpointActive := false } }, own)

/-- A delivery that was admitted, before its job is queued. -/
def initial {N : Type} (id dispatchJobId : Text) (content : WorkContent N) : Parties.State Nat (Shared N) (Local N) :=
  ⟨⟨JobWorker.initial.shared, ⟨id, dispatchJobId, content, .pending, false, none, .none, none, true⟩, fun _ => none, fun _ => [], []⟩,
    fun _ => ⟨.idle, .starting, .idle⟩⟩

end Perform

end OpenShapeForge.Jobs.InboundDispatch
