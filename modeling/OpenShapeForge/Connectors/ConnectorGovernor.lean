import Mathlib.Data.Rat.Init
import OpenShapeForge.Js.Value

/-! One operation run under its declared policy: rate limit, circuit breaker, slot, and
the attempts that its retry policy and its budget allow. Times are milliseconds. -/

namespace OpenShapeForge.Connectors.ConnectorGovernor
open Js

inductive OperationKind
  | query | mutation
  deriving DecidableEq, Repr

structure Timeouts where
  attemptMs : ℚ
  totalMs : ℚ

structure Retry where
  eligible : Bool
  maxAttempts : Nat
  backoff : Text

structure Idempotency where
  strategy : Text
  keyInput : Option Text
  header : Option Text

structure BreakerConfig where
  failureThreshold : ℚ
  resetAfterMs : ℚ

structure OperationReliability where
  timeouts : Timeouts
  retry : Retry
  idempotency : Option Idempotency
  perTenant : Nat
  perTenantPerMinute : Option ℚ
  circuitBreaker : Option BreakerConfig

def mayRetry (kind : OperationKind) (reliability : OperationReliability) : Bool :=
  if !reliability.retry.eligible then false
  else if kind = .query then true
  else reliability.idempotency.isSome

def baseMs : ℚ := 100

def backoffDelayMs (attempt : Nat) (reliability : OperationReliability) : ℚ :=
  if reliability.retry.backoff = js "fixed" then baseMs else baseMs * 2 ^ (attempt - 1)

structure Window where
  startedAt : ℚ
  count : Nat

/-- `tryConsume` of the fixed-window rate limiter. -/
def tryConsume (windows : Text → Option Window) (key : Text) (perMinute now : ℚ) : Bool × (Text → Option Window) :=
  match windows key with
  | none => (true, Function.update windows key (some ⟨now, 1⟩))
  | some window =>
    if 60000 ≤ now - window.startedAt then (true, Function.update windows key (some ⟨now, 1⟩))
    else if perMinute ≤ window.count then (false, windows)
    else (true, Function.update windows key (some { window with count := window.count + 1 }))

structure Circuit where
  failures : Nat
  openedAt : Option ℚ

inductive BreakerState
  | closed | opened | halfOpen
  deriving DecidableEq, Repr

/-- `state` of the circuit breaker. -/
def breakerState (circuits : Text → Option Circuit) (key : Text) (resetAfterMs now : ℚ) : BreakerState :=
  match (circuits key).bind Circuit.openedAt with
  | none => .closed
  | some openedAt => if resetAfterMs ≤ now - openedAt then .halfOpen else .opened

/-- What a `throw` can throw: an `Error`, or any other value. -/
inductive Thrown (N : Type)
  | error (name message : Text) (code connector operation : Option Text) (outcome : Value N)
  | other (value : Value N)

section Outcomes
variable {N : Type} [JsNumber N]

def providerOutcomeCodes : List Text :=
  [js "CONNECTOR_EGRESS_DENIED", js "CONNECTOR_TIMEOUT", js "CONNECTOR_PROVIDER_REJECTED_INPUT",
    js "CONNECTOR_PROVIDER_AUTHORIZATION_FAILED", js "CONNECTOR_PROVIDER_PERMISSION_DENIED",
    js "CONNECTOR_PROVIDER_RATE_LIMITED", js "CONNECTOR_PROVIDER_UNAVAILABLE", js "CONNECTOR_UPSTREAM_ERROR"]

def categories : List Text :=
  [js "policy_blocked", js "timeout", js "input", js "authorization", js "rate_limit", js "availability", js "provider_contract"]

def requiredActions : List Text := [js "wait", js "change_input", js "contact_admin"]

/-- `list.includes(value)` of a list of texts. -/
def includes (texts : List Text) : Option (Value N) → Bool
  | some (.text text) => texts.contains text
  | _ => false

def isText : Option (Value N) → Bool
  | some (.text _) => true
  | _ => false

def isBoolean : Option (Value N) → Bool
  | some (.boolean _) => true
  | _ => false

def isOutcome (candidate : Value N) : Bool :=
  includes providerOutcomeCodes (candidate.own? (js "code")) && includes categories (candidate.own? (js "category")) &&
    isBoolean (candidate.own? (js "retryable")) && includes requiredActions (candidate.own? (js "requiredAction")) &&
    isText (candidate.own? (js "correlationId"))

def providerOutcomeOf : Thrown N → Option (Value N)
  | .error name _ _ _ _ outcome =>
    if name ≠ js "ConnectorExecutionError" ∧ name ≠ js "ProviderOutcomeError" then none
    else if isOutcome outcome then some outcome
    else none
  | .other _ => none

/-- The failure is classified, and not as one to try again. -/
def notRetryable (error : Thrown N) : Bool :=
  (providerOutcomeOf error).any fun outcome => !((outcome.own? (js "retryable")).any Value.isTrue)

end Outcomes

def connectorExecutionError {N : Type} (code connector message operation : Text) : Thrown N :=
  .error (js "ConnectorExecutionError") message (some code) (some connector) (some operation) .undefined

structure GovernorOptions (N : Type) where
  connector : Text
  operationKey : Text
  kind : OperationKind
  tenantId : Text
  reliability : OperationReliability
  signal : Option (Thrown N)

/-- What one call of `attempt` does: how it ends, how long it takes, and whether the
signal is aborted by then. -/
structure Attempt (N Result : Type) where
  outcome : Except (Thrown N) Result
  duration : ℚ
  aborts : Bool

/-- What a run meets. -/
structure Surroundings (N Result : Type) where
  calledAt : ℚ
  abortedAtCall : Bool
  /-- Whether `acquire` resolves, when, and whether the signal is aborted by the time the run goes on. -/
  granted : Bool
  grantedAt : ℚ
  abortedAtGrant : Bool
  attempt : Nat → Attempt N Result
  /-- How long into the sleep after an attempt the signal is aborted, if it is. -/
  interrupted : Nat → Option ℚ
  parseDate : Value N → Option ℚ

inductive Recorded
  | success
  | failure (now : ℚ)
  deriving DecidableEq

/-- How far a run is: the time, what was attempted with which outcome, what the breaker was told. -/
structure Progress (N Result : Type) where
  clock : ℚ
  aborted : Bool
  attempted : List (Except (Thrown N) Result)
  recorded : List Recorded
  released : Nat

section Run
variable {N Result : Type} [JsNumber N]

/-- `options.signal?.throwIfAborted()`. -/
def throwIfAborted (options : GovernorOptions N) (aborted : Bool) : Except (Thrown N) Unit :=
  match options.signal with
  | some reason => if aborted then .error reason else .ok ()
  | none => .ok ()

def abortableSleep (options : GovernorOptions N) (ms : ℚ) (interrupted : Option ℚ) (progress : Progress N Result) :
    Except (Thrown N) Unit × Progress N Result :=
  match throwIfAborted options progress.aborted with
  | .error reason => (.error reason, progress)
  | .ok () =>
    match options.signal, interrupted with
    | some reason, some after => (.error reason, { progress with clock := progress.clock + after, aborted := true })
    | _, _ => (.ok (), { progress with clock := progress.clock + ms })

/-- The tests between a failed attempt and the next, and the backoff if they all pass. -/
def retryDelay (options : GovernorOptions N) (parseDate : Value N → Option ℚ) (startedAt now : ℚ) (maxAttempts attemptNumber : Nat)
    (error : Thrown N) : Option ℚ :=
  let timeouts := options.reliability.timeouts
  if maxAttempts ≤ attemptNumber then none
  else if notRetryable error then none
  else
    let delay := backoffDelayMs attemptNumber options.reliability
    let elapsed := now - startedAt
    if timeouts.totalMs < elapsed + delay + timeouts.attemptMs then none
    else
      match (providerOutcomeOf error).bind fun outcome => outcome.own? (js "retryAt") with
      | some .undefined | none => some delay
      | some retryAt =>
        match parseDate retryAt with
        | some instant => if timeouts.totalMs - elapsed < instant - now then none else some delay
        | none => some delay

def attempts (options : GovernorOptions N) (around : Surroundings N Result) (startedAt : ℚ) (maxAttempts : Nat) :
    Nat → Nat → Thrown N → Progress N Result → Except (Thrown N) Result × Progress N Result
  | 0, _, lastError, progress => (.error lastError, progress)
  | left + 1, attemptNumber, _, progress =>
    match throwIfAborted options progress.aborted with
    | .error reason => (.error reason, progress)
    | .ok () =>
      let attempt := around.attempt attemptNumber
      let tried := { progress with
        clock := progress.clock + attempt.duration
        aborted := progress.aborted || attempt.aborts
        attempted := progress.attempted ++ [attempt.outcome] }
      match throwIfAborted options tried.aborted with
      | .error reason => (.error reason, tried)
      | .ok () =>
        let breaks := options.reliability.circuitBreaker.isSome
        match attempt.outcome with
        | .ok result => (.ok result, { tried with recorded := tried.recorded ++ if breaks then [.success] else [] })
        | .error error =>
          let failed := { tried with recorded := tried.recorded ++ if breaks then [.failure tried.clock] else [] }
          match retryDelay options around.parseDate startedAt failed.clock maxAttempts attemptNumber error with
          | none => (.error error, failed)
          | some delay =>
            match abortableSleep options delay (around.interrupted attemptNumber) failed with
            | (.error reason, slept) => (.error reason, slept)
            | (.ok (), slept) => attempts options around startedAt maxAttempts left (attemptNumber + 1) error slept

def tenantKey (options : GovernorOptions N) : Text :=
  options.connector ++ js ":" ++ options.operationKey ++ js ":" ++ options.tenantId

def upstreamKey (options : GovernorOptions N) : Text := options.connector ++ js ":" ++ options.operationKey

def rateLimited (options : GovernorOptions N) : Thrown N :=
  connectorExecutionError (js "CONNECTOR_RATE_LIMITED") options.connector
    (js "Connector \"" ++ options.connector ++ js "\" operation \"" ++ options.operationKey ++
      js "\" exceeded its per-tenant rate limit.") options.operationKey

def circuitOpen (options : GovernorOptions N) : Thrown N :=
  connectorExecutionError (js "CONNECTOR_CIRCUIT_OPEN") options.connector
    (js "Connector \"" ++ options.connector ++ js "\" operation \"" ++ options.operationKey ++
      js "\" is temporarily unavailable after repeated upstream failures.") options.operationKey

/-- What a run of the governor starts from. -/
structure Shared where
  windows : Text → Option Window
  circuits : Text → Option Circuit

/-- The rate limit and the breaker, which refuse a run before it asks for a slot. -/
def admission (options : GovernorOptions N) (shared : Shared) (around : Surroundings N Result) : Except (Thrown N) Unit × Shared :=
  match throwIfAborted options around.abortedAtCall with
  | .error reason => (.error reason, shared)
  | .ok () =>
    let consumed :=
      match options.reliability.perTenantPerMinute with
      | some perMinute => tryConsume shared.windows (tenantKey options) perMinute around.calledAt
      | none => (true, shared.windows)
    let after := { shared with windows := consumed.2 }
    if !consumed.1 then (.error (rateLimited options), after)
    else
      match options.reliability.circuitBreaker with
      | some config =>
        if breakerState shared.circuits (upstreamKey options) config.resetAfterMs around.calledAt = .opened then
          (.error (circuitOpen options), after)
        else (.ok (), after)
      | none => (.ok (), after)

def maxAttemptsOf (options : GovernorOptions N) : Nat :=
  if mayRetry options.kind options.reliability then options.reliability.retry.maxAttempts else 1

/-- `run` from the moment its slot is granted; `release` is called on the way out. -/
def governed (options : GovernorOptions N) (around : Surroundings N Result) : Except (Thrown N) Result × Progress N Result :=
  let maxAttempts := maxAttemptsOf options
  let (result, progress) := attempts options around around.grantedAt maxAttempts maxAttempts 1 (.other .undefined)
    ⟨around.grantedAt, around.abortedAtGrant, [], [], 0⟩
  (result, { progress with released := progress.released + 1 })

def run (options : GovernorOptions N) (shared : Shared) (around : Surroundings N Result) :
    Except (Thrown N) Result × Progress N Result × Shared :=
  match admission options shared around with
  | (.error refusal, after) => (.error refusal, ⟨around.calledAt, around.abortedAtCall, [], [], 0⟩, after)
  | (.ok (), after) =>
    match options.signal, around.granted with
    | some reason, false => (.error reason, ⟨around.grantedAt, true, [], [], 0⟩, after)
    | _, _ =>
      let (result, progress) := governed options around
      (result, progress, after)

end Run

end OpenShapeForge.Connectors.ConnectorGovernor
