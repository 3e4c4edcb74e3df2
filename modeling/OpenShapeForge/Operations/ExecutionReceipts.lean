import OpenShapeForge.Js.Json
import OpenShapeForge.Library.Parties

/-! External writes under one receipt (apps/api/src/operations/execution-receipts.ts):
calls of executeKeyedOperation with externalWrite that share a receipt identity,
from one await to the next. -/

namespace OpenShapeForge.Operations.ExecutionReceipts
open Js Library

/-- In milliseconds. -/
abbrev Instant := Int

def receiptVersion : Nat := 1
def externalInFlight : Instant := 120 * 1000
def localInFlightRetry : Instant := 1000
def maxIdempotencyKeyBytes : Nat := 512

/-- What a call throws. The last four are of what it is given: authorizeReplay, execute,
encode and the database. -/
inductive Failure where
  | invalidInput
  | requiredKey
  | reusedKey
  | inProgress (retryAt : Instant)
  | outcomeUnknown
  | unavailable
  | denied
  | execution
  | encoding
  | database
deriving DecidableEq

section Identity
variable {N : Type} [JsNumber N]

def Failure.operation : Failure → Option (Text × Text)
  | invalidInput => some (js "BAD_USER_INPUT",
    js "Operation input must be JSON-safe before it can be executed with an idempotency key.")
  | requiredKey => some (js "IDEMPOTENCY_KEY_REQUIRED", js "This Operation requires a non-empty idempotency key.")
  | reusedKey => some (js "IDEMPOTENCY_KEY_REUSED",
    js "This idempotency key was already used for different Operation input or semantics.")
  | inProgress _ => some (js "OPERATION_IN_PROGRESS", js "The same Operation request is still being processed.")
  | outcomeUnknown => some (js "OPERATION_OUTCOME_UNKNOWN",
    js "This Operation may already have produced an external effect. Inspect its outcome before starting a new request.")
  | unavailable => some (js "IDEMPOTENCY_RECEIPT_UNAVAILABLE", js "The Operation could not persist its idempotency receipt.")
  | denied | execution | encoding | database => none

def canonicalJson : Value N → Option (Value N)
  | .null => some .null
  | .text value => some (.text value)
  | .boolean value => some (.boolean value)
  | .number value =>
    if JsNumber.isFinite value then
      some (.number (if JsNumber.equal value (JsNumber.ofNat 0) then JsNumber.ofNat 0 else value))
    else none
  | .array items => (canonicalItems items).map .array
  | .object members => (canonicalMembers members).map fun members => .object (ownOrder (sortMembers members))
  | .undefined | .date _ | .builtin _ => none
where
  canonicalItems : List (Value N) → Option (List (Value N))
    | [] => some []
    | item :: rest => (canonicalJson item).bind fun item => (canonicalItems rest).map (item :: ·)
  canonicalMembers : List (Text × Value N) → Option (List (Text × Value N))
    | [] => some []
    | (key, value) :: rest => (canonicalJson value).bind fun value => (canonicalMembers rest).map ((key, value) :: ·)

def unitBytes (c : CodeUnit) : Nat := if c < 0x80 then 1 else if c < 0x800 then 2 else 3

/-- `Buffer.byteLength(text, "utf8")`. -/
def utf8Length : Text → Nat
  | [] => 0
  | [c] => unitBytes c
  | c :: low :: rest =>
    if 0xD800 ≤ c ∧ c ≤ 0xDBFF ∧ 0xDC00 ≤ low ∧ low ≤ 0xDFFF then 4 + utf8Length rest else unitBytes c + utf8Length (low :: rest)

structure Session where
  tenantId : Option Text
  userId : Option Text

structure ReceiptKey where
  tenantId : Text
  actorId : Text
  operationId : Text
  operationIntent : Text
  keyHash : Text
deriving DecidableEq

structure ReceiptIdentity where
  key : ReceiptKey
  requestFingerprint : Text
  contractFingerprint : Text
deriving DecidableEq

/-- The options of a call, besides what it executes. -/
structure KeyedOperation (N : Type) where
  id : Text
  intent : Text
  idempotencyKey : Text
  input : Members N
  idempotencyInputField : Option Text
  platformControlFields : List Text
  contractFingerprint : Text

def keyedOperationReceiptIdentity (sha256 : Text → Text → Text) (session : Session) (options : KeyedOperation N) :
    Except Failure ReceiptIdentity :=
  match session.tenantId, session.userId with
  | some (t :: tenantId), some (u :: userId) =>
    if trim options.idempotencyKey = [] ∨ maxIdempotencyKeyBytes < utf8Length options.idempotencyKey then .error .requiredKey
    else
      let businessInput := options.input.filter fun field =>
        decide (some field.1 ≠ options.idempotencyInputField) && !options.platformControlFields.contains field.1
      match canonicalJson (.object businessInput : Value N) with
      | none => .error .invalidInput
      | some canonical => .ok {
          key := {
            tenantId := t :: tenantId
            actorId := u :: userId
            operationId := options.id
            operationIntent := options.intent
            keyHash := sha256 (js "openshapeforge:operation-idempotency-key:v1") options.idempotencyKey }
          requestFingerprint := js "sha256:" ++ sha256 (js "openshapeforge:operation-business-input:v1") (stringify canonical)
          contractFingerprint := options.contractFingerprint }
  | _, _ => .error .unavailable

end Identity

inductive ReceiptState where
  | running
  | completed
  | outcomeUnknown
deriving DecidableEq

structure ReceiptRow (N : Type) where
  requestFingerprint : Text
  contractFingerprint : Text
  state : ReceiptState
  response : Option (Value N)
  retryAt : Option Instant

/-- What is given to a call: who calls what, and how its values are stored. A codec
that throws gives nothing. -/
structure Invocation (N T : Type) where
  session : Session
  options : KeyedOperation N
  encode : T → Option (Value N)
  decode : Value N → Option T

section Receipt
variable {N T : Type} [JsNumber N]

def ReceiptRow.isFor (row : ReceiptRow N) (identity : ReceiptIdentity) : Bool :=
  row.requestFingerprint = identity.requestFingerprint && row.contractFingerprint = identity.contractFingerprint

def replayed (decode : Value N → Option T) (response : Option (Value N)) : Except Failure T :=
  match response with
  | some (.object members) =>
    match (Value.object members).own? (js "version"), (Value.object members).own? (js "result") with
    | some (.number version), some result =>
      if JsNumber.equal version (JsNumber.ofNat receiptVersion) then
        match decode result with
        | some value => .ok value
        | none => .error .unavailable
      else .error .unavailable
    | _, _ => .error .unavailable
  | _ => .error .unavailable

/-- What a call makes of a receipt that is there. The update that ages a running one
is undone by the throw after it, with the rest of the transaction. -/
def existingOutcome (decode : Value N → Option T) (identity : ReceiptIdentity) (row : ReceiptRow N) (now : Instant) :
    Except Failure T :=
  if !row.isFor identity then .error .reusedKey
  else
    match row.state with
    | .completed => replayed decode row.response
    | .outcomeUnknown => .error .outcomeUnknown
    | .running =>
      let retryAt := row.retryAt.getD now
      if now < retryAt then .error (.inProgress retryAt) else .error .outcomeUnknown

def insertRunning (identity : ReceiptIdentity) (now : Instant) : ReceiptRow N :=
  ⟨identity.requestFingerprint, identity.contractFingerprint, .running, none, some (now + externalInFlight)⟩

def response (encoded : Value N) : Option (Value N) :=
  canonicalJson (.object [(js "version", .number (JsNumber.ofNat receiptVersion)), (js "result", encoded)])

def runningFor (identity : ReceiptIdentity) (row : Option (ReceiptRow N)) : Option (ReceiptRow N) :=
  row.filter fun row => row.isFor identity && decide (row.state = .running)

def complete (encode : T → Option (Value N)) (identity : ReceiptIdentity) (value : T) (row : Option (ReceiptRow N)) :
    Except Failure (ReceiptRow N) :=
  match encode value with
  | none => .error .encoding
  | some encoded =>
    match response encoded with
    | none => .error .invalidInput
    | some response =>
      match runningFor identity row with
      | some row => .ok { row with state := .completed, response := some response, retryAt := none }
      | none => .error .unavailable

def deleteRunning (identity : ReceiptIdentity) (row : Option (ReceiptRow N)) : Option (ReceiptRow N) :=
  if (runningFor identity row).isSome then none else row

def markUnknown (identity : ReceiptIdentity) (row : Option (ReceiptRow N)) : Option (ReceiptRow N) :=
  match runningFor identity row with
  | some running => some { running with state := .outcomeUnknown, retryAt := none }
  | none => row

end Receipt

/-- How a receipt transaction ends, and what the call hears of it. -/
inductive Fate where
  | committed
  | failed
  /-- It was committed, and failed as far as the call can tell. -/
  | unheard
deriving DecidableEq

/-- What a call comes to. -/
inductive Outcome (T : Type) where
  | executed (value : T)
  | replayed (value : T)
  | failed (failure : Failure)
  /-- Its process ended before it did. -/
  | crashed

/-- Which await a call is at. -/
inductive Phase (N T : Type) where
  | idle
  | authorizing (identity : ReceiptIdentity)
  | locking (identity : ReceiptIdentity)
  | reading (identity : ReceiptIdentity)
  | inserting (identity : ReceiptIdentity)
  | claiming (identity : ReceiptIdentity) (row : ReceiptRow N)
  | replaying (identity : ReceiptIdentity) (value : T)
  | executing (identity : ReceiptIdentity) (effectsAdmitted : Bool)
  | completing (identity : ReceiptIdentity) (value : T) (effectsAdmitted : Bool)
  | recovering (identity : ReceiptIdentity) (failure : Failure) (effectsAdmitted : Bool)
  | done (outcome : Outcome T)

/-- What happens to a call. -/
inductive Event (T : Type) where
  | begin
  /-- authorizeReplay allows it or throws. -/
  | authorize (allowed : Bool)
  | lock (acquired : Bool) (now : Instant)
  | read (now : Instant)
  | insert (now : Instant)
  /-- The claim, or the transaction of a replay, is committed. -/
  | commit (fate : Fate)
  | markEffectsAdmitted
  | execute (result : Option T)
  | complete (fate : Fate)
  | recover (fate : Fate)
  /-- The transaction the call is in fails. -/
  | fail
  | crash

/-- The receipt, and who holds its advisory lock. -/
structure Shared (N : Type) where
  row : Option (ReceiptRow N)
  lock : Option Nat

section Perform
variable {N T : Type} [JsNumber N] (sha256 : Text → Text → Text) (key : ReceiptKey) (calls : Nat → Invocation N T)

/-- The first transaction of a call ends with nothing written. -/
def leave (shared : Shared N) (party : Nat) (outcome : Outcome T) : Option (Shared N × Phase N T) :=
  some ({ shared with lock := if shared.lock = some party then none else shared.lock }, .done outcome)

/-- Whether a call is in its first transaction. -/
def claims : Phase N T → Bool
  | .authorizing _ | .locking _ | .reading _ | .inserting _ | .claiming _ _ | .replaying _ _ => true
  | _ => false

def perform (party : Nat) (shared : Shared N) (phase : Phase N T) : Event T → Option (Shared N × Phase N T)
  | .begin =>
    match phase with
    | .idle =>
      match keyedOperationReceiptIdentity sha256 (calls party).session (calls party).options with
      | .error failure => some (shared, .done (.failed failure))
      | .ok identity => if identity.key = key then some (shared, .authorizing identity) else none
    | _ => none
  | .authorize allowed =>
    match phase with
    | .authorizing identity => if allowed then some (shared, .locking identity) else leave shared party (.failed .denied)
    | _ => none
  | .lock acquired now =>
    match phase with
    | .locking identity =>
      if acquired then
        match shared.lock with
        | none => some ({ shared with lock := some party }, .reading identity)
        | some _ => none
      else leave shared party (.failed (.inProgress (now + localInFlightRetry)))
    | _ => none
  | .read now =>
    match phase with
    | .reading identity =>
      match shared.row with
      | none => some (shared, .inserting identity)
      | some row =>
        match existingOutcome (calls party).decode identity row now with
        | .ok value => some (shared, .replaying identity value)
        | .error failure => leave shared party (.failed failure)
    | _ => none
  | .insert now =>
    match phase with
    | .inserting identity =>
      match shared.row with
      | none => some (shared, .claiming identity (insertRunning identity now))
      | some _ => leave shared party (.failed .database)
    | _ => none
  | .commit fate =>
    match phase with
    | .claiming identity row =>
      match fate with
      | .committed => some (⟨some row, none⟩, .executing identity false)
      | .unheard => some (⟨some row, none⟩, .done (.failed .database))
      | .failed => leave shared party (.failed .database)
    | .replaying _ value => leave shared party (if fate = .committed then .replayed value else .failed .database)
    | _ => none
  | .markEffectsAdmitted =>
    match phase with
    | .executing identity _ => some (shared, .executing identity true)
    | _ => none
  | .execute result =>
    match phase with
    | .executing identity effectsAdmitted =>
      match result with
      | some value => some (shared, .completing identity value effectsAdmitted)
      | none => some (shared, .recovering identity .execution effectsAdmitted)
    | _ => none
  | .complete fate =>
    match phase with
    | .completing identity value effectsAdmitted =>
      match complete (calls party).encode identity value shared.row, fate with
      | .error failure, _ => some (shared, .recovering identity failure effectsAdmitted)
      | .ok row, .committed => some ({ shared with row := some row }, .done (.executed value))
      | .ok row, .unheard => some ({ shared with row := some row }, .recovering identity .database effectsAdmitted)
      | .ok _, .failed => some (shared, .recovering identity .database effectsAdmitted)
    | _ => none
  | .recover fate =>
    match phase with
    | .recovering identity failure effectsAdmitted =>
      some ({ shared with
        row := if fate = .failed then shared.row
          else if effectsAdmitted then markUnknown identity shared.row
          else deleteRunning identity shared.row },
        .done (.failed (if effectsAdmitted then .outcomeUnknown else failure)))
    | _ => none
  | .fail => if claims phase then leave shared party (.failed .database) else none
  | .crash =>
    match phase with
    | .done _ => none
    | _ => leave shared party .crashed

abbrev ReceiptRuns : Parties.State Nat (Shared N) (Phase N T) → List (Nat × Event T) →
    Parties.State Nat (Shared N) (Phase N T) → Prop := Parties.Runs (Parties.performs (perform sha256 key calls))

end Perform

/-- No receipt, and no call begun. -/
def initial {N T : Type} : Parties.State Nat (Shared N) (Phase N T) := ⟨⟨none, none⟩, fun _ => .idle⟩

end OpenShapeForge.Operations.ExecutionReceipts
