import OpenShapeForge.Jobs.JobStore
import OpenShapeForge.Library.Parties

/-! Workers that drain the job table (apps/api/src/jobs/worker.ts): each run of a claimed
job from one await to the next, in any number, beside the operators' decisions. -/

namespace OpenShapeForge.Jobs.JobWorker
open Js Library JobStore

section Settlements
variable {N : Type} [JsNumber N]

structure WorkerOptions (N : Type) where
  hashClaimToken : Text → Text
  handles : Text → Bool
  lease : Int
  kinds : Option (List Text)
  /-- `String(value)`. -/
  stringOf : Value N → Text
  timeOf : N → Timestamp
  /-- `Date.parse`, in milliseconds, where it is a number. -/
  parseDate : Text → Option Int

/-- `isJobError`, with what it reads of the value. -/
def jobError? (value : Value N) : Option (RuntimeJobError N) :=
  if isRecord value then
    match value.own? (js "message"), (value.own? (js "code")).getD .undefined, (value.own? (js "detail")).getD .undefined with
    | some (.text message), .undefined, .undefined => some { message, code := none, detail := none }
    | some (.text message), .text code, .undefined => some { message, code := some code, detail := none }
    | some (.text message), .undefined, detail => if isRecord detail then some { message, code := none, detail := some detail } else none
    | some (.text message), .text code, detail => if isRecord detail then some { message, code := some code, detail := some detail } else none
    | _, _, _ => none
  else none

/-- The settlement of what a handler returned, or the `failed` that stands in for it. -/
def settlementOf (options : WorkerOptions N) (job : ClaimedJob N) (outcome : Value N) : SettleJobInput N :=
  let invalid (reason : Text) : SettleJobInput N := {
    id := job.id
    claimToken := job.claimToken
    outcome := .failed {
      code := some (js "INVALID_OUTCOME")
      message := js "Handler for \"" ++ job.kind ++ js "\" " ++ reason ++ js "."
      detail := none } }
  let settled (outcome : JobOutcome N) : SettleJobInput N := { id := job.id, claimToken := job.claimToken, outcome }
  let member (name : String) : Value N := (outcome.own? (js name)).getD .undefined
  let named := member "outcome"
  let ended (name : String) (outcome : RuntimeJobError N → JobOutcome N) : SettleJobInput N :=
    match jobError? (member "error") with
    | some error => settled (outcome error)
    | none => invalid (js "ended " ++ js name ++ js " without an error")
  match outcome with
  | .undefined => settled (.done none)
  | _ =>
    if isRecord outcome then
      match named with
      | .text name =>
        if name = js "done" then
          match member "result" with
          | .undefined => settled (.done none)
          | result => if isRecord result then settled (.done (some result)) else invalid (js "returned a result that is not an object")
        else if name = js "retry" then
          match jobError? (member "error"), member "retryAt" with
          | none, _ => invalid (js "asked for a retry without an error")
          | some error, .undefined => settled (.retry error none)
          | some error, .date time =>
            if JsNumber.isFinite time then settled (.retry error (some (options.timeOf time)))
            else invalid (js "asked for a retry at an invalid time")
          | some _, _ => invalid (js "asked for a retry at an invalid time")
        else if name = js "failed" then ended "failed" .failed
        else if name = js "outcome_unknown" then ended "outcome_unknown" .outcomeUnknown
        else invalid (js "returned an unrecognised outcome \"" ++ name ++ js "\"")
      | other => invalid (js "returned an unrecognised outcome \"" ++ options.stringOf other ++ js "\"")
    else invalid (js "returned something other than an outcome")

/-- The refusal of a host execution policy. -/
structure Denial where
  code : Text
  message : Text
  detail : Option Text
  retryable : Bool
  retryAt : Option Text

/-- The settlement of a run that was not admitted, with the time in milliseconds. -/
def refusedJobSettlement (options : WorkerOptions N) (job : ClaimedJob N) (denial : Denial) (now : Int) (random : ℚ) : SettleJobInput N :=
  let error : RuntimeJobError N := {
    code := some denial.code
    message := denial.message
    detail := (denial.detail.filter (· ≠ [])).map fun detail => .object [(js "reason", .text detail)] }
  let outcome : JobOutcome N :=
    match denial.retryAt.bind options.parseDate with
    | some named => .notAdmitted error (1000 * max named now)
    | none => if denial.retryable then .notAdmitted error (1000 * (now + retryDelayMs job.attempts random)) else .failed error
  { id := job.id, claimToken := job.claimToken, outcome }

omit [JsNumber N] in
def settlementBy (job : ClaimedJob N) (outcome : JobOutcome N) : SettleJobInput N :=
  { id := job.id, claimToken := job.claimToken, outcome }

omit [JsNumber N] in
def noHandler (job : ClaimedJob N) : SettleJobInput N :=
  settlementBy job (.dead {
    code := some (js "NO_HANDLER")
    message := js "No active runtime module handles job kind \"" ++ job.kind ++ js "\"."
    detail := none })

def commitLost (settlement : SettleJobInput N) : SettleJobInput N :=
  match settlement.outcome with
  | .done _ => { settlement with outcome := .outcomeUnknown {
      code := some (js "JOB_COMMIT_OUTCOME_UNKNOWN")
      message := js "The handler completed, but its transaction outcome could not be confirmed."
      detail := none } }
  | _ => settlement

def repeats {N : Type} : JobOutcome N → Bool
  | .retry _ _ | .notAdmitted _ _ => true
  | _ => false

end Settlements

section Runs
variable {N : Type}

/-- How a transaction ends, and what its client hears. -/
inductive Fate where
  | committed
  /-- Committed, and the answer is lost. -/
  | unheard
  | failed
deriving DecidableEq

/-- A run of one worker over the job it claims. -/
inductive Phase (N : Type) where
  | idle
  | claimed (job : ClaimedJob N)
  /-- Its transaction holds the row. -/
  | locked (job : ClaimedJob N)
  /-- Refused by a policy, and settled in its transaction. -/
  | refused (job : ClaimedJob N) (settlement : SettleJobInput N) (pending : Option (JobRow N))
  | handling (job : ClaimedJob N)
  /-- Its transaction was lost, and the handler goes on. -/
  | severed (job : ClaimedJob N)
  | returned (job : ClaimedJob N) (settlement : SettleJobInput N)
  /-- What the handler returned is settled in its transaction. -/
  | settling (job : ClaimedJob N) (settlement : SettleJobInput N) (pending : Option (JobRow N))
  /-- Still to be settled, in a transaction of its own. -/
  | apart (job : ClaimedJob N) (settlement : SettleJobInput N)
  | ended

def Phase.opened : Phase N → Option (ClaimedJob N)
  | .locked job | .refused job _ _ | .handling job | .returned job _ | .settling job _ _ => some job
  | _ => none

structure Shared (N : Type) where
  jobs : JobTable N
  /-- The run whose transaction holds a row. -/
  locks : Text → Option Nat
  /-- Every id there was, and the hash of every token drawn. -/
  ids : List Text
  hashes : List Text
  /-- How often handlers of a job were started since it was queued by hand, and under which claims. -/
  starts : Text → Nat
  startedClaims : List Text
  /-- A handler of the job has ended, other than with a retry, since it was queued by hand. -/
  ended : Text → Bool
  returned : List (Nat × SettleJobInput N)
  /-- The runs whose handler's writes are committed, and the outcomes committed in a handler's transaction. -/
  written : List Nat
  recorded : List (Nat × SettleJobInput N)

inductive Event (N : Type) where
  | claim (tokenFor : Text → Text) (now : Timestamp) (fate : Fate)
  | begin
  /-- The transaction fails before the handler is started. -/
  | fail (error : RuntimeJobError N)
  | accept
  /-- Not admitted; settled at a time of the process and one of the transaction. -/
  | deny (denial : Denial) (clock : Int) (now : Timestamp) (random : ℚ)
  | answer (outcome : Value N)
  | throw (error : RuntimeJobError N)
  /-- The database gives the transaction up. -/
  | sever
  | settle (now : Timestamp) (random : ℚ)
  /-- Settling throws. -/
  | unsettled
  /-- The transaction of a settled run ends; with what its client hears of a failure. -/
  | finish (fate : Fate) (error : RuntimeJobError N)
  | settleApart (now : Timestamp) (random : ℚ) (fate : Fate)
  | die
  /-- The queue's other clients. -/
  | enqueue (id : Text) (input : EnqueueJobInput N) (now : Timestamp)
  | resolve (id : Text) (action : ResolveAction) (now : Timestamp)
  | sweep (before : Timestamp)

abbrev Next (N : Type) := Option (Shared N × Phase N)

variable [JsNumber N] (options : WorkerOptions N) (run : Nat)

omit [JsNumber N] in
/-- The end of a transaction that holds a row. -/
def Shared.release (shared : Shared N) (id : Text) : Shared N := { shared with locks := Function.update shared.locks id none }

omit [JsNumber N] in
def Shared.write (shared : Shared N) (id : Text) (row : Option (JobRow N)) : Shared N :=
  { shared with jobs := row.elim shared.jobs fun row => shared.jobs.set id row }

omit [JsNumber N] in
def Shared.end (shared : Shared N) (id : Text) (outcome : JobOutcome N) : Shared N :=
  { shared with ended := Function.update shared.ended id (shared.ended id || !repeats outcome) }

def claim (shared : Shared N) (tokenFor : Text → Text) (now : Timestamp) (fate : Fate) : Next N :=
  match claimJobs options.hashClaimToken (fun id => (shared.locks id).isSome) tokenFor now ⟨1, options.lease, options.kinds⟩ shared.jobs with
  | none => some (shared, .ended)
  | some (jobs, table) =>
    let drawn := jobs.map fun job => options.hashClaimToken job.claimToken
    if drawn.any shared.hashes.contains then none
    else
      match fate with
      | .failed => some (shared, .ended)
      | .unheard => some ({ shared with jobs := table, hashes := drawn ++ shared.hashes }, .ended)
      | .committed =>
        some ({ shared with jobs := table, hashes := drawn ++ shared.hashes }, match jobs with
          | job :: _ => .claimed job
          | [] => .ended)

def begin (shared : Shared N) (job : ClaimedJob N) : Next N :=
  if !options.handles job.kind then some (shared, .apart job (noHandler job))
  else if (shared.locks job.id).isSome then none
  else if lockClaimedJob options.hashClaimToken shared.jobs job.id job.claimToken then
    some ({ shared with locks := Function.update shared.locks job.id (some run) }, .locked job)
  else some (shared, .ended)

/-- A transaction that is lost once its handler has returned. -/
def lost (shared : Shared N) (job : ClaimedJob N) (settlement : SettleJobInput N) : Next N :=
  some (shared.release job.id, .apart job (commitLost settlement))

def start (shared : Shared N) (job : ClaimedJob N) : Shared N :=
  { shared with
    starts := Function.update shared.starts job.id (shared.starts job.id + 1)
    startedClaims := options.hashClaimToken job.claimToken :: shared.startedClaims }

def commit (shared : Shared N) (settlement : SettleJobInput N) (pending : Option (JobRow N)) : Shared N :=
  { shared.write settlement.id pending with
    written := run :: shared.written
    recorded := if pending.isSome then (run, settlement) :: shared.recorded else shared.recorded }

def perform (shared : Shared N) (phase : Phase N) : Event N → Next N
  | .claim tokenFor now fate =>
    match phase with
    | .idle => claim options shared tokenFor now fate
    | _ => none
  | .begin =>
    match phase with
    | .claimed job => begin options run shared job
    | _ => none
  | .fail error =>
    match phase with
    | .claimed job => if options.handles job.kind then some (shared, .apart job (settlementBy job (.retry error none))) else none
    | .locked job => some (shared.release job.id, .apart job (settlementBy job (.retry error none)))
    | .refused job _ _ => some (shared.release job.id, .apart job (settlementBy job (.retry error none)))
    | _ => none
  | .accept =>
    match phase with
    | .locked job => some (start options shared job, .handling job)
    | _ => none
  | .deny denial clock now random =>
    match phase with
    | .locked job =>
      let settlement := refusedJobSettlement options job denial clock random
      some (shared, .refused job settlement (settleJob options.hashClaimToken now random settlement shared.jobs))
    | _ => none
  | .answer outcome =>
    match phase with
    | .handling job =>
      let settlement := settlementOf options job outcome
      some ({ shared.end job.id settlement.outcome with returned := (run, settlement) :: shared.returned }, .returned job settlement)
    | .severed job =>
      let settlement := settlementOf options job outcome
      some ({ shared.end job.id settlement.outcome with returned := (run, settlement) :: shared.returned },
        .apart job (commitLost settlement))
    | _ => none
  | .throw error =>
    match phase with
    | .handling job =>
      let settlement := settlementBy job (.outcomeUnknown error)
      some ((shared.end job.id settlement.outcome).release job.id, .apart job settlement)
    | .severed job =>
      let settlement := settlementBy job (.outcomeUnknown error)
      some (shared.end job.id settlement.outcome, .apart job settlement)
    | _ => none
  | .sever =>
    match phase with
    | .handling job => some (shared.release job.id, .severed job)
    | _ => none
  | .settle now random =>
    match phase with
    | .returned job settlement =>
      some (shared, .settling job settlement (settleJob options.hashClaimToken now random settlement shared.jobs))
    | _ => none
  | .unsettled =>
    match phase with
    | .returned job settlement => lost shared job settlement
    | _ => none
  | .finish fate error =>
    match phase, fate with
    | .refused job settlement pending, .committed => some ((shared.write settlement.id pending).release job.id, .ended)
    | .refused job settlement pending, .unheard =>
      some ((shared.write settlement.id pending).release job.id, .apart job (settlementBy job (.retry error none)))
    | .settling job settlement pending, .committed => some ((commit run shared settlement pending).release job.id, .ended)
    | .settling job settlement pending, .unheard => lost (commit run shared settlement pending) job settlement
    | .refused job _ _, .failed => some (shared.release job.id, .apart job (settlementBy job (.retry error none)))
    | .settling job settlement _, .failed => lost shared job settlement
    | _, _ => none
  | .settleApart now random fate =>
    match phase with
    | .apart _ settlement =>
      if (shared.locks settlement.id).isSome then none
      else
        let row := settleJob options.hashClaimToken now random settlement shared.jobs
        some (if fate = .failed then shared else shared.write settlement.id row, .ended)
    | _ => none
  | .die =>
    match phase.opened with
    | some job => some (shared.release job.id, .ended)
    | none => some (shared, .ended)
  | .enqueue id input now =>
    match enqueuedRow now input with
    | some row =>
      if id ∈ shared.ids then none
      else some ({ shared with jobs := shared.jobs.set id row, ids := id :: shared.ids }, phase)
    | none => some (shared, phase)
  | .resolve id action now =>
    if (shared.locks id).isSome then none
    else
      match resolveJob now id action shared.jobs with
      | some row =>
        let resolved := { shared with jobs := shared.jobs.set id row }
        some (if action = .requeue then
            { resolved with starts := Function.update shared.starts id 0, ended := Function.update shared.ended id false }
          else resolved, phase)
      | none => some (shared, phase)
  | .sweep before => some ({ shared with jobs := sweepDoneJobs before shared.jobs }, phase)

/-- A table without jobs, and no run begun. -/
def initial {N : Type} : Parties.State Nat (Shared N) (Phase N) :=
  ⟨⟨OrderedMap.empty, fun _ => none, [], [], fun _ => 0, [], fun _ => false, [], [], []⟩, fun _ => .idle⟩

end Runs

end OpenShapeForge.Jobs.JobWorker
