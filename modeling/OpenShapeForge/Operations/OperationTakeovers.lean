import Mathlib.Logic.Function.Basic
import OpenShapeForge.Js.Text

/-! Takeovers of an entity Operation (apps/api/src/operations/entity/operation-overrides.ts): the
rows of `platform.operation_takeovers` of one tenant, the calls of takeOverEntityOperation that
record a takeover, ask its owner and store the answer, each in a transaction of its own, and the
replays of the original write. -/

namespace OpenShapeForge.Operations.OperationTakeovers
open Js

/-- What a takeover binds: its open rows are unique by it. -/
structure Key where
  operationId : Text
  recordId : Text
  inputHash : Text
deriving DecidableEq

/-- The override that takes the call, and the id it resolved to. -/
structure Override where
  bindingId : Text
  overrideId : Text
deriving DecidableEq

/-- `owner_kind` and `owner_ref`: the run that the override started. -/
structure Owner where
  kind : Text
  ref : Text
deriving DecidableEq

/-- `ACCEPTED_STATUSES` -/
inductive Status where
  | running | waiting | completed
deriving DecidableEq

structure Row where
  key : Key
  override' : Override
  owner : Option (Owner × Status)
  completed : Bool
deriving DecidableEq

/-- Where a call is, between two transactions. -/
inductive Phase (Id : Type) where
  | idle
  | looking (key : Key) (override' : Override)
  /-- An open takeover has an owner: is its run finished? -/
  | finishing (key : Key) (override' : Override) (takeover : Id) (owner : Owner)
  | letting (key : Key) (override' : Override) (takeover : Id)
  | recording (key : Key) (override' : Override)
  | racing (key : Key) (override' : Override)
  /-- `override.execute` is under way with this takeover id. -/
  | asking (key : Key) (override' : Override) (takeover : Id)
  | storing (key : Key) (override' : Override) (takeover : Id) (status : Status)
  | completing (key : Key) (takeover : Id)
  | discarding (key : Key) (takeover : Id)
  /-- It answered accepted. -/
  | accepted (key : Key) (takeover : Id) (owner : Owner)
  | ended

structure State (Caller Replay Id : Type) where
  rows : Id → Option Row
  /-- The takeovers that were ever recorded. -/
  issued : Id → Option Key
  calls : Caller → Phase Id
  replays : Replay → Option (Id × Key)
  writes : List (Id × Key)

def State.empty {Caller Replay Id : Type} : State Caller Replay Id where
  rows _ := none
  issued _ := none
  calls _ := .idle
  replays _ := none
  writes := []

/-- What `override.execute` answers; a refusal stands for an invalid answer too. -/
inductive Answer where
  | accepted (status : Status)
  | completed
  | refused
  | thrown

inductive Action (Caller Replay : Type) where
  | call (caller : Caller) (key : Key) (override' : Override)
  | look (caller : Caller)
  | finished (caller : Caller) (answer : Bool)
  | letGo (caller : Caller)
  | record (caller : Caller)
  | race (caller : Caller)
  | answer (caller : Caller) (answer : Answer)
  | store (caller : Caller)
  | complete (caller : Caller)
  | discard (caller : Caller)
  | crash (caller : Caller)
  | prepareReplay (replay : Replay)
  | closeReplay (replay : Replay)
  | failReplay (replay : Replay)

section Rows
variable {Id : Type}

/-- `completed_at is null` and the key: what the lookup and the unique index go by. -/
def IsOpen (rows : Id → Option Row) (key : Key) (takeover : Id) (row : Row) : Prop :=
  rows takeover = some row ∧ row.key = key ∧ row.completed = false

def Row.store (row : Row) (owner : Owner) (status : Status) : Row :=
  { row with owner := some (owner, status), completed := row.completed || status = .completed }

/-- `completed_at = coalesce(completed_at, now())` -/
def Row.complete (row : Row) : Row := { row with completed := true }

variable [DecidableEq Id]

def updateRow (rows : Id → Option Row) (takeover : Id) (change : Row → Row) : Id → Option Row :=
  Function.update rows takeover ((rows takeover).map change)

/-- `delete … where owner_ref is null` -/
def discardRow (rows : Id → Option Row) (takeover : Id) : Id → Option Row :=
  Function.update rows takeover ((rows takeover).filter fun row => row.owner.isSome)

end Rows

section Steps
variable {Caller Replay Id : Type} [DecidableEq Caller]

def State.become (state : State Caller Replay Id) (caller : Caller) (phase : Phase Id) : State Caller Replay Id :=
  { state with calls := Function.update state.calls caller phase }

def found (key : Key) (override' : Override) (takeover : Id) (row : Row) (accepted : Owner → Phase Id) : Phase Id :=
  match row.owner with
  | some (owner, _) => accepted owner
  | none => .asking key override' takeover

def answered (key : Key) (override' : Override) (takeover : Id) : Answer → Phase Id
  | .accepted status => .storing key override' takeover status
  | .completed => .completing key takeover
  | .refused | .thrown => .discarding key takeover

variable [DecidableEq Id] [DecidableEq Replay]

/-- The idempotency key is the hash of the override and the key, and `run` is the owner's one run for it. -/
inductive Step (run : Override → Key → Owner) (state : State Caller Replay Id) : Action Caller Replay → State Caller Replay Id → Prop
  | call {caller : Caller} {key : Key} {override' : Override} : state.calls caller = .idle →
      Step run state (.call caller key override') (state.become caller (.looking key override'))
  | look {caller : Caller} {key : Key} {override' : Override} {takeover : Id} {row : Row} :
      state.calls caller = .looking key override' → IsOpen state.rows key takeover row →
      Step run state (.look caller) (state.become caller (found key override' takeover row (.finishing key override' takeover)))
  | lookNone {caller : Caller} {key : Key} {override' : Override} : state.calls caller = .looking key override' →
      (∀ takeover row, ¬IsOpen state.rows key takeover row) →
      Step run state (.look caller) (state.become caller (.recording key override'))
  | unfinished {caller : Caller} {key : Key} {override' : Override} {takeover : Id} {owner : Owner} :
      state.calls caller = .finishing key override' takeover owner →
      Step run state (.finished caller false) (state.become caller (.accepted key takeover owner))
  | finished {caller : Caller} {key : Key} {override' : Override} {takeover : Id} {owner : Owner} :
      state.calls caller = .finishing key override' takeover owner →
      Step run state (.finished caller true) (state.become caller (.letting key override' takeover))
  | letGo {caller : Caller} {key : Key} {override' : Override} {takeover : Id} : state.calls caller = .letting key override' takeover →
      Step run state (.letGo caller)
        ({ state with rows := updateRow state.rows takeover Row.complete }.become caller (.recording key override'))
  /-- `gen_random_uuid`: an id that no takeover has had. -/
  | record {caller : Caller} {key : Key} {override' : Override} {takeover : Id} : state.calls caller = .recording key override' →
      (∀ other row, ¬IsOpen state.rows key other row) → state.issued takeover = none →
      Step run state (.record caller)
        ({ state with
            rows := Function.update state.rows takeover (some ⟨key, override', none, false⟩)
            issued := Function.update state.issued takeover (some key) }.become caller (.asking key override' takeover))
  /-- `on conflict … do nothing` -/
  | conflict {caller : Caller} {key : Key} {override' : Override} {takeover : Id} {row : Row} :
      state.calls caller = .recording key override' → IsOpen state.rows key takeover row →
      Step run state (.record caller) (state.become caller (.racing key override'))
  | race {caller : Caller} {key : Key} {override' : Override} {takeover : Id} {row : Row} :
      state.calls caller = .racing key override' → IsOpen state.rows key takeover row →
      Step run state (.race caller) (state.become caller (found key override' takeover row (.accepted key takeover)))
  | raceNone {caller : Caller} {key : Key} {override' : Override} : state.calls caller = .racing key override' →
      (∀ takeover row, ¬IsOpen state.rows key takeover row) → Step run state (.race caller) (state.become caller .ended)
  | answer {caller : Caller} {key : Key} {override' : Override} {takeover : Id} {answer : Answer} :
      state.calls caller = .asking key override' takeover →
      Step run state (.answer caller answer) (state.become caller (answered key override' takeover answer))
  /-- Whether the update found a row is not asked. -/
  | store {caller : Caller} {key : Key} {override' : Override} {takeover : Id} {status : Status} :
      state.calls caller = .storing key override' takeover status →
      Step run state (.store caller)
        ({ state with rows := updateRow state.rows takeover fun row => row.store (run override' key) status }.become caller
          (.accepted key takeover (run override' key)))
  | complete {caller : Caller} {key : Key} {takeover : Id} : state.calls caller = .completing key takeover →
      Step run state (.complete caller) ({ state with rows := updateRow state.rows takeover Row.complete }.become caller .ended)
  | discard {caller : Caller} {key : Key} {takeover : Id} : state.calls caller = .discarding key takeover →
      Step run state (.discard caller) ({ state with rows := discardRow state.rows takeover }.become caller .ended)
  /-- A process stops, or one of the call's transactions fails. -/
  | crash {caller : Caller} : (∀ key takeover owner, state.calls caller ≠ .accepted key takeover owner) →
      Step run state (.crash caller) (state.become caller .ended)
  | prepareReplay {replay : Replay} {takeover : Id} {key : Key} {row : Row} : state.replays replay = none →
      IsOpen state.rows key takeover row →
      Step run state (.prepareReplay replay) { state with replays := Function.update state.replays replay (some (takeover, key)) }
  /-- The close, in the transaction of the write, finds the row as it was prepared. -/
  | closeReplay {replay : Replay} {takeover : Id} {key : Key} {row : Row} : state.replays replay = some (takeover, key) →
      IsOpen state.rows key takeover row →
      Step run state (.closeReplay replay)
        { state with
          rows := updateRow state.rows takeover Row.complete
          replays := Function.update state.replays replay none
          writes := (takeover, key) :: state.writes }
  | failReplay {replay : Replay} : Step run state (.failReplay replay) { state with replays := Function.update state.replays replay none }

end Steps

end OpenShapeForge.Operations.OperationTakeovers
