import Mathlib.Logic.Function.Basic
import OpenShapeForge.Library.Run

/-! The limiter that hands one tenant's slots on a connector operation from call to
call. Calls are named by their place in the order of arrival, release functions by
theirs among those made, and a waiting array by the call that made it. -/

namespace OpenShapeForge.Connectors.ConcurrencyLimiter
open Library

inductive WaiterState
  | queued | granted | accepted | cancelled
  deriving DecidableEq, Repr

/-- A promise for a release function: what settles it first stays. -/
inductive Promised (Reason : Type)
  | pending
  | resolved (release : Nat)
  | rejected (reason : Option Reason)
  deriving DecidableEq, Repr

namespace Promised
variable {Reason : Type}

def resolve (release : Nat) : Promised Reason → Promised Reason
  | .pending => .resolved release
  | settled => settled

def reject (reason : Option Reason) : Promised Reason → Promised Reason
  | .pending => .rejected reason
  | settled => settled

end Promised

structure ConcurrencyWaiter (Reason : Type) where
  promise : Promised Reason
  state : WaiterState
  release : Option Nat
  /-- `onAbort` is registered with the signal. -/
  armed : Bool
  /-- The array the waiter's executor closed over. -/
  queue : Nat
  deriving DecidableEq, Repr

/-- One call of `acquire`, with the promise it returned. -/
structure Call (Key Signal Reason : Type) where
  key : Key
  signal : Option Signal
  ownWaiter : Option (ConcurrencyWaiter Reason)
  outcome : Promised Reason
  deriving DecidableEq, Repr

/-- A function `releaseOnce` returned. -/
structure ReleaseOnce (Key : Type) where
  key : Key
  released : Bool
  deriving DecidableEq, Repr

structure State (Key Signal Reason : Type) where
  inFlight : Key → Option Nat
  waiting : Key → Option Nat
  arrays : Nat → List Nat
  releases : List (ReleaseOnce Key)
  calls : List (Call Key Signal Reason)
  aborted : Signal → Option Reason

inductive Event (Key Signal Reason : Type)
  | acquire (key : Key) (limit : Nat) (signal : Option Signal)
  | abort (signal : Signal) (reason : Reason)
  | onAbort (id : Nat)
  | continuation (id : Nat)
  | release (id : Nat)
  deriving DecidableEq, Repr

section Limiter
variable {Key Signal Reason : Type}

def Call.waiterState (call : Call Key Signal Reason) : Option WaiterState := call.ownWaiter.map ConcurrencyWaiter.state

namespace State

def initial : State Key Signal Reason where
  inFlight := fun _ => none
  waiting := fun _ => none
  arrays := fun _ => []
  releases := []
  calls := []
  aborted := fun _ => none

/-- `signal?.reason`, which is there once the signal is aborted. -/
def reason (state : State Key Signal Reason) (signal : Option Signal) : Option Reason := signal.bind state.aborted

def modifyCall (state : State Key Signal Reason) (id : Nat) (change : Call Key Signal Reason → Call Key Signal Reason) :
    State Key Signal Reason :=
  { state with calls := state.calls.modify id change }

def modifyWaiter (state : State Key Signal Reason) (id : Nat) (change : ConcurrencyWaiter Reason → ConcurrencyWaiter Reason) :
    State Key Signal Reason :=
  state.modifyCall id fun call => { call with ownWaiter := call.ownWaiter.map change }

def settle (state : State Key Signal Reason) (id : Nat) (outcome : Promised Reason) : State Key Signal Reason :=
  state.modifyCall id fun call => { call with outcome := outcome }

/-- How many calls hold a slot right now. -/
def active (state : State Key Signal Reason) (key : Key) : Nat := (state.inFlight key).getD 0

def setArray (state : State Key Signal Reason) (array : Nat) (ids : List Nat) : State Key Signal Reason :=
  { state with arrays := Function.update state.arrays array ids }

variable [DecidableEq Key]

/-- `if (queue.length === 0) this.waiting.delete(key)`. -/
def dropEmpty (state : State Key Signal Reason) (key : Key) (array : Nat) : State Key Signal Reason :=
  if (state.arrays array).isEmpty then { state with waiting := Function.update state.waiting key none } else state

def countDown (state : State Key Signal Reason) (key : Key) : State Key Signal Reason :=
  let current := (state.inFlight key).getD 1
  { state with inFlight := Function.update state.inFlight key (if current ≤ 1 then none else some (current - 1)) }

/-- The slot goes to a waiter, whose abort listener stays armed until its continuation accepts. -/
def grant (state : State Key Signal Reason) (id : Nat) (key : Key) (array : Nat) : State Key Signal Reason :=
  let release := state.releases.length
  let made : State Key Signal Reason := { state with releases := state.releases ++ [⟨key, false⟩] }
  (made.modifyWaiter id fun waiter =>
    { waiter with state := .granted, release := some release, promise := waiter.promise.resolve release }).dropEmpty key array

/-- The loop of `release`, which shifts one waiter after another off the array. -/
def handOver (key : Key) (array : Nat) : List Nat → State Key Signal Reason → State Key Signal Reason
  | [], state => (state.dropEmpty key array).countDown key
  | id :: rest, state =>
    let shifted := state.setArray array rest
    match shifted.calls[id]? with
    | some call =>
      if call.waiterState = some .queued then
        match shifted.reason call.signal with
        | none => shifted.grant id key array
        | some reason =>
          handOver key array rest (shifted.modifyWaiter id fun waiter =>
            { waiter with state := .cancelled, armed := false, promise := waiter.promise.reject (some reason) })
      else handOver key array rest shifted
    | none => handOver key array rest shifted

def release (state : State Key Signal Reason) (key : Key) : State Key Signal Reason :=
  match state.waiting key with
  | some array => handOver key array (state.arrays array) state
  | none => state.countDown key

/-- A call of a function `releaseOnce` returned. -/
def callRelease (state : State Key Signal Reason) (release : Nat) : State Key Signal Reason :=
  match state.releases[release]? with
  | some made =>
    if made.released then state
    else { state with releases := state.releases.set release { made with released := true } }.release made.key
  | none => state

/-- `acquire` up to its first `await`. -/
def acquire (state : State Key Signal Reason) (key : Key) (limit : Nat) (signal : Option Signal) : State Key Signal Reason :=
  match state.reason signal with
  | some reason => { state with calls := state.calls ++ [⟨key, signal, none, .rejected (some reason)⟩] }
  | none =>
    let current := (state.inFlight key).getD 0
    if current < limit then
      { state with
        inFlight := Function.update state.inFlight key (some (current + 1))
        releases := state.releases ++ [⟨key, false⟩]
        calls := state.calls ++ [⟨key, signal, none, .resolved state.releases.length⟩] }
    else
      let id := state.calls.length
      let array := (state.waiting key).getD id
      let queue := if (state.waiting key).isSome then state.arrays array else []
      { state with
        waiting := Function.update state.waiting key (some array)
        arrays := Function.update state.arrays array (queue ++ [id])
        calls := state.calls ++ [⟨key, signal, some ⟨.pending, .queued, none, signal.isSome, array⟩, .pending⟩] }

/-- A waiter's abort listener, which is registered to be called once. -/
def onAbort (state : State Key Signal Reason) (id : Nat) : State Key Signal Reason :=
  match state.calls[id]? with
  | some { key, signal, ownWaiter := some waiter, .. } =>
    let fired := state.modifyWaiter id fun waiter => { waiter with armed := false }
    let reacted :=
      match waiter.state with
      | .queued =>
        let cancelled := fired.modifyWaiter id fun waiter => { waiter with state := .cancelled }
        (cancelled.setArray waiter.queue ((state.arrays waiter.queue).erase id)).dropEmpty key waiter.queue
      | .granted =>
        let cancelled := fired.modifyWaiter id fun waiter => { waiter with state := .cancelled }
        match waiter.release with
        | some release => cancelled.callRelease release
        | none => cancelled
      | _ => fired
    reacted.modifyWaiter id fun waiter => { waiter with promise := waiter.promise.reject (state.reason signal) }
  | _ => state

/-- What `acquire` does once the promise it awaits is settled. -/
def continuation (state : State Key Signal Reason) (id : Nat) : State Key Signal Reason :=
  match state.calls[id]? with
  | some { signal, ownWaiter := some waiter, .. } =>
    match waiter.promise with
    | .pending => state
    | .rejected reason => state.settle id (.rejected reason)
    | .resolved release =>
      match state.reason signal with
      | some reason =>
        let returned :=
          if waiter.state = .granted then
            (state.modifyWaiter id fun waiter => { waiter with state := .cancelled }).callRelease release
          else state
        returned.settle id (.rejected (some reason))
      | none =>
        (state.modifyWaiter id fun waiter => { waiter with state := .accepted, armed := false }).settle id (.resolved release)
  | _ => state

/-- A listener runs while it is registered with an aborted signal, a continuation once the
promise its call awaits is settled, and a release function can be called by who was given it. -/
def Allowed (state : State Key Signal Reason) : Event Key Signal Reason → Prop
  | .acquire _ _ _ | .abort _ _ => True
  | .onAbort id => ∃ call waiter, state.calls[id]? = some call ∧ call.ownWaiter = some waiter ∧ waiter.armed = true ∧
      (state.reason call.signal).isSome = true
  | .continuation id => ∃ call waiter, state.calls[id]? = some call ∧ call.ownWaiter = some waiter ∧ waiter.promise ≠ .pending ∧
      call.outcome = .pending
  | .release id => ∃ call release, state.calls[id]? = some call ∧ call.outcome = .resolved release

variable [DecidableEq Signal]

def abort (state : State Key Signal Reason) (signal : Signal) (reason : Reason) : State Key Signal Reason :=
  if (state.aborted signal).isSome then state
  else { state with aborted := Function.update state.aborted signal (some reason) }

def perform (state : State Key Signal Reason) : Event Key Signal Reason → State Key Signal Reason
  | .acquire key limit signal => state.acquire key limit signal
  | .abort signal reason => state.abort signal reason
  | .onAbort id => state.onAbort id
  | .continuation id => state.continuation id
  | .release id =>
    match state.calls[id]?.map Call.outcome with
    | some (.resolved release) => state.callRelease release
    | _ => state

/-- One event after another, in any order that each state allows. The listeners of one
signal are events of their own, so that anything may happen between two of them. -/
def Step (state : State Key Signal Reason) (event : Event Key Signal Reason) (next : State Key Signal Reason) : Prop :=
  state.Allowed event ∧ next = state.perform event

end State

end Limiter

end OpenShapeForge.Connectors.ConcurrencyLimiter
