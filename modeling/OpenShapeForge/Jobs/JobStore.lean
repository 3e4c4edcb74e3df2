import OpenShapeForge.Js.Json
import OpenShapeForge.Library.OrderedMap
import Mathlib.Algebra.Order.Ring.Unbundled.Rat

/-! The job store (apps/api/src/jobs/store.ts, settle.ts and queries.ts): the rows of
platform.jobs and what each statement makes of them, with the time of its transaction. -/

namespace OpenShapeForge.Jobs.JobStore
open Js Library

/-- `now()` of a transaction, in microseconds. -/
abbrev Timestamp := Int

inductive JobStatus where
  | queued
  | running
  | done
  | failed
  | dead
  | outcomeUnknown
deriving DecidableEq

structure RuntimeJobError (N : Type) where
  message : Text
  code : Option Text
  detail : Option (Value N)

structure JobRow (N : Type) where
  tenantId : Text
  actorId : Text
  kind : Text
  payload : Value N
  status : JobStatus
  attempts : Nat
  maxAttempts : Nat
  availableAt : Timestamp
  leaseUntil : Option Timestamp
  claimTokenHash : Option Text
  lastError : Option (RuntimeJobError N)
  result : Option (Value N)
  completedAt : Option Timestamp

abbrev JobTable (N : Type) := OrderedMap Text (JobRow N)

structure ClaimedJob (N : Type) where
  id : Text
  tenantId : Text
  actorId : Text
  kind : Text
  payload : Value N
  attempts : Nat
  maxAttempts : Nat
  claimToken : Text

section Enqueue
variable {N : Type}

/-- An object that is no array. -/
def isRecord : Value N → Bool
  | .object _ | .date _ => true
  | _ => false

def defaultMaxAttempts : Nat := 5

structure EnqueueJobInput (N : Type) where
  tenantId : Text
  actorId : Text
  kind : Text
  payload : Value N
  availableAt : Option Timestamp
  maxAttempts : Option Nat

/-- `/^[a-z][a-z0-9-]*(\.[a-z][a-z0-9-]*)+$/`. -/
def isJobKind (kind : Text) : Bool :=
  let isLower (c : CodeUnit) : Bool := 97 ≤ c && c ≤ 122
  let parts := segments kind
  1 < parts.length && parts.all fun part => part.head?.any isLower && part.all fun c => isLower c || isDigit c || c == unit '-'

def enqueuedRow (now : Timestamp) (input : EnqueueJobInput N) : Option (JobRow N) :=
  let maxAttempts := input.maxAttempts.getD defaultMaxAttempts
  if !isJobKind input.kind || maxAttempts < 1 || !isRecord input.payload then none
  else some {
    tenantId := input.tenantId
    actorId := input.actorId
    kind := input.kind
    payload := input.payload
    status := .queued
    attempts := 0
    maxAttempts
    availableAt := input.availableAt.getD now
    leaseUntil := none
    claimTokenHash := none
    lastError := none
    result := none
    completedAt := none }

theorem enqueuedRow_some {now : Timestamp} {input : EnqueueJobInput N} {row : JobRow N} (made : enqueuedRow now input = some row) :
    row.status = .queued ∧ row.attempts = 0 ∧ 0 < row.maxAttempts ∧ row.claimTokenHash = none := by
  unfold enqueuedRow at made
  dsimp only at made
  split at made
  next => cases made
  next valid =>
    cases made
    simp only [Bool.or_eq_true, decide_eq_true_eq, not_or, not_lt] at valid
    exact ⟨rfl, rfl, valid.1.2, rfl⟩

end Enqueue

section Claiming
variable {N : Type}

structure ClaimJobsInput where
  limit : Nat
  /-- `leaseSeconds`, in microseconds. -/
  lease : Int
  kinds : Option (List Text)

/-- `lease_until < now()` of a row that is running. -/
def JobRow.expired (row : JobRow N) (now : Timestamp) : Bool := row.status = .running ∧ row.leaseUntil.any (· < now)

def JobRow.exhausted (row : JobRow N) (now : Timestamp) : Bool := row.expired now && row.maxAttempts ≤ row.attempts

def JobRow.due (row : JobRow N) (now : Timestamp) : Bool :=
  (row.status = .queued && row.availableAt ≤ now) || (row.expired now && row.attempts < row.maxAttempts)

def JobRow.leaseExpired (row : JobRow N) (now : Timestamp) : JobRow N :=
  { row with
    status := .dead
    leaseUntil := none
    claimTokenHash := none
    completedAt := some now
    lastError := some {
      code := some (js "LEASE_EXPIRED")
      message := js "The job was claimed " ++ decimal row.attempts ++ js " times without a worker reporting back."
      detail := none } }

def JobRow.claimed (row : JobRow N) (hash : Text) (leaseUntil : Timestamp) : JobRow N :=
  { row with
    status := .running
    attempts := row.attempts + 1
    leaseUntil := some leaseUntil
    claimTokenHash := some hash }

/-- `order by available_at asc limit … for update skip locked`, over the rows that a statement asks for. -/
def selected (locked : Text → Bool) (limit : Nat) (asks : JobRow N → Bool) (table : JobTable N) : List Text :=
  let rows := table.entries.filter fun entry => !locked entry.1 && asks entry.2
  ((rows.insertionSort fun a b => a.2.availableAt ≤ b.2.availableAt).take limit).map (·.1)

def updated (change : Text → JobRow N → JobRow N) (table : JobTable N) (ids : List Text) : JobTable N :=
  ids.foldl (fun table id => match table.get? id with
    | some row => table.set id (change id row)
    | none => table) table

def claimedJob (id claimToken : Text) (row : JobRow N) : ClaimedJob N where
  id := id
  tenantId := row.tenantId
  actorId := row.actorId
  kind := row.kind
  payload := row.payload
  attempts := row.attempts
  maxAttempts := row.maxAttempts
  claimToken := claimToken

/-- claimJobs, with the rows that other transactions lock and the token it draws for each
row; nothing where it throws. -/
def claimJobs (hashClaimToken : Text → Text) (locked : Text → Bool) (tokenFor : Text → Text) (now : Timestamp) (input : ClaimJobsInput)
    (table : JobTable N) : Option (List (ClaimedJob N) × JobTable N) :=
  if input.limit < 1 ∨ input.lease ≤ 0 ∨ input.kinds = some [] then none
  else
    let ofKind (row : JobRow N) : Bool := input.kinds.all fun kinds => kinds.contains row.kind
    let closed := updated (fun _ row => row.leaseExpired now) table
      (selected locked input.limit (fun row => row.exhausted now && ofKind row) table)
    let due := selected locked input.limit (fun row => row.due now && ofKind row) closed
    let claimed := updated (fun id row => row.claimed (hashClaimToken (tokenFor id)) (now + input.lease)) closed due
    some (due.filterMap fun id => (claimed.get? id).map (claimedJob id (tokenFor id)), claimed)

theorem get?_updated (change : Text → JobRow N → JobRow N) : ∀ (ids : List Text) (table : JobTable N), ids.Nodup → ∀ id,
    (updated change table ids).get? id = if id ∈ ids then (table.get? id).map (change id) else table.get? id
  | [], table, _, id => rfl
  | first :: rest, table, once, id => by
    obtain ⟨fresh, restOnce⟩ := List.nodup_cons.mp once
    have step : ∀ other, other ≠ first → (match table.get? first with
        | some row => table.set first (change first row)
        | none => table).get? other = table.get? other := by
      intro other differs
      cases table.get? first with
      | some row => exact OrderedMap.get?_set_of_ne _ _ differs
      | none => rfl
    show (updated change (match table.get? first with
        | some row => table.set first (change first row)
        | none => table) rest).get? id = _
    rw [get?_updated change rest _ restOnce id]
    by_cases same : id = first
    · subst same
      rw [if_neg fresh, if_pos List.mem_cons_self]
      cases found : table.get? id with
      | some row => exact OrderedMap.get?_set_self _ _ _
      | none => exact found
    · rw [step id same]
      simp [same]

theorem mem_selected {locked : Text → Bool} {limit : Nat} {asks : JobRow N → Bool} {table : JobTable N} {id : Text}
    (member : id ∈ selected locked limit asks table) : locked id = false ∧ ∃ row, table.get? id = some row ∧ asks row = true := by
  obtain ⟨⟨_, row⟩, taken, rfl⟩ := List.mem_map.mp member
  have sorted := (List.perm_insertionSort _ _).mem_iff.mp (List.mem_of_mem_take taken)
  obtain ⟨inside, wanted⟩ := List.mem_filter.mp sorted
  rw [Bool.and_eq_true, Bool.not_eq_true'] at wanted
  exact ⟨wanted.1, row, OrderedMap.get?_of_mem _ inside, wanted.2⟩

theorem selected_nodup (locked : Text → Bool) (limit : Nat) (asks : JobRow N → Bool) (table : JobTable N) :
    (selected locked limit asks table).Nodup := by
  unfold selected
  rw [List.map_take]
  refine List.Nodup.sublist (List.take_sublist _ _) ?_
  refine ((List.perm_insertionSort _ _).map Prod.fst).nodup_iff.mpr ?_
  exact table.nodup.sublist (List.filter_sublist.map _)

inductive ClaimsRow (locked : Bool) (now : Timestamp) (hash : Text) : Option (JobRow N) → Option (JobRow N) → Prop
  | beside (row : Option (JobRow N)) : ClaimsRow locked now hash row row
  | closes {row : JobRow N} : locked = false → row.exhausted now = true → ClaimsRow locked now hash (some row) (some (row.leaseExpired now))
  | hands {row : JobRow N} (leaseUntil : Timestamp) : locked = false → row.due now = true →
    ClaimsRow locked now hash (some row) (some (row.claimed hash leaseUntil))

theorem not_due_leaseExpired (row : JobRow N) (closedAt now : Timestamp) : (row.leaseExpired closedAt).due now = false := by
  simp [JobRow.due, JobRow.leaseExpired, JobRow.expired]

structure HandsOut (hashClaimToken : Text → Text) (locked : Text → Bool) (tokenFor : Text → Text) (now : Timestamp) (before after : JobTable N)
    (job : ClaimedJob N) (row : JobRow N) (leaseUntil : Timestamp) : Prop where
  found : before.get? job.id = some row
  free : locked job.id = false
  due : row.due now = true
  written : after.get? job.id = some (row.claimed (hashClaimToken (tokenFor job.id)) leaseUntil)
  job : job = claimedJob job.id (tokenFor job.id) (row.claimed (hashClaimToken (tokenFor job.id)) leaseUntil)

variable {hashClaimToken : Text → Text} {locked : Text → Bool} {tokenFor : Text → Text} {now : Timestamp} {input : ClaimJobsInput}
  {table after : JobTable N} {jobs : List (ClaimedJob N)}

theorem claimJobs_spec (claims : claimJobs hashClaimToken locked tokenFor now input table = some (jobs, after)) :
    (∀ id, ClaimsRow (locked id) now (hashClaimToken (tokenFor id)) (table.get? id) (after.get? id)) ∧
    (∀ job ∈ jobs, ∃ row leaseUntil, HandsOut hashClaimToken locked tokenFor now table after job row leaseUntil) ∧
    ∀ id row, table.get? id = some row → row.exhausted now = false → (∀ job ∈ jobs, job.id ≠ id) → after.get? id = some row := by
  unfold claimJobs at claims
  split at claims
  next => exact nomatch claims
  next =>
    obtain ⟨rfl, rfl⟩ := Prod.mk.inj (Option.some.inj claims)
    generalize (fun row : JobRow N => input.kinds.all fun kinds => kinds.contains row.kind) = ofKind
    generalize isExpired : selected locked input.limit (fun row => row.exhausted now && ofKind row) table = expired
    generalize isClosed : updated (fun _ row => row.leaseExpired now) table expired = closed
    generalize isDue : selected locked input.limit (fun row => row.due now && ofKind row) closed = due
    have expiredOnce : expired.Nodup := isExpired ▸ selected_nodup _ _ _ _
    have dueOnce : due.Nodup := isDue ▸ selected_nodup _ _ _ _
    have closes : ∀ id, closed.get? id = if id ∈ expired then (table.get? id).map fun row => row.leaseExpired now else table.get? id :=
      fun id => isClosed ▸ get?_updated _ _ _ expiredOnce id
    have hands := get?_updated (fun id (row : JobRow N) => row.claimed (hashClaimToken (tokenFor id)) (now + input.lease)) due closed dueOnce
    generalize updated (fun id (row : JobRow N) => row.claimed (hashClaimToken (tokenFor id)) (now + input.lease)) closed due = after at hands
    have taken : ∀ id ∈ due, locked id = false ∧ ∃ row, table.get? id = some row ∧ row.due now = true ∧
        after.get? id = some (row.claimed (hashClaimToken (tokenFor id)) (now + input.lease)) := by
      intro id member
      obtain ⟨free, row, found, asked⟩ := mem_selected (isDue ▸ member)
      rw [Bool.and_eq_true] at asked
      have before := closes id
      split at before
      next isExpiredId =>
        rw [found] at before
        obtain ⟨old, -, same⟩ := Option.map_eq_some_iff.mp before.symm
        rw [← same, not_due_leaseExpired] at asked
        exact absurd asked.1 Bool.false_ne_true
      next =>
        refine ⟨free, row, before.symm.trans found, asked.1, ?_⟩
        rw [hands, if_pos member, found]
        rfl
    refine ⟨fun id => ?_, fun job member => ?_, fun id row found notExhausted notHanded => ?_⟩
    · by_cases member : id ∈ due
      · obtain ⟨free, row, found, isDueRow, written⟩ := taken id member
        rw [found, written]
        exact .hands _ free isDueRow
      · rw [hands, if_neg member, closes]
        split
        next isExpiredId =>
          obtain ⟨free, row, found, asked⟩ := mem_selected (isExpired ▸ isExpiredId)
          rw [found]
          exact .closes free (Bool.and_eq_true _ _ ▸ asked).1
        next => exact .beside _
    · obtain ⟨id, member, isJob⟩ := List.mem_filterMap.mp member
      obtain ⟨free, row, found, isDueRow, written⟩ := taken id member
      rw [written, Option.map_some] at isJob
      obtain rfl := Option.some.inj isJob
      exact ⟨row, _, found, free, isDueRow, written, rfl⟩
    · have notDue : id ∉ due := by
        intro member
        obtain ⟨-, row, -, -, written⟩ := taken id member
        refine notHanded (claimedJob id (tokenFor id) (row.claimed (hashClaimToken (tokenFor id)) (now + input.lease)))
          (List.mem_filterMap.mpr ⟨id, member, ?_⟩) rfl
        rw [written]
        rfl
      have notExpired : id ∉ expired := by
        intro member
        obtain ⟨-, other, isOther, asked⟩ := mem_selected (isExpired ▸ member)
        obtain rfl := Option.some.inj (found.symm.trans isOther)
        rw [notExhausted] at asked
        exact nomatch asked
      rw [hands, if_neg notDue, closes, if_neg notExpired, found]

end Claiming

section Settling
variable {N : Type}

inductive JobOutcome (N : Type) where
  | done (result : Option (Value N))
  | retry (error : RuntimeJobError N) (retryAt : Option Timestamp)
  | failed (error : RuntimeJobError N)
  | outcomeUnknown (error : RuntimeJobError N)
  | dead (error : RuntimeJobError N)
  | notAdmitted (error : RuntimeJobError N) (retryAt : Timestamp)

structure SettleJobInput (N : Type) where
  id : Text
  claimToken : Text
  outcome : JobOutcome N

def retryBase : ℚ := 30000
def retryCap : ℚ := 60 * 60 * 1000
def maxErrorMessage : Nat := 2000

/-- In milliseconds; `random` is what `Math.random()` draws. -/
def retryDelayMs (attempts : Nat) (random : ℚ) : Int :=
  let exponential := min retryCap (retryBase * 2 ^ (attempts - 1))
  let jitter := 1 + (random * (4 / 10) - 2 / 10)
  (exponential * jitter + 1 / 2).floor

def boundedError (error : RuntimeJobError N) : RuntimeJobError N where
  message := error.message.take maxErrorMessage
  code := error.code.filter (· ≠ [])
  detail := error.detail

def JobRow.heldBy (row : JobRow N) (hash : Text) : Bool := row.status = .running ∧ row.claimTokenHash = some hash

def lockClaimedJob (hashClaimToken : Text → Text) (table : JobTable N) (id claimToken : Text) : Bool :=
  (table.get? id).any fun row => row.heldBy (hashClaimToken claimToken)

def JobRow.terminal (row : JobRow N) (status : JobStatus) (error : Option (RuntimeJobError N)) (result : Option (Value N)) (now : Timestamp) : JobRow N :=
  { row with
    status
    lastError := error.map boundedError
    result
    completedAt := some now
    leaseUntil := none
    claimTokenHash := none }

def JobRow.requeued (row : JobRow N) (error : RuntimeJobError N) (availableAt : Timestamp) (attempts : Nat) : JobRow N :=
  { row with
    status := .queued
    lastError := some (boundedError error)
    result := none
    completedAt := none
    availableAt
    attempts
    leaseUntil := none
    claimTokenHash := none }

def JobRow.settled (row : JobRow N) (outcome : JobOutcome N) (now : Timestamp) (random : ℚ) : JobRow N :=
  match outcome with
  | .done result => row.terminal .done none result now
  | .failed error => row.terminal .failed (some error) none now
  | .outcomeUnknown error => row.terminal .outcomeUnknown (some error) none now
  | .dead error => row.terminal .dead (some error) none now
  | .notAdmitted error retryAt => row.requeued error retryAt (row.attempts - 1)
  | .retry error retryAt =>
    if row.maxAttempts ≤ row.attempts then row.terminal .dead (some error) none now
    else row.requeued error (retryAt.getD (now + 1000 * retryDelayMs row.attempts random)) row.attempts

def settleJob (hashClaimToken : Text → Text) (now : Timestamp) (random : ℚ) (input : SettleJobInput N) (table : JobTable N) :
    Option (JobRow N) :=
  ((table.get? input.id).filter fun row => row.heldBy (hashClaimToken input.claimToken)).map fun row => row.settled input.outcome now random

theorem settleJob_some {hashClaimToken : Text → Text} {now : Timestamp} {random : ℚ} {input : SettleJobInput N} {table : JobTable N}
    {written : JobRow N} (settled : settleJob hashClaimToken now random input table = some written) :
    ∃ row, table.get? input.id = some row ∧ row.heldBy (hashClaimToken input.claimToken) = true ∧ written = row.settled input.outcome now random := by
  obtain ⟨row, held, same⟩ := Option.map_eq_some_iff.mp settled
  obtain ⟨found, held⟩ := Option.filter_eq_some_iff.mp held
  exact ⟨row, found, held, same.symm⟩

theorem settleJob_of_held {hashClaimToken : Text → Text} {now : Timestamp} {random : ℚ} {input : SettleJobInput N} {table : JobTable N}
    {row : JobRow N} (found : table.get? input.id = some row) (held : row.heldBy (hashClaimToken input.claimToken) = true) :
    settleJob hashClaimToken now random input table = some (row.settled input.outcome now random) := by
  simp [settleJob, found, held]

theorem settleJob_reclaimed {hashClaimToken : Text → Text} {now : Timestamp} {random : ℚ} {input : SettleJobInput N} {table : JobTable N}
    (lost : ∀ row, table.get? input.id = some row → row.heldBy (hashClaimToken input.claimToken) = false) :
    settleJob hashClaimToken now random input table = none := by
  cases settled : settleJob hashClaimToken now random input table with
  | none => rfl
  | some written =>
    obtain ⟨row, found, held, -⟩ := settleJob_some settled
    exact absurd (held.symm.trans (lost row found)) Bool.true_eq_false.mp

end Settling

section Operators
variable {N : Type}

inductive ResolveAction where
  | requeue
  | done
deriving DecidableEq

def JobRow.resolvable (row : JobRow N) : Bool := row.status = .failed ∨ row.status = .dead ∨ row.status = .outcomeUnknown

def JobRow.resolved (row : JobRow N) (action : ResolveAction) (now : Timestamp) : JobRow N :=
  match action with
  | .requeue => { row with status := .queued, attempts := 0, availableAt := now, completedAt := none }
  | .done => { row with status := .done, completedAt := some now }

def resolveJob (now : Timestamp) (id : Text) (action : ResolveAction) (table : JobTable N) : Option (JobRow N) :=
  ((table.get? id).filter fun row => row.resolvable).map fun row => row.resolved action now

theorem resolveJob_some {now : Timestamp} {id : Text} {action : ResolveAction} {table : JobTable N} {written : JobRow N}
    (resolved : resolveJob now id action table = some written) :
    ∃ row, table.get? id = some row ∧ row.resolvable = true ∧ written = row.resolved action now := by
  obtain ⟨row, held, same⟩ := Option.map_eq_some_iff.mp resolved
  obtain ⟨found, resolvable⟩ := Option.filter_eq_some_iff.mp held
  exact ⟨row, found, resolvable, same.symm⟩

def JobRow.swept (row : JobRow N) (before : Timestamp) : Bool := row.status = .done ∧ row.completedAt.any (· < before)

/-- sweepDoneJobs, with `now() - olderThanDays`. -/
def sweepDoneJobs (before : Timestamp) (table : JobTable N) : JobTable N := table.filter fun _ row => !row.swept before

end Operators

end OpenShapeForge.Jobs.JobStore
