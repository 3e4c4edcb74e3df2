import OpenShapeForge.Jobs.OneOwner

/-! When a job is started again whose handler has ended without asking for it: an outcome
that is settled in a transaction of its own can come too late. -/

namespace OpenShapeForge.Jobs.RepeatedStarts
open Js Library JobStore JobWorker JobSteps OneOwner

section Outcomes
variable {N : Type} [JsNumber N] (options : WorkerOptions N)

def startedIn {N : Type} : Phase N → Event N → Option (ClaimedJob N)
  | .locked job, .accept => some job
  | _, _ => none

/-- A handler ends by throwing, or with an outcome other than a retry. -/
def endsIn (job : ClaimedJob N) : Event N → Bool
  | .throw _ => true
  | .answer outcome => !repeats (settlementOf options job outcome).outcome
  | _ => false

def dies {N : Type} : Event N → Bool
  | .die => true
  | _ => false

omit [JsNumber N] in
theorem repeats_commitLost (settlement : SettleJobInput N) : repeats (commitLost settlement).outcome = repeats settlement.outcome := by
  unfold commitLost
  split
  next isDone => rw [isDone]; rfl
  next => rfl

omit [JsNumber N] in
theorem closed_settled (row : JobRow N) {outcome : JobOutcome N} (now : Timestamp) (random : ℚ) (ends : repeats outcome = false) :
    closed (row.settled outcome now random) = true := by
  cases outcome with
  | done | failed | outcomeUnknown | dead => simp [JobRow.settled, JobRow.terminal, closed]
  | retry | notAdmitted => cases ends

end Outcomes

section Steps
variable {N : Type} [JsNumber N] {options : WorkerOptions N} {run : Nat} {shared after : Shared N} {phase next : Phase N} {event : Event N}

/-- No claim takes a job over whose handler has ended, and no handler ends once the claim
it was started under is lost, unless with a retry. -/
structure InTime (options : WorkerOptions N) (shared : Shared N) (phase : Phase N) (event : Event N) : Prop where
  claims : ∀ tokenFor now fate jobs table, event = .claim tokenFor now fate →
    claimJobs options.hashClaimToken (fun id => (shared.locks id).isSome) tokenFor now ⟨1, options.lease, options.kinds⟩ shared.jobs =
      some (jobs, table) →
    ∀ job ∈ jobs, ∀ row, shared.jobs.get? job.id = some row → row.status = .running → shared.ended job.id = false
  ends : ∀ job, phase = .severed job → endsIn options job event = true →
    ∃ row, shared.jobs.get? job.id = some row ∧ row.heldBy (hashOf options job) = true

/-- Where a handler has ended, the job is closed, or its row is still held under the claim of a started one. -/
structure Closing {N : Type} (shared : Shared N) : Prop where
  rows : ∀ id row, shared.jobs.get? id = some row → shared.ended id = true →
    closed row = true ∨ ∃ hash ∈ shared.startedClaims, row.heldBy hash = true
  unused : ∀ id, id ∉ shared.ids → shared.ended id = false

/-- A run that holds a row whose handler has ended is to close it. -/
structure Ends (options : WorkerOptions N) (shared : Shared N) (phase : Phase N) : Prop where
  closes : ∀ job row, claimOf phase = some job → shared.jobs.get? job.id = some row → row.heldBy (hashOf options job) = true →
    shared.ended job.id = true → ∃ settlement, settlementIn phase = some settlement ∧ repeats settlement.outcome = false
  began : ∀ job, handledIn phase = some job → hashOf options job ∈ shared.startedClaims

structure EndsHandler (options : WorkerOptions N) (shared after : Shared N) (phase next : Phase N) (event : Event N) (job : ClaimedJob N)
    (settlement : SettleJobInput N) : Prop where
  before : handledIn phase = some job
  ends : endsIn options job event = true
  claim : claimOf next = some job
  carried : settlementIn next = some settlement
  closes : repeats settlement.outcome = false
  jobs : after.jobs = shared.jobs
  startedClaims : after.startedClaims = shared.startedClaims
  ids : after.ids = shared.ids
  ended : ∀ id, after.ended id = true → shared.ended id = true ∨ id = job.id

theorem ended_of_does (does : Does options run shared phase event after next) :
    (∀ id, after.ended id = true → shared.ended id = true) ∨
    ∃ job settlement, EndsHandler options shared after phase next event job settlement := by
  have ends : ∀ {id own : Text} {outcome : JobOutcome N}, (shared.end own outcome).ended id = true → shared.ended id = true ∨ id = own := by
    intro id own outcome isEnded
    by_cases same : id = own
    · exact .inr same
    · exact .inl ((Function.update_of_ne same _ _).symm.trans isEnded)
  cases does with
  | @answers phase next job settlement outcome isSettlement isPhase =>
    cases again : repeats settlement.outcome with
    | true =>
      refine .inl fun id isEnded => ?_
      by_cases same : id = job.id
      · subst same
        have unchanged : (shared.end job.id settlement.outcome).ended job.id = (shared.ended job.id || !repeats settlement.outcome) :=
          Function.update_self _ _ _
        rw [again, Bool.not_true, Bool.or_false] at unchanged
        exact unchanged.symm.trans isEnded
      · exact (Function.update_of_ne same _ _).symm.trans isEnded
    | false =>
      right
      have isEnd : endsIn options job (.answer outcome) = true := by
        rw [endsIn, ← isSettlement, again]
        rfl
      rcases isPhase with ⟨rfl, rfl⟩ | ⟨rfl, rfl⟩
      · exact ⟨job, settlement, rfl, isEnd, rfl, rfl, again, rfl, rfl, rfl, fun id => ends⟩
      · exact ⟨job, commitLost settlement, rfl, isEnd, rfl, rfl, (repeats_commitLost settlement).trans again, rfl, rfl, rfl, fun id => ends⟩
  | throws | throwsSevered => exact .inr ⟨_, _, rfl, rfl, rfl, rfl, rfl, rfl, rfl, rfl, fun id => ends⟩
  | @requeues phase named =>
    refine .inl fun id isEnded => ?_
    by_cases same : id = named
    · subst same
      exact absurd ((Function.update_self id false shared.ended).symm.trans isEnded) Bool.false_ne_true
    · exact (Function.update_of_ne same _ _).symm.trans isEnded
  | _ => exact .inl fun _ isEnded => isEnded

theorem held_of_ends {job : ClaimedJob N} {settlement : SettleJobInput N} (ends : EndsHandler options shared after phase next event job settlement)
    (mine : Mine options run shared phase) (inTime : InTime options shared phase event) :
    ∃ row, shared.jobs.get? job.id = some row ∧ row.heldBy (hashOf options job) = true := by
  have before := ends.before
  cases phase with
  | handling => exact (mine.owns job before).2
  | severed own =>
    obtain rfl := Option.some.inj before
    exact inTime.ends own rfl ends.ends
  | _ => cases before

theorem not_ended_of_hands {tokenFor : Text → Text} {now : Timestamp} {fate : Fate} {jobs : List (ClaimedJob N)} {table : JobTable N}
    (claims : claimJobs options.hashClaimToken (fun id => (shared.locks id).isSome) tokenFor now ⟨1, options.lease, options.kinds⟩ shared.jobs =
      some (jobs, table)) (inTime : InTime options shared phase (.claim tokenFor now fate)) (closing : Closing shared)
    {job : ClaimedJob N} (member : job ∈ jobs) : shared.ended job.id = false := by
  obtain ⟨row, leaseUntil, handsOut⟩ := (claimJobs_spec claims).2.1 job member
  cases ended : shared.ended job.id with
  | false => rfl
  | true =>
    by_cases running : row.status = .running
    · exact absurd (ended.symm.trans (inTime.claims _ _ _ _ _ rfl claims job member row handsOut.found running)) Bool.true_eq_false.mp
    · have queued : row.status = .queued := by
        have due := handsOut.due
        simp only [JobRow.due, JobRow.expired, running, false_and, decide_false, Bool.false_and, Bool.or_false, Bool.and_eq_true,
          decide_eq_true_eq] at due
        exact due.1
      rcases closing.rows job.id row handsOut.found ended with isClosed | ⟨hash, -, held⟩
      · simp [closed, queued] at isClosed
      · exact absurd (running_of_held held).1 running

theorem closing_of_does (does : Does options run shared phase event after next) (kept : Kept shared) (mine : Mine options run shared phase)
    (closing : Closing shared) (ends : Ends options shared phase) (inTime : InTime options shared phase event) : Closing after := by
  have grows := grows_of_does does
  have grown : shared.startedClaims ⊆ after.startedClaims := by
    rcases starts_of_does does with ⟨_, -, -, rfl⟩ | ⟨same, -⟩
    · exact List.subset_cons_self _ _
    · exact same ▸ List.Subset.refl _
  rcases ended_of_does does with fewer | ⟨job, settlement, ending⟩
  · refine ⟨fun id row found ended => ?_, fun id unknown => ?_⟩
    · have endedBefore := fewer id ended
      have changes := changes_of_does does (known_of_kept kept) mine.owns mine.carries id
      generalize isBefore : shared.jobs.get? id = before at changes
      generalize isWritten : after.jobs.get? id = written at changes
      have isRow : written = some row := isWritten.symm.trans found
      cases changes with
      | same =>
        rcases closing.rows id row (isBefore.trans isRow) endedBefore with isClosed | ⟨hash, started, held⟩
        · exact .inl isClosed
        · exact .inr ⟨hash, grown started, held⟩
      | closes =>
        obtain rfl := Option.some.inj isRow
        exact .inl (by simp [JobRow.leaseExpired, closed])
      | hands _ _ claims member isId =>
        subst isId
        exact absurd (endedBefore.symm.trans (not_ended_of_hands claims inTime closing member)) Bool.true_eq_false.mp
      | @settles _ _ old job settlement _ _ _ claim isId carried _ held =>
        obtain rfl := Option.some.inj isRow
        subst isId
        obtain ⟨_, alsoCarried, closes⟩ := ends.closes job old claim isBefore held endedBefore
        obtain rfl := Option.some.inj (carried.symm.trans alsoCarried)
        exact .inl (closed_settled _ _ _ closes)
      | enqueues unknown => exact absurd (endedBefore.symm.trans (closing.unused id unknown)) Bool.true_eq_false.mp
      | @resolves action _ _ _ _ _ restarts =>
        obtain rfl := Option.some.inj isRow
        cases action with
        | done => exact .inl (by simp [JobRow.resolved, closed])
        | requeue => exact absurd (ended.symm.trans (restarts rfl).2) Bool.true_eq_false.mp
      | sweeps => cases isRow
    · have unused := closing.unused id fun known => unknown (grows.2 known)
      exact Bool.eq_false_iff.mpr fun ended => Bool.eq_false_iff.mp unused (fewer id ended)
  · obtain ⟨row, found, held⟩ := held_of_ends ending mine inTime
    refine ⟨fun id other isOther ended => ?_, fun id unknown => ?_⟩
    · have isBefore : shared.jobs.get? id = some other := ending.jobs ▸ isOther
      rcases ending.ended id ended with endedBefore | rfl
      · rw [ending.startedClaims]
        exact closing.rows id other isBefore endedBefore
      · obtain rfl := Option.some.inj (found.symm.trans isBefore)
        exact .inr ⟨_, grown (ends.began job ending.before), held⟩
    · have notKnown : id ∉ shared.ids := fun known => unknown (grows.2 known)
      refine Bool.eq_false_iff.mpr fun ended => ?_
      rcases ending.ended id ended with endedBefore | rfl
      · exact Bool.eq_false_iff.mp (closing.unused id notKnown) endedBefore
      · exact notKnown (kept.rows _ row found).known

omit [JsNumber N] in
theorem not_ended_of_waiting (closing : Closing shared) (mine : Mine options run shared phase) {job : ClaimedJob N} {row : JobRow N}
    (waiting : waitingOf phase = some job) (found : shared.jobs.get? job.id = some row) (held : row.heldBy (hashOf options job) = true) :
    shared.ended job.id = false := by
  refine Bool.eq_false_iff.mpr fun ended => ?_
  rcases closing.rows job.id row found ended with isClosed | ⟨hash, started, alsoHeld⟩
  · simp [closed, (running_of_held held).1] at isClosed
  · have same := Option.some.inj ((running_of_held alsoHeld).2.symm.trans (running_of_held held).2)
    exact mine.waits job waiting (same ▸ started)

theorem carried_of_does (does : Does options run shared phase event after next) (notWaiting : waitingOf phase = none) {job : ClaimedJob N}
    (claim : claimOf next = some job) {settlement : SettleJobInput N} (carried : settlementIn phase = some settlement) :
    ∃ other, settlementIn next = some other ∧ repeats other.outcome = repeats settlement.outcome := by
  cases does with
  | settles | enqueues | passes | requeues | resolves | sweeps => exact ⟨settlement, carried, rfl⟩
  | loses isPhase =>
    rcases isPhase with rfl | ⟨_, rfl⟩
    · obtain rfl := Option.some.inj carried
      exact ⟨_, rfl, repeats_commitLost _⟩
    · obtain rfl := Option.some.inj carried
      exact ⟨_, rfl, repeats_commitLost _⟩
  | commits isNext =>
    rcases isNext with rfl | rfl
    · cases claim
    · obtain rfl := Option.some.inj carried
      exact ⟨_, rfl, repeats_commitLost _⟩
  | refuses => cases notWaiting
  | aborts isPhase =>
    rcases isPhase with rfl | ⟨_, _, rfl⟩
    · cases carried
    · cases notWaiting
  | answers _ isPhase =>
    rcases isPhase with ⟨rfl, -⟩ | ⟨rfl, -⟩
    · cases carried
    · cases carried
  | unsettledApart | settlesApart | dies | stops => cases claim
  | _ => cases carried

theorem ends_of_does (does : Does options run shared phase event after next) (kept : Kept shared) (mine : Mine options run shared phase)
    (closing : Closing shared) (ends : Ends options shared phase) (inTime : InTime options shared phase event) : Ends options after next := by
  refine ⟨fun job row claim found held ended => ?_, fun job isNext => ?_⟩
  · have changes := changes_of_does does (known_of_kept kept) mine.owns mine.carries job.id
    rcases running_of_changes changes found (running_of_held held).1 with isBefore | ⟨handed, sameId, hands⟩
    · have drawn := (kept.rows job.id row isBefore).drawn _ (running_of_held held).2
      have claimed : claimOf phase = some job := by
        rcases claimOf_of_does does claim with before | ⟨fresh, -, -⟩
        · exact before
        · exact absurd drawn fresh
      rcases ended_of_does does with fewer | ⟨own, settlement, ending⟩
      · have endedBefore := fewer job.id ended
        obtain ⟨settlement, carried, closes⟩ := ends.closes job row claimed isBefore held endedBefore
        have notWaiting : waitingOf phase = none := by
          refine Option.eq_none_iff_forall_ne_some.mpr fun other waiting => ?_
          obtain rfl := Option.some.inj (claimed.symm.trans (claim_of_waiting waiting))
          exact absurd (endedBefore.symm.trans (not_ended_of_waiting closing mine waiting isBefore held)) Bool.true_eq_false.mp
        obtain ⟨other, isOther, same⟩ := carried_of_does does notWaiting claim carried
        exact ⟨other, isOther, same.trans closes⟩
      · exact ⟨settlement, ending.carried, ending.closes⟩
    · obtain ⟨_, _, _, _, _, rfl, claims, member⟩ := hands.claims
      rcases ended_of_does does with fewer | ⟨_, _, ending⟩
      · have notEnded := not_ended_of_hands claims inTime closing member
        rw [sameId] at notEnded
        exact absurd ((fewer job.id ended).symm.trans notEnded) Bool.true_eq_false.mp
      · exact absurd ending.ends Bool.false_ne_true
  · rcases starts_of_does does with ⟨own, -, rfl, rfl⟩ | ⟨same, -⟩
    · obtain rfl := Option.some.inj isNext
      exact List.mem_cons_self
    · rw [same]
      cases does with
      | severs | enqueues | passes | requeues | resolves | sweeps => exact ends.began job isNext
      | admits =>
        obtain rfl := Option.some.inj isNext
        exact same ▸ List.mem_cons_self
      | claims _ _ isClaimed =>
        rcases isClaimed with rfl | ⟨_, _, rfl⟩
        · cases isNext
        · cases isNext
      | answers _ isPhase =>
        rcases isPhase with ⟨-, rfl⟩ | ⟨-, rfl⟩
        · cases isNext
        · cases isNext
      | refuses isOver | commits isOver =>
        rcases isOver with rfl | rfl
        · cases isNext
        · cases isNext
      | _ => cases isNext

theorem ends_beside {other : Nat} {beside : Phase N} (kept : Kept shared) (mine : Mine options run shared phase)
    (theirs : Mine options other shared beside) (inTime : InTime options shared phase event) (ends : Ends options shared beside)
    (apart : ∀ job theirJob, claimOf phase = some job → claimOf beside = some theirJob → hashOf options job ≠ hashOf options theirJob)
    (does : Does options run shared phase event after next) : Ends options after beside := by
  refine ⟨fun job row claim found held ended => ?_, fun job handled => ?_⟩
  · have changes := changes_of_does does (known_of_kept kept) mine.owns mine.carries job.id
    rcases running_of_changes changes found (running_of_held held).1 with isBefore | ⟨handed, -, hands⟩
    · have endedBefore : shared.ended job.id = true := by
        rcases ended_of_does does with fewer | ⟨own, settlement, ending⟩
        · exact fewer job.id ended
        · rcases ending.ended job.id ended with before | sameId
          · exact before
          · obtain ⟨ownRow, ownFound, ownHeld⟩ := held_of_ends ending mine inTime
            obtain rfl := Option.some.inj (isBefore.symm.trans (sameId ▸ ownFound))
            have sameHash := Option.some.inj ((running_of_held ownHeld).2.symm.trans (running_of_held held).2)
            exact absurd sameHash (apart own job (claim_of_handled ending.before) claim)
      exact ends.closes job row claim isBefore held endedBefore
    · have sameHash := Option.some.inj ((running_of_held held).2.symm.trans hands.hash)
      exact absurd (sameHash ▸ theirs.drawn job claim) hands.fresh
  · rcases starts_of_does does with ⟨_, -, -, rfl⟩ | ⟨same, -⟩
    · exact List.mem_cons_of_mem _ (ends.began job handled)
    · exact same ▸ ends.began job handled

end Steps

section Runs
variable {N : Type} [JsNumber N] {options : WorkerOptions N} {labels : List (Nat × Event N)} {state : Parties.State Nat (Shared N) (Phase N)}

def timely (options : WorkerOptions N) : Parties.Action Nat (Shared N) (Phase N) (Event N) := fun run shared phase event after next =>
  InTime options shared phase event ∧ perform options run shared phase event = some (after, next)

omit [JsNumber N] in
theorem closing_initial : Closing (initial (N := N)).shared where
  rows id row found := by cases found
  unused _ _ := rfl

omit [JsNumber N] in
theorem ends_idle (shared : Shared N) : Ends options shared .idle where
  closes job row claim := by cases claim
  began job handled := by cases handled

theorem closing_of_runs (runs : Parties.Runs (timely options) initial labels state) :
    Parties.Holds (fun shared => Kept shared ∧ Closing shared)
      (fun run shared phase => Mine options run shared phase ∧ Ends options shared phase) state := by
  suffices held : Parties.Holds (fun shared => Kept shared ∧ Closing shared)
      (fun run shared phase => Mine options run shared phase ∧ Ends options shared phase) state ∧ Parties.Apart (claimHash options) state from held.1
  refine Parties.invariant_apart ⟨⟨kept_initial, closing_initial⟩, fun run => ⟨mine_initial run, ends_idle _⟩⟩ ?_ ?_ ?_ ?_ (Parties.Runs.unguarded runs)
  · intro first second held isFirst
    cases isFirst
  · rintro run shared phase event after next ⟨kept, closing⟩ ⟨mine, ends⟩ ⟨inTime, performed⟩
    have does := does_of_perform performed
    exact ⟨⟨kept_of_does does kept mine, closing_of_does does kept mine closing ends inTime⟩, mine_of_does does kept mine,
      ends_of_does does kept mine closing ends inTime⟩
  · rintro state run event after next held holds - ⟨-, performed⟩ isHash
    obtain ⟨job, claim, rfl⟩ := Option.map_eq_some_iff.mp isHash
    rcases claimOf_of_does (does_of_perform performed) claim with before | ⟨fresh, -, -⟩
    · exact .inl (congrArg (Option.map (hashOf options)) before)
    · refine .inr fun other _ theirs => ?_
      obtain ⟨theirJob, theirClaim, same⟩ := Option.map_eq_some_iff.mp theirs
      exact fresh (same ▸ (holds.each other).1.drawn theirJob theirClaim)
  · rintro run other shared phase event after next beside different apart ⟨kept, -⟩ ⟨mine, -⟩ ⟨theirs, ends⟩ ⟨inTime, performed⟩
    have differs : ∀ job theirJob, claimOf phase = some job → claimOf beside = some theirJob → hashOf options job ≠ hashOf options theirJob :=
      fun job theirJob claim theirClaim same => apart (hashOf options job) (congrArg (Option.map (hashOf options)) claim)
        ((congrArg (Option.map (hashOf options)) theirClaim).trans (congrArg some same.symm))
    have does := does_of_perform performed
    exact ⟨mine_beside different kept mine theirs differs does, ends_beside kept mine theirs inTime ends differs does⟩

theorem performed_of_starts {run : Nat} {shared : Shared N} {phase : Phase N} {event : Event N} {job : ClaimedJob N}
    (starts : startedIn phase event = some job) : perform options run shared phase event = some (start options shared job, .handling job) := by
  unfold startedIn at starts
  split at starts
  · cases starts
    rfl
  · cases starts

/-- A handler is started for no job whose handler has ended, unless it asked for that or an
operator has since requeued the job, where settlements come in time. -/
theorem not_restarted (runs : Parties.Runs (timely options) initial labels state) {run : Nat} {event : Event N} {job : ClaimedJob N}
    (starts : startedIn (state.parties run) event = some job) : state.shared.ended job.id = false := by
  have holds := closing_of_runs runs
  obtain ⟨mine, ends⟩ := holds.each run
  generalize state.parties run = phase at starts mine ends
  cases phase with
  | locked own =>
    have isJob : own = job := by
      cases event with
      | accept => exact Option.some.inj starts
      | _ => cases starts
    subst isJob
    obtain ⟨-, row, found, held⟩ := mine.owns own rfl
    exact not_ended_of_waiting holds.common.2 mine rfl found held
  | _ => cases starts

def isInTime (options : WorkerOptions N) (state : Parties.State Nat (Shared N) (Phase N)) (label : Nat × Event N) : Bool :=
  let shared := state.shared
  (match label.2 with
  | .claim tokenFor now _ =>
    match claimJobs options.hashClaimToken (fun id => (shared.locks id).isSome) tokenFor now ⟨1, options.lease, options.kinds⟩ shared.jobs with
    | some (jobs, _) => jobs.all fun job => (shared.jobs.get? job.id).all fun row => decide (row.status ≠ .running) || !shared.ended job.id
    | none => true
  | _ => true) &&
  match state.parties label.1 with
  | .severed job => !endsIn options job label.2 || (shared.jobs.get? job.id).any fun row => row.heldBy (hashOf options job)
  | _ => true

theorem inTime_of_isInTime {label : Nat × Event N} (isTimely : isInTime options state label = true) :
    InTime options state.shared (state.parties label.1) label.2 := by
  unfold isInTime at isTimely
  obtain ⟨claims, ends⟩ := Bool.and_eq_true_iff.mp isTimely
  constructor
  · intro tokenFor now fate jobs table isClaim claimed job member row found running
    simp only [isClaim, claimed] at claims
    have jobInTime := List.all_eq_true.mp claims job member
    simpa [found, running] using jobInTime
  · intro job severed isEnd
    simp only [severed, isEnd, Bool.not_true, Bool.false_or] at ends
    exact (Option.any_eq_true _ _).mp ends

theorem timely_of_checked (runs : Run (Library.guarded (fun state label => isInTime options state label = true)
    (Parties.Step (Parties.performs (perform options)))) initial labels state) : Parties.Runs (timely options) initial labels state := by
  refine runs.mono ?_
  rintro state label next ⟨isTimely, taken⟩
  cases taken with
  | act performed => exact ⟨⟨inTime_of_isInTime isTimely, performed⟩⟩

def retryOutcome : Value Whole := .object [(js "outcome", .text (js "retry")), (js "error", .object [(js "message", .text (js "busy"))])]

/-- A mail whose first run could not be settled, and asked to be tried again. -/
def retried : List (Nat × Event Whole) :=
  [(0, .enqueue (js "j") mailJob 0), (0, .claim (fun _ => tokenOf '0') 0 .committed), (0, .begin), (0, .accept), (0, .answer retryOutcome),
    (0, .unsettled), (1, .claim (fun _ => tokenOf '1') 120000001 .committed), (1, .begin)]

theorem not_restarted_retried : ∃ final job,
    Parties.playChecked (perform mailWorker) (isInTime mailWorker) initial retried = some final ∧
    startedIn (final.parties 1) .accept = some job ∧ final.shared.starts job.id = 1 ∧ final.shared.ended job.id = false := by
  have played : (Parties.playChecked (perform mailWorker) (isInTime mailWorker) initial retried).any (fun final =>
      (startedIn (final.parties 1) .accept).any fun job => decide (final.shared.starts job.id = 1)) = true := by decide +kernel
  obtain ⟨final, isFinal, isStarted⟩ := (Option.any_eq_true _ _).mp played
  obtain ⟨job, starts, once⟩ := (Option.any_eq_true _ _).mp isStarted
  exact ⟨final, job, isFinal, starts, of_decide_eq_true once, not_restarted (timely_of_checked (Parties.runs_of_playChecked _ isFinal)) starts⟩

/-- A handler that throws after its lease has expired, and another worker that claims the
job before that is settled. -/
def thrownLate : List (Nat × Event Whole) :=
  [(0, .enqueue (js "j") mailJob 0), (0, .claim (fun _ => tokenOf '0') 0 .committed), (0, .begin), (0, .accept), (0, .throw ⟨js "reset", none, none⟩),
    (1, .claim (fun _ => tokenOf '1') 120000001 .committed), (1, .begin)]

theorem restarted_thrownLate : ∃ final job, Parties.Runs (Parties.performs (perform mailWorker)) initial thrownLate final ∧
    (∀ label ∈ thrownLate, dies label.2 = false) ∧ startedIn (final.parties 1) .accept = some job ∧ final.shared.ended job.id = true ∧
    ∃ next, Parties.Step (Parties.performs (perform mailWorker)) final (1, .accept) next := by
  have played : (Parties.play (perform mailWorker) initial thrownLate).any (fun final =>
      (startedIn (final.parties 1) .accept).any fun job => final.shared.ended job.id) = true := by decide +kernel
  obtain ⟨final, isFinal, isStarted⟩ := (Option.any_eq_true _ _).mp played
  obtain ⟨job, starts, ended⟩ := (Option.any_eq_true _ _).mp isStarted
  refine ⟨final, job, Parties.runs_of_play _ isFinal, ?_, starts, ended, _, ⟨performed_of_starts starts⟩⟩
  intro label member
  simp only [thrownLate, List.mem_cons, List.not_mem_nil, or_false] at member
  rcases member with rfl | rfl | rfl | rfl | rfl | rfl | rfl <;> rfl

end Runs

end OpenShapeForge.Jobs.RepeatedStarts
