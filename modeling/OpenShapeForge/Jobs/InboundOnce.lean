import OpenShapeForge.Jobs.InboundDispatch
import OpenShapeForge.Jobs.OneOwner
import OpenShapeForge.Operations.DispatchOnce

/-! The write of an inbound delivery reaches its Operation once at most, as long as no claim
is numbered as one was that may have dispatched before. -/

namespace OpenShapeForge.Jobs.InboundOnce
open Js Library JobStore InboundDispatch
open Operations.DurableWorker (WorkReference safeToRepeat)
open Operations (DispatchOnce.busy DispatchOnce.loose DispatchOnce.recorded DispatchOnce.free DispatchOnce.writes)

section Steps
variable {N : Type} [JsNumber N] {options : InboundOptions N} {run : Nat} {shared after : Shared N} {own next : Local N} {event : Event N}

structure SameFacts {N : Type} (before after : InboundDelivery N) : Prop where
  id : after.id = before.id
  dispatchJobId : after.dispatchJobId = before.dispatchJobId
  started : after.startedAttempt = before.startedAttempt

/-- All a step can do. -/
inductive Acts (options : InboundOptions N) (run : Nat) (shared : Shared N) (own : Local N) (event : Event N) : Shared N → Local N → Prop
  | queue {queueEvent queue phase delivery} : event = .queue queueEvent ∨ (∃ outcome, queueEvent = .answer outcome) →
    JobWorker.perform options.worker run shared.queue own.phase queueEvent = some (queue, phase) → SameFacts shared.delivery delivery →
    Acts options run shared own event { shared with queue, delivery } { own with phase }
  | broker {now job work call delivery} : handled shared own.phase = some job →
    Operations.DispatchOnce.Does run (workOf now shared (referenceOf options run job shared.delivery.id)) own.call work call →
    delivery.id = shared.delivery.id → delivery.dispatchJobId = shared.delivery.dispatchJobId → delivery.startedAttempt = work.dispatch →
    Acts options run shared own event
      { shared with
        delivery
        capabilities := work.capabilities
        dispatchedUnsafeClaims := work.dispatchedUnsafeClaims
        outstanding := work.outstanding }
      { own with call }
  | goesOn {stage call delivery} : call = own.call ∨ (Operations.DispatchOnce.free own.call = true ∧ call = .idle) → SameFacts shared.delivery delivery →
    Acts options run shared own event { shared with delivery } { own with stage, call }

omit [JsNumber N] in
theorem sameFacts_self (delivery : InboundDelivery N) : SameFacts delivery delivery := ⟨rfl, rfl, rfl⟩

omit [JsNumber N] in
theorem sameFacts_settle (delivery : InboundDelivery N) (state : DeliveryStatus) : SameFacts delivery (settleInboundDelivery delivery state) := by
  unfold settleInboundDelivery
  split
  · exact sameFacts_self delivery
  · exact ⟨rfl, rfl, rfl⟩

omit [JsNumber N] in
theorem sameFacts_pin (now : Timestamp) (jobs : JobTable N) (delivery : InboundDelivery N) (reference : WorkReference) (fingerprint : Text) :
    SameFacts delivery (pinInboundOperationContract now jobs delivery reference fingerprint) := by
  unfold pinInboundOperationContract
  split
  · exact ⟨rfl, rfl, rfl⟩
  · exact sameFacts_self delivery

theorem acts_of_queueStep {queueEvent : JobWorker.Event N} (isEvent : event = .queue queueEvent ∨ ∃ outcome, queueEvent = .answer outcome)
    (performed : queueStep options run shared own queueEvent = some (after, next)) : Acts options run shared own event after next := by
  obtain ⟨⟨queue, phase⟩, taken, same⟩ := Option.map_eq_some_iff.mp performed
  dsimp only at same
  cases same
  refine .queue isEvent taken ?_
  split
  · split
    · exact sameFacts_settle _ _
    · exact sameFacts_self _
  · exact sameFacts_self _

omit [JsNumber N] in
theorem fences_workOf (now : Timestamp) (reference other : WorkReference) : (workOf now shared reference).fences other =
    (claimedDelivery now shared.queue.jobs shared.delivery reference && decide (reference = other)) := by
  unfold Operations.DurableWorker.Shared.fences workOf
  cases claimedDelivery now shared.queue.jobs shared.delivery reference with
  | true => simp
  | false => simp

omit [JsNumber N] in
theorem head_workOf {now : Timestamp} {reference other : WorkReference} (isHead : (workOf now shared reference).claims.head? = some other) :
    claimedDelivery now shared.queue.jobs shared.delivery reference = true ∧ reference = other := by
  unfold workOf at isHead
  dsimp only at isHead
  split at isHead
  next claimed => exact ⟨claimed, Option.some.inj isHead⟩
  next => cases isHead

omit [JsNumber N] in
theorem startedAttempt_mark {now : Timestamp} {reference own : WorkReference} {state : DispatchState} {fate : Operations.DurableWorker.Fate} :
    (if fate = .failed ∨ own ≠ reference then shared.delivery
      else (markInboundDispatchInTransaction now shared.queue.jobs shared.delivery reference state).getD shared.delivery).startedAttempt =
    if fate = .failed ∨ (workOf now shared reference).fences own = false then shared.delivery.startedAttempt
      else if state = .started then some own.attempt else none := by
  rw [fences_workOf]
  unfold markInboundDispatchInTransaction
  by_cases failed : fate = .failed
  · simp [failed]
  · by_cases same : reference = own
    · subst same
      cases claimedDelivery now shared.queue.jobs shared.delivery reference with
      | true => simp [InboundDelivery.startedAttempt, failed]
      | false => simp [failed]
    · simp [same, Ne.symm same]

omit [JsNumber N] in
theorem sameRow_mark (now : Timestamp) (jobs : JobTable N) (delivery : InboundDelivery N) (reference : WorkReference) (state : DispatchState) :
    ((markInboundDispatchInTransaction now jobs delivery reference state).getD delivery).id = delivery.id ∧
    ((markInboundDispatchInTransaction now jobs delivery reference state).getD delivery).dispatchJobId = delivery.dispatchJobId := by
  unfold markInboundDispatchInTransaction
  split
  · exact ⟨rfl, rfl⟩
  · exact ⟨rfl, rfl⟩

omit [JsNumber N] in
theorem sameRow_written (now : Timestamp) (reference : WorkReference) (call : Operations.DurableWorker.Phase N)
    (event : Operations.DurableWorker.Event N) :
    (written options now shared reference call event).id = shared.delivery.id ∧
    (written options now shared reference call event).dispatchJobId = shared.delivery.dispatchJobId := by
  unfold written
  split
  · split
    · exact ⟨rfl, rfl⟩
    · have facts := sameFacts_pin now shared.queue.jobs shared.delivery reference (options.broker.fingerprints.contract ‹_›)
      exact ⟨facts.id, facts.dispatchJobId⟩
  · split
    · exact ⟨rfl, rfl⟩
    · exact sameRow_mark _ _ _ _ _
  · split
    · exact ⟨rfl, rfl⟩
    · exact sameRow_mark _ _ _ _ _
  · exact ⟨rfl, rfl⟩

theorem startedAttempt_written {now : Timestamp} {reference : WorkReference} {command : Operations.DurableWorker.Command N}
    {call ended : Operations.DurableWorker.Phase N} {event : Operations.DurableWorker.Event N} {work : Operations.DurableWorker.Shared N}
    (isCall : ofCall event = true) (does : Operations.DispatchOnce.Does run (workOf now shared reference) call work ended)
    (performed : Operations.DurableWorker.perform options.broker (fun _ => ⟨options.process run, command⟩) run (workOf now shared reference) call false
      event = some (work, ended)) :
    (written options now shared reference call event).startedAttempt = work.dispatch := by
  have unmarked : (∀ dispatch, call ≠ .marking dispatch) → (∀ dispatch result, call ≠ .clearing dispatch result) →
      work.dispatch = shared.delivery.startedAttempt := by
    intro notMarking notClearing
    cases does with
    | beside same | stops _ _ same | rediscovers _ _ same | gives _ same => exact same.dispatch
    | claimed _ _ dispatch | sends _ _ dispatch => exact dispatch
    | checks | refused | ends => rfl
    | marks => exact absurd rfl (notMarking _)
    | clears => exact absurd rfl (notClearing _ _)
  cases event with
  | mark fate =>
    cases call with
    | marking dispatch =>
      show InboundDelivery.startedAttempt (if _ then _ else _) = _
      rw [startedAttempt_mark]
      simp only [Operations.DurableWorker.perform] at performed
      split at performed
      next refused =>
        rw [if_pos refused]
        cases performed
        rfl
      next taken =>
        rw [if_neg taken, if_pos rfl]
        split at performed
        · cases performed
          rfl
        · cases performed
          rfl
    | _ => cases performed
  | clear fate =>
    cases call with
    | clearing dispatch result =>
      show InboundDelivery.startedAttempt (if _ then _ else _) = _
      rw [startedAttempt_mark]
      cases performed
      by_cases taken : fate = .failed ∨ (workOf now shared reference).fences dispatch.minted.reference = false
      · rw [if_pos taken]
        refine (if_neg fun both => ?_).symm
        rcases taken with failed | unfenced
        · exact both.1 failed
        · exact absurd (both.2.symm.trans unfenced) Bool.true_eq_false.mp
      · obtain ⟨committed, fenced⟩ := not_or.mp taken
        rw [if_neg taken, if_neg (by decide)]
        exact (if_pos ⟨committed, by simpa using fenced⟩).symm
    | _ => cases performed
  | pin fate =>
    cases call with
    | pinning own work' definition =>
      cases performed
      show InboundDelivery.startedAttempt (if _ then _ else _) = _
      split
      · rfl
      · exact (sameFacts_pin _ _ _ _ _).started
    | _ => cases performed
  | begin | resolve | catalog | response | unanswered | fail =>
    refine (unmarked ?_ ?_).symm
    · rintro dispatch rfl
      cases performed
    · rintro dispatch result rfl
      cases performed
  | _ => cases isCall

theorem does_unopened {cause : Operations.DurableWorker.Failure} {work work' : Operations.DurableWorker.Shared N}
    {calls : Nat → Operations.DurableWorker.Call N} {call ended : Operations.DurableWorker.Phase N}
    (performed : Operations.DurableWorker.perform options.broker calls run work call false .fail = some (work', ended)) :
    Operations.DispatchOnce.Does run work call work' (unopenedAs cause ended) := by
  cases call with
  | waiting dispatch tries =>
    cases performed
    exact .gives (.inr ⟨tries, rfl⟩) Operations.DispatchOnce.same_self
  | resolving | discovering | confirming | resuming | rediscovering | checking | recording =>
    cases performed
    exact .stops rfl rfl Operations.DispatchOnce.same_self
  | _ => cases performed

/-- The catalog answers the broker with an Operation that is not safe to repeat, if it answers. -/
def writes : Event N → Bool
  | .broker _ event => Operations.DispatchOnce.writes event
  | _ => true

/-- An execute that is about to check what is on record is one of a write. -/
def Unsafe (own : Local N) : Prop := ∀ dispatch, own.call = .checking dispatch → safeToRepeat dispatch.definition = false

theorem acts_of_advance {now : Timestamp} {brokerEvent : Operations.DurableWorker.Event N}
    {ends : Operations.DurableWorker.Phase N → Operations.DurableWorker.Phase N} (isUnsafe : Unsafe own)
    (write : Operations.DispatchOnce.writes brokerEvent = true)
    (ended : ends = id ∨ (∃ cause, ends = unopenedAs cause) ∧ brokerEvent = .fail)
    (performed : advance options run now shared own brokerEvent ends = some (after, next)) : Acts options run shared own event after next := by
  obtain ⟨job, isHandled, taken⟩ := Option.bind_eq_some_iff.mp performed
  obtain ⟨command, -, taken⟩ := Option.bind_eq_some_iff.mp taken
  obtain ⟨⟨_, call⟩, called, same⟩ := Option.map_eq_some_iff.mp taken
  unfold callBroker at called
  split at called
  next isCall =>
    obtain ⟨⟨work, _⟩, brokered, sameCall⟩ := Option.map_eq_some_iff.mp called
    cases sameCall
    cases same
    have does := Operations.DispatchOnce.does_of_perform write isUnsafe brokered
    have row : (written options now shared (referenceOf options run job shared.delivery.id) own.call brokerEvent).id = shared.delivery.id ∧
        (written options now shared (referenceOf options run job shared.delivery.id) own.call brokerEvent).dispatchJobId = shared.delivery.dispatchJobId :=
      sameRow_written now _ own.call brokerEvent
    have started := startedAttempt_written isCall does brokered
    rcases ended with rfl | ⟨⟨cause, rfl⟩, rfl⟩
    · exact .broker isHandled does row.1 row.2 started
    · exact .broker isHandled (does_unopened brokered) row.1 row.2 started
  next => cases called

theorem acts_of_perform (isUnsafe : Unsafe own) (write : writes event = true)
    (performed : InboundDispatch.perform options run shared own event = some (after, next)) : Acts options run shared own event after next := by
  cases event with
  | queue queueEvent =>
    simp only [InboundDispatch.perform] at performed
    split at performed
    · split at performed
      · cases performed
      · exact acts_of_queueStep (.inl rfl) performed
    · exact acts_of_queueStep (.inl rfl) performed
  | enter hasBroker =>
    obtain ⟨job, -, entered⟩ := Option.bind_eq_some_iff.mp performed
    split at entered
    · split at entered
      · cases entered
        exact .goesOn (.inl rfl) (sameFacts_self _)
      · split at entered
        · cases entered
        · cases entered
          exact .goesOn (.inl rfl) (sameFacts_self _)
    · cases entered
  | broker now brokerEvent => exact acts_of_advance isUnsafe write (.inl rfl) performed
  | unopened now cause => exact acts_of_advance isUnsafe rfl (.inr ⟨⟨_, rfl⟩, rfl⟩) performed
  | resume =>
    obtain ⟨job, -, resumed⟩ := Option.bind_eq_some_iff.mp performed
    split at resumed
    next isAuthorized =>
      cases resumed
      exact .goesOn (.inr ⟨by rw [isAuthorized]; rfl, rfl⟩) (sameFacts_self _)
    next =>
      cases resumed
      exact .goesOn (.inl rfl) (sameFacts_self _)
    next =>
      cases resumed
      exact .goesOn (.inl rfl) (sameFacts_self _)
    next => cases resumed
  | returns =>
    simp only [InboundDispatch.perform] at performed
    split at performed
    · exact acts_of_queueStep (.inr ⟨_, rfl⟩) performed
    · split at performed
      · cases performed
      · exact acts_of_queueStep (.inr ⟨_, rfl⟩) performed
    · cases performed
  | revoke =>
    cases performed
    exact @Acts.goesOn _ _ _ _ _ _ _ own.stage _ _ (.inl rfl) ⟨rfl, rfl, rfl⟩

end Steps

section Invariants
variable {N : Type} [JsNumber N] {options : InboundOptions N} {run other : Nat} {shared after : Shared N} {own next beside third : Local N}
  {event : Event N}

/-- Nothing but the queue was at work on a run so far. -/
def unbegun {N : Type} : JobWorker.Phase N → Bool
  | .idle | .claimed _ | .locked _ | .refused _ _ _ => true
  | _ => false

structure Known (options : InboundOptions N) (run : Nat) (shared : Shared N) (own : Local N) : Prop where
  isUnsafe : Unsafe own
  quiet : unbegun own.phase = true → own.call = .idle
  numbered : ∀ job row, JobSteps.claimOf own.phase = some job → shared.queue.jobs.get? job.id = some row →
    row.heldBy (JobSteps.hashOf options.worker job) = true → row.attempts = job.attempts
  bound : ∀ job reference, handled shared own.phase = some job → Operations.DispatchOnce.busy own.call = some reference →
    reference.attempt = job.attempts
  checked : ∀ dispatch job row, own.call = .marking dispatch → handled shared own.phase = some job →
    shared.queue.jobs.get? shared.delivery.dispatchJobId = some row → row.status = .running → row.attempts = job.attempts →
    shared.delivery.startedAttempt = none ∨ shared.delivery.startedAttempt = some job.attempts
  record : ∀ reference, Operations.DispatchOnce.recorded own.call = true → Operations.DispatchOnce.busy own.call = some reference →
    shared.delivery.startedAttempt = some reference.attempt
  named : Operations.DispatchOnce.loose own.call = true → ∃ reference, Operations.DispatchOnce.busy own.call = some reference
  sent : (shared.outstanding.filter fun request => decide (request.1 = run)).length = if Operations.DispatchOnce.loose own.call then 1 else 0

/-- A run with this attempt number may dispatch, or is on record as having started to. -/
inductive Engaged (shared : Shared N) (own : Local N) (attempt : Nat) : Prop
  | handling {job} : handled shared own.phase = some job → job.attempts = attempt → Engaged shared own attempt
  | recorded {reference} : Operations.DispatchOnce.recorded own.call = true → Operations.DispatchOnce.busy own.call = some reference →
    reference.attempt = attempt → Engaged shared own attempt

/-- No two runs have one attempt number, of those that may dispatch and the one that may be started. -/
structure Apart (options : InboundOptions N) (shared : Shared N) (own beside : Local N) : Prop where
  engaged : ∀ attempt, Engaged shared own attempt → ¬Engaged shared beside attempt
  waiting : ∀ job row, OneOwner.waitingOf own.phase = some job → job.id = shared.delivery.dispatchJobId →
    shared.queue.jobs.get? job.id = some row → row.heldBy (JobSteps.hashOf options.worker job) = true → ¬Engaged shared beside job.attempts

structure Good (options : InboundOptions N) (state : Parties.State Nat (Shared N) (Local N)) : Prop where
  known : ∀ run, Known options run state.shared (state.parties run)
  apart : ∀ run other, run ≠ other → Apart options state.shared (state.parties run) (state.parties other)

/-- No claim of the job is numbered as the attempt on record, or as one whose handler goes on without its transaction. -/
def Renumbered (options : InboundOptions N) (state : Parties.State Nat (Shared N) (Local N)) (label : Nat × Event N) : Prop :=
  ∀ tokenFor now fate jobs table, label.2 = .queue (.claim tokenFor now fate) →
    claimJobs options.worker.hashClaimToken (fun id => (state.shared.queue.locks id).isSome) tokenFor now
      ⟨1, options.worker.lease, options.worker.kinds⟩ state.shared.queue.jobs = some (jobs, table) →
    ∀ job ∈ jobs, job.id = state.shared.delivery.dispatchJobId → state.shared.delivery.startedAttempt ≠ some job.attempts ∧
      ∀ run severed, (state.parties run).phase = .severed severed → severed.id = job.id → severed.attempts ≠ job.attempts

abbrev Queued (options : InboundOptions N) (state : Parties.State Nat (Shared N) (Local N)) : Prop :=
  Parties.Holds OneOwner.Kept (OneOwner.Mine options.worker) ⟨state.shared.queue, fun run => (state.parties run).phase⟩ ∧
    Parties.Apart (OneOwner.claimHash options.worker) ⟨state.shared.queue, fun run => (state.parties run).phase⟩

omit [JsNumber N] in
theorem handled_some {phase : JobWorker.Phase N} {job : ClaimedJob N} :
    handled shared phase = some job ↔ JobSteps.handledIn phase = some job ∧ job.id = shared.delivery.dispatchJobId := by
  have found : ∀ own : ClaimedJob N, (if own.id = shared.delivery.dispatchJobId then some own else none) = some job ↔
      some own = some job ∧ job.id = shared.delivery.dispatchJobId := by
    intro own
    constructor
    · intro same
      split at same
      next named => exact ⟨same, Option.some.inj same ▸ named⟩
      next => cases same
    · rintro ⟨same, named⟩
      rw [Option.some.inj same, if_pos named]
  cases phase with
  | handling own => exact found own
  | severed own => exact found own
  | _ =>
    constructor
    · intro nothing
      cases nothing
    · rintro ⟨nothing, -⟩
      cases nothing

omit [JsNumber N] in
theorem handled_congr (same : after.delivery.dispatchJobId = shared.delivery.dispatchJobId) (phase : JobWorker.Phase N) :
    handled after phase = handled shared phase := by
  apply Option.ext
  intro job
  rw [handled_some, handled_some, same]

omit [JsNumber N] in
theorem begun_of_handled {phase : JobWorker.Phase N} {job : ClaimedJob N} (isHandled : handled shared phase = some job) : unbegun phase = false := by
  cases phase with
  | handling | severed => rfl
  | _ => cases isHandled

omit [JsNumber N] in
theorem Engaged.congr {attempt : Nat} (engaged : Engaged after next attempt) (samePhase : handled after next.phase = handled shared own.phase)
    (sameCall : next.call = own.call) : Engaged shared own attempt := by
  cases engaged with
  | handling isHandled isAttempt => exact .handling (samePhase ▸ isHandled) isAttempt
  | recorded isRecorded isBusy isAttempt => exact .recorded (sameCall ▸ isRecorded) (sameCall ▸ isBusy) isAttempt

omit [JsNumber N] in
theorem claimed_row {now : Timestamp} {reference : WorkReference}
    (claimed : claimedDelivery now shared.queue.jobs shared.delivery reference = true) :
    ∃ row, shared.queue.jobs.get? shared.delivery.dispatchJobId = some row ∧ row.status = .running ∧ row.attempts = reference.attempt := by
  unfold claimedDelivery at claimed
  simp only [Bool.and_eq_true] at claimed
  obtain ⟨row, found, live⟩ := (Option.any_eq_true _ _).mp claimed.1.2
  have facts := of_decide_eq_true live
  exact ⟨row, found, facts.1, facts.2.1⟩

omit [JsNumber N] in
theorem good_update {state : Parties.State Nat (Shared N) (Local N)} (mine : Known options run after next)
    (others : ∀ other, other ≠ run → Known options other after (state.parties other))
    (pairs : ∀ other, other ≠ run → Apart options after next (state.parties other) ∧ Apart options after (state.parties other) next)
    (rest : ∀ first second, first ≠ second → first ≠ run → second ≠ run → Apart options after (state.parties first) (state.parties second)) :
    Good options ⟨after, Function.update state.parties run next⟩ := by
  refine ⟨fun other => ?_, fun first second different => ?_⟩
  · by_cases same : other = run
    · subst same
      simpa using mine
    · simpa [same] using others other same
  · by_cases isFirst : first = run
    · subst isFirst
      simpa [different.symm] using (pairs second different.symm).1
    · by_cases isSecond : second = run
      · subst isSecond
        simpa [different] using (pairs first different).2
      · simpa [isFirst, isSecond] using rest first second different isFirst isSecond

omit [JsNumber N] in
theorem Apart.congr {own beside next third : Local N} (apart : Apart options shared own beside)
    (dispatchJobId : after.delivery.dispatchJobId = shared.delivery.dispatchJobId)
    (rows : ∀ job row, OneOwner.waitingOf next.phase = some job → after.queue.jobs.get? job.id = some row →
      row.heldBy (JobSteps.hashOf options.worker job) = true → OneOwner.waitingOf own.phase = some job ∧ shared.queue.jobs.get? job.id = some row)
    (one : ∀ attempt, Engaged after next attempt → Engaged shared own attempt)
    (two : ∀ attempt, Engaged after third attempt → Engaged shared beside attempt) : Apart options after next third := by
  refine ⟨fun attempt engaged theirs => apart.engaged attempt (one attempt engaged) (two attempt theirs),
    fun job row waiting named found held theirs => ?_⟩
  obtain ⟨waited, before⟩ := rows job row waiting found held
  exact apart.waiting job row waited (named.trans dispatchJobId) before held (two _ theirs)

structure Calls (options : InboundOptions N) (run : Nat) (shared after : Shared N) (own : Local N) (job : ClaimedJob N)
    (call : Operations.DurableWorker.Phase N) : Prop where
  handled : handled shared own.phase = some job
  does : ∃ now work, Operations.DispatchOnce.Does run (workOf now shared (referenceOf options run job shared.delivery.id)) own.call work call ∧
    after.delivery.startedAttempt = work.dispatch ∧ after.outstanding = work.outstanding
  queue : after.queue = shared.queue
  dispatchJobId : after.delivery.dispatchJobId = shared.delivery.dispatchJobId

omit [JsNumber N] in
theorem record_of_does {work work' : Operations.DurableWorker.Shared N} {call ended : Operations.DurableWorker.Phase N}
    (does : Operations.DispatchOnce.Does run work call work' ended)
    (record : ∀ reference, Operations.DispatchOnce.recorded call = true → Operations.DispatchOnce.busy call = some reference →
      work.dispatch = some reference.attempt) {reference : WorkReference} (isRecorded : Operations.DispatchOnce.recorded ended = true)
    (busy : Operations.DispatchOnce.busy ended = some reference) : work'.dispatch = some reference.attempt := by
  have freed : ∀ {phase : Operations.DurableWorker.Phase N}, Operations.DispatchOnce.free phase = true →
      Operations.DispatchOnce.recorded phase = false := by
    intro phase isFree
    cases phase with
    | finished _ _ reached | crashed _ reached => simpa [Operations.DispatchOnce.free, Operations.DispatchOnce.recorded] using isFree
    | checking | marking | recording | sending | waiting | clearing => cases isFree
    | _ => rfl
  cases does with
  | beside same => exact same.dispatch.trans (record reference isRecorded busy)
  | claimed _ _ dispatch => exact dispatch.trans (record reference isRecorded busy)
  | stops _ isFree => exact absurd (isRecorded.symm.trans (freed isFree)) Bool.true_eq_false.mp
  | rediscovers | checks => cases isRecorded
  | marks _ isNext =>
    rcases isNext with rfl | isFree
    · obtain rfl := Option.some.inj busy
      rfl
    · exact absurd (isRecorded.symm.trans (freed isFree)) Bool.true_eq_false.mp
  | sends isPhase _ dispatch =>
    rw [dispatch]
    rcases isPhase with rfl | ⟨_, rfl⟩
    · exact record reference rfl busy
    · exact record reference rfl busy
  | gives isPhase same =>
    rw [same.dispatch]
    rcases isPhase with rfl | ⟨_, rfl⟩
    · exact record reference rfl busy
    · exact record reference rfl busy
  | refused isNext =>
    rcases isNext with rfl | ⟨_, rfl⟩
    · exact record reference rfl busy
    · exact record reference rfl busy
  | ends isNext =>
    rcases isNext with ⟨_, rfl⟩ | rfl
    · exact record reference rfl busy
    · exact record reference rfl busy
  | clears => cases isRecorded

omit [JsNumber N] in
theorem named_of_does {work work' : Operations.DurableWorker.Shared N} {call ended : Operations.DurableWorker.Phase N}
    (does : Operations.DispatchOnce.Does run work call work' ended)
    (named : Operations.DispatchOnce.loose call = true → ∃ reference, Operations.DispatchOnce.busy call = some reference)
    (isLoose : Operations.DispatchOnce.loose ended = true) : ∃ reference, Operations.DispatchOnce.busy ended = some reference := by
  have quiet : ∀ {phase : Operations.DurableWorker.Phase N}, Operations.DispatchOnce.free phase = true →
      Operations.DispatchOnce.loose phase ≠ true := by
    intro phase isFree
    rw [Operations.DispatchOnce.not_loose_of_free isFree]
    exact Bool.false_ne_true
  cases does with
  | beside | claimed => exact named isLoose
  | stops _ isFree => exact absurd isLoose (quiet isFree)
  | marks _ isNext =>
    rcases isNext with rfl | isFree
    · cases isLoose
    · exact absurd isLoose (quiet isFree)
  | sends => exact ⟨_, rfl⟩
  | refused isNext =>
    rcases isNext with rfl | ⟨_, rfl⟩
    · cases isLoose
    · cases isLoose
  | ends isNext =>
    rcases isNext with ⟨_, rfl⟩ | rfl
    · exact ⟨_, rfl⟩
    · exact ⟨_, rfl⟩
  | rediscovers | checks | gives | clears => cases isLoose

omit [JsNumber N] in
theorem record_of_calls {job : ClaimedJob N} {call : Operations.DurableWorker.Phase N} (calls : Calls options run shared after own job call)
    (known : Known options run shared own) :
    after.delivery.startedAttempt = shared.delivery.startedAttempt ∨
    (after.delivery.startedAttempt = some job.attempts ∧
      (shared.delivery.startedAttempt = none ∨ shared.delivery.startedAttempt = some job.attempts) ∧
      ∃ row, shared.queue.jobs.get? shared.delivery.dispatchJobId = some row ∧ row.status = .running ∧ row.attempts = job.attempts) ∨
    (after.delivery.startedAttempt = none ∧ shared.delivery.startedAttempt = some job.attempts) := by
  obtain ⟨now, work, does, started, -⟩ := calls.does
  rw [started]
  generalize isCall : own.call = before at does
  cases does with
  | beside same | stops _ _ same | rediscovers _ _ same | gives _ same => exact .inl same.dispatch
  | claimed _ _ dispatch | sends _ _ dispatch => exact .inl dispatch
  | checks | refused | ends => exact .inl rfl
  | @marks dispatch _ isHead =>
    obtain ⟨claimed, sameReference⟩ := head_workOf isHead
    obtain ⟨row, found, running, attempts⟩ := claimed_row claimed
    have isAttempt : dispatch.minted.reference.attempt = job.attempts := congrArg WorkReference.attempt sameReference.symm
    refine .inr (.inl ⟨congrArg some isAttempt, ?_, row, found, running, attempts⟩)
    exact known.checked dispatch job row isCall calls.handled found running attempts
  | @clears dispatch result cleared isCleared =>
    rcases isCleared with rfl | ⟨isHead, rfl⟩
    · exact .inl rfl
    · have onRecord := known.record dispatch.minted.reference (by rw [isCall]; rfl) (by rw [isCall]; rfl)
      have isAttempt : dispatch.minted.reference.attempt = job.attempts := known.bound job _ calls.handled (by rw [isCall]; rfl)
      exact .inr (.inr ⟨rfl, isAttempt ▸ onRecord⟩)

omit [JsNumber N] in
theorem bound_of_calls {job : ClaimedJob N} {call : Operations.DurableWorker.Phase N} (calls : Calls options run shared after own job call)
    (known : Known options run shared own) {reference : WorkReference} (busy : Operations.DispatchOnce.busy call = some reference) :
    reference.attempt = job.attempts := by
  obtain ⟨now, work, does, -⟩ := calls.does
  rcases Operations.DispatchOnce.busy_of_does does busy with before | ⟨dispatch, isChecking, isMarking, rfl⟩
  · exact known.bound job reference calls.handled before
  · generalize own.call = before at does isChecking
    subst isChecking isMarking
    cases does with
    | stops _ isFree => cases isFree
    | checks isHead => exact congrArg WorkReference.attempt (head_workOf isHead).2.symm

omit [JsNumber N] in
theorem known_of_calls {job : ClaimedJob N} {call : Operations.DurableWorker.Phase N} (calls : Calls options run shared after own job call)
    (known : Known options run shared own) : Known options run after { own with call } := by
  obtain ⟨now, work, does, started, outstanding⟩ := calls.does
  have sameHandled := handled_congr calls.dispatchJobId own.phase
  refine ⟨?_, ?_, ?_, ?_, ?_, ?_, fun isLoose => named_of_does does known.named isLoose, ?_⟩
  · rintro dispatch rfl
    generalize isCall : own.call = before at does
    cases does with
    | beside => exact known.isUnsafe dispatch isCall
    | claimed => exact known.isUnsafe dispatch isCall
    | stops _ isFree => cases isFree
    | rediscovers _ isUnsafe => exact isUnsafe
    | marks _ isNext =>
      rcases isNext with same | isFree
      · cases same
      · cases isFree
    | refused isNext =>
      rcases isNext with same | ⟨_, same⟩
      · cases same
      · cases same
    | ends isNext =>
      rcases isNext with ⟨_, same⟩ | same
      · cases same
      · cases same
  · intro isUnbegun
    exact absurd (isUnbegun.symm.trans (begun_of_handled calls.handled)) Bool.true_eq_false.mp
  · rw [calls.queue]
    exact known.numbered
  · intro other reference isHandled busy
    obtain rfl := Option.some.inj (calls.handled.symm.trans (sameHandled ▸ isHandled))
    exact bound_of_calls calls known busy
  · rintro dispatch other row rfl isHandled found running attempts
    obtain rfl := Option.some.inj (calls.handled.symm.trans (sameHandled ▸ isHandled))
    rw [calls.queue, calls.dispatchJobId] at found
    rw [started]
    generalize isCall : own.call = before at does
    cases does with
    | beside same =>
      rw [same.dispatch]
      exact known.checked dispatch job row isCall calls.handled found running attempts
    | claimed _ _ dispatched =>
      rw [dispatched]
      exact known.checked dispatch job row isCall calls.handled found running attempts
    | stops _ isFree => cases isFree
    | checks isHead onRecord =>
      have isAttempt : dispatch.minted.reference.attempt = job.attempts := congrArg WorkReference.attempt (head_workOf isHead).2.symm
      exact isAttempt ▸ onRecord
    | marks _ isNext =>
      rcases isNext with same | isFree
      · cases same
      · cases isFree
    | refused isNext =>
      rcases isNext with same | ⟨_, same⟩
      · cases same
      · cases same
    | ends isNext =>
      rcases isNext with ⟨_, same⟩ | same
      · cases same
      · cases same
  · intro reference isRecorded busy
    rw [started]
    exact record_of_does does (fun reference isRecorded busy => known.record reference isRecorded busy) isRecorded busy
  · rw [outstanding]
    exact Operations.DispatchOnce.sent_of_does does known.sent

omit [JsNumber N] in
theorem known_beside_calls {job : ClaimedJob N} {call : Operations.DurableWorker.Phase N} (different : other ≠ run)
    (calls : Calls options run shared after own job call) (known : Known options run shared own) (theirs : Known options other shared beside)
    (apart : Apart options shared beside own) : Known options other after beside := by
  have engaged : ¬Engaged shared beside job.attempts := fun theirsEngaged => apart.engaged _ theirsEngaged (.handling calls.handled rfl)
  have sameHandled := handled_congr calls.dispatchJobId beside.phase
  refine ⟨theirs.isUnsafe, theirs.quiet, calls.queue ▸ theirs.numbered, fun job reference isHandled => ?_,
    fun dispatch own row isMarking isHandled found running attempts => ?_, fun reference isRecorded busy => ?_, theirs.named, ?_⟩
  · exact theirs.bound job reference (sameHandled ▸ isHandled)
  · rw [calls.queue, calls.dispatchJobId] at found
    rw [sameHandled] at isHandled
    rcases record_of_calls calls known with same | ⟨-, -, ownRow, ownFound, -, ownAttempts⟩ | ⟨cleared, -⟩
    · rw [same]
      exact theirs.checked dispatch own row isMarking isHandled found running attempts
    · obtain rfl := Option.some.inj (found.symm.trans ownFound)
      exact absurd (.handling isHandled (attempts.symm.trans ownAttempts)) engaged
    · exact .inl cleared
  · have onRecord := theirs.record reference isRecorded busy
    have clash : shared.delivery.startedAttempt ≠ some job.attempts := fun same =>
      engaged (.recorded isRecorded busy (Option.some.inj (onRecord.symm.trans same)))
    rcases record_of_calls calls known with same | ⟨-, none | same, -⟩ | ⟨-, same⟩
    · exact same.trans onRecord
    · exact absurd (onRecord.symm.trans none) (Option.some_ne_none _)
    · exact absurd same clash
    · exact absurd same clash
  · obtain ⟨now, work, does, -, outstanding⟩ := calls.does
    rw [outstanding]
    have requests := Operations.DispatchOnce.requestsOf_of_does different does
    unfold Operations.DispatchOnce.requestsOf at requests
    rw [requests]
    exact theirs.sent

omit [JsNumber N] in
theorem engaged_of_calls {job : ClaimedJob N} {call : Operations.DurableWorker.Phase N} (calls : Calls options run shared after own job call)
    (known : Known options run shared own) {attempt : Nat} (engaged : Engaged after { own with call } attempt) : Engaged shared own attempt := by
  refine .handling calls.handled ?_
  cases engaged with
  | handling isHandled isAttempt =>
    obtain rfl := Option.some.inj (calls.handled.symm.trans (handled_congr calls.dispatchJobId own.phase ▸ isHandled))
    exact isAttempt
  | recorded _ busy isAttempt => exact (bound_of_calls calls known busy).symm.trans isAttempt

omit [JsNumber N] in
theorem good_of_calls {state : Parties.State Nat (Shared N) (Local N)} {job : ClaimedJob N} {call : Operations.DurableWorker.Phase N}
    (good : Good options state) (calls : Calls options run state.shared after (state.parties run) job call) :
    Good options ⟨after, Function.update state.parties run { state.parties run with call }⟩ := by
  have known := good.known run
  have engagedBeside : ∀ {other : Local N} {attempt : Nat}, Engaged after other attempt → Engaged state.shared other attempt :=
    fun engaged => engaged.congr (handled_congr calls.dispatchJobId _) rfl
  have sameJob := calls.dispatchJobId
  have rows : ∀ {own : Local N} {job row}, OneOwner.waitingOf own.phase = some job → after.queue.jobs.get? job.id = some row →
      OneOwner.waitingOf own.phase = some job ∧ state.shared.queue.jobs.get? job.id = some row :=
    fun waiting found => ⟨waiting, calls.queue ▸ found⟩
  refine good_update (known_of_calls calls known) (fun other different => ?_) (fun other different => ⟨?_, ?_⟩) fun first second different _ _ => ?_
  · exact known_beside_calls different calls known (good.known other) (good.apart other run different)
  · exact (good.apart run other different.symm).congr sameJob (fun job row waiting found _ => rows waiting found)
      (fun attempt engaged => engaged_of_calls calls known engaged) fun attempt engaged => engagedBeside engaged
  · exact (good.apart other run different).congr sameJob (fun job row waiting found _ => rows waiting found)
      (fun attempt engaged => engagedBeside engaged) fun attempt engaged => engaged_of_calls calls known engaged
  · exact (good.apart first second different).congr sameJob (fun job row waiting found _ => rows waiting found)
      (fun attempt engaged => engagedBeside engaged) fun attempt engaged => engagedBeside engaged

structure Queues (options : InboundOptions N) (run : Nat) (shared after : Shared N) (own next : Local N) (event : Event N)
    (queueEvent : JobWorker.Event N) : Prop where
  isEvent : event = .queue queueEvent ∨ ∃ outcome, queueEvent = .answer outcome
  does : JobSteps.Does options.worker run shared.queue own.phase queueEvent after.queue next.phase
  facts : SameFacts shared.delivery after.delivery
  outstanding : after.outstanding = shared.outstanding
  call : next.call = own.call

variable {state : Parties.State Nat (Shared N) (Local N)} {queueEvent : JobWorker.Event N}

omit [JsNumber N] in
theorem not_engaged_of_hands (good : Good options state) (queued : Queued options state) (renumbered : Renumbered options state (run, event))
    (isEvent : event = .queue queueEvent ∨ ∃ outcome, queueEvent = .answer outcome) {row : JobRow N} {job : ClaimedJob N}
    (hands : JobSteps.Hands options.worker state.shared.queue queueEvent row job) (named : job.id = state.shared.delivery.dispatchJobId)
    (other : Nat) : ¬Engaged state.shared (state.parties other) job.attempts := by
  obtain ⟨tokenFor, now, fate, jobs, table, rfl, claims, member⟩ := hands.claims
  have isClaim : event = .queue (.claim tokenFor now fate) := by
    rcases isEvent with same | ⟨_, same⟩
    · exact same
    · cases same
  obtain ⟨notOnRecord, notSevered⟩ := renumbered tokenFor now fate jobs table isClaim claims job member named
  intro engaged
  cases engaged with
  | @handling handled isHandled isAttempt =>
    obtain ⟨isHandledIn, alsoNamed⟩ := handled_some.mp isHandled
    have sameId : handled.id = job.id := alsoNamed.trans named.symm
    have mine : OneOwner.Mine options.worker other state.shared.queue (state.parties other).phase := queued.1.each other
    generalize isPhase : (state.parties other).phase = phase at isHandledIn
    cases phase with
    | handling own =>
      obtain rfl := Option.some.inj isHandledIn
      rw [isPhase] at mine
      have locked := (mine.owns own rfl).1
      exact absurd (hands.free.symm.trans (sameId ▸ locked)) (Option.some_ne_none other).symm
    | severed own =>
      obtain rfl := Option.some.inj isHandledIn
      exact notSevered other own isPhase sameId isAttempt
    | _ => cases isHandledIn
  | @recorded reference isRecorded busy isAttempt =>
    exact notOnRecord (isAttempt ▸ (good.known other).record reference isRecorded busy)

theorem numbered_of_queues {next : Local N} (queues : Queues options run state.shared after (state.parties run) next event queueEvent)
    (queued : Queued options state) (good : Good options state) {job : ClaimedJob N} {row : JobRow N} (claim : JobSteps.claimOf next.phase = some job)
    (found : after.queue.jobs.get? job.id = some row) (held : row.heldBy (JobSteps.hashOf options.worker job) = true) :
    row.attempts = job.attempts := by
  have mine := queued.1.each run
  have changes := JobSteps.changes_of_does queues.does (OneOwner.known_of_kept queued.1.common) mine.owns mine.carries job.id
  rcases JobSteps.claimOf_of_does queues.does claim with before | ⟨-, -, attempts⟩
  · rcases JobSteps.running_of_changes changes found (JobSteps.running_of_held held).1 with isBefore | ⟨handed, -, hands⟩
    · exact (good.known run).numbered job row before isBefore held
    · have sameHash := Option.some.inj ((JobSteps.running_of_held held).2.symm.trans hands.hash)
      exact absurd (sameHash ▸ mine.drawn job before) hands.fresh
  · exact attempts row found

theorem unbegun_of_does {options : JobWorker.WorkerOptions N} {shared after : JobWorker.Shared N} {phase next : JobWorker.Phase N}
    {event : JobWorker.Event N} (does : JobSteps.Does options run shared phase event after next) (isUnbegun : unbegun next = true) :
    unbegun phase = true := by
  cases does with
  | claims | locks | denies | refuses => rfl
  | enqueues | passes | requeues | resolves | sweeps => exact isUnbegun
  | answers _ isPhase =>
    rcases isPhase with ⟨-, rfl⟩ | ⟨-, rfl⟩
    · cases isUnbegun
    · cases isUnbegun
  | commits isNext =>
    rcases isNext with rfl | rfl
    · cases isUnbegun
    · cases isUnbegun
  | _ => cases isUnbegun

theorem row_of_queues {next : Local N} (queues : Queues options run state.shared after (state.parties run) next event queueEvent)
    (good : Good options state) (queued : Queued options state) (renumbered : Renumbered options state (run, event)) {job : ClaimedJob N}
    {row : JobRow N} (engaged : Engaged state.shared (state.parties other) job.attempts)
    (found : after.queue.jobs.get? state.shared.delivery.dispatchJobId = some row) (running : row.status = .running)
    (attempts : row.attempts = job.attempts) : state.shared.queue.jobs.get? state.shared.delivery.dispatchJobId = some row := by
  have mine := queued.1.each run
  have changes := JobSteps.changes_of_does queues.does (OneOwner.known_of_kept queued.1.common) mine.owns mine.carries
    state.shared.delivery.dispatchJobId
  rcases JobSteps.running_of_changes changes found running with before | ⟨handed, named, hands⟩
  · exact before
  · have sameNumber : handed.attempts = job.attempts := hands.attempts.symm.trans attempts
    exact absurd (sameNumber ▸ engaged) (not_engaged_of_hands good queued renumbered queues.isEvent hands named other)

theorem known_of_queues {next : Local N} (queues : Queues options run state.shared after (state.parties run) next event queueEvent)
    (good : Good options state) (queued : Queued options state) (renumbered : Renumbered options state (run, event)) :
    Known options run after next := by
  have known := good.known run
  have sameHandled := handled_congr queues.facts.dispatchJobId next.phase
  have before : ∀ {job}, handled after next.phase = some job → (next.call = .idle → False) →
      handled state.shared (state.parties run).phase = some job := by
    intro job isHandled busy
    obtain ⟨isHandledIn, named⟩ := handled_some.mp (sameHandled ▸ isHandled)
    rcases JobSteps.handledIn_of_does queues.does isHandledIn with earlier | locked
    · exact handled_some.mpr ⟨earlier, named⟩
    · exact (busy (queues.call.trans (known.quiet (by rw [locked]; rfl)))).elim
  refine ⟨?_, fun isUnbegun => ?_, fun job row claim found held => numbered_of_queues queues queued good claim found held,
    fun job reference isHandled busy => ?_, fun dispatch job row isMarking isHandled found running attempts => ?_,
    fun reference isRecorded busy => ?_, queues.call ▸ known.named, ?_⟩
  · unfold Unsafe
    rw [queues.call]
    exact known.isUnsafe
  · exact queues.call.trans (known.quiet (unbegun_of_does queues.does isUnbegun))
  · refine known.bound job reference (before isHandled fun idle => ?_) (queues.call ▸ busy)
    rw [idle] at busy
    cases busy
  · have handledBefore := before isHandled fun idle => by
      rw [idle] at isMarking
      cases isMarking
    rw [queues.facts.dispatchJobId] at found
    rw [queues.facts.started]
    have rowBefore := row_of_queues queues good queued renumbered (.handling handledBefore rfl) found running attempts
    exact known.checked dispatch job row (queues.call ▸ isMarking) handledBefore rowBefore running attempts
  · rw [queues.facts.started]
    exact known.record reference (queues.call ▸ isRecorded) (queues.call ▸ busy)
  · rw [queues.outstanding, queues.call]
    exact known.sent

theorem known_beside_queues {next : Local N} (queues : Queues options run state.shared after (state.parties run) next event queueEvent)
    (good : Good options state) (queued : Queued options state) (renumbered : Renumbered options state (run, event)) (other : Nat) :
    Known options other after (state.parties other) := by
  have known := good.known other
  have sameHandled := handled_congr queues.facts.dispatchJobId (state.parties other).phase
  refine ⟨known.isUnsafe, known.quiet, fun job row claim found held => ?_, fun job reference isHandled => known.bound job reference (sameHandled ▸ isHandled),
    fun dispatch job row isMarking isHandled found running attempts => ?_, fun reference isRecorded busy => ?_, known.named, ?_⟩
  · have mine := queued.1.each run
    have changes := JobSteps.changes_of_does queues.does (OneOwner.known_of_kept queued.1.common) mine.owns mine.carries job.id
    rcases JobSteps.running_of_changes changes found (JobSteps.running_of_held held).1 with isBefore | ⟨handed, -, hands⟩
    · exact known.numbered job row claim isBefore held
    · have sameHash := Option.some.inj ((JobSteps.running_of_held held).2.symm.trans hands.hash)
      exact absurd (sameHash ▸ (queued.1.each other).drawn job claim) hands.fresh
  · rw [sameHandled] at isHandled
    rw [queues.facts.dispatchJobId] at found
    rw [queues.facts.started]
    have rowBefore := row_of_queues queues good queued renumbered (.handling isHandled rfl) found running attempts
    exact known.checked dispatch job row isMarking isHandled rowBefore running attempts
  · rw [queues.facts.started]
    exact known.record reference isRecorded busy
  · rw [queues.outstanding]
    exact known.sent

theorem engaged_of_queues {next : Local N} (queues : Queues options run state.shared after (state.parties run) next event queueEvent) {attempt : Nat}
    (engaged : Engaged after next attempt) : Engaged state.shared (state.parties run) attempt ∨
      ∃ job, (state.parties run).phase = .locked job ∧ job.id = state.shared.delivery.dispatchJobId ∧ job.attempts = attempt := by
  cases engaged with
  | handling isHandled isAttempt =>
    obtain ⟨isHandledIn, named⟩ := handled_some.mp (handled_congr queues.facts.dispatchJobId next.phase ▸ isHandled)
    rcases JobSteps.handledIn_of_does queues.does isHandledIn with before | locked
    · exact .inl (.handling (handled_some.mpr ⟨before, named⟩) isAttempt)
    · exact .inr ⟨_, locked, named, isAttempt⟩
  | recorded isRecorded busy isAttempt => exact .inl (.recorded (queues.call ▸ isRecorded) (queues.call ▸ busy) isAttempt)

omit [JsNumber N] in
theorem waiting_of_unbegun {phase : JobWorker.Phase N} {job : ClaimedJob N} (isUnbegun : unbegun phase = true)
    (claim : JobSteps.claimOf phase = some job) : OneOwner.waitingOf phase = some job := by
  cases phase with
  | idle => cases claim
  | claimed | locked | refused => exact claim
  | _ => cases isUnbegun

omit [JsNumber N] in
theorem unbegun_of_waiting {phase : JobWorker.Phase N} {job : ClaimedJob N} (waiting : OneOwner.waitingOf phase = some job) :
    unbegun phase = true := by
  cases phase with
  | claimed | locked | refused => rfl
  | _ => cases waiting

theorem apart_of_queues {next : Local N} (queues : Queues options run state.shared after (state.parties run) next event queueEvent)
    (good : Good options state) (queued : Queued options state) (renumbered : Renumbered options state (run, event)) (different : run ≠ other) :
    Apart options after next (state.parties other) ∧ Apart options after (state.parties other) next := by
  have mine : OneOwner.Mine options.worker run state.shared.queue (state.parties run).phase := queued.1.each run
  have theirs : OneOwner.Mine options.worker other state.shared.queue (state.parties other).phase := queued.1.each other
  have changes := JobSteps.changes_of_does queues.does (OneOwner.known_of_kept queued.1.common) mine.owns mine.carries
  have beside : ∀ {attempt}, Engaged after (state.parties other) attempt → Engaged state.shared (state.parties other) attempt :=
    fun engaged => engaged.congr (handled_congr queues.facts.dispatchJobId _) rfl
  have engaged : ∀ attempt, Engaged after next attempt → ¬Engaged after (state.parties other) attempt := by
    intro attempt isEngaged alsoEngaged
    rcases engaged_of_queues queues isEngaged with before | ⟨job, isLocked, named, rfl⟩
    · exact (good.apart run other different).engaged attempt before (beside alsoEngaged)
    · rw [isLocked] at mine
      obtain ⟨-, row, found, held⟩ := mine.owns job rfl
      exact (good.apart run other different).waiting job row (by rw [isLocked]; rfl) named found held (beside alsoEngaged)
  refine ⟨⟨engaged, fun job row waiting named found held alsoEngaged => ?_⟩,
    ⟨fun attempt isEngaged alsoEngaged => engaged attempt alsoEngaged isEngaged, fun job row waiting named found held alsoEngaged => ?_⟩⟩
  · have named' : job.id = state.shared.delivery.dispatchJobId := named.trans queues.facts.dispatchJobId
    rcases JobSteps.running_of_changes (changes job.id) found (JobSteps.running_of_held held).1 with isBefore | ⟨handed, sameId, hands⟩
    · have claimed : JobSteps.claimOf (state.parties run).phase = some job := by
        rcases JobSteps.claimOf_of_does queues.does (OneOwner.claim_of_waiting waiting) with before | ⟨fresh, -⟩
        · exact before
        · exact absurd ((queued.1.common.rows job.id row isBefore).drawn _ (JobSteps.running_of_held held).2) fresh
      have waited := waiting_of_unbegun (unbegun_of_does queues.does (unbegun_of_waiting waiting)) claimed
      exact (good.apart run other different).waiting job row waited named' isBefore held (beside alsoEngaged)
    · have number := numbered_of_queues queues queued good (OneOwner.claim_of_waiting waiting) found held
      have sameNumber : handed.attempts = job.attempts := hands.attempts.symm.trans number
      exact not_engaged_of_hands good queued renumbered queues.isEvent hands (sameId.trans named') other (sameNumber ▸ beside alsoEngaged)
  · have claimed := OneOwner.claim_of_waiting waiting
    rcases JobSteps.running_of_changes (changes job.id) found (JobSteps.running_of_held held).1 with isBefore | ⟨handed, -, hands⟩
    · rcases engaged_of_queues queues alsoEngaged with before | ⟨own, isLocked, ownNamed, -⟩
      · exact (good.apart other run different.symm).waiting job row waiting (named.trans queues.facts.dispatchJobId) isBefore held before
      · rw [isLocked] at mine
        obtain ⟨-, ownRow, ownFound, ownHeld⟩ := mine.owns own rfl
        have sameId : own.id = job.id := ownNamed.trans (named.trans queues.facts.dispatchJobId).symm
        obtain rfl := Option.some.inj (isBefore.symm.trans (sameId ▸ ownFound))
        have sameHash := Option.some.inj ((JobSteps.running_of_held ownHeld).2.symm.trans (JobSteps.running_of_held held).2)
        refine different (queued.2 run other (JobSteps.hashOf options.worker job) ?_ ?_)
        · show OneOwner.claimHash options.worker (state.parties run).phase = _
          rw [isLocked]
          exact congrArg some sameHash
        · exact congrArg (Option.map (JobSteps.hashOf options.worker)) claimed
    · have sameHash := Option.some.inj ((JobSteps.running_of_held held).2.symm.trans hands.hash)
      exact absurd (sameHash ▸ theirs.drawn job claimed) hands.fresh

theorem good_of_queues {next : Local N} (queues : Queues options run state.shared after (state.parties run) next event queueEvent)
    (good : Good options state) (queued : Queued options state) (renumbered : Renumbered options state (run, event)) :
    Good options ⟨after, Function.update state.parties run next⟩ := by
  have mine : OneOwner.Mine options.worker run state.shared.queue (state.parties run).phase := queued.1.each run
  have changes := JobSteps.changes_of_does queues.does (OneOwner.known_of_kept queued.1.common) mine.owns mine.carries
  have beside : ∀ {other attempt}, Engaged after (state.parties other) attempt → Engaged state.shared (state.parties other) attempt :=
    fun engaged => engaged.congr (handled_congr queues.facts.dispatchJobId _) rfl
  refine good_update (known_of_queues queues good queued renumbered) (fun other _ => known_beside_queues queues good queued renumbered other)
    (fun other different => apart_of_queues queues good queued renumbered different.symm) fun first second different _ _ => ?_
  refine (good.apart first second different).congr queues.facts.dispatchJobId (fun job row waiting found held => ⟨waiting, ?_⟩)
    (fun attempt engaged => beside engaged) fun attempt engaged => beside engaged
  rcases JobSteps.running_of_changes (changes job.id) found (JobSteps.running_of_held held).1 with isBefore | ⟨handed, -, hands⟩
  · exact isBefore
  · have sameHash := Option.some.inj ((JobSteps.running_of_held held).2.symm.trans hands.hash)
    exact absurd (sameHash ▸ (queued.1.each first).drawn job (OneOwner.claim_of_waiting waiting)) hands.fresh

omit [JsNumber N] in
theorem good_of_goesOn {stage : Stage N} {call : Operations.DurableWorker.Phase N} {delivery : InboundDelivery N} (good : Good options state)
    (isCall : call = (state.parties run).call ∨ (Operations.DispatchOnce.free (state.parties run).call = true ∧ call = .idle))
    (facts : SameFacts state.shared.delivery delivery) :
    Good options ⟨{ state.shared with delivery }, Function.update state.parties run { state.parties run with stage, call }⟩ := by
  have known := good.known run
  have sameHandled : ∀ phase : JobWorker.Phase N, handled { state.shared with delivery } phase = handled state.shared phase :=
    fun phase => handled_congr facts.dispatchJobId phase
  have beside : ∀ {other attempt}, Engaged { state.shared with delivery } (state.parties other) attempt →
      Engaged state.shared (state.parties other) attempt := fun engaged => engaged.congr (sameHandled _) rfl
  have known' : ∀ other, Known options other { state.shared with delivery } (state.parties other) := by
    intro other
    have theirs := good.known other
    refine ⟨theirs.isUnsafe, theirs.quiet, theirs.numbered, fun job reference isHandled => theirs.bound job reference (sameHandled _ ▸ isHandled),
      fun dispatch job row isMarking isHandled found running attempts => ?_, fun reference isRecorded busy => ?_, theirs.named, theirs.sent⟩
    · show delivery.startedAttempt = none ∨ _
      rw [facts.started]
      exact theirs.checked dispatch job row isMarking (sameHandled _ ▸ isHandled) (facts.dispatchJobId ▸ found) running attempts
    · exact facts.started.trans (theirs.record reference isRecorded busy)
  have mine : Known options run { state.shared with delivery } { state.parties run with stage, call } := by
    have before := known' run
    rcases isCall with rfl | ⟨isFree, rfl⟩
    · exact ⟨before.isUnsafe, before.quiet, before.numbered, before.bound, before.checked, before.record, before.named, before.sent⟩
    · refine ⟨fun dispatch isChecking => ?_, fun _ => rfl, before.numbered, fun job reference _ busy => ?_,
        fun dispatch job row isMarking => ?_, fun reference isRecorded => ?_, fun isLoose => ?_, ?_⟩
      · cases isChecking
      · cases busy
      · cases isMarking
      · cases isRecorded
      · cases isLoose
      · have sent := before.sent
        rw [Operations.DispatchOnce.not_loose_of_free isFree] at sent
        exact sent
  have own : ∀ attempt, Engaged { state.shared with delivery } { state.parties run with stage, call } attempt →
      Engaged state.shared (state.parties run) attempt := by
    intro attempt engaged
    rcases isCall with rfl | ⟨-, rfl⟩
    · exact engaged.congr (sameHandled _) rfl
    · cases engaged with
      | handling isHandled isAttempt => exact .handling (sameHandled _ ▸ isHandled) isAttempt
      | recorded isRecorded => cases isRecorded
  refine good_update mine (fun other _ => known' other) (fun other different => ⟨?_, ?_⟩) fun first second different _ _ => ?_
  · exact (good.apart run other different.symm).congr facts.dispatchJobId (fun job row waiting found _ => ⟨waiting, found⟩) own
      fun attempt engaged => beside engaged
  · exact (good.apart other run different).congr facts.dispatchJobId (fun job row waiting found _ => ⟨waiting, found⟩)
      (fun attempt engaged => beside engaged) own
  · exact (good.apart first second different).congr facts.dispatchJobId (fun job row waiting found _ => ⟨waiting, found⟩)
      (fun attempt engaged => beside engaged) fun attempt engaged => beside engaged

end Invariants

section Result
variable {N : Type} [JsNumber N] {options : InboundOptions N} {id dispatchJobId : Text} {content : Operations.DurableWorker.WorkContent N}
  {labels : List (Nat × Event N)} {final : Parties.State Nat (Shared N) (Local N)}

/-- What is done with a delivery whose Operation is not safe to repeat. -/
def writing (options : InboundOptions N) (run : Nat) (shared : Shared N) (own : Local N) (event : Event N) : Option (Shared N × Local N) :=
  if writes event then InboundDispatch.perform options run shared own event else none

abbrev QueueRun (options : InboundOptions N) (state : Parties.State Nat (Shared N) (Local N)) : Prop :=
  ∃ acts, Parties.Runs (Parties.performs (JobWorker.perform options.worker)) JobWorker.initial acts
    ⟨state.shared.queue, fun run => (state.parties run).phase⟩

omit [JsNumber N] in
theorem good_initial : Good options (initial (N := N) id dispatchJobId content) where
  known run := {
    isUnsafe := fun dispatch isChecking => by cases isChecking
    quiet := fun _ => rfl
    numbered := fun job row claim => by cases claim
    bound := fun job reference isHandled => by cases isHandled
    checked := fun dispatch job row isMarking => by cases isMarking
    record := fun reference isRecorded => by cases isRecorded
    named := fun isLoose => by cases isLoose
    sent := rfl }
  apart run other _ := {
    engaged := fun attempt engaged _ => by
      cases engaged with
      | handling isHandled => cases isHandled
      | recorded isRecorded => cases isRecorded
    waiting := fun job row waiting => by cases waiting }

theorem good_of_run (runs : Run (Library.guarded (Renumbered options) (Parties.Step (Parties.performs (writing options))))
    (initial id dispatchJobId content) labels final) : QueueRun options final ∧ Good options final := by
  refine runs.invariant (fun state => QueueRun options state ∧ Good options state) ⟨⟨[], .start⟩, good_initial⟩ ?_
  rintro state ⟨run, event⟩ next ⟨⟨acts, queueRun⟩, good⟩ ⟨renumbered, taken⟩
  rcases taken with @⟨_, _, after, own, performed⟩
  have queued : Queued options state := OneOwner.holds_of_runs queueRun
  unfold Parties.performs writing at performed
  split at performed
  next write =>
    cases acts_of_perform (good.known run).isUnsafe write performed with
    | @queue queueEvent queue phase delivery isEvent queueStep facts =>
      refine ⟨queueRun.extend Local.phase (.inl ⟨queueEvent, queueStep⟩), ?_⟩
      exact good_of_queues ⟨isEvent, JobSteps.does_of_perform queueStep, facts, rfl, rfl⟩ good queued renumbered
    | @broker now job work call delivery isHandled does isId named started =>
      refine ⟨queueRun.extend Local.phase (.inr ⟨rfl, rfl⟩), ?_⟩
      exact good_of_calls good ⟨isHandled, ⟨now, work, does, started, rfl⟩, rfl, named⟩
    | goesOn isCall facts =>
      exact ⟨queueRun.extend Local.phase (.inr ⟨rfl, rfl⟩), good_of_goesOn good isCall facts⟩
  next => cases performed

/-- At most one request for a delivery whose Operation is not safe to repeat leaves that the
limiter does not refuse, where no claim is numbered as one that may have dispatched. -/
theorem dispatched_once_inbound (runs : Run (Library.guarded (Renumbered options) (Parties.Step (Parties.performs (writing options))))
    (initial id dispatchJobId content) labels final) : final.shared.outstanding.length ≤ 1 := by
  obtain ⟨-, good⟩ := good_of_run runs
  have isLoose : ∀ request ∈ final.shared.outstanding, Operations.DispatchOnce.loose (final.parties request.1).call = true := by
    intro request member
    by_contra quiet
    have sent := (good.known request.1).sent
    rw [if_neg quiet, List.length_eq_zero_iff] at sent
    exact List.filter_eq_nil_iff.mp sent request member (decide_eq_true rfl)
  have recorded : ∀ request ∈ final.shared.outstanding, ∃ reference, Operations.DispatchOnce.recorded (final.parties request.1).call = true ∧
      Operations.DispatchOnce.busy (final.parties request.1).call = some reference := by
    intro request member
    obtain ⟨reference, busy⟩ := (good.known request.1).named (isLoose request member)
    exact ⟨reference, Operations.DispatchOnce.recorded_of_loose (isLoose request member), busy⟩
  show (workOf 0 final.shared ⟨[], 0, []⟩).outstanding.length ≤ 1
  refine Operations.DispatchOnce.outstanding_le_one (fun one isOne two isTwo => ?_) fun request member => ?_
  · obtain ⟨first, recordedFirst, busyFirst⟩ := recorded one isOne
    obtain ⟨second, recordedSecond, busySecond⟩ := recorded two isTwo
    have onRecord := (good.known one.1).record first recordedFirst busyFirst
    have alsoOnRecord := (good.known two.1).record second recordedSecond busySecond
    have same : first.attempt = second.attempt := Option.some.inj (onRecord.symm.trans alsoOnRecord)
    by_contra different
    exact (good.apart one.1 two.1 different).engaged second.attempt (.recorded recordedFirst busyFirst same) (.recorded recordedSecond busySecond rfl)
  · have sent := (good.known request.1).sent
    rw [isLoose request member] at sent
    exact sent

def isRenumbered (options : InboundOptions N) (runs : List Nat) (state : Parties.State Nat (Shared N) (Local N)) (label : Nat × Event N) : Bool :=
  let shared := state.shared
  let free (attempt : Nat) : Bool :=
    decide (shared.delivery.startedAttempt ≠ some attempt) && runs.all fun run => match (state.parties run).phase with
      | .severed severed => decide (severed.id ≠ shared.delivery.dispatchJobId) || decide (severed.attempts ≠ attempt)
      | _ => true
  runs.contains label.1 && match label.2 with
    | .queue (.claim tokenFor now _) =>
      match claimJobs options.worker.hashClaimToken (fun id => (shared.queue.locks id).isSome) tokenFor now
          ⟨1, options.worker.lease, options.worker.kinds⟩ shared.queue.jobs with
      | some (jobs, _) => jobs.all fun job => decide (job.id ≠ shared.delivery.dispatchJobId) || free job.attempts
      | none => true
    | _ => true

theorem renumbered_of_listed {runs : List Nat} (played : Run (Library.guarded (fun state label => isRenumbered options runs state label = true)
    (Parties.Step (Parties.performs (writing options)))) (initial id dispatchJobId content) labels final) :
    Run (Library.guarded (Renumbered options) (Parties.Step (Parties.performs (writing options)))) (initial id dispatchJobId content) labels final := by
  refine played.refine ?_
  rintro past state label next before ⟨listed, taken⟩
  have idle : ∀ other, other ∉ runs → (state.parties other).phase = .idle := by
    refine before.invariant (fun state => ∀ other, other ∉ runs → (state.parties other).phase = .idle) (fun _ _ => rfl) ?_
    rintro state _ next idle ⟨listed, taken⟩ other outside
    rcases taken with @⟨run, event, shared, own, performed⟩
    have different : other ≠ run := by
      rintro rfl
      exact outside (by simpa using (Bool.and_eq_true_iff.mp listed).1)
    simpa [different] using idle other outside
  refine ⟨fun tokenFor now fate jobs table isClaim claims job member named => ?_, taken⟩
  have checked := (Bool.and_eq_true_iff.mp listed).2
  rw [isClaim] at checked
  simp only [claims] at checked
  have free := List.all_eq_true.mp checked job member
  simp only [named, ne_eq, not_true_eq_false, decide_false, Bool.false_or, Bool.and_eq_true, decide_eq_true_eq] at free
  refine ⟨free.1, fun run severed isSevered sameId => ?_⟩
  by_cases inside : run ∈ runs
  · have apart := List.all_eq_true.mp free.2 run inside
    rw [isSevered] at apart
    simpa [sameId, named] using apart
  · rw [idle run inside] at isSevered
    cases isSevered

def mailDelivery : Text := js "00000000-0000-4000-8000-000000000001"

def mailEnvelope : Value Whole :=
  .object [(js "deliveryId", .text mailDelivery), (js "endpointId", .text (js "00000000-0000-4000-8000-000000000002")),
    (js "endpointKey", .text (js "mail")), (js "eventType", .null),
    (js "unsigned", .object [(js "providerDeliveryId", .null), (js "eventType", .null)]),
    (js "receivedAt", .text (js "2026-01-01T00:00:00.000Z")),
    (js "bodySha256", .text (js "e3b0c44298fc1c149afbf4c8996fb92427ae41e4649b934ca495991b7852b855")), (js "body", .text [])]

def mailContent : Operations.DurableWorker.WorkContent Whole :=
  ⟨js "t", js "s", ⟨js "Mail.send", some [(js "delivery", mailEnvelope)],
    js "inbound.00000000-0000-4000-8000-000000000002.e3b0c44298fc1c149afbf4c8996fb92427ae41e4649b934ca495991b7852b855"⟩⟩

/-- Two processes, with the digests of the only work, request, contract and references there are. -/
def mailInbound : InboundOptions Whole where
  worker := { OneOwner.mailWorker with handles := fun kind => decide (kind = js "osf-inbound.dispatch") }
  broker := {
    fingerprints := {
      work := fun _ => js "6dcd0707ac3532fb4a4a90c39f778b37407f079aac6ed55379418acfb9420e2a"
      request := fun _ => js "f3d29f97a7bf48bf9fd3c1e2f2f98c3c618c3c6be7f042c8044d74add236af17"
      reference := fun reference =>
        if reference.workerId = js "p" then js "cfe923683545bf50df445a6e0565a87b2be2af2a851d784216e47e60fd818b1d"
        else js "35a07f1a2ffaa05a77b12fa3372f76987cfe76b4c9ea4069ac49fd468d9f11e5"
      contract := fun _ => js "sha256:b1816c69b96290d886322f52a5024188f5c0207deca4b5c02379dc015f933e00" }
    identities := [⟨js "t", js "s"⟩]
    carriesKey := fun _ => true
    attempts := 4
    maxDelay := 5000 }
  process run := run
  workerId process := if process = 0 then js "p" else js "q"

def inboundJob : EnqueueJobInput Whole :=
  ⟨js "t", js "u", js "osf-inbound.dispatch", .object [(js "deliveryId", .text mailDelivery)], none, none⟩

/-- A run of the job, from its claim to the request for the Operation. -/
def sentBy (run : Nat) (digit : Char) : List (Nat × Event Whole) :=
  let broker (event : Operations.DurableWorker.Event Whole) : Nat × Event Whole := (run, .broker 0 event)
  [(run, .queue (.claim (fun _ => OneOwner.tokenOf digit) 0 .committed)), (run, .queue .begin), (run, .queue .accept), (run, .enter true),
    broker (.begin 0), broker (.resolve 0), broker (.catalog (.ok Operations.DispatchOnce.mailDefinition)), broker (.pin .committed),
    broker (.resolve 0), (run, .resume), broker (.begin 1), broker (.resolve 1),
    broker (.catalog (.ok Operations.DispatchOnce.mailDefinition)), broker (.resolve 1), broker (.mark .committed), broker (.resolve 1)]

def queuedInbound : Nat × Event Whole := (0, .queue (.enqueue (js "j") inboundJob 0))

theorem dispatched_once_inbound_mail : ∃ final,
    Parties.playChecked (writing mailInbound) (isRenumbered mailInbound [0]) (initial mailDelivery (js "j") mailContent)
      (queuedInbound :: sentBy 0 '0') = some final ∧ final.shared.outstanding ≠ [] ∧ final.shared.outstanding.length ≤ 1 := by
  have played : (Parties.playChecked (writing mailInbound) (isRenumbered mailInbound [0])
      (initial mailDelivery (js "j") mailContent) (queuedInbound :: sentBy 0 '0')).any (fun final => !final.shared.outstanding.isEmpty) = true := by
    decide +kernel
  obtain ⟨final, isFinal, sent⟩ := (Option.any_eq_true _ _).mp played
  exact ⟨final, isFinal, by simpa using sent, dispatched_once_inbound (renumbered_of_listed (Parties.runs_of_playChecked _ isFinal))⟩

/-- The first run is answered, and its commit is lost; an operator requeues the job, and
another process runs it again. -/
def sentTwice : List (Nat × Event Whole) :=
  queuedInbound :: sentBy 0 '0' ++
    [(0, .broker 0 (.response ⟨200, some (.object [(js "data", .null)]), false, none⟩ 2)), (0, .resume), (0, .returns),
      (0, .queue (.settle 1 0)), (0, .queue (.finish .failed ⟨[], none, none⟩)), (0, .queue (.settleApart 2 0 .committed)),
      (0, .queue (.resolve (js "j") .requeue 0))] ++ sentBy 1 '1'

theorem dispatched_twice_inbound : ∃ final,
    Parties.Runs (Parties.performs (writing mailInbound)) (initial mailDelivery (js "j") mailContent) sentTwice final ∧
    ¬final.shared.outstanding.length ≤ 1 := by
  have played : (Parties.play (writing mailInbound) (initial mailDelivery (js "j") mailContent) sentTwice).map
      (fun final => final.shared.outstanding.length) = some 2 := by decide +kernel
  obtain ⟨final, isFinal, isTwo⟩ := Option.map_eq_some_iff.mp played
  exact ⟨final, Parties.runs_of_play _ isFinal, by omega⟩

end Result

end OpenShapeForge.Jobs.InboundOnce
