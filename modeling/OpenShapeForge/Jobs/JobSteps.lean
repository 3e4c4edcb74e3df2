import OpenShapeForge.Jobs.JobWorker

/-! What a step of a worker, or of another client of the queue, can do, and what it
leaves alone: the rows that another transaction locks. -/

namespace OpenShapeForge.Jobs.JobSteps
open Js Library JobStore JobWorker

section Settlements
variable {N : Type} [JsNumber N] (options : WorkerOptions N) (job : ClaimedJob N)

def Settles {N : Type} (job : ClaimedJob N) (settlement : SettleJobInput N) : Prop :=
  settlement.id = job.id ∧ settlement.claimToken = job.claimToken

def spends {N : Type} : JobOutcome N → Bool
  | .notAdmitted _ _ => false
  | _ => true

theorem settlementOf_settles (outcome : Value N) :
    Settles job (settlementOf options job outcome) ∧ spends (settlementOf options job outcome).outcome = true := by
  unfold settlementOf
  dsimp only
  repeat' split
  all_goals exact ⟨⟨rfl, rfl⟩, rfl⟩

omit [JsNumber N] in
theorem settles_commitLost {settlement : SettleJobInput N} (settles : Settles job settlement) : Settles job (commitLost settlement) := by
  unfold commitLost
  split
  · exact settles
  · exact settles

omit [JsNumber N] in
theorem spends_commitLost {settlement : SettleJobInput N} (spent : spends settlement.outcome = true) :
    spends (commitLost settlement).outcome = true := by
  unfold commitLost
  split
  · rfl
  · exact spent

end Settlements

section Steps
variable {N : Type} [JsNumber N] (options : WorkerOptions N) (run : Nat)

omit [JsNumber N] in
def hashOf (options : WorkerOptions N) (job : ClaimedJob N) : Text := options.hashClaimToken job.claimToken

def claimOf {N : Type} : Phase N → Option (ClaimedJob N)
  | .idle | .ended => none
  | .claimed job | .locked job | .refused job _ _ | .handling job | .severed job | .returned job _ | .settling job _ _ | .apart job _ => some job

def handledIn {N : Type} : Phase N → Option (ClaimedJob N)
  | .handling job | .severed job => some job
  | _ => none

def settlementIn {N : Type} : Phase N → Option (SettleJobInput N)
  | .refused _ settlement _ | .returned _ settlement | .settling _ settlement _ | .apart _ settlement => some settlement
  | _ => none

/-- What is left to settle of a claim whose transaction is lost before its handler is started. -/
def unstarted {N : Type} (job : ClaimedJob N) (error : RuntimeJobError N) : Phase N := .apart job (settlementBy job (.retry error none))

/-- All a step can do. -/
inductive Does (shared : Shared N) : Phase N → Event N → Shared N → Phase N → Prop
  | claimless {tokenFor now fate} : Does shared .idle (.claim tokenFor now fate) shared .ended
  | claims {tokenFor now fate jobs table next} :
    claimJobs options.hashClaimToken (fun id => (shared.locks id).isSome) tokenFor now ⟨1, options.lease, options.kinds⟩ shared.jobs =
      some (jobs, table) →
    (∀ job ∈ jobs, hashOf options job ∉ shared.hashes) → (next = .ended ∨ ∃ job ∈ jobs, next = .claimed job) →
    Does shared .idle (.claim tokenFor now fate)
      { shared with jobs := table, hashes := jobs.map (hashOf options) ++ shared.hashes } next
  | unhandled {job} : options.handles job.kind = false → Does shared (.claimed job) .begin shared (.apart job (noHandler job))
  | locks {job} : shared.locks job.id = none → lockClaimedJob options.hashClaimToken shared.jobs job.id job.claimToken = true →
    Does shared (.claimed job) .begin { shared with locks := Function.update shared.locks job.id (some run) } (.locked job)
  | misses {job} : lockClaimedJob options.hashClaimToken shared.jobs job.id job.claimToken = false →
    Does shared (.claimed job) .begin shared .ended
  | fails {job error} : Does shared (.claimed job) (.fail error) shared (unstarted job error)
  | aborts {phase job event error} : phase = .locked job ∨ (∃ settlement pending, phase = .refused job settlement pending) →
    event = .fail error ∨ event = .finish .failed error → Does shared phase event (shared.release job.id) (unstarted job error)
  | admits {job} : Does shared (.locked job) .accept (start options shared job) (.handling job)
  | denies {job denial clock now random} :
    Does shared (.locked job) (.deny denial clock now random) shared
      (.refused job (refusedJobSettlement options job denial clock random)
        (settleJob options.hashClaimToken now random (refusedJobSettlement options job denial clock random) shared.jobs))
  | answers {phase next job settlement outcome} : settlement = settlementOf options job outcome →
    (phase = .handling job ∧ next = .returned job settlement) ∨ (phase = .severed job ∧ next = .apart job (commitLost settlement)) →
    Does shared phase (.answer outcome)
      { shared.end job.id settlement.outcome with returned := (run, settlement) :: shared.returned } next
  | throws {job error} :
    Does shared (.handling job) (.throw error) ((shared.end job.id (.outcomeUnknown error)).release job.id)
      (.apart job (settlementBy job (.outcomeUnknown error)))
  | throwsSevered {job error} :
    Does shared (.severed job) (.throw error) (shared.end job.id (.outcomeUnknown error))
      (.apart job (settlementBy job (.outcomeUnknown error)))
  | severs {job} : Does shared (.handling job) .sever (shared.release job.id) (.severed job)
  | settles {job settlement now random} :
    Does shared (.returned job settlement) (.settle now random) shared
      (.settling job settlement (settleJob options.hashClaimToken now random settlement shared.jobs))
  | loses {phase job settlement event} : phase = .returned job settlement ∨ (∃ pending, phase = .settling job settlement pending) →
    event = .unsettled ∨ (∃ error, event = .finish .failed error) →
    Does shared phase event (shared.release job.id) (.apart job (commitLost settlement))
  | refuses {job settlement pending fate error next} : next = .ended ∨ next = unstarted job error →
    Does shared (.refused job settlement pending) (.finish fate error) ((shared.write settlement.id pending).release job.id) next
  | commits {job settlement pending fate error next} : next = .ended ∨ next = .apart job (commitLost settlement) →
    Does shared (.settling job settlement pending) (.finish fate error) ((commit run shared settlement pending).release job.id) next
  | unsettledApart {job settlement now random} : Does shared (.apart job settlement) (.settleApart now random .failed) shared .ended
  | settlesApart {job settlement now random fate} : shared.locks settlement.id = none →
    Does shared (.apart job settlement) (.settleApart now random fate)
      (shared.write settlement.id (settleJob options.hashClaimToken now random settlement shared.jobs)) .ended
  | dies {phase job} : phase.opened = some job → Does shared phase .die (shared.release job.id) .ended
  | stops {phase} : phase.opened = none → Does shared phase .die shared .ended
  | enqueues {phase id input now row} : enqueuedRow now input = some row → id ∉ shared.ids →
    Does shared phase (.enqueue id input now) { shared with jobs := shared.jobs.set id row, ids := id :: shared.ids } phase
  | passes {phase event} : (∃ id input now, event = .enqueue id input now) ∨ (∃ id action now, event = .resolve id action now) →
    Does shared phase event shared phase
  | requeues {phase id now row} : shared.locks id = none → resolveJob now id .requeue shared.jobs = some row →
    Does shared phase (.resolve id .requeue now)
      { shared with jobs := shared.jobs.set id row, starts := Function.update shared.starts id 0, ended := Function.update shared.ended id false }
      phase
  | resolves {phase id now row} : shared.locks id = none → resolveJob now id .done shared.jobs = some row →
    Does shared phase (.resolve id .done now) { shared with jobs := shared.jobs.set id row } phase
  | sweeps {phase before} : Does shared phase (.sweep before) { shared with jobs := sweepDoneJobs before shared.jobs } phase

variable {options run} {shared after : Shared N} {phase next : Phase N} {event : Event N}

theorem claim_cases {tokenFor : Text → Text} {now : Timestamp} {fate : Fate}
    (claimed : claim options shared tokenFor now fate = some (after, next)) : Does options run shared .idle (.claim tokenFor now fate) after next := by
  unfold claim at claimed
  split at claimed
  next =>
    cases claimed
    exact .claimless
  next jobs table isClaimed =>
    dsimp only at claimed
    split at claimed
    next => cases claimed
    next fresh =>
      have unseen : ∀ job ∈ jobs, hashOf options job ∉ shared.hashes := by
        intro job member drawn
        exact fresh (List.any_eq_true.mpr ⟨_, List.mem_map_of_mem member, List.contains_iff_mem.mpr drawn⟩)
      cases fate with
      | failed =>
        cases claimed
        exact .claimless
      | unheard =>
        cases claimed
        exact .claims isClaimed unseen (.inl rfl)
      | committed =>
        cases claimed
        refine .claims isClaimed unseen ?_
        cases jobs with
        | nil => exact .inl rfl
        | cons job rest => exact .inr ⟨job, List.mem_cons_self, rfl⟩

theorem begin_cases {job : ClaimedJob N} (begun : JobWorker.begin options run shared job = some (after, next)) :
    Does options run shared (.claimed job) .begin after next := by
  unfold JobWorker.begin at begun
  split at begun
  next unhandled =>
    cases begun
    exact .unhandled (by simpa using unhandled)
  next =>
    split at begun
    next => cases begun
    next free =>
      split at begun
      next held =>
        cases begun
        exact .locks (by simpa using free) held
      next gone =>
        cases begun
        exact .misses (by simpa using gone)

theorem does_of_perform (performed : perform options run shared phase event = some (after, next)) :
    Does options run shared phase event after next := by
  cases event with
  | claim tokenFor now fate =>
    simp only [perform] at performed
    split at performed
    · exact claim_cases performed
    · cases performed
  | begin =>
    simp only [perform] at performed
    split at performed
    · exact begin_cases performed
    · cases performed
  | fail error =>
    simp only [perform] at performed
    split at performed
    · split at performed
      · cases performed
        exact .fails
      · cases performed
    · cases performed
      exact .aborts (.inl rfl) (.inl rfl)
    · cases performed
      exact .aborts (.inr ⟨_, _, rfl⟩) (.inl rfl)
    · cases performed
  | accept =>
    simp only [perform] at performed
    split at performed
    · cases performed
      exact .admits
    · cases performed
  | deny denial clock now random =>
    simp only [perform] at performed
    split at performed
    · cases performed
      exact .denies
    · cases performed
  | answer outcome =>
    simp only [perform] at performed
    split at performed
    · cases performed
      exact .answers rfl (.inl ⟨rfl, rfl⟩)
    · cases performed
      exact .answers rfl (.inr ⟨rfl, rfl⟩)
    · cases performed
  | throw error =>
    simp only [perform] at performed
    split at performed
    · cases performed
      exact .throws
    · cases performed
      exact .throwsSevered
    · cases performed
  | sever =>
    simp only [perform] at performed
    split at performed
    · cases performed
      exact .severs
    · cases performed
  | settle now random =>
    simp only [perform] at performed
    split at performed
    · cases performed
      exact .settles
    · cases performed
  | unsettled =>
    simp only [perform] at performed
    split at performed
    · cases performed
      exact .loses (.inl rfl) (.inl rfl)
    · cases performed
  | finish fate error =>
    simp only [perform] at performed
    split at performed
    · cases performed
      exact .refuses (.inl rfl)
    · cases performed
      exact .refuses (.inr rfl)
    · cases performed
      exact .commits (.inl rfl)
    · cases performed
      exact .commits (.inr rfl)
    · cases performed
      exact .aborts (.inr ⟨_, _, rfl⟩) (.inr rfl)
    · cases performed
      exact .loses (.inr ⟨_, rfl⟩) (.inr ⟨_, rfl⟩)
    · cases performed
  | settleApart now random fate =>
    simp only [perform] at performed
    split at performed
    · split at performed
      · cases performed
      · next job settlement locked =>
        have free : shared.locks settlement.id = none := by simpa using locked
        cases fate with
        | failed =>
          cases performed
          exact .unsettledApart
        | committed | unheard =>
          cases performed
          exact .settlesApart free
    · cases performed
  | die =>
    simp only [perform] at performed
    split at performed
    · next job opened =>
      cases performed
      exact .dies opened
    · next closed =>
      cases performed
      exact .stops closed
  | enqueue id input now =>
    simp only [perform] at performed
    split at performed
    · next row made =>
      split at performed
      · cases performed
      · next fresh =>
        cases performed
        exact .enqueues made fresh
    · cases performed
      exact .passes (.inl ⟨_, _, _, rfl⟩)
  | resolve id action now =>
    simp only [perform] at performed
    split at performed
    · cases performed
    · next locked =>
      have free : shared.locks id = none := by simpa using locked
      split at performed
      · next row resolved =>
        cases action with
        | requeue =>
          cases performed
          exact .requeues free resolved
        | done =>
          cases performed
          exact .resolves free resolved
      · cases performed
        exact .passes (.inr ⟨_, _, _, rfl⟩)
  | sweep before =>
    cases performed
    exact .sweeps

end Steps

section Frames
variable {N : Type} [JsNumber N] {options : WorkerOptions N} {run : Nat} {shared after : Shared N} {phase next : Phase N} {event : Event N}

def Pending (options : WorkerOptions N) (shared : Shared N) (settlement : SettleJobInput N) (pending : Option (JobRow N)) : Prop :=
  ∃ now random, pending = settleJob options.hashClaimToken now random settlement shared.jobs

/-- What a run has left to settle is under its claim, and gives no attempt back once a handler was started. -/
def Carries (options : WorkerOptions N) (shared : Shared N) : Phase N → Prop
  | .refused job settlement pending => Settles job settlement ∧ Pending options shared settlement pending
  | .settling job settlement pending =>
    (Settles job settlement ∧ spends settlement.outcome = true) ∧ Pending options shared settlement pending
  | .returned job settlement | .apart job settlement => Settles job settlement ∧ spends settlement.outcome = true
  | _ => True

/-- A run whose transaction is open holds the row of its job under its claim. -/
def Owns (options : WorkerOptions N) (run : Nat) (shared : Shared N) (phase : Phase N) : Prop :=
  ∀ job, phase.opened = some job →
    shared.locks job.id = some run ∧ ∃ row, shared.jobs.get? job.id = some row ∧ row.heldBy (hashOf options job) = true

def isClients {N : Type} : Event N → Bool
  | .enqueue _ _ _ | .resolve _ _ _ | .sweep _ => true
  | _ => false

inductive Changes (options : WorkerOptions N) (run : Nat) (shared : Shared N) (phase : Phase N) (id : Text) :
    Event N → Shared N → Option (JobRow N) → Option (JobRow N) → Prop
  | same {event after row} : Changes options run shared phase id event after row row
  | closes {tokenFor now fate after row} : shared.locks id = none → row.exhausted now = true →
    Changes options run shared phase id (.claim tokenFor now fate) after (some row) (some (row.leaseExpired now))
  | hands {tokenFor now fate after row job jobs table leaseUntil} : shared.locks id = none → row.due now = true →
    claimJobs options.hashClaimToken (fun id => (shared.locks id).isSome) tokenFor now ⟨1, options.lease, options.kinds⟩ shared.jobs =
      some (jobs, table) →
    job ∈ jobs → job.id = id → job.attempts = row.attempts + 1 → hashOf options job ∉ shared.hashes → hashOf options job ∈ after.hashes →
    Changes options run shared phase id (.claim tokenFor now fate) after (some row) (some (row.claimed (hashOf options job) leaseUntil))
  | settles {event after row job settlement now random} : isClients event = false → claimOf phase = some job → job.id = id →
    settlementIn phase = some settlement → shared.locks id = none ∨ shared.locks id = some run →
    row.heldBy (hashOf options job) = true →
    Changes options run shared phase id event after (some row) (some (row.settled settlement.outcome now random))
  | enqueues {input now after row} : id ∉ shared.ids → enqueuedRow now input = some row → id ∈ after.ids →
    Changes options run shared phase id (.enqueue id input now) after none (some row)
  | resolves {action now after row} : shared.locks id = none → row.resolvable = true → (action = .requeue → after.starts id = 0 ∧ after.ended id = false) →
    Changes options run shared phase id (.resolve id action now) after (some row) (some (row.resolved action now))
  | sweeps {before after row} : row.swept before = true → Changes options run shared phase id (.sweep before) after (some row) none

omit [JsNumber N] in
theorem changes_write {job : ClaimedJob N} {settlement : SettleJobInput N} {row : Option (JobRow N)} (byWorker : isClients event = false) (claim : claimOf phase = some job)
    (carried : settlementIn phase = some settlement) (settles : Settles job settlement)
    (free : shared.locks job.id = none ∨ shared.locks job.id = some run) (pending : Pending options shared settlement row) (id : Text) :
    Changes options run shared phase id event after (shared.jobs.get? id) ((shared.write settlement.id row).jobs.get? id) := by
  obtain ⟨now, random, rfl⟩ := pending
  cases settled : settleJob options.hashClaimToken now random settlement shared.jobs with
  | none => exact .same
  | some written =>
    obtain ⟨row, found, held, rfl⟩ := settleJob_some settled
    by_cases same : id = settlement.id
    · subst same
      rw [found, Shared.write, Option.elim_some, OrderedMap.get?_set_self]
      rw [settles.2] at held
      exact .settles byWorker claim settles.1.symm carried (settles.1 ▸ free) held
    · rw [Shared.write, Option.elim_some, OrderedMap.get?_set_of_ne _ _ same]
      exact .same

omit [JsNumber N] in
theorem not_exhausted_of_due {row : JobRow N} {now : Timestamp} (due : row.due now = true) : row.exhausted now = false := by
  unfold JobRow.due at due
  unfold JobRow.exhausted
  cases expired : row.expired now with
  | false => rfl
  | true =>
    have running : row.status = .running := by
      unfold JobRow.expired at expired
      exact (of_decide_eq_true expired).1
    simpa [expired, running] using due

omit [JsNumber N] in
theorem handed_of_claims {hashClaimToken : Text → Text} {locked : Text → Bool} {tokenFor : Text → Text} {now : Timestamp}
    {input : ClaimJobsInput} {before table : JobTable N} {jobs : List (ClaimedJob N)}
    (claims : claimJobs hashClaimToken locked tokenFor now input before = some (jobs, table)) {id : Text} {row : JobRow N} {hash : Text}
    {leaseUntil : Timestamp} (found : before.get? id = some row) (due : row.due now = true)
    (handed : table.get? id = some (row.claimed hash leaseUntil)) :
    ∃ job ∈ jobs, job.id = id ∧ job.claimToken = tokenFor id ∧ job.attempts = row.attempts + 1 := by
  obtain ⟨-, jobsHanded, others⟩ := claimJobs_spec claims
  by_contra none
  have untouched := others id row found (not_exhausted_of_due due) fun job member same => by
    obtain ⟨other, _, handsOut⟩ := jobsHanded job member
    have token : job.claimToken = tokenFor job.id := congrArg ClaimedJob.claimToken handsOut.job
    have attempts : job.attempts = other.attempts + 1 := congrArg ClaimedJob.attempts handsOut.job
    obtain rfl := Option.some.inj (found.symm.trans (same ▸ handsOut.found))
    exact none ⟨job, member, same, same ▸ token, attempts⟩
  have attempts := congrArg JobRow.attempts (Option.some.inj (untouched.symm.trans handed))
  exact absurd attempts (Nat.lt_succ_self _).ne

theorem changes_of_does (does : Does options run shared phase event after next)
    (known : ∀ id row, shared.jobs.get? id = some row → id ∈ shared.ids) (owns : Owns options run shared phase)
    (carries : Carries options shared phase) (id : Text) :
    Changes options run shared phase id event after (shared.jobs.get? id) (after.jobs.get? id) := by
  cases does with
  | @claims tokenFor now fate jobs table next claims fresh =>
    show Changes _ _ _ _ _ _ _ _ (table.get? id)
    have row := (claimJobs_spec claims).1 id
    generalize isBefore : shared.jobs.get? id = before at row
    generalize isAfter : table.get? id = written at row
    cases row with
    | beside => exact .same
    | closes free exhausted => exact .closes (by simpa using free) exhausted
    | hands leaseUntil free due =>
      obtain ⟨job, member, rfl, token, attempts⟩ := handed_of_claims claims isBefore due isAfter
      have hash : options.hashClaimToken (tokenFor job.id) = hashOf options job := (congrArg options.hashClaimToken token).symm
      rw [hash]
      exact .hands (by simpa using free) due claims member rfl attempts (fresh job member) (List.mem_append_left _ (List.mem_map_of_mem member))
  | @refuses job settlement pending =>
    exact changes_write rfl rfl rfl carries.1 (.inr (owns job rfl).1) carries.2 id
  | @commits job settlement pending =>
    exact changes_write rfl rfl rfl carries.1.1 (.inr (owns job rfl).1) carries.2 id
  | @settlesApart job settlement now random fate free =>
    exact changes_write rfl rfl rfl carries.1 (.inl (carries.1.1 ▸ free)) ⟨now, random, rfl⟩ id
  | @enqueues phase named input now row made fresh =>
    by_cases same : id = named
    · subst same
      have absent : shared.jobs.get? id = none := by
        cases found : shared.jobs.get? id with
        | none => rfl
        | some other => exact absurd (known id other found) fresh
      rw [absent, OrderedMap.get?_set_self]
      exact .enqueues fresh made List.mem_cons_self
    · rw [OrderedMap.get?_set_of_ne _ _ same]
      exact .same
  | @requeues phase named now row free resolved =>
    by_cases same : id = named
    · subst same
      obtain ⟨row, found, resolvable, rfl⟩ := resolveJob_some resolved
      rw [found, OrderedMap.get?_set_self]
      exact .resolves free resolvable fun _ => ⟨Function.update_self _ _ _, Function.update_self _ _ _⟩
    · rw [OrderedMap.get?_set_of_ne _ _ same]
      exact .same
  | @resolves phase named now row free resolved =>
    by_cases same : id = named
    · subst same
      obtain ⟨row, found, resolvable, rfl⟩ := resolveJob_some resolved
      rw [found, OrderedMap.get?_set_self]
      exact .resolves free resolvable fun isRequeue => (nomatch isRequeue)
    · rw [OrderedMap.get?_set_of_ne _ _ same]
      exact .same
  | @sweeps phase before =>
    show Changes _ _ _ _ _ _ _ _ ((sweepDoneJobs before shared.jobs).get? id)
    rw [sweepDoneJobs, OrderedMap.get?_filter]
    cases found : shared.jobs.get? id with
    | none => exact .same
    | some row =>
      cases swept : row.swept before with
      | true =>
        simp only [Option.filter_some, swept]
        exact .sweeps swept
      | false =>
        simp only [Option.filter_some, swept]
        exact .same
  | _ => exact .same

omit [JsNumber N] in
theorem running_of_held {row : JobRow N} {hash : Text} (held : row.heldBy hash = true) :
    row.status = .running ∧ row.claimTokenHash = some hash := of_decide_eq_true held

omit [JsNumber N] in
theorem not_swept_of_running {row : JobRow N} {before : Timestamp} (running : row.status = .running) : row.swept before = false := by
  simp [JobRow.swept, running]

omit [JsNumber N] in
theorem not_running_settled (row : JobRow N) (outcome : JobOutcome N) (now : Timestamp) (random : ℚ) :
    (row.settled outcome now random).status ≠ .running := by
  cases outcome with
  | retry =>
    unfold JobRow.settled
    dsimp only
    split
    next => simp [JobRow.terminal]
    next => simp [JobRow.requeued]
  | _ => simp [JobRow.settled, JobRow.terminal, JobRow.requeued]

structure Hands (options : WorkerOptions N) (shared : Shared N) (event : Event N) (row : JobRow N) (job : ClaimedJob N) : Prop where
  claims : ∃ tokenFor now fate jobs table, event = .claim tokenFor now fate ∧
    claimJobs options.hashClaimToken (fun id => (shared.locks id).isSome) tokenFor now ⟨1, options.lease, options.kinds⟩ shared.jobs =
      some (jobs, table) ∧ job ∈ jobs
  free : shared.locks job.id = none
  attempts : row.attempts = job.attempts
  hash : row.claimTokenHash = some (hashOf options job)
  fresh : hashOf options job ∉ shared.hashes

omit [JsNumber N] in
theorem running_of_changes {id : Text} {before written : Option (JobRow N)} {row : JobRow N}
    (changes : Changes options run shared phase id event after before written) (isRow : written = some row) (running : row.status = .running) :
    before = some row ∨ ∃ job, job.id = id ∧ Hands options shared event row job := by
  cases changes with
  | same => exact .inl isRow
  | closes =>
    obtain rfl := Option.some.inj isRow
    simp [JobRow.leaseExpired] at running
  | @hands _ _ _ _ old job _ _ _ free _ claims member isId attempts fresh =>
    obtain rfl := Option.some.inj isRow
    exact .inr ⟨job, isId, ⟨_, _, _, _, _, rfl, claims, member⟩, isId ▸ free, attempts.symm, rfl, fresh⟩
  | settles =>
    obtain rfl := Option.some.inj isRow
    exact absurd running (not_running_settled _ _ _ _)
  | enqueues _ made =>
    obtain rfl := Option.some.inj isRow
    exact absurd ((enqueuedRow_some made).1.symm.trans running) (by decide)
  | @resolves action =>
    obtain rfl := Option.some.inj isRow
    cases action with
    | requeue | done => simp [JobRow.resolved] at running
  | sweeps => cases isRow

omit [JsNumber N] in
theorem locked_row_of_changes {id : Text} {other : Nat} {before written : Option (JobRow N)} {row : JobRow N}
    (changes : Changes options run shared phase id event after before written) (isRow : before = some row) (running : row.status = .running)
    (locked : shared.locks id = some other) (beside : other ≠ run ∨ isClients event = true) : written = some row := by
  have notFree : shared.locks id ≠ none := locked ▸ Option.some_ne_none other
  cases changes with
  | same => exact isRow
  | closes free => exact absurd free notFree
  | hands free => exact absurd free notFree
  | settles byWorker _ _ _ free =>
    cases beside with
    | inl different =>
      cases free with
      | inl isFree => exact absurd isFree notFree
      | inr mine => exact absurd (Option.some.inj (locked.symm.trans mine)) different
    | inr client => exact absurd (client.symm.trans byWorker) Bool.true_eq_false.mp
  | enqueues => cases isRow
  | resolves free => exact absurd free notFree
  | sweeps swept =>
    obtain rfl := Option.some.inj isRow
    exact absurd (swept.symm.trans (not_swept_of_running running)) Bool.true_eq_false.mp

theorem locks_of_does {id : Text} {other : Nat} (does : Does options run shared phase event after next) (owns : Owns options run shared phase)
    (locked : shared.locks id = some other) (different : other ≠ run) : after.locks id = some other := by
  have released : ∀ job, phase.opened = some job → Function.update shared.locks job.id none id = some other := by
    intro job opened
    have notMine : id ≠ job.id := by
      rintro rfl
      exact different (Option.some.inj (locked.symm.trans (owns job opened).1))
    rw [Function.update_of_ne notMine]
    exact locked
  cases does with
  | @locks job free =>
    have notFree : id ≠ job.id := by
      rintro rfl
      exact absurd (locked.symm.trans free) (Option.some_ne_none other)
    exact (Function.update_of_ne notFree _ _).trans locked
  | @aborts phase job event error isPhase =>
    refine released job ?_
    rcases isPhase with rfl | ⟨_, _, rfl⟩
    · rfl
    · rfl
  | @loses phase job settlement event isPhase =>
    refine released job ?_
    rcases isPhase with rfl | ⟨_, rfl⟩
    · rfl
    · rfl
  | dies opened => exact released _ opened
  | throws | severs | refuses | commits => exact released _ rfl
  | _ => exact locked

theorem grows_of_does (does : Does options run shared phase event after next) :
    shared.hashes ⊆ after.hashes ∧ shared.ids ⊆ after.ids := by
  cases does with
  | claims => exact ⟨List.subset_append_right _ _, List.Subset.refl _⟩
  | enqueues => exact ⟨List.Subset.refl _, List.subset_cons_self _ _⟩
  | _ => exact ⟨List.Subset.refl _, List.Subset.refl _⟩

theorem starts_of_does (does : Does options run shared phase event after next) :
    (∃ job, phase = .locked job ∧ next = .handling job ∧ after = start options shared job) ∨
    (after.startedClaims = shared.startedClaims ∧ ∀ id, after.starts id = shared.starts id ∨ after.starts id = 0) := by
  cases does with
  | admits => exact .inl ⟨_, rfl, rfl, rfl⟩
  | @requeues phase named =>
    refine .inr ⟨rfl, fun id => ?_⟩
    by_cases same : id = named
    · exact .inr (same ▸ Function.update_self _ _ _)
    · exact .inl (Function.update_of_ne same _ _)
  | _ => exact .inr ⟨rfl, fun _ => .inl rfl⟩

omit [JsNumber N] in
theorem claim_of_handled {phase : Phase N} {job : ClaimedJob N} (handled : handledIn phase = some job) : claimOf phase = some job := by
  cases phase with
  | handling | severed => exact handled
  | _ => cases handled

theorem handledIn_of_does (does : Does options run shared phase event after next) {job : ClaimedJob N} (handled : handledIn next = some job) :
    handledIn phase = some job ∨ phase = .locked job := by
  cases does with
  | admits =>
    obtain rfl := Option.some.inj handled
    exact .inr rfl
  | severs | enqueues | passes | requeues | resolves | sweeps => exact .inl handled
  | claims _ _ isNext =>
    rcases isNext with rfl | ⟨_, _, rfl⟩
    · cases handled
    · cases handled
  | answers _ isPhase =>
    rcases isPhase with ⟨-, rfl⟩ | ⟨-, rfl⟩
    · cases handled
    · cases handled
  | refuses isNext | commits isNext =>
    rcases isNext with rfl | rfl
    · cases handled
    · cases handled
  | _ => cases handled

omit [JsNumber N] in
theorem attempts_of_claims {tokenFor : Text → Text} {now : Timestamp} {jobs : List (ClaimedJob N)} {table : JobTable N} {locked : Text → Bool}
    {input : ClaimJobsInput} {before : JobTable N} (claims : claimJobs options.hashClaimToken locked tokenFor now input before = some (jobs, table))
    {job : ClaimedJob N} (member : job ∈ jobs) {row : JobRow N} (found : table.get? job.id = some row) : row.attempts = job.attempts := by
  obtain ⟨old, leaseUntil, handsOut⟩ := (claimJobs_spec claims).2.1 job member
  obtain rfl := Option.some.inj (handsOut.written.symm.trans found)
  exact (congrArg ClaimedJob.attempts handsOut.job).symm

theorem claimOf_of_does (does : Does options run shared phase event after next) {job : ClaimedJob N} (claim : claimOf next = some job) :
    claimOf phase = some job ∨ hashOf options job ∉ shared.hashes ∧ hashOf options job ∈ after.hashes ∧
      ∀ row, after.jobs.get? job.id = some row → row.attempts = job.attempts := by
  cases does with
  | @claims _ _ _ jobs _ _ claims fresh isNext =>
    rcases isNext with rfl | ⟨first, member, rfl⟩
    · cases claim
    · obtain rfl := Option.some.inj claim
      exact .inr ⟨fresh first member, List.mem_append_left _ (List.mem_map_of_mem member), fun row found => attempts_of_claims claims member found⟩
  | aborts isPhase =>
    rcases isPhase with rfl | ⟨_, _, rfl⟩
    · exact .inl claim
    · exact .inl claim
  | answers _ isPhase =>
    rcases isPhase with ⟨rfl, rfl⟩ | ⟨rfl, rfl⟩
    · exact .inl claim
    · exact .inl claim
  | loses isPhase =>
    rcases isPhase with rfl | ⟨_, rfl⟩
    · exact .inl claim
    · exact .inl claim
  | refuses isNext | commits isNext =>
    rcases isNext with rfl | rfl
    · cases claim
    · exact .inl claim
  | claimless | misses | unsettledApart | settlesApart | dies | stops => cases claim
  | _ => exact .inl claim

end Frames

end OpenShapeForge.Jobs.JobSteps
