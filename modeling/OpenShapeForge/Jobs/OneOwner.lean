import OpenShapeForge.Jobs.JobSteps
import OpenShapeForge.Js.Whole

/-! A queued job has one owner at a time and one outcome a claim: what holds of the
queue in every run of its workers, its operators and its sweep. -/

namespace OpenShapeForge.Jobs.OneOwner
open Js Library JobStore JobWorker JobSteps

section Rows
variable {N : Type} [JsNumber N] {options : WorkerOptions N} {run : Nat} {shared after : Shared N} {phase next : Phase N} {event : Event N}

/-- What holds of a row of the queue: its attempts are bounded, and count the handlers that were started. -/
structure RowKept {N : Type} (shared : Shared N) (id : Text) (row : JobRow N) : Prop where
  known : id ∈ shared.ids
  drawn : ∀ hash, row.claimTokenHash = some hash → hash ∈ shared.hashes
  positive : 0 < row.maxAttempts
  bounded : row.attempts ≤ row.maxAttempts
  queued : row.status = .queued → row.attempts < row.maxAttempts
  starts : shared.starts id ≤ row.attempts
  spare : ∀ hash, row.heldBy hash = true → hash ∉ shared.startedClaims → shared.starts id < row.attempts

structure Kept {N : Type} (shared : Shared N) : Prop where
  rows : ∀ id row, shared.jobs.get? id = some row → RowKept shared id row
  started : shared.startedClaims ⊆ shared.hashes
  unused : ∀ id, id ∉ shared.ids → shared.starts id = 0

/-- The claim of a run whose handler is not started yet. -/
def waitingOf {N : Type} : Phase N → Option (ClaimedJob N)
  | .claimed job | .locked job | .refused job _ _ => some job
  | _ => none

omit [JsNumber N] in
theorem due_bounded {row : JobRow N} {id : Text} {now : Timestamp} (kept : RowKept shared id row) (due : row.due now = true) :
    row.attempts < row.maxAttempts := by
  unfold JobRow.due at due
  rcases Bool.or_eq_true _ _ ▸ due with queued | expired
  · exact kept.queued (of_decide_eq_true (Bool.and_eq_true _ _ ▸ queued).1)
  · exact of_decide_eq_true (Bool.and_eq_true _ _ ▸ expired).2

omit [JsNumber N] in
theorem kept_settled {row : JobRow N} {id : Text} (kept : RowKept shared id row) {outcome : JobOutcome N} {now : Timestamp} {random : ℚ}
    (starts : spends outcome = false → shared.starts id < row.attempts) : RowKept shared id (row.settled outcome now random) := by
  have terminal : ∀ status error result, status ≠ .queued → status ≠ .running → RowKept shared id (row.terminal status error result now) := by
    intro status error result notQueued notRunning
    exact {
      known := kept.known
      drawn := fun hash isHash => absurd isHash (Option.some_ne_none hash).symm
      positive := kept.positive
      bounded := kept.bounded
      queued := fun isQueued => absurd isQueued notQueued
      starts := kept.starts
      spare := fun hash held => absurd (running_of_held held).1 notRunning }
  have requeued : ∀ error availableAt attempts, attempts < row.maxAttempts → shared.starts id ≤ attempts →
      RowKept shared id (row.requeued error availableAt attempts) := by
    intro error availableAt attempts below started
    exact {
      known := kept.known
      drawn := fun hash isHash => absurd isHash (Option.some_ne_none hash).symm
      positive := kept.positive
      bounded := below.le
      queued := fun _ => below
      starts := started
      spare := fun hash held => absurd (running_of_held held).1 (by simp [JobRow.requeued]) }
  have bounded := kept.bounded
  cases outcome with
  | done => exact terminal _ _ _ (by decide) (by decide)
  | failed => exact terminal _ _ _ (by decide) (by decide)
  | outcomeUnknown => exact terminal _ _ _ (by decide) (by decide)
  | dead => exact terminal _ _ _ (by decide) (by decide)
  | notAdmitted =>
    have below := starts rfl
    exact requeued _ _ _ (by omega) (by omega)
  | retry =>
    unfold JobRow.settled
    dsimp only
    split
    next => exact terminal _ _ _ (by decide) (by decide)
    next below => exact requeued _ _ _ (by omega) kept.starts

omit [JsNumber N] in
theorem kept_of_changes {id : Text} {before written : Option (JobRow N)} {row : JobRow N}
    (changes : Changes options run shared phase id event after before written) (kept : ∀ row, before = some row → RowKept shared id row)
    (unused : id ∉ shared.ids → shared.starts id = 0) (waits : ∀ job, waitingOf phase = some job → hashOf options job ∉ shared.startedClaims)
    (carries : Carries options shared phase) (grows : shared.hashes ⊆ after.hashes ∧ shared.ids ⊆ after.ids)
    (sameClaims : after.startedClaims = shared.startedClaims) (starts : after.starts id = shared.starts id ∨ after.starts id = 0)
    (isRow : written = some row) : RowKept after id row := by
  have notMore : after.starts id ≤ shared.starts id := by omega
  have later : ∀ {row}, RowKept shared id row → RowKept after id row := fun kept => {
    known := grows.2 kept.known
    drawn := fun hash isHash => grows.1 (kept.drawn hash isHash)
    positive := kept.positive
    bounded := kept.bounded
    queued := kept.queued
    starts := notMore.trans kept.starts
    spare := fun hash held unstarted => notMore.trans_lt (kept.spare hash held (sameClaims ▸ unstarted)) }
  cases changes with
  | same => exact later (kept row isRow)
  | @closes tokenFor now _ _ old =>
    obtain rfl := Option.some.inj isRow
    have before := later (kept old rfl)
    exact { before with
      drawn := fun hash isHash => absurd isHash (Option.some_ne_none hash).symm
      queued := fun isQueued => absurd isQueued (by simp [JobRow.leaseExpired])
      spare := fun hash held => absurd (running_of_held held).1 (by simp [JobRow.leaseExpired]) }
  | @hands _ _ _ _ old job _ _ leaseUntil _ due _ _ _ _ _ drawn =>
    obtain rfl := Option.some.inj isRow
    have before := later (kept old rfl)
    have below := due_bounded (kept old rfl) due
    exact {
      known := before.known
      drawn := fun other isOther => Option.some.inj isOther ▸ drawn
      positive := before.positive
      bounded := below
      queued := fun isQueued => absurd isQueued (by simp [JobRow.claimed])
      starts := before.starts.trans (Nat.le_succ _)
      spare := fun _ _ _ => Nat.lt_succ_of_le before.starts }
  | @settles _ _ old job settlement now random _ claim _ carried _ held =>
    obtain rfl := Option.some.inj isRow
    refine later (kept_settled (kept old rfl) fun refunds => ?_)
    cases phase with
    | refused other =>
      obtain rfl := Option.some.inj claim
      exact (kept old rfl).spare _ held (waits other rfl)
    | returned | apart =>
      obtain rfl := Option.some.inj carried
      exact absurd (refunds.symm.trans carries.2) Bool.false_ne_true
    | settling =>
      obtain rfl := Option.some.inj carried
      exact absurd (refunds.symm.trans carries.1.2) Bool.false_ne_true
    | _ => cases carried
  | enqueues new made known =>
    obtain rfl := Option.some.inj isRow
    obtain ⟨queued, none, positive, unclaimed⟩ := enqueuedRow_some made
    have unstarted : after.starts id = 0 := Nat.le_zero.mp (unused new ▸ notMore)
    exact {
      known
      drawn := fun hash isHash => absurd (unclaimed.symm.trans isHash) (Option.some_ne_none hash).symm
      positive
      bounded := none ▸ Nat.zero_le _
      queued := fun _ => none ▸ positive
      starts := unstarted ▸ Nat.zero_le _
      spare := fun hash held => absurd (queued.symm.trans (running_of_held held).1) (by decide) }
  | @resolves action now _ old _ resolvable restarts =>
    obtain rfl := Option.some.inj isRow
    have before := later (kept old rfl)
    cases action with
    | requeue =>
      exact { before with
        bounded := Nat.zero_le _
        queued := fun _ => before.positive
        starts := (restarts rfl).1.le
        spare := fun hash held => absurd (running_of_held held).1 (by simp [JobRow.resolved]) }
    | done =>
      exact { before with
        queued := fun isQueued => absurd isQueued (by simp [JobRow.resolved])
        spare := fun hash held => absurd (running_of_held held).1 (by simp [JobRow.resolved]) }
  | sweeps => cases isRow

end Rows

section Parts
variable {N : Type} [JsNumber N] {options : WorkerOptions N} {run : Nat} {shared after : Shared N} {phase next : Phase N} {event : Event N}

def Records {N : Type} (run : Nat) (shared : Shared N) : Phase N → Prop
  | .returned _ settlement | .settling _ settlement _ =>
    (run, settlement) ∈ shared.returned ∧ run ∉ shared.written ∧ ∀ other, (run, other) ∉ shared.recorded
  | .ended | .apart _ _ => run ∈ shared.written ↔ ∃ settlement, (run, settlement) ∈ shared.returned ∧ (run, settlement) ∈ shared.recorded
  | _ => run ∉ shared.written ∧ ∀ other, (run, other) ∉ shared.recorded

theorem nothing_committed {N : Type} {run : Nat} {written : List Nat} {returned recorded : List (Nat × SettleJobInput N)}
    (unwritten : run ∉ written) (unrecorded : ∀ other, (run, other) ∉ recorded) :
    run ∈ written ↔ ∃ settlement, (run, settlement) ∈ returned ∧ (run, settlement) ∈ recorded := by
  constructor
  · intro wrote
    exact absurd wrote unwritten
  · rintro ⟨settlement, -, isRecorded⟩
    exact absurd isRecorded (unrecorded settlement)

structure Mine (options : WorkerOptions N) (run : Nat) (shared : Shared N) (phase : Phase N) : Prop where
  owns : Owns options run shared phase
  carries : Carries options shared phase
  drawn : ∀ job, claimOf phase = some job → hashOf options job ∈ shared.hashes
  waits : ∀ job, waitingOf phase = some job → hashOf options job ∉ shared.startedClaims
  records : Records run shared phase

omit [JsNumber N] in
theorem claim_of_waiting {job : ClaimedJob N} (waiting : waitingOf phase = some job) : claimOf phase = some job := by
  cases phase with
  | claimed | locked | refused => exact waiting
  | _ => cases waiting

omit [JsNumber N] in
theorem settleJob_congr {now : Timestamp} {random : ℚ} {input : SettleJobInput N} {table other : JobTable N}
    (same : other.get? input.id = table.get? input.id) :
    settleJob options.hashClaimToken now random input other = settleJob options.hashClaimToken now random input table := by
  unfold settleJob
  rw [same]

omit [JsNumber N] in
theorem pending_congr {settlement : SettleJobInput N} {pending : Option (JobRow N)} (isPending : Pending options shared settlement pending)
    (same : after.jobs.get? settlement.id = shared.jobs.get? settlement.id) : Pending options after settlement pending := by
  obtain ⟨now, random, rfl⟩ := isPending
  exact ⟨now, random, (settleJob_congr same).symm⟩

omit [JsNumber N] in
theorem carries_congr (carries : Carries options shared phase)
    (same : ∀ job, phase.opened = some job → after.jobs.get? job.id = shared.jobs.get? job.id) : Carries options after phase := by
  cases phase with
  | refused job settlement pending => exact ⟨carries.1, pending_congr carries.2 (carries.1.1 ▸ same job rfl)⟩
  | settling job settlement pending => exact ⟨carries.1, pending_congr carries.2 (carries.1.1.1 ▸ same job rfl)⟩
  | _ => exact carries

omit [JsNumber N] in
theorem known_of_kept (kept : Kept shared) : ∀ id row, shared.jobs.get? id = some row → id ∈ shared.ids :=
  fun id row found => (kept.rows id row found).known

theorem row_beside {other : Nat} {beside : Phase N} (does : Does options run shared phase event after next) (kept : Kept shared)
    (mine : Mine options run shared phase) (theirs : Owns options other shared beside) (different : other ≠ run ∨ isClients event = true)
    {job : ClaimedJob N} (opened : beside.opened = some job) : after.jobs.get? job.id = shared.jobs.get? job.id := by
  obtain ⟨locked, row, found, held⟩ := theirs job opened
  have changes := changes_of_does does (known_of_kept kept) mine.owns mine.carries job.id
  rw [found]
  exact locked_row_of_changes changes found (running_of_held held).1 locked different

theorem records_beside {other : Nat} (different : other ≠ run) (does : Does options run shared phase event after next) :
    (other ∈ after.written ↔ other ∈ shared.written) ∧ (∀ settlement, (other, settlement) ∈ after.returned ↔ (other, settlement) ∈ shared.returned) ∧
    ∀ settlement, (other, settlement) ∈ after.recorded ↔ (other, settlement) ∈ shared.recorded := by
  have apart : ∀ {settlement own : SettleJobInput N} {pairs : List (Nat × SettleJobInput N)},
      (other, settlement) ∈ (run, own) :: pairs ↔ (other, settlement) ∈ pairs := by
    intro settlement own pairs
    simp [different]
  cases does with
  | answers => exact ⟨Iff.rfl, fun settlement => apart, fun settlement => Iff.rfl⟩
  | @commits job settlement pending =>
    refine ⟨by simp [Shared.release, commit, different], fun settlement => Iff.rfl, fun other => ?_⟩
    show _ ∈ (if pending.isSome then _ else _) ↔ _
    split
    · exact apart
    · exact Iff.rfl
  | _ => exact ⟨Iff.rfl, fun _ => Iff.rfl, fun _ => Iff.rfl⟩

omit [JsNumber N] in
theorem records_congr (records : Records run shared phase) (written : run ∈ after.written ↔ run ∈ shared.written)
    (returned : ∀ settlement, (run, settlement) ∈ after.returned ↔ (run, settlement) ∈ shared.returned)
    (recorded : ∀ settlement, (run, settlement) ∈ after.recorded ↔ (run, settlement) ∈ shared.recorded) : Records run after phase := by
  cases phase with
  | returned | settling => simpa only [Records, written, returned, recorded] using records
  | ended | apart => simpa only [Records, written, returned, recorded] using records
  | _ => simpa only [Records, written, recorded] using records

theorem mine_beside {other : Nat} {beside : Phase N} (different : other ≠ run) (kept : Kept shared) (mine : Mine options run shared phase)
    (theirs : Mine options other shared beside) (apart : ∀ job theirJob, claimOf phase = some job → claimOf beside = some theirJob →
      hashOf options job ≠ hashOf options theirJob)
    (does : Does options run shared phase event after next) : Mine options other after beside := by
  have rows : ∀ job, beside.opened = some job → after.jobs.get? job.id = shared.jobs.get? job.id :=
    fun job opened => row_beside does kept mine theirs.owns (.inl different) opened
  obtain ⟨written, returned, recorded⟩ := records_beside different does
  refine ⟨fun job opened => ?_, carries_congr theirs.carries rows, fun job claim => (grows_of_does does).1 (theirs.drawn job claim), fun job waiting => ?_,
    records_congr theirs.records written returned recorded⟩
  · obtain ⟨locked, row, found, held⟩ := theirs.owns job opened
    exact ⟨locks_of_does does mine.owns locked different, row, (rows job opened).trans found, held⟩
  · rcases starts_of_does does with ⟨started, rfl, rfl, rfl⟩ | ⟨same, -⟩
    · intro inside
      rcases List.mem_cons.mp inside with same | before
      · exact apart started job rfl (claim_of_waiting waiting) same.symm
      · exact theirs.waits job waiting before
    · exact same ▸ theirs.waits job waiting

theorem owns_of_does (does : Does options run shared phase event after next) (kept : Kept shared) (mine : Mine options run shared phase) :
    Owns options run after next := by
  have clients : isClients event = true → next = phase → Owns options run after next := by
    rintro client rfl job opened
    have sameLocks : after.locks = shared.locks := by
      cases does with
      | enqueues | passes | requeues | resolves | sweeps => rfl
      | aborts _ isEvent =>
        rcases isEvent with rfl | rfl
        · exact absurd client Bool.false_ne_true
        · exact absurd client Bool.false_ne_true
      | loses _ isEvent =>
        rcases isEvent with rfl | ⟨_, rfl⟩
        · exact absurd client Bool.false_ne_true
        · exact absurd client Bool.false_ne_true
      | _ => exact absurd client Bool.false_ne_true
    obtain ⟨locked, row, found, held⟩ := mine.owns job opened
    exact ⟨sameLocks ▸ locked, row, (row_beside does kept mine mine.owns (.inr client) opened).trans found, held⟩
  cases does with
  | @locks job free held =>
    intro other opened
    obtain rfl := Option.some.inj opened
    refine ⟨Function.update_self _ _ _, ?_⟩
    obtain ⟨row, found, held⟩ := (Option.any_eq_true _ _).mp held
    exact ⟨row, found, held⟩
  | admits | denies | settles =>
    intro job opened
    exact mine.owns job opened
  | answers _ isPhase =>
    intro job opened
    rcases isPhase with ⟨rfl, rfl⟩ | ⟨rfl, rfl⟩
    · exact mine.owns job opened
    · cases opened
  | claims _ _ isNext =>
    intro job opened
    rcases isNext with rfl | ⟨_, _, rfl⟩
    · cases opened
    · cases opened
  | refuses isNext | commits isNext =>
    intro job opened
    rcases isNext with rfl | rfl
    · cases opened
    · cases opened
  | enqueues => exact clients rfl rfl
  | passes isEvent =>
    refine clients ?_ rfl
    rcases isEvent with ⟨_, _, _, rfl⟩ | ⟨_, _, _, rfl⟩
    · rfl
    · rfl
  | requeues | resolves | sweeps => exact clients rfl rfl
  | _ =>
    intro job opened
    cases opened

theorem carries_of_does (does : Does options run shared phase event after next) (kept : Kept shared) (mine : Mine options run shared phase) :
    Carries options after next := by
  have clients : isClients event = true → next = phase → Carries options after next := by
    rintro client rfl
    exact carries_congr mine.carries fun job opened => row_beside does kept mine mine.owns (.inr client) opened
  have retries : ∀ {job : ClaimedJob N} {error}, Carries options after (unstarted job error) := ⟨⟨rfl, rfl⟩, rfl⟩
  have carries := mine.carries
  cases does with
  | unhandled => exact ⟨⟨rfl, rfl⟩, rfl⟩
  | fails | aborts => exact retries
  | @denies job denial clock now random => exact ⟨⟨rfl, rfl⟩, now, random, rfl⟩
  | @answers phase next job settlement outcome isSettlement isPhase =>
    subst isSettlement
    have settles := settlementOf_settles options job outcome
    rcases isPhase with ⟨rfl, rfl⟩ | ⟨rfl, rfl⟩
    · exact settles
    · exact ⟨settles_commitLost job settles.1, spends_commitLost settles.2⟩
  | throws | throwsSevered => exact ⟨⟨rfl, rfl⟩, rfl⟩
  | @settles job settlement now random => exact ⟨carries, now, random, rfl⟩
  | @loses phase job settlement event isPhase =>
    have settles : Settles job settlement ∧ spends settlement.outcome = true := by
      rcases isPhase with rfl | ⟨_, rfl⟩
      · exact carries
      · exact carries.1
    exact ⟨settles_commitLost job settles.1, spends_commitLost settles.2⟩
  | refuses isNext =>
    rcases isNext with rfl | rfl
    · trivial
    · exact retries
  | commits isNext =>
    rcases isNext with rfl | rfl
    · trivial
    · exact ⟨settles_commitLost _ carries.1.1, spends_commitLost carries.1.2⟩
  | claims _ _ isNext =>
    rcases isNext with rfl | ⟨_, _, rfl⟩
    · trivial
    · trivial
  | enqueues => exact clients rfl rfl
  | passes isEvent =>
    refine clients ?_ rfl
    rcases isEvent with ⟨_, _, _, rfl⟩ | ⟨_, _, _, rfl⟩
    · rfl
    · rfl
  | requeues | resolves | sweeps => exact clients rfl rfl
  | _ => trivial

theorem records_of_does (does : Does options run shared phase event after next) (mine : Mine options run shared phase) :
    Records run after next := by
  have records := mine.records
  cases does with
  | claimless | misses | unhandled | fails | throws | throwsSevered => exact nothing_committed records.1 records.2
  | claims _ _ isNext =>
    rcases isNext with rfl | ⟨_, _, rfl⟩
    · exact nothing_committed records.1 records.2
    · exact records
  | aborts isPhase =>
    rcases isPhase with rfl | ⟨_, _, rfl⟩
    · exact nothing_committed records.1 records.2
    · exact nothing_committed records.1 records.2
  | answers _ isPhase =>
    rcases isPhase with ⟨rfl, rfl⟩ | ⟨rfl, rfl⟩
    · exact ⟨List.mem_cons_self, records.1, records.2⟩
    · exact nothing_committed records.1 records.2
  | loses isPhase =>
    rcases isPhase with rfl | ⟨_, rfl⟩
    · exact nothing_committed records.2.1 records.2.2
    · exact nothing_committed records.2.1 records.2.2
  | refuses isNext =>
    rcases isNext with rfl | rfl
    · exact nothing_committed records.1 records.2
    · exact nothing_committed records.1 records.2
  | @commits job settlement pending fate error next isNext =>
    have held : pending.isSome = true := by
      obtain ⟨-, row, found, held⟩ := mine.owns job rfl
      obtain ⟨⟨⟨isId, isToken⟩, -⟩, now, random, rfl⟩ := mine.carries
      rw [settleJob_of_held (isId ▸ found) (by rw [isToken]; exact held)]
      rfl
    have both : run ∈ (commit run shared settlement pending).written ↔
        ∃ other, (run, other) ∈ shared.returned ∧ (run, other) ∈ (commit run shared settlement pending).recorded := by
      refine iff_of_true List.mem_cons_self ⟨settlement, records.1, ?_⟩
      simp [commit, held]
    rcases isNext with rfl | rfl
    · exact both
    · exact both
  | @dies phase job opened =>
    cases phase with
    | returned | settling => exact nothing_committed records.2.1 records.2.2
    | idle | claimed | severed | apart | ended => cases opened
    | _ => exact nothing_committed records.1 records.2
  | @stops phase closed =>
    cases phase with
    | apart | ended => exact records
    | idle | claimed | severed => exact nothing_committed records.1 records.2
    | _ => cases closed
  | enqueues | passes | requeues | resolves | sweeps => exact records_congr records Iff.rfl (fun _ => Iff.rfl) fun _ => Iff.rfl
  | _ => exact records

theorem waits_of_does (does : Does options run shared phase event after next) (kept : Kept shared) (mine : Mine options run shared phase)
    {job : ClaimedJob N} (waiting : waitingOf next = some job) : hashOf options job ∉ after.startedClaims := by
  rcases starts_of_does does with ⟨_, -, rfl, -⟩ | ⟨same, -⟩
  · cases waiting
  · rw [same]
    rcases claimOf_of_does does (claim_of_waiting waiting) with before | ⟨fresh, -, -⟩
    · cases does with
      | locks | denies | enqueues | passes | requeues | resolves | sweeps => exact mine.waits job waiting
      | answers _ isPhase =>
        rcases isPhase with ⟨rfl, rfl⟩ | ⟨rfl, rfl⟩
        · cases waiting
        · cases waiting
      | refuses isNext | commits isNext =>
        rcases isNext with rfl | rfl
        · cases waiting
        · cases waiting
      | claims => cases before
      | _ => cases waiting
    · exact fun started => fresh (kept.started started)

theorem mine_of_does (does : Does options run shared phase event after next) (kept : Kept shared) (mine : Mine options run shared phase) :
    Mine options run after next where
  owns := owns_of_does does kept mine
  carries := carries_of_does does kept mine
  drawn job claim := by
    rcases claimOf_of_does does claim with before | ⟨-, drawn, -⟩
    · exact (grows_of_does does).1 (mine.drawn job before)
    · exact drawn
  waits job waiting := waits_of_does does kept mine waiting
  records := records_of_does does mine

omit [JsNumber N] in
theorem kept_start {job : ClaimedJob N} (kept : Kept shared) (mine : Mine options run shared (.locked job)) :
    Kept (start options shared job) := by
  obtain ⟨-, own, found, held⟩ := mine.owns job rfl
  have known := (kept.rows job.id own found).known
  refine ⟨fun id row isRow => ?_, ?_, fun id unknown => ?_⟩
  · have before := kept.rows id row isRow
    by_cases same : id = job.id
    · subst same
      obtain rfl := Option.some.inj (found.symm.trans isRow)
      have spare := before.spare _ held (mine.waits job rfl)
      have starts : (start options shared job).starts job.id = shared.starts job.id + 1 := Function.update_self _ _ _
      exact { before with
        starts := starts ▸ spare
        spare := fun hash isHeld unstarted => by
          have isHash := Option.some.inj ((running_of_held isHeld).2.symm.trans (running_of_held held).2)
          exact absurd (isHash ▸ List.mem_cons_self) unstarted }
    · have starts : (start options shared job).starts id = shared.starts id := Function.update_of_ne same _ _
      exact { before with
        starts := starts ▸ before.starts
        spare := fun hash isHeld unstarted => starts ▸ before.spare hash isHeld fun inside => unstarted (List.mem_cons_of_mem _ inside) }
  · intro hash member
    rcases List.mem_cons.mp member with rfl | before
    · exact mine.drawn job rfl
    · exact kept.started before
  · have other : id ≠ job.id := by
      rintro rfl
      exact unknown known
    exact (Function.update_of_ne other _ _).trans (kept.unused id unknown)

theorem kept_of_does (does : Does options run shared phase event after next) (kept : Kept shared) (mine : Mine options run shared phase) :
    Kept after := by
  have grows := grows_of_does does
  rcases starts_of_does does with ⟨job, rfl, -, rfl⟩ | ⟨same, starts⟩
  · exact kept_start kept mine
  · refine ⟨fun id row isRow => ?_, ?_, fun id unknown => ?_⟩
    · exact kept_of_changes (changes_of_does does (known_of_kept kept) mine.owns mine.carries id) (kept.rows id) (kept.unused id) mine.waits
        mine.carries grows same (starts id) isRow
    · exact same ▸ List.Subset.trans kept.started grows.1
    · have unused := kept.unused id fun known => unknown (grows.2 known)
      rcases starts id with before | none
      · exact before.trans unused
      · exact none

end Parts

section Runs
variable {N : Type} [JsNumber N] {options : WorkerOptions N} {labels : List (Nat × Event N)} {state : Parties.State Nat (Shared N) (Phase N)}

/-- A settle of a run: in the transaction of its handler, at the end of that, or apart. -/
def settles {N : Type} : Event N → Bool
  | .settle _ _ | .finish _ _ | .settleApart _ _ _ => true
  | _ => false

def closed {N : Type} (row : JobRow N) : Bool :=
  row.status = .done ∨ row.status = .failed ∨ row.status = .dead ∨ row.status = .outcomeUnknown

structure Owned {N : Type} (state : Parties.State Nat (Shared N) (Phase N)) : Prop where
  alone : ∀ first second job other, (state.parties first).opened = some job → (state.parties second).opened = some other →
    job.id = other.id → first = second
  /-- What a handler wrote is committed where its outcome is. -/
  together : ∀ run, run ∈ state.shared.written ↔
    ∃ settlement, (run, settlement) ∈ state.shared.returned ∧ (run, settlement) ∈ state.shared.recorded
  bounded : ∀ id row, state.shared.jobs.get? id = some row →
    row.attempts ≤ row.maxAttempts ∧ state.shared.starts id ≤ row.maxAttempts

structure KeepsTo (options : WorkerOptions N) (state : Parties.State Nat (Shared N) (Phase N)) (run : Nat) (event : Event N)
    (next : Parties.State Nat (Shared N) (Phase N)) : Prop where
  commits : run ∉ state.shared.written → run ∈ next.shared.written → ∃ settlement row now random,
    (run, settlement) ∈ state.shared.returned ∧ state.shared.jobs.get? settlement.id = some row ∧
    row.heldBy (options.hashClaimToken settlement.claimToken) = true ∧
    next.shared.jobs.get? settlement.id = some (row.settled settlement.outcome now random)
  reclaimed : ∀ job, settles event = true → claimOf (state.parties run) = some job →
    (∀ row, state.shared.jobs.get? job.id = some row → row.heldBy (hashOf options job) = false) → next.shared.jobs = state.shared.jobs
  closes : ∀ id row, state.shared.jobs.get? id = some row → closed row = true → next.shared.jobs.get? id ≠ some row →
    (∃ action now, event = .resolve id action now) ∨ (row.status = .done ∧ ∃ before, event = .sweep before)

def claimHash (options : WorkerOptions N) (phase : Phase N) : Option Text := (claimOf phase).map (hashOf options)

omit [JsNumber N] in
theorem kept_initial : Kept (initial (N := N)).shared where
  rows id row found := by cases found
  started hash member := by cases member
  unused _ _ := rfl

omit [JsNumber N] in
theorem mine_initial (run : Nat) : Mine options run (initial (N := N)).shared .idle where
  owns job opened := by cases opened
  carries := trivial
  drawn job claim := by cases claim
  waits job waiting := by cases waiting
  records := ⟨List.not_mem_nil, fun _ => List.not_mem_nil⟩

theorem holds_of_runs (runs : Parties.Runs (Parties.performs (perform options)) initial labels state) :
    Parties.Holds Kept (Mine options) state ∧ Parties.Apart (claimHash options) state := by
  refine Parties.invariant_apart ⟨kept_initial, mine_initial⟩ ?_ ?_ ?_ ?_ (Parties.Runs.unguarded runs)
  · intro first second held isFirst
    cases isFirst
  · intro run shared phase event after next kept mine performed
    have does := does_of_perform performed
    exact ⟨kept_of_does does kept mine, mine_of_does does kept mine⟩
  · intro state run event after next held holds _ performed isHash
    obtain ⟨job, claim, rfl⟩ := Option.map_eq_some_iff.mp isHash
    rcases claimOf_of_does (does_of_perform performed) claim with before | ⟨fresh, -, -⟩
    · exact .inl (congrArg (Option.map (hashOf options)) before)
    · refine .inr fun other _ theirs => ?_
      obtain ⟨theirJob, theirClaim, same⟩ := Option.map_eq_some_iff.mp theirs
      exact fresh (same ▸ (holds.each other).drawn theirJob theirClaim)
  · intro run other shared phase event after next beside different apart kept mine theirs performed
    refine mine_beside different kept mine theirs (fun job theirJob claim theirClaim same => ?_) (does_of_perform performed)
    exact apart (hashOf options job) (congrArg (Option.map (hashOf options)) claim)
      ((congrArg (Option.map (hashOf options)) theirClaim).trans (congrArg some same.symm))

omit [JsNumber N] in
theorem owned_of_holds (holds : Parties.Holds Kept (Mine options) state) : Owned state where
  alone first second job other opened alsoOpened sameId := by
    have one := ((holds.each first).owns job opened).1
    have two := ((holds.each second).owns other alsoOpened).1
    exact Option.some.inj (one.symm.trans (sameId ▸ two))
  together run := by
    have records := (holds.each run).records
    generalize state.parties run = phase at records
    cases phase with
    | ended | apart => exact records
    | returned | settling => exact nothing_committed records.2.1 records.2.2
    | _ => exact nothing_committed records.1 records.2
  bounded id row found := by
    have kept := holds.common.rows id row found
    exact ⟨kept.bounded, kept.starts.trans kept.bounded⟩

omit [JsNumber N] in
theorem closed_of_changes {run : Nat} {shared after : Shared N} {phase : Phase N} {event : Event N} {id : Text} {before written : Option (JobRow N)}
    {row : JobRow N} (changes : Changes options run shared phase id event after before written) (isRow : before = some row)
    (isClosed : closed row = true) (differs : written ≠ some row) :
    (∃ action now, event = .resolve id action now) ∨ (row.status = .done ∧ ∃ before, event = .sweep before) := by
  have notRunning : row.status ≠ .running := by
    intro running
    simp [closed, running] at isClosed
  have notQueued : row.status ≠ .queued := by
    intro queued
    simp [closed, queued] at isClosed
  cases changes with
  | same => exact absurd isRow differs
  | closes _ exhausted =>
    obtain rfl := Option.some.inj isRow
    simp [JobRow.exhausted, JobRow.expired, notRunning] at exhausted
  | hands _ due =>
    obtain rfl := Option.some.inj isRow
    simp [JobRow.due, JobRow.expired, notRunning, notQueued] at due
  | settles _ _ _ _ _ held =>
    obtain rfl := Option.some.inj isRow
    exact absurd (running_of_held held).1 notRunning
  | enqueues => cases isRow
  | resolves => exact .inl ⟨_, _, rfl⟩
  | sweeps swept =>
    obtain rfl := Option.some.inj isRow
    exact .inr ⟨(of_decide_eq_true swept).1, _, rfl⟩

theorem commits_of_does {run : Nat} {shared after : Shared N} {phase next : Phase N} {event : Event N}
    (does : Does options run shared phase event after next) (mine : Mine options run shared phase) (unwritten : run ∉ shared.written)
    (wrote : run ∈ after.written) : ∃ settlement row now random, (run, settlement) ∈ shared.returned ∧
      shared.jobs.get? settlement.id = some row ∧ row.heldBy (options.hashClaimToken settlement.claimToken) = true ∧
      after.jobs.get? settlement.id = some (row.settled settlement.outcome now random) := by
  cases does with
  | @commits job settlement pending =>
    obtain ⟨-, row, found, held⟩ := mine.owns job rfl
    obtain ⟨⟨⟨isId, isToken⟩, -⟩, now, random, rfl⟩ := mine.carries
    have isHeld : row.heldBy (options.hashClaimToken settlement.claimToken) = true := by
      rw [isToken]
      exact held
    refine ⟨settlement, row, now, random, mine.records.1, isId ▸ found, isHeld, ?_⟩
    show (Option.elim _ _ _ : JobTable N).get? _ = _
    rw [settleJob_of_held (isId ▸ found) isHeld, Option.elim_some, OrderedMap.get?_set_self]
  | _ => exact absurd wrote unwritten

theorem reclaimed_of_does {run : Nat} {shared after : Shared N} {phase next : Phase N} {event : Event N}
    (does : Does options run shared phase event after next) (mine : Mine options run shared phase) (isSettle : settles event = true)
    {job : ClaimedJob N} (claim : claimOf phase = some job)
    (lost : ∀ row, shared.jobs.get? job.id = some row → row.heldBy (hashOf options job) = false) : after.jobs = shared.jobs := by
  have notOpened : phase.opened ≠ some job := by
    intro opened
    obtain ⟨-, row, found, held⟩ := mine.owns job opened
    exact absurd (held.symm.trans (lost row found)) Bool.true_eq_false.mp
  cases does with
  | refuses | commits => exact absurd claim notOpened
  | @settlesApart own settlement now random =>
    obtain rfl := Option.some.inj claim
    obtain ⟨⟨isId, isToken⟩, -⟩ := mine.carries
    have nothing : settleJob options.hashClaimToken now random settlement shared.jobs = none := by
      refine settleJob_reclaimed fun row found => ?_
      rw [isToken]
      exact lost row (isId ▸ found)
    rw [nothing]
    rfl
  | enqueues | requeues | resolves | sweeps | claims => exact absurd isSettle Bool.false_ne_true
  | _ => rfl

/-- A queued job has one owner at a time, and what its handler wrote is committed with the
outcome that it returned alone, on any runs of workers, operators and sweeps. -/
theorem one_owner (runs : Parties.Runs (Parties.performs (perform options)) initial labels state) :
    Owned state ∧ ∀ run event next, Parties.Step (Parties.performs (perform options)) state (run, event) next →
      KeepsTo options state run event next := by
  obtain ⟨holds, -⟩ := holds_of_runs runs
  refine ⟨owned_of_holds holds, fun run event next taken => ?_⟩
  cases taken with
  | @act _ _ shared own performed =>
    have does := does_of_perform performed
    have mine := holds.each run
    exact {
      commits := fun unwritten wrote => commits_of_does does mine unwritten wrote
      reclaimed := fun job isSettle claim lost => reclaimed_of_does does mine isSettle claim lost
      closes := fun id row found isClosed differs =>
        closed_of_changes (changes_of_does does (known_of_kept holds.common) mine.owns mine.carries id) found isClosed differs }

def tokenOf (digit : Char) : Text := List.replicate 64 (unit digit)

def mailWorker : WorkerOptions Whole where
  hashClaimToken token :=
    if token = tokenOf '0' then js "60e05bd1b195af2f94112fa7197a5c88289058840ce7c6df9693756bc6250f55"
    else if token = tokenOf '1' then js "3138bb9bc78df27c473ecfd1410f7bd45ebac1f59cf3ff9cfe4db77aab7aedd3"
    else []
  handles kind := decide (kind = js "mail.deliver")
  lease := 120000000
  kinds := none
  stringOf _ := js "[object Object]"
  timeOf _ := 0
  parseDate _ := none

def mailJob : EnqueueJobInput Whole := ⟨js "t", js "u", js "mail.deliver", .object [], none, none⟩

def delivered : List (Nat × Event Whole) :=
  [(0, .enqueue (js "j") mailJob 0), (0, .claim (fun _ => tokenOf '0') 0 .committed), (0, .begin), (0, .accept), (0, .answer .undefined),
    (0, .settle 1 0), (0, .finish .committed ⟨[], none, none⟩)]

theorem one_owner_delivered : ∃ final, Parties.play (perform mailWorker) initial delivered = some final ∧ final.shared.written = [0] ∧
    Owned final ∧ ∀ run event next, Parties.Step (Parties.performs (perform mailWorker)) final (run, event) next →
      KeepsTo mailWorker final run event next := by
  have played : (Parties.play (perform mailWorker) initial delivered).map (fun final => final.shared.written) = some [0] := by decide +kernel
  obtain ⟨final, isFinal, wrote⟩ := Option.map_eq_some_iff.mp played
  exact ⟨final, isFinal, wrote, one_owner (Parties.runs_of_play _ isFinal)⟩

end Runs

end OpenShapeForge.Jobs.OneOwner
