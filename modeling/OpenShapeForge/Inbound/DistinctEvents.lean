import OpenShapeForge.Inbound.Admission
import OpenShapeForge.Inbound.IdentityKeys
import OpenShapeForge.Inbound.ProfileColumns
import OpenShapeForge.Js.Whole

/-! Every receipt stands for one key, is accepted once and dispatched once; and two bodies that
share one are one event, unless they write what they declare in ways that render alike. -/

namespace OpenShapeForge.Inbound.DistinctEvents
open Js Library RowLocks DeliveryIdentity IdentityKeys Admission
open Jobs.JobStore (Timestamp JobRow enqueuedRow)

section Claims
variable {Tx N : Type} [JsNumber N]

def EventsKept (profile : InboundIdentityProfile) (answers : List Answer) : Prop :=
  ∀ first ∈ answers, ∀ second ∈ answers, ∀ one two, first.admission.receipt = some one →
    second.admission.receipt = some two → (one = two ↔ SameEvent profile first.body second.body)

/-- No two of the bodies that were answered with a receipt are ambiguous. -/
def Unambiguous (nearest : ℚ → N) (profile : InboundIdentityProfile) (answers : List Answer) : Prop :=
  ∀ first ∈ answers, ∀ second ∈ answers, first.admission.receipt.isSome = true →
    second.admission.receipt.isSome = true → ¬Ambiguous nearest profile first.body second.body

def Dispatches (job : Text × JobRow N) (id : Text) : Prop := job.2.payload = .object [(js "deliveryId", .text id)]

/-- What holds of the receipts themselves: every answer with one names a delivery that is
there, and each delivery was accepted once and has one job. -/
structure ReceiptsOnce (state : State Tx N) : Prop where
  received : ∀ answer ∈ state.answers, ∀ id, answer.admission.receipt = some id →
    ∃ key row, state.deliveries.committed key = some row ∧ row.id = id
  accepted : ∀ key row, state.deliveries.committed key = some row →
    state.answers.countP (fun answer => answer.admission = .accepted row.id) = 1
  dispatched : ∀ key row, state.deliveries.committed key = some row →
    ∃ at' job, state.jobs.committed at' = some job ∧ Dispatches job row.id ∧
      ∀ other found, state.jobs.committed other = some found → Dispatches found row.id → other = at'

end Claims

section Keys
variable {N : Type} [JsNumber N] {host : Host N} {registered : EndpointRow}

structure Keyed (host : Host N) (profile : InboundIdentityProfile) (endpointId : Text) (attempt : Attempt) : Prop where
  read : ∃ identity, readSignedDeliveryIdentity host.nearest profile attempt.body (bodyDigest host attempt.body) = some identity ∧
    attempt.input.idempotencyKey = inboundDeliveryKey host endpointId identity.keySource

theorem keyed_of_examine {request : InboundAdmissionRequest} {met : Surroundings} {deliveryId : Text} {input : RecordInboundDeliveryInput}
    {profile : InboundIdentityProfile} (stored : storedInboundIdentity N registered.identity = some profile)
    (isRow : ∀ row, met.row = some row → ∃ status, row = { registered with status })
    (examined : examine host request met deliveryId = .ok input) : Keyed host profile registered.id ⟨request.body, input⟩ := by
  unfold examine at examined
  split at examined
  next => cases examined
  split at examined
  next => cases examined
  split at examined
  next => cases examined
  split at examined
  next => cases examined
  next => cases examined
  next tenantId _ =>
    split at examined
    next => cases examined
    split at examined
    next => cases examined
    next endpoint isEndpoint =>
      split at examined
      next => cases examined
      split at examined
      next scheme secret _ _ =>
        split at examined
        next => cases examined
        split at examined
        next => cases examined
        next identity isIdentity =>
          split at examined
          next => cases examined
          next sealedBody _ =>
            cases examined
            obtain ⟨row, met', made⟩ := Option.bind_eq_some_iff.mp isEndpoint
            obtain ⟨status, rfl⟩ := isRow row met'
            obtain ⟨found, isFound, rfl⟩ := Option.map_eq_some_iff.mp made
            cases stored.symm.trans isFound
            exact ⟨identity, isIdentity, rfl⟩
      next => cases examined

theorem refused_of_examine {request : InboundAdmissionRequest} {met : Surroundings} {deliveryId : Text} {answer : RuntimeInboundAdmission}
    (examined : examine host request met deliveryId = .error answer) : answer.receipt = none := by
  have refusals : examine host request met deliveryId = .error answer → answer = .rejected ∨ answer = .unavailable := by
    unfold examine
    intro examined
    repeat' split at examined
    all_goals
      cases examined <;> simp
  rcases refusals examined with rfl | rfl
  · rfl
  · rfl

theorem keys_same (collisionFree : Function.Injective host.sha256) {profile : InboundIdentityProfile} {endpointId : Text} {one two : Attempt}
    (first : Keyed host profile endpointId one) (second : Keyed host profile endpointId two) :
    one.input.idempotencyKey = two.input.idempotencyKey ↔
      SameEvent profile one.body two.body ∨ Ambiguous host.nearest profile one.body two.body := by
  obtain ⟨identity, isFirst, firstKey⟩ := first.read
  obtain ⟨other, isSecond, secondKey⟩ := second.read
  have sources : one.input.idempotencyKey = two.input.idempotencyKey ↔ identity.keySource = other.keySource := by
    rw [firstKey, secondKey]
    constructor
    · intro same
      have octets := collisionFree (hex_inj (List.append_cancel_left same))
      have written := toWellFormed_of_utf8 octets
      rw [wellFormed_keySource (wellFormed_hex _) isFirst, wellFormed_keySource (wellFormed_hex _) isSecond] at written
      exact written
    · exact congrArg (inboundDeliveryKey host endpointId)
  rw [sources]
  cases isSource : profile.source with
  | bodyDigest =>
    have notFields : ¬Ambiguous host.nearest profile one.body two.body := fun ambiguous => by
      have ofFields := ambiguous.1
      rw [isSource] at ofFields
      cases ofFields
    have event : SameEvent profile one.body two.body ↔ one.body = two.body := by rw [SameEvent, isSource]
    rw [read_digest isSource isFirst, read_digest isSource isSecond, event, or_iff_left notFields]
    constructor
    · exact fun same => collisionFree (hex_inj (List.append_cancel_left same))
    · exact fun same => by rw [same]
  | bodyField => exact fields_same isSource isFirst isSecond

theorem different_of_confused {nearest : ℚ → N} {one two : Scalar} (confused : Confused nearest one two) : one ≠ two := by
  rintro rfl
  cases one with
  | boolean => exact confused
  | number => exact confused.1 rfl
  | text => exact confused

theorem different_of_ambiguous {nearest : ℚ → N} {profile : InboundIdentityProfile} {first second : List UInt8}
    (ambiguous : Ambiguous nearest profile first second) : ¬SameEvent profile first second := by
  obtain ⟨ofFields, -, field, member, a, b, isA, isB, confused⟩ := ambiguous
  intro same
  rw [SameEvent, ofFields] at same
  obtain ⟨scalar, one, two⟩ := same field member
  cases isA.symm.trans one
  cases isB.symm.trans two
  exact different_of_confused confused rfl

end Keys

section Coherence
variable {Tx N : Type} [JsNumber N] (host : Host N) (profile : InboundIdentityProfile) (endpointId : Text)

def Silent {Row : Type} (store : Store Tx Text Row) (tx : Tx) : Prop := ∀ key, (store.sessions tx).written key = none

structure Only {Row : Type} (store : Store Tx Text Row) (tx : Tx) (key : Text) (row : Row) : Prop where
  own : (store.sessions tx).written key = some (some row)
  others : ∀ other, other ≠ key → (store.sessions tx).written other = none

/-- The receipt of an attempt is written, and its key is not committed. -/
def Inserted (state : State Tx N) (tx : Tx) (attempt : Attempt) : Prop :=
  state.deliveries.committed attempt.input.idempotencyKey = none ∧
    ∃ row, Only state.deliveries tx attempt.input.idempotencyKey row ∧ row.id = attempt.input.deliveryId

/-- So is the job that dispatches it. -/
def Queued (state : State Tx N) (tx : Tx) (attempt : Attempt) : Prop :=
  Inserted state tx attempt ∧ ∃ job, Only state.jobs tx attempt.input.idempotencyKey job ∧ Dispatches job attempt.input.deliveryId

def Written (state : State Tx N) (tx : Tx) : Phase → Prop
  | .idle => Silent state.deliveries tx ∧ Silent state.jobs tx
  | .begun attempt | .conflicted attempt => Keyed host profile endpointId attempt ∧ Silent state.deliveries tx ∧ Silent state.jobs tx
  | .inserted attempt => Keyed host profile endpointId attempt ∧ Inserted state tx attempt ∧ Silent state.jobs tx
  | .enqueued attempt _ => Keyed host profile endpointId attempt ∧ Queued state tx attempt
  | .recorded attempt (.accepted id) => Keyed host profile endpointId attempt ∧ Queued state tx attempt ∧ id = attempt.input.deliveryId
  | .recorded attempt (.duplicate id) =>
    Keyed host profile endpointId attempt ∧ (Silent state.deliveries tx ∧ Silent state.jobs tx) ∧
      ∃ row, state.deliveries.committed attempt.input.idempotencyKey = some row ∧ row.id = id
  | .recorded _ _ => False

structure Coherent (state : State Tx N) : Prop where
  deliveries : state.deliveries.Consistent
  jobs : state.jobs.Consistent
  phases : ∀ tx, Written host profile endpointId state tx (state.phases tx)
  paired : ∀ key row, state.deliveries.committed key = some row → ∃ job, state.jobs.committed key = some job ∧ Dispatches job row.id
  backed : ∀ key job, state.jobs.committed key = some job → ∃ row, state.deliveries.committed key = some row ∧ Dispatches job row.id
  distinct : ∀ key other row found, state.Present key row → state.Present other found → row.id = found.id → key = other
  answered : ∀ answer ∈ state.answers, ∀ id, answer.admission.receipt = some id →
    ∃ attempt, Keyed host profile endpointId attempt ∧ answer.body = attempt.body ∧
      ∃ row, state.deliveries.committed attempt.input.idempotencyKey = some row ∧ row.id = id
  once : ∀ key row, state.deliveries.committed key = some row →
    state.answers.countP (fun answer => answer.admission = .accepted row.id) = 1

variable {host profile endpointId} {state next : State Tx N} {tx other : Tx} {phase : Phase}

theorem silent_congr {Row : Type} {store after : Store Tx Text Row} (same : (after.sessions tx).written = (store.sessions tx).written)
    (silent : Silent store tx) : Silent after tx := by
  intro key
  rw [same]
  exact silent key

theorem only_congr {Row : Type} {store after : Store Tx Text Row} {key : Text} {row : Row}
    (same : (after.sessions tx).written = (store.sessions tx).written) (only : Only store tx key row) : Only after tx key row := by
  refine ⟨?_, fun at' different => ?_⟩
  · rw [same]
    exact only.own
  · rw [same]
    exact only.others at' different

theorem written_frame (own : Written host profile endpointId state tx phase)
    (deliveries : (next.deliveries.sessions tx).written = (state.deliveries.sessions tx).written)
    (jobs : (next.jobs.sessions tx).written = (state.jobs.sessions tx).written)
    (kept : ∀ key row, state.deliveries.committed key = some row → next.deliveries.committed key = some row)
    (free : ∀ key, (state.deliveries.sessions tx).written key ≠ none → next.deliveries.committed key = state.deliveries.committed key) :
    Written host profile endpointId next tx phase := by
  have inserted : ∀ attempt, Inserted state tx attempt → Inserted next tx attempt := by
    rintro attempt ⟨none', row, only, isId⟩
    have isWritten : (state.deliveries.sessions tx).written attempt.input.idempotencyKey ≠ none := by
      rw [only.own]
      exact Option.some_ne_none _
    exact ⟨(free _ isWritten).trans none', row, only_congr deliveries only, isId⟩
  have queued : ∀ attempt, Queued state tx attempt → Queued next tx attempt := by
    rintro attempt ⟨isInserted, job, only, dispatches⟩
    exact ⟨inserted attempt isInserted, job, only_congr jobs only, dispatches⟩
  have silent : Silent state.deliveries tx ∧ Silent state.jobs tx → Silent next.deliveries tx ∧ Silent next.jobs tx :=
    And.imp (silent_congr deliveries) (silent_congr jobs)
  cases phase with
  | idle => exact silent own
  | begun attempt => exact ⟨own.1, silent own.2⟩
  | conflicted attempt => exact ⟨own.1, silent own.2⟩
  | inserted attempt => exact ⟨own.1, inserted attempt own.2.1, silent_congr jobs own.2.2⟩
  | enqueued attempt job => exact ⟨own.1, queued attempt own.2⟩
  | recorded attempt answer =>
    cases answer with
    | rejected => exact own
    | unavailable => exact own
    | accepted id => exact ⟨own.1, queued attempt own.2.1, own.2.2⟩
    | duplicate id =>
      obtain ⟨keyed, isSilent, row, isRow, isId⟩ := own
      exact ⟨keyed, silent isSilent, row, kept _ row isRow, isId⟩

theorem coherent_empty : Coherent host profile endpointId (.empty : State Tx N) where
  deliveries := .idle _
  jobs := .idle _
  phases _ := ⟨fun _ => rfl, fun _ => rfl⟩
  paired _ _ isRow := by cases isRow
  backed _ _ isJob := by cases isJob
  distinct _ _ _ _ present _ _ := by
    rcases present with isRow | ⟨_, isRow⟩
    · cases isRow
    · cases isRow
  answered _ member := by cases member
  once _ _ isRow := by cases isRow

theorem coherent_tell (coherent : Coherent host profile endpointId state) {body : List UInt8} {answer : RuntimeInboundAdmission}
    (notAccepted : ∀ id, answer ≠ .accepted id) (backed : ∀ id, answer.receipt = some id →
      ∃ attempt, Keyed host profile endpointId attempt ∧ body = attempt.body ∧
        ∃ row, state.deliveries.committed attempt.input.idempotencyKey = some row ∧ row.id = id) :
    Coherent host profile endpointId (state.tell body answer) where
  deliveries := coherent.deliveries
  jobs := coherent.jobs
  phases other := written_frame (coherent.phases other) rfl rfl (fun _ _ isRow => isRow) fun _ _ => rfl
  paired := coherent.paired
  backed := coherent.backed
  distinct := coherent.distinct
  answered told member id isReceipt := by
    rcases List.mem_append.mp member with early | last
    · exact coherent.answered told early id isReceipt
    · rw [List.mem_singleton.mp last] at isReceipt ⊢
      exact backed id isReceipt
  once key row isRow := by
    have count := coherent.once key row isRow
    rw [State.tell, List.countP_append, count, List.countP_singleton]
    simp [notAccepted row.id]

variable [DecidableEq Tx]

theorem phases_enter (own : Written host profile endpointId state tx phase)
    (others : ∀ other, other ≠ tx → Written host profile endpointId state other (state.phases other)) (other : Tx) :
    Written host profile endpointId (state.enter tx phase) other ((state.enter tx phase).phases other) := by
  have entered : Written host profile endpointId state other ((state.enter tx phase).phases other) := by
    change Written host profile endpointId state other (Function.update state.phases tx phase other)
    by_cases same : other = tx
    · subst same
      rw [Function.update_self]
      exact own
    · rw [Function.update_of_ne same]
      exact others other same
  exact written_frame entered rfl rfl (fun _ _ isRow => isRow) fun _ _ => rfl

theorem coherent_enter (coherent : Coherent host profile endpointId state) (own : Written host profile endpointId state tx phase) :
    Coherent host profile endpointId (state.enter tx phase) where
  deliveries := coherent.deliveries
  jobs := coherent.jobs
  phases := phases_enter own fun other _ => coherent.phases other
  paired := coherent.paired
  backed := coherent.backed
  distinct := coherent.distinct
  answered := coherent.answered
  once := coherent.once

theorem coherent_keep (coherent : Coherent host profile endpointId state) {key : Text} {row : InboundDelivery}
    (grants : state.deliveries.Grants tx key .update) (fresh : ∀ other found, state.Present other found → found.id = row.id → other = key)
    (own : Written host profile endpointId (state.keep tx key row) tx phase) :
    Coherent host profile endpointId ((state.keep tx key row).enter tx phase) := by
  have present : ∀ other found, (state.keep tx key row).Present other found → (other = key ∧ found = row) ∨ state.Present other found := by
    rintro other found (isRow | ⟨writer, isRow⟩)
    · exact .inr (.inl isRow)
    · by_cases same : writer = tx
      · subst same
        rw [State.keep, Store.put_written] at isRow
        split at isRow
        next atKey =>
          cases isRow
          exact .inl ⟨atKey, rfl⟩
        next => exact .inr (.inr ⟨writer, isRow⟩)
      · rw [State.keep, Store.put_written_other same] at isRow
        exact .inr (.inr ⟨writer, isRow⟩)
  exact {
    deliveries := coherent.deliveries.put grants
    jobs := coherent.jobs
    phases := phases_enter own fun other different =>
      written_frame (coherent.phases other) (Store.put_written_other different) rfl (fun _ _ isRow => isRow) fun _ _ => rfl
    paired := coherent.paired
    backed := coherent.backed
    distinct := fun one two first second isFirst isSecond same => by
      rcases present one first isFirst with ⟨rfl, rfl⟩ | early
      · rcases present two second isSecond with ⟨rfl, rfl⟩ | late
        · rfl
        · exact (fresh two second late same.symm).symm
      · rcases present two second isSecond with ⟨rfl, rfl⟩ | late
        · exact fresh one first early same
        · exact coherent.distinct one two first second early late same
    answered := coherent.answered
    once := coherent.once }

theorem coherent_queue (coherent : Coherent host profile endpointId state) {key : Text} {job : Text × JobRow N}
    (grants : state.jobs.Grants tx key .update) (own : Written host profile endpointId (state.queue tx key job) tx phase) :
    Coherent host profile endpointId ((state.queue tx key job).enter tx phase) where
  deliveries := coherent.deliveries
  jobs := coherent.jobs.put grants
  phases := phases_enter own fun other different =>
    written_frame (coherent.phases other) rfl (Store.put_written_other different) (fun _ _ isRow => isRow) fun _ _ => rfl
  paired := coherent.paired
  backed := coherent.backed
  distinct := coherent.distinct
  answered := coherent.answered
  once := coherent.once

theorem coherent_rollback (coherent : Coherent host profile endpointId state) :
    Coherent host profile endpointId ((state.rollback tx).enter tx .idle) where
  deliveries := coherent.deliveries.rollback
  jobs := coherent.jobs.rollback
  phases := by
    have own : Written host profile endpointId (state.rollback tx) tx .idle := by
      refine ⟨fun key => ?_, fun key => ?_⟩
      · rw [State.rollback, Store.rollback_own]
        rfl
      · rw [State.rollback, Store.rollback_own]
        rfl
    exact phases_enter own fun other different =>
      written_frame (coherent.phases other) (congrArg Session.written (Store.rollback_session different))
        (congrArg Session.written (Store.rollback_session different)) (fun _ _ isRow => isRow) fun _ _ => rfl
  paired := coherent.paired
  backed := coherent.backed
  distinct one two first second isFirst isSecond := by
    have present : ∀ key row, (state.rollback tx).Present key row → state.Present key row := by
      rintro key row (isRow | ⟨other, isRow⟩)
      · exact .inl isRow
      · by_cases same : other = tx
        · subst same
          rw [State.rollback, Store.rollback_own] at isRow
          cases isRow
        · rw [State.rollback, Store.rollback_session same] at isRow
          exact .inr ⟨other, isRow⟩
    exact coherent.distinct one two first second (present one first isFirst) (present two second isSecond)
  answered := coherent.answered
  once := coherent.once

theorem commit_silent {Row : Type} {store : Store Tx Text Row} (silent : Silent store tx) : store.commit tx = store.rollback tx := by
  have seen : store.view tx = store.committed := funext fun key => Store.view_of_unwritten (silent key)
  unfold Store.commit Store.rollback Store.put
  rw [seen]

theorem commit_only {Row : Type} {store : Store Tx Text Row} {key at' : Text} {row : Row} (only : Only store tx key row) :
    (store.commit tx).committed at' = if at' = key then some row else store.committed at' := by
  rw [Store.commit_committed]
  split
  next atKey =>
    rw [atKey]
    exact Store.view_of_written only.own
  next different => exact Store.view_of_unwritten (only.others at' different)

theorem coherent_commit_duplicate (coherent : Coherent host profile endpointId state) {attempt : Attempt} {id : Text}
    (own : Written host profile endpointId state tx (.recorded attempt (.duplicate id))) :
    Coherent host profile endpointId (((state.commit tx).enter tx .idle).tell attempt.body (.duplicate id)) := by
  obtain ⟨keyed, ⟨deliveries, jobs⟩, row, isRow, isId⟩ := own
  have same : state.commit tx = state.rollback tx := by
    rw [State.commit, State.rollback, commit_silent deliveries, commit_silent jobs]
  rw [same]
  refine coherent_tell (coherent_rollback coherent) (fun _ other => by cases other) fun named isReceipt => ?_
  cases isReceipt
  exact ⟨attempt, keyed, rfl, row, isRow, isId⟩

theorem coherent_commit_accepted (coherent : Coherent host profile endpointId state) {attempt : Attempt}
    (keyed : Keyed host profile endpointId attempt) (queued : Queued state tx attempt) :
    Coherent host profile endpointId
      (((state.commit tx).enter tx .idle).tell attempt.body (.accepted attempt.input.deliveryId)) := by
  obtain ⟨⟨free, row, only, isId⟩, job, onlyJob, dispatches⟩ := queued
  have atDeliveries : ∀ key, (state.commit tx).deliveries.committed key =
      if key = attempt.input.idempotencyKey then some row else state.deliveries.committed key := fun key => commit_only only
  have atJobs : ∀ key, (state.commit tx).jobs.committed key =
      if key = attempt.input.idempotencyKey then some job else state.jobs.committed key := fun key => commit_only onlyJob
  have kept : ∀ key found, state.deliveries.committed key = some found → (state.commit tx).deliveries.committed key = some found := by
    intro key found isFound
    rw [atDeliveries, if_neg]
    · exact isFound
    · rintro rfl
      rw [free] at isFound
      cases isFound
  have isPresent : state.Present attempt.input.idempotencyKey row := .inr ⟨tx, only.own⟩
  have own : Written host profile endpointId (state.commit tx) tx .idle := by
    refine ⟨fun key => ?_, fun key => ?_⟩
    · rw [State.commit, Store.commit_own]
      rfl
    · rw [State.commit, Store.commit_own]
      rfl
  have present : ∀ key found, (state.commit tx).Present key found → state.Present key found := by
    rintro key found (isRow | ⟨other, isRow⟩)
    · rw [atDeliveries] at isRow
      split at isRow
      next atKey =>
        cases isRow
        exact atKey ▸ isPresent
      next => exact .inl isRow
    · by_cases same : other = tx
      · subst same
        rw [State.commit, Store.commit_own] at isRow
        cases isRow
      · rw [State.commit, Store.commit_session same] at isRow
        exact .inr ⟨other, isRow⟩
  exact {
    deliveries := coherent.deliveries.commit
    jobs := coherent.jobs.commit
    phases := fun other => by
      have entered := phases_enter own (fun other different =>
        written_frame (coherent.phases other) (congrArg Session.written (Store.commit_session different))
          (congrArg Session.written (Store.commit_session different)) kept fun key isWritten =>
            coherent.deliveries.committed_owned different (coherent.deliveries.owned other key isWritten)) other
      exact written_frame entered rfl rfl (fun _ _ isRow => isRow) fun _ _ => rfl
    paired := fun key found isFound => by
      change (state.commit tx).deliveries.committed key = some found at isFound
      change ∃ job, (state.commit tx).jobs.committed key = some job ∧ Dispatches job found.id
      rw [atDeliveries] at isFound
      rw [atJobs]
      split at isFound
      next atKey =>
        cases isFound
        rw [if_pos atKey]
        exact ⟨job, rfl, isId ▸ dispatches⟩
      next different =>
        rw [if_neg different]
        exact coherent.paired key found isFound
    backed := fun key found isFound => by
      change (state.commit tx).jobs.committed key = some found at isFound
      change ∃ row, (state.commit tx).deliveries.committed key = some row ∧ Dispatches found row.id
      rw [atJobs] at isFound
      rw [atDeliveries]
      split at isFound
      next atKey =>
        cases isFound
        rw [if_pos atKey]
        exact ⟨row, rfl, isId ▸ dispatches⟩
      next different =>
        rw [if_neg different]
        exact coherent.backed key found isFound
    distinct := fun one two first second isFirst isSecond =>
      coherent.distinct one two first second (present one first isFirst) (present two second isSecond)
    answered := fun told member id isReceipt => by
      rcases List.mem_append.mp member with early | last
      · obtain ⟨before, isKeyed, isBody, found, isFound, same⟩ := coherent.answered told early id isReceipt
        exact ⟨before, isKeyed, isBody, found, kept _ found isFound, same⟩
      · obtain rfl := List.mem_singleton.mp last
        obtain rfl : attempt.input.deliveryId = id := Option.some.inj isReceipt
        exact ⟨attempt, keyed, rfl, row, (atDeliveries attempt.input.idempotencyKey).trans (if_pos rfl), isId⟩
    once := fun key found isFound => by
      change (state.commit tx).deliveries.committed key = some found at isFound
      change (state.answers ++ [Answer.mk attempt.body (.accepted attempt.input.deliveryId)]).countP _ = 1
      rw [List.countP_append, List.countP_singleton]
      rw [atDeliveries] at isFound
      split at isFound
      next atKey =>
        cases isFound
        -- Whoever was told of this id before was told of a receipt that is committed.
        have none' : state.answers.countP (fun answer => answer.admission = .accepted row.id) = 0 := by
          rw [List.countP_eq_zero]
          intro told member isAccepted
          have receipt : told.admission.receipt = some row.id := by
            rw [of_decide_eq_true isAccepted]
            rfl
          obtain ⟨before, -, -, other, isOther, same⟩ := coherent.answered told member row.id receipt
          have keys := coherent.distinct _ _ other row (.inl isOther) isPresent same
          rw [keys, free] at isOther
          cases isOther
        rw [none', isId]
        simp
      next different =>
        have other : attempt.input.deliveryId ≠ found.id := by
          intro same
          exact different (coherent.distinct _ _ found row (.inl isFound) isPresent (same.symm.trans isId.symm))
        rw [coherent.once key found isFound]
        simp [other] }

variable {registered : EndpointRow}

theorem coherent_step {action : Action Tx} (stored : storedInboundIdentity N registered.identity = some profile)
    (coherent : Coherent host profile registered.id state) (taken : Step host registered state action next) :
    Coherent host profile registered.id next := by
  have seen : ∀ {tx : Tx} {key : Text}, Silent state.deliveries tx → state.deliveries.view tx key = state.deliveries.committed key :=
    fun silent => Store.view_of_unwritten (silent _)
  cases taken with
  | @admitEvent tx request met deliveryId input isIdle isRow examined =>
    have own := coherent.phases tx
    rw [isIdle] at own
    exact coherent_enter coherent ⟨keyed_of_examine stored isRow examined, own⟩
  | @refuse tx request met deliveryId answer isIdle isRow examined =>
    have refused := refused_of_examine examined
    exact coherent_tell coherent (fun id same => by rw [same] at refused; cases refused) fun id isReceipt => by
      rw [refused] at isReceipt
      cases isReceipt
  | @insert tx attempt isBegun grants unseen fresh =>
    have own := coherent.phases tx
    rw [isBegun] at own
    obtain ⟨keyed, deliveries, jobs⟩ := own
    refine coherent_keep coherent grants (fun other found present same => absurd same (fresh other found present)) ?_
    refine ⟨keyed, ⟨(seen deliveries).symm.trans unseen, attempt.input.row, ⟨?_, fun other different => ?_⟩, rfl⟩, jobs⟩
    · rw [State.keep, Store.put_written, if_pos rfl]
    · rw [State.keep, Store.put_written, if_neg different]
      exact deliveries other
  | @conflict tx attempt row isBegun isRow =>
    have own := coherent.phases tx
    rw [isBegun] at own
    exact coherent_enter coherent own
  | @read tx attempt row isConflicted isRow =>
    have own := coherent.phases tx
    rw [isConflicted] at own
    exact coherent_enter coherent ⟨own.1, own.2, row, (seen own.2.1).symm.trans isRow, rfl⟩
  | @enqueue tx attempt job now row isInserted grants unseen made =>
    have own := coherent.phases tx
    rw [isInserted] at own
    obtain ⟨keyed, inserted, jobs⟩ := own
    have payload : Dispatches (job, row) attempt.input.deliveryId := by
      unfold enqueuedRow at made
      dsimp only at made
      split at made
      next => cases made
      next =>
        cases made
        rfl
    refine coherent_queue coherent grants ⟨keyed, inserted, (job, row), ⟨?_, fun other different => ?_⟩, payload⟩
    · rw [State.queue, Store.put_written, if_pos rfl]
    · rw [State.queue, Store.put_written, if_neg different]
      exact jobs other
  | @enqueued tx attempt job now known isInserted isKnown =>
    -- Its receipt would be committed, which it is not.
    have own := coherent.phases tx
    rw [isInserted] at own
    obtain ⟨-, ⟨free, -⟩, jobs⟩ := own
    rw [Store.view_of_unwritten (jobs _)] at isKnown
    obtain ⟨row, isRow, -⟩ := coherent.backed _ known isKnown
    rw [free] at isRow
    cases isRow
  | @link tx attempt job row isEnqueued grants isRow =>
    have own := coherent.phases tx
    rw [isEnqueued] at own
    obtain ⟨keyed, ⟨free, before, only, isId⟩, queued⟩ := own
    cases (Store.view_of_written only.own).symm.trans isRow
    refine coherent_keep coherent grants (fun other found present same =>
      coherent.distinct other _ found row present (.inr ⟨tx, only.own⟩) same) ?_
    refine ⟨keyed, ⟨⟨free, { row with dispatchJobId := some job }, ⟨?_, fun other different => ?_⟩, isId⟩, queued⟩, rfl⟩
    · rw [State.keep, Store.put_written, if_pos rfl]
    · rw [State.keep, Store.put_written, if_neg different]
      exact only.others other different
  | @commit tx attempt answer isRecorded =>
    have own := coherent.phases tx
    rw [isRecorded] at own
    cases answer with
    | rejected => exact absurd own id
    | unavailable => exact absurd own id
    | accepted id =>
      obtain ⟨keyed, queued, rfl⟩ := own
      exact coherent_commit_accepted coherent keyed queued
    | duplicate id => exact coherent_commit_duplicate coherent own
  | @fail tx =>
    exact coherent_tell (coherent_rollback coherent) (fun _ other => by cases other) fun _ isReceipt => by cases isReceipt

end Coherence

section Events
variable {Tx N : Type} [JsNumber N] {host : Host N} {profile : InboundIdentityProfile} {endpointId : Text} {state : State Tx N}

omit [JsNumber N] in
theorem dispatches_inj {job : Text × JobRow N} {one two : Text} (first : Dispatches job one) (second : Dispatches job two) : one = two := by
  have same := first.symm.trans second
  simpa using same

theorem receiptsOnce (coherent : Coherent host profile endpointId state) : ReceiptsOnce state where
  received answer member id isReceipt := by
    obtain ⟨attempt, -, -, row, isRow, isId⟩ := coherent.answered answer member id isReceipt
    exact ⟨_, row, isRow, isId⟩
  accepted := coherent.once
  dispatched key row isRow := by
    obtain ⟨job, isJob, dispatches⟩ := coherent.paired key row isRow
    refine ⟨key, job, isJob, dispatches, fun other found isFound alike => ?_⟩
    obtain ⟨backing, isBacking, same⟩ := coherent.backed other found isFound
    exact coherent.distinct other key backing row (.inl isBacking) (.inl isRow) (dispatches_inj same alike)

theorem receipts_same (collisionFree : Function.Injective host.sha256) (coherent : Coherent host profile endpointId state)
    {first second : Answer} (isFirst : first ∈ state.answers) (isSecond : second ∈ state.answers) {one two : Text}
    (one' : first.admission.receipt = some one) (two' : second.admission.receipt = some two) :
    one = two ↔ SameEvent profile first.body second.body ∨ Ambiguous host.nearest profile first.body second.body := by
  obtain ⟨early, keyed, body, row, isRow, isId⟩ := coherent.answered first isFirst one one'
  obtain ⟨late, keyed', body', found, isFound, isId'⟩ := coherent.answered second isSecond two two'
  rw [body, body', ← keys_same collisionFree keyed keyed']
  constructor
  · intro same
    exact coherent.distinct _ _ row found (.inl isRow) (.inl isFound) (isId.trans (same.trans isId'.symm))
  · intro same
    rw [same, isFound] at isRow
    rw [← isId, ← isId', Option.some.inj isRow]

/-- Whatever is registered, each receipt is accepted and dispatched once; and receipts keep
events apart exactly where no two bodies are ambiguous. -/
theorem events_kept [DecidableEq Tx] (collisionFree : Function.Injective host.sha256) {registered : EndpointRow} {declared : Value N}
    (normalized : normalizeInboundIdentity declared = some profile) (columns : registered.identity = profile.columns)
    {actions : List (Action Tx)} {final : State Tx N} (run : Run (Step host registered) .empty actions final) :
    storedInboundIdentity N profile.columns = some profile ∧ ReceiptsOnce final ∧
      (EventsKept profile final.answers ↔ Unambiguous host.nearest profile final.answers) := by
  have stored : storedInboundIdentity N profile.columns = some profile :=
    ProfileColumns.stored_columns (ProfileColumns.normal_of_normalize normalized)
  have coherent : Coherent host profile registered.id final :=
    run.invariant (Coherent host profile registered.id) coherent_empty fun coherent taken => coherent_step (columns ▸ stored) coherent taken
  refine ⟨stored, receiptsOnce coherent, ?_, ?_⟩
  · intro kept first isFirst second isSecond one two ambiguous
    obtain ⟨id, isId⟩ := Option.isSome_iff_exists.mp one
    obtain ⟨other, isOther⟩ := Option.isSome_iff_exists.mp two
    have same : id = other := (receipts_same collisionFree coherent isFirst isSecond isId isOther).mpr (.inr ambiguous)
    exact different_of_ambiguous ambiguous ((kept first isFirst second isSecond id other isId isOther).mp same)
  · intro clear first isFirst second isSecond one two isOne isTwo
    rw [receipts_same collisionFree coherent isFirst isSecond isOne isTwo]
    refine or_iff_left (clear first isFirst second isSecond ?_ ?_)
    · rw [isOne]
      rfl
    · rw [isTwo]
      rfl

end Events

section Spelled

def plainHost : Host Whole where
  nearest value := if value.den = 1 then .finite value.num else .nan
  sha256 octets := octets
  normalizeInboundSignatureScheme := some
  verifyInboundSignature _ _ _ _ _ := true

def someSecret : StoredSecret := ⟨js "c2VjcmV0", js "k1", js "aes-256-gcm"⟩

def endpointUuid : Text := js "0b6f9a52-6c1e-4a53-9d3a-8f2f5a3f7c10"

def tenantUuid : Text := js "5d1c7e0a-3f4b-4c8e-8a57-2e6f1b9d0c42"

/-- Deliveries that are known by their `id`. -/
def byId : InboundIdentityProfile := ⟨.bodyField, [js "id"], none⟩

def byIdRow : EndpointRow where
  id := endpointUuid
  tenantId := tenantUuid
  endpointKey := js "tracker"
  signature := ⟨js "x-hub-signature", js "sha256", js "hex", none⟩
  identity := byId.columns
  unsignedHeaders := ⟨none, none⟩
  maxBodyBytes := 1024
  secret := someSecret
  serviceIdentityId := js "service"
  operationId := js "Tracker.Receive"
  operationInputField := js "delivery"
  status := js "active"
  createdBy := js "user"

def deliver (body : String) : InboundAdmissionRequest := ⟨js "tracker", endpointUuid, fun _ => none, utf8 (js body)⟩

def wellMet : Surroundings := ⟨true, some (some tenantUuid), some byIdRow, some (js "secret"), some someSecret⟩

def recorded (body : String) (deliveryId : Text) : RecordInboundDeliveryInput where
  endpoint := {
    id := endpointUuid
    tenantId := tenantUuid
    endpointKey := js "tracker"
    signature := ⟨js "x-hub-signature", js "sha256", js "hex", none⟩
    storedSecret := someSecret
    identity := byId
    unsignedHeaders := ⟨none, none⟩
    maxBodyBytes := 1024
    active := true
    serviceIdentityId := js "service"
    operationId := js "Tracker.Receive"
    inputField := js "delivery"
    createdBy := js "user" }
  deliveryId
  eventType := none
  unsignedProviderDeliveryId := none
  unsignedEventType := none
  bodySha256 := hex (utf8 (js body))
  bodyBytes := (utf8 (js body)).length
  sealedBody := someSecret
  idempotencyKey := inboundDeliveryKey plainHost endpointUuid (js "f:[[\"id\",\"1\"]]")

abbrev Admissions := State Bool Whole

def numberAttempt : Attempt := ⟨(deliver "\x7b\"id\":1\x7d").body, recorded "\x7b\"id\":1\x7d" (js "d1")⟩

def textAttempt : Attempt := ⟨(deliver "\x7b\"id\":\"1\"\x7d").body, recorded "\x7b\"id\":\"1\"\x7d" (js "d2")⟩

def sharedKey : Text := numberAttempt.input.idempotencyKey

def dispatchRow : JobRow Whole :=
  ⟨tenantUuid, js "user", inboundDispatchKind, .object [(js "deliveryId", .text (js "d1"))], .queued, 0, 5, 0, none, none, none, none, none⟩

def begun : Admissions := State.enter .empty false (.begun numberAttempt)

def inserted : Admissions := (begun.keep false sharedKey numberAttempt.input.row).enter false (.inserted numberAttempt)

def queued : Admissions := (inserted.queue false sharedKey (js "j1", dispatchRow)).enter false (.enqueued numberAttempt (js "j1"))

def linked : Admissions :=
  (queued.keep false sharedKey { numberAttempt.input.row with dispatchJobId := some (js "j1") }).enter false
    (.recorded numberAttempt (.accepted (js "d1")))

def committed : Admissions := ((linked.commit false).enter false .idle).tell numberAttempt.body (.accepted (js "d1"))

def again : Admissions := committed.enter true (.begun textAttempt)

def conflicted : Admissions := again.enter true (.conflicted textAttempt)

def told : Admissions := conflicted.enter true (.recorded textAttempt (.duplicate (js "d1")))

def suppressed : Admissions := ((told.commit true).enter true .idle).tell textAttempt.body (.duplicate (js "d1"))

def spelledActions : List (Action Bool) :=
  [.admitEvent false (deliver "\x7b\"id\":1\x7d") wellMet (js "d1"), .insert false, .enqueue false (js "j1") 0, .link false, .commit false,
    .admitEvent true (deliver "\x7b\"id\":\"1\"\x7d") wellMet (js "d2"), .insert true, .read true, .commit true]

theorem spelled_run : Run (Step plainHost byIdRow) (.empty : Admissions) spelledActions suppressed := by
  have isRow : ∀ row, wellMet.row = some row → ∃ status, row = { byIdRow with status } := by
    rintro row ⟨⟩
    exact ⟨js "active", rfl⟩
  have unlocked : ∀ {Row : Type} {store : Store Bool Text Row} {key : Text}, (store.sessions true).locks key = ∅ → store.Grants false key .update :=
    fun free => Store.grants_of_unlocked fun other different => by
      cases other with
      | false => exact absurd rfl different
      | true => exact free
  have examinedNumber : examine plainHost (deliver "\x7b\"id\":1\x7d") wellMet (js "d1") = .ok (recorded "\x7b\"id\":1\x7d" (js "d1")) := by
    decide +kernel
  have examinedText : examine plainHost (deliver "\x7b\"id\":\"1\"\x7d") wellMet (js "d2") = .ok (recorded "\x7b\"id\":\"1\"\x7d" (js "d2")) := by
    decide +kernel
  have admits : Step plainHost byIdRow (.empty : Admissions) (.admitEvent false (deliver "\x7b\"id\":1\x7d") wellMet (js "d1")) begun :=
    .admitEvent rfl isRow examinedNumber
  have inserts : Step plainHost byIdRow begun (.insert false) inserted :=
    .insert (rfl : begun.phases false = .begun numberAttempt) (unlocked rfl) rfl fun key row present => by
      rcases present with isRow | ⟨other, isRow⟩
      · cases isRow
      · cases other <;> cases isRow
  have enqueues : Step plainHost byIdRow inserted (.enqueue false (js "j1") 0) queued :=
    .enqueue (rfl : inserted.phases false = .inserted numberAttempt) (unlocked rfl) rfl rfl
  have links : Step plainHost byIdRow queued (.link false) linked :=
    .link (rfl : queued.phases false = .enqueued numberAttempt (js "j1")) (unlocked rfl) rfl
  have commits : Step plainHost byIdRow linked (.commit false) committed :=
    .commit (rfl : linked.phases false = .recorded numberAttempt (.accepted (js "d1")))
  have admitsText : Step plainHost byIdRow committed (.admitEvent true (deliver "\x7b\"id\":\"1\"\x7d") wellMet (js "d2")) again :=
    .admitEvent rfl isRow examinedText
  have isReceipt : conflicted.deliveries.view true textAttempt.input.idempotencyKey =
      some { numberAttempt.input.row with dispatchJobId := some (js "j1") } := rfl
  have conflicts : Step plainHost byIdRow again (.insert true) conflicted :=
    .conflict (rfl : again.phases true = .begun textAttempt) isReceipt
  have reads : Step plainHost byIdRow conflicted (.read true) told :=
    .read (rfl : conflicted.phases true = .conflicted textAttempt) isReceipt
  have suppresses : Step plainHost byIdRow told (.commit true) suppressed :=
    .commit (rfl : told.phases true = .recorded textAttempt (.duplicate (js "d1")))
  exact .cons admits (.cons inserts (.cons enqueues (.cons links (.cons commits
    (.cons admitsText (.cons conflicts (.cons reads (.cons suppresses .start))))))))

/-- The text "1" is suppressed as a duplicate of the number 1, though these are two events. -/
theorem spelled_suppressed : ∃ (actions : List (Action Bool)) (final : Admissions),
    normalizeInboundIdentity (byIdRow.identity.declared (N := Whole) (some byId.fields)) = some byId ∧
    Run (Step plainHost byIdRow) .empty actions final ∧ ¬EventsKept byId final.answers := by
  refine ⟨spelledActions, suppressed, by decide +kernel, spelled_run, fun kept => ?_⟩
  have first : ⟨numberAttempt.body, .accepted (js "d1")⟩ ∈ suppressed.answers := List.mem_cons_self
  have second : ⟨textAttempt.body, .duplicate (js "d1")⟩ ∈ suppressed.answers := List.mem_cons_of_mem _ List.mem_cons_self
  have same : SameEvent byId numberAttempt.body textAttempt.body := (kept _ first _ second (js "d1") (js "d1") rfl rfl).mp rfl
  have numberDeclared : declaredScalar numberAttempt.body (js "id") = some (.number 1) := by decide +kernel
  have textDeclared : declaredScalar textAttempt.body (js "id") = some (.text (js "1")) := by decide +kernel
  obtain ⟨scalar, isNumber, isText⟩ := same (js "id") List.mem_cons_self
  rw [numberDeclared] at isNumber
  rw [textDeclared, ← isNumber] at isText
  cases isText

theorem events_kept_spelled : storedInboundIdentity Whole byId.columns = some byId ∧ ReceiptsOnce suppressed ∧
    (EventsKept byId suppressed.answers ↔ Unambiguous plainHost.nearest byId suppressed.answers) :=
  events_kept (fun _ _ same => same) (show normalizeInboundIdentity (byIdRow.identity.declared (N := Whole) (some byId.fields)) = some byId by
    decide +kernel) rfl spelled_run

end Spelled

end OpenShapeForge.Inbound.DistinctEvents
