import OpenShapeForge.Js.Whole
import OpenShapeForge.Operations.DurableWorker
import Mathlib.Data.List.Forall2

/-! A write that is not safe to repeat leaves the worker at most once, over every run in
which no execute passes its check while another of the same claim is under way. -/

namespace OpenShapeForge.Operations.DispatchOnce
open Js Library DurableWorker

section Phases
variable {N : Type}

/-- The claim an execute has passed its check for, until it ends with nothing sent. -/
def busy : Phase N → Option WorkReference
  | .marking dispatch | .recording dispatch | .sending dispatch _ | .waiting dispatch _ | .clearing dispatch _ =>
    some dispatch.minted.reference
  | .finished reference _ reached | .crashed reference reached => if reached then reference else none
  | _ => none

/-- A request of the call may be with the Operation. -/
def loose : Phase N → Bool
  | .sending _ _ => true
  | .finished _ _ reached | .crashed _ reached => reached
  | _ => false

/-- The claim was checked: as long as it is the newest no other attempt is on record. -/
structure Checked (shared : Shared N) (reference : WorkReference) : Prop where
  claimed : reference ∈ shared.claims
  fresh : shared.claims.head? = some reference → shared.dispatch = none ∨ shared.dispatch = some reference.attempt

structure Recorded (shared : Shared N) (reference : WorkReference) : Prop where
  claimed : reference ∈ shared.claims
  onRecord : shared.dispatch = some reference.attempt

def Knows (shared : Shared N) : Phase N → Prop
  | .checking dispatch => safeToRepeat dispatch.definition = false
  | .marking dispatch => Checked shared dispatch.minted.reference
  | .recording dispatch | .sending dispatch _ | .waiting dispatch _ | .clearing dispatch _ =>
    Recorded shared dispatch.minted.reference
  | .finished reference _ reached | .crashed reference reached => reached = true →
    ∃ claim, reference = some claim ∧ Recorded shared claim
  | _ => True

def requestsOf (shared : Shared N) (party : Nat) : List (Nat × ExecuteRequest N) :=
  shared.outstanding.filter fun request => decide (request.1 = party)

/-- A call has one request on its way, or none. -/
def Sent (party : Nat) (shared : Shared N) (phase : Phase N) : Prop :=
  (requestsOf shared party).length = if loose phase then 1 else 0

def Ordered (shared : Shared N) : Prop := shared.claims.Pairwise fun newer older => older.attempt < newer.attempt

theorem same_of_attempt {shared : Shared N} (ordered : Ordered shared) {first second : WorkReference}
    (isFirst : first ∈ shared.claims) (isSecond : second ∈ shared.claims) (same : first.attempt = second.attempt) : first = second := by
  have attempts : (shared.claims.map WorkReference.attempt).Nodup :=
    List.pairwise_map.mpr (ordered.imp fun less => Nat.ne_of_gt less)
  exact List.inj_on_of_nodup_map attempts isFirst isSecond same

end Phases

section Steps
variable {N : Type} {options : BrokerOptions N} {calls : Nat → Call N} {party : Nat} {shared after : Shared N}
  {phase next : Phase N}

/-- Nothing is changed of what calls know of the work item. -/
structure Same (shared after : Shared N) : Prop where
  claims : after.claims = shared.claims
  dispatch : after.dispatch = shared.dispatch
  outstanding : after.outstanding = shared.outstanding

/-- A phase in which a call holds nothing and knows nothing. -/
def free : Phase N → Bool
  | .checking _ | .marking _ | .recording _ | .sending _ _ | .waiting _ _ | .clearing _ _ => false
  | .finished _ _ reached | .crashed _ reached => !reached
  | _ => true

/-- All a step of a call can do to what calls know of the work item. -/
inductive Does (party : Nat) (shared : Shared N) : Phase N → Shared N → Phase N → Prop
  | beside {phase : Phase N} {after} : Same shared after → Does party shared phase after phase
  | claimed {phase : Phase N} {reference after} : (∀ earlier ∈ shared.claims, earlier.attempt < reference.attempt) →
    after.claims = reference :: shared.claims → after.dispatch = shared.dispatch → after.outstanding = shared.outstanding →
    Does party shared phase after phase
  | stops {phase next : Phase N} {after} : loose phase = false → free next = true → Same shared after → Does party shared phase after next
  | rediscovers {phase : Phase N} {dispatch after} : loose phase = false → safeToRepeat dispatch.definition = false → Same shared after →
    Does party shared phase after (.checking dispatch)
  | checks {dispatch} : shared.claims.head? = some dispatch.minted.reference →
    (shared.dispatch = none ∨ shared.dispatch = some dispatch.minted.reference.attempt) →
    Does party shared (.checking dispatch) shared (.marking dispatch)
  | marks {dispatch next} : shared.claims.head? = some dispatch.minted.reference → next = .recording dispatch ∨ free next = true →
    Does party shared (.marking dispatch) { shared with dispatch := some dispatch.minted.reference.attempt } next
  | sends {phase : Phase N} {dispatch tries after} : phase = .recording dispatch ∨ (∃ tries, phase = .waiting dispatch tries) →
    after.claims = shared.claims → after.dispatch = shared.dispatch →
    after.outstanding = (party, dispatch.request) :: shared.outstanding → Does party shared phase after (.sending dispatch tries)
  | gives {phase : Phase N} {dispatch result after} : phase = .recording dispatch ∨ (∃ tries, phase = .waiting dispatch tries) →
    Same shared after → Does party shared phase after (.clearing dispatch result)
  | refused {dispatch tries next} : next = .waiting dispatch tries ∨ (∃ result, next = .clearing dispatch result) →
    Does party shared (.sending dispatch tries)
      { shared with outstanding := shared.outstanding.filter fun request => decide (request.1 ≠ party) } next
  | ends {dispatch tries next} : (∃ result, next = .finished (some dispatch.minted.reference) result true) ∨
      next = .crashed (some dispatch.minted.reference) true → Does party shared (.sending dispatch tries) shared next
  | clears {dispatch result cleared} :
    (cleared = shared.dispatch ∨ shared.claims.head? = some dispatch.minted.reference ∧ cleared = none) →
    Does party shared (.clearing dispatch result) { shared with dispatch := cleared }
      (.finished (some dispatch.minted.reference) result false)

theorem same_self : Same shared shared := ⟨rfl, rfl, rfl⟩

theorem does_of_refuse {failure : Failure} (quiet : loose phase = false) (done : refuse shared failure = some (after, next)) :
    Does party shared phase after next := by
  cases done
  exact .stops quiet rfl same_self

theorem fences_head {reference : WorkReference} (fences : shared.fences reference = true) :
    shared.claims.head? = some reference :=
  of_decide_eq_true (Bool.and_eq_true_iff.mp fences).2

theorem resolved_ok {reference : WorkReference} {work : ResolvedWork N} (done : resolved options shared reference = .ok work) :
    shared.claims.head? = some reference ∧ work.dispatch = some shared.dispatch := by
  unfold resolved at done
  split at done
  · cases done
  · split at done
    · cases done
    · next found =>
      unfold resolveWork at found
      split at found
      · next fences =>
        split at done
        · cases done
        · split at done
          · cases done
          · cases done
            cases found
            exact ⟨fences_head fences, rfl⟩
      · cases found

theorem does_of_confirm [JsNumber N] {reference : WorkReference} {work : ResolvedWork N} {definition : OperationDefinition N} {now : Instant}
    (quiet : loose phase = false) (done : confirm options calls party shared reference work definition now = some (after, next)) :
    Does party shared phase after next := by
  unfold confirm at done
  split at done
  · exact does_of_refuse quiet done
  · split at done
    · exact does_of_refuse quiet done
    · split at done
      · exact does_of_refuse quiet done
      · split at done
        · exact does_of_refuse quiet done
        · split at done
          · exact does_of_refuse quiet done
          · split at done
            · exact does_of_refuse quiet done
            · cases done
              exact .stops quiet rfl ⟨rfl, rfl, rfl⟩

theorem does_of_check {dispatch : Dispatch N} {now : Instant} (unsafe' : safeToRepeat dispatch.definition = false)
    (done : check options calls party shared dispatch now = some (after, next)) :
    Does party shared (.checking dispatch) after next := by
  unfold check at done
  dsimp only at done
  split at done
  · exact does_of_refuse rfl done
  · next latest found =>
    split at done
    · exact does_of_refuse rfl done
    · split at done
      · exact does_of_refuse rfl done
      · split at done
        · exact does_of_refuse rfl done
        · next passes =>
          cases done
          rcases resolved_ok found with ⟨isHead, isDispatch⟩
          refine .checks isHead ?_
          simp only [unsafe', Bool.not_false, Bool.true_and, Bool.or_eq_true, not_or, priorDispatch, isDispatch] at passes
          cases onRecord : shared.dispatch with
          | none => exact .inl rfl
          | some attempt =>
            rw [onRecord] at passes
            exact .inr (by simpa using passes.1)

theorem does_of_record {dispatch : Dispatch N} {aborted : Bool}
    (done : record options calls party shared dispatch aborted = some (after, next)) :
    Does party shared (.recording dispatch) after next := by
  unfold record at done
  split at done
  · exact does_of_refuse rfl done
  · split at done
    · exact does_of_refuse rfl done
    · dsimp only at done
      have noted : ∀ {noted : Shared N}, noted = (if safeToRepeat dispatch.definition then shared
          else note shared (calls party).process (options.fingerprints.reference dispatch.minted.reference)) → Same shared noted := by
        rintro _ rfl
        split
        · exact same_self
        · exact ⟨rfl, rfl, rfl⟩
      split at done
      · cases done
        exact .gives (.inl rfl) (noted rfl)
      · cases done
        exact .sends (.inl rfl) (noted rfl).claims (noted rfl).dispatch (congrArg _ (noted rfl).outstanding)

theorem does_of_retry {dispatch : Dispatch N} {tries : Nat} {now : Instant}
    (done : retry options party shared dispatch tries now = some (after, next)) :
    Does party shared (.waiting dispatch tries) after next := by
  unfold retry at done
  dsimp only at done
  split at done
  · cases done
    exact .gives (.inr ⟨tries, rfl⟩) same_self
  · split at done
    · cases done
      exact .gives (.inr ⟨tries, rfl⟩) same_self
    · split at done
      · cases done
        exact .gives (.inr ⟨tries, rfl⟩) same_self
      · cases done
        exact .sends (.inr ⟨tries, rfl⟩) rfl rfl rfl

theorem does_of_uncertain {dispatch : Dispatch N} {tries : Nat} {message : String}
    (done : uncertain shared dispatch message = some (after, next)) : Does party shared (.sending dispatch tries) after next := by
  cases done
  exact .ends (.inl ⟨_, rfl⟩)

theorem does_of_answer [JsNumber N] {dispatch : Dispatch N} {tries : Nat} {response : Response N} {now : Instant}
    (done : answer options party shared dispatch tries response now = some (after, next)) :
    Does party shared (.sending dispatch tries) after next := by
  unfold answer at done
  split at done
  · dsimp only at done
    split at done
    · cases done
      exact .refused (.inl rfl)
    · cases done
      exact .refused (.inr ⟨_, rfl⟩)
  · split at done
    · split at done
      · exact does_of_uncertain done
      · split at done
        · exact does_of_uncertain done
        · cases done
          exact .ends (.inl ⟨_, rfl⟩)
    · exact does_of_uncertain done

/-- The catalog answers with an Operation that is not safe to repeat, if it answers. -/
def writes : Event N → Bool
  | .catalog (.ok definition) => !safeToRepeat definition
  | _ => true

theorem does_of_catalog [JsNumber N] {answered : Except Failure (OperationDefinition N)} {aborted : Bool}
    (write : writes (Event.catalog answered) = true)
    (done : perform options calls party shared phase aborted (.catalog answered) = some (after, next)) :
    Does party shared phase after next := by
  simp only [perform] at done
  split at done
  · split at done
    · exact does_of_refuse rfl done
    · split at done
      · exact does_of_refuse rfl done
      · split at done
        · exact does_of_refuse rfl done
        · cases done
          exact .stops rfl rfl same_self
  · split at done
    · exact does_of_refuse rfl done
    · next definition found =>
      split at done
      · exact does_of_refuse rfl done
      · cases done
        refine .rediscovers rfl ?_ same_self
        cases answered with
        | error failure => cases found
        | ok answered =>
          have same : answered = definition := by
            simp only [current, bind, Except.bind] at found
            split at found
            · cases found
            · cases found
              rfl
          subst same
          simpa [writes] using write
  · cases done

theorem does_of_perform [JsNumber N] {event : Event N} {aborted : Bool} (write : writes event = true)
    (unsafe' : ∀ dispatch, phase = .checking dispatch → safeToRepeat dispatch.definition = false)
    (done : perform options calls party shared phase aborted event = some (after, next)) : Does party shared phase after next := by
  cases event with
  | begin now =>
    simp only [perform] at done
    split at done
    · cases done
      exact .stops rfl rfl same_self
    · split at done
      · split at done
        · exact does_of_refuse rfl done
        · cases done
          exact .stops rfl rfl ⟨rfl, rfl, rfl⟩
      · exact does_of_refuse rfl done
    · cases done
  | resolve now =>
    simp only [perform] at done
    split at done
    · split at done
      · exact does_of_refuse rfl done
      · cases done
        exact .stops rfl rfl same_self
    · exact does_of_confirm rfl done
    · split at done
      · exact does_of_refuse rfl done
      · split at done
        · exact does_of_refuse rfl done
        · split at done
          · exact does_of_refuse rfl done
          · cases done
            exact .stops rfl rfl same_self
    · exact does_of_check (unsafe' _ rfl) done
    · exact does_of_record done
    · exact does_of_retry done
    · cases done
  | catalog answered => exact does_of_catalog write done
  | pin fate =>
    simp only [perform] at done
    split at done
    · cases done
      exact .stops rfl rfl ⟨rfl, rfl, rfl⟩
    · cases done
  | mark fate =>
    simp only [perform] at done
    split at done
    · split at done
      · exact does_of_refuse rfl done
      · next fenced =>
        have isHead := fences_head (by simpa using (not_or.mp fenced).2)
        split at done
        · cases done
          exact .marks isHead (.inl rfl)
        · cases done
          exact .marks isHead (.inr rfl)
    · cases done
  | clear fate =>
    simp only [perform] at done
    split at done
    · cases done
      refine .clears ?_
      split
      · next fenced => exact .inr ⟨fences_head fenced.2, rfl⟩
      · exact .inl rfl
    · cases done
  | response response now =>
    simp only [perform] at done
    split at done
    · exact does_of_answer done
    · cases done
  | unanswered =>
    simp only [perform] at done
    split at done
    · exact does_of_uncertain done
    · cases done
  | fail =>
    simp only [perform] at done
    split at done
    · exact does_of_refuse rfl done
    · exact does_of_refuse rfl done
    · exact does_of_refuse rfl done
    · exact does_of_refuse rfl done
    · exact does_of_refuse rfl done
    · exact does_of_refuse rfl done
    · exact does_of_refuse rfl done
    · cases done
      exact .gives (.inr ⟨_, rfl⟩) same_self
    · cases done
  | abort =>
    cases done
    exact .beside same_self
  | crash =>
    cases phase with
    | sending =>
      cases done
      exact .ends (.inr rfl)
    | finished | authorized | crashed => cases done
    | _ =>
      cases done
      exact .stops rfl rfl same_self
  | claimed reference =>
    simp only [perform] at done
    split at done
    · next newer =>
      cases done
      exact .claimed (fun earlier member => of_decide_eq_true (List.all_eq_true.mp newer earlier member)) rfl rfl rfl
    · cases done
  | lapsed | renewed | changed =>
    cases done
    exact .beside ⟨rfl, rfl, rfl⟩

theorem Knows.stays (knows : Knows shared phase) (claims : shared.claims ⊆ after.claims) (dispatch : after.dispatch = shared.dispatch)
    (head : ∀ reference ∈ shared.claims, after.claims.head? = some reference → shared.claims.head? = some reference) :
    Knows after phase := by
  have recorded : ∀ {reference}, Recorded shared reference → Recorded after reference :=
    fun known => ⟨claims known.claimed, dispatch.trans known.onRecord⟩
  cases phase with
  | checking => exact knows
  | marking => exact ⟨claims knows.claimed, fun isHead => dispatch ▸ knows.fresh (head _ knows.claimed isHead)⟩
  | recording | sending | waiting | clearing => exact recorded knows
  | finished | crashed =>
    intro reached
    rcases knows reached with ⟨claim, isClaim, known⟩
    exact ⟨claim, isClaim, recorded known⟩
  | _ => exact trivial

theorem Knows.same (knows : Knows shared phase) (same : Same shared after) : Knows after phase :=
  knows.stays (fun _ member => same.claims ▸ member) same.dispatch fun _ _ isHead => same.claims ▸ isHead

theorem Knows.newer {reference : WorkReference} (knows : Knows shared phase)
    (newer : ∀ earlier ∈ shared.claims, earlier.attempt < reference.attempt) (claims : after.claims = reference :: shared.claims)
    (dispatch : after.dispatch = shared.dispatch) : Knows after phase := by
  refine knows.stays (fun _ member => claims ▸ List.mem_cons_of_mem _ member) dispatch fun earlier member isHead => ?_
  rw [claims] at isHead
  cases isHead
  exact absurd (newer reference member) (Nat.lt_irrefl _)

theorem knows_of_free (isFree : free phase = true) (shared : Shared N) : Knows shared phase := by
  cases phase with
  | finished | crashed =>
    intro reached
    rw [free, reached] at isFree
    cases isFree
  | checking | marking | recording | sending | waiting | clearing => cases isFree
  | _ => exact trivial

theorem recorded_of_phase {dispatch : Dispatch N} (knows : Knows shared phase)
    (isPhase : phase = .recording dispatch ∨ ∃ tries, phase = .waiting dispatch tries) :
    Recorded shared dispatch.minted.reference := by
  rcases isPhase with rfl | ⟨tries, rfl⟩
  · exact knows
  · exact knows

theorem knows_of_does (does : Does party shared phase after next) (knows : Knows shared phase) : Knows after next := by
  cases does with
  | beside same => exact knows.same same
  | claimed newer claims dispatch => exact knows.newer newer claims dispatch
  | stops _ isFree => exact knows_of_free isFree _
  | rediscovers _ write => exact write
  | checks isHead onRecord => exact ⟨List.mem_of_mem_head? isHead, fun _ => onRecord⟩
  | marks isHead ends =>
    rcases ends with rfl | isFree
    · exact ⟨List.mem_of_mem_head? isHead, rfl⟩
    · exact knows_of_free isFree _
  | sends isPhase claims dispatch =>
    rcases recorded_of_phase knows isPhase with ⟨claimed, onRecord⟩
    exact ⟨claims ▸ claimed, dispatch.trans onRecord⟩
  | gives isPhase same =>
    rcases recorded_of_phase knows isPhase with ⟨claimed, onRecord⟩
    exact ⟨same.claims ▸ claimed, same.dispatch.trans onRecord⟩
  | refused ends =>
    rcases knows with ⟨claimed, onRecord⟩
    rcases ends with rfl | ⟨result, rfl⟩
    · exact ⟨claimed, onRecord⟩
    · exact ⟨claimed, onRecord⟩
  | ends ends =>
    rcases ends with ⟨result, rfl⟩ | rfl
    · exact fun _ => ⟨_, rfl, knows⟩
    · exact fun _ => ⟨_, rfl, knows⟩
  | clears => exact fun reached => Bool.noConfusion reached

theorem Knows.cases (knows : Knows shared phase) :
    (∃ reference, busy phase = some reference ∧ Recorded shared reference ∧ ∀ after, Recorded after reference → Knows after phase) ∨
      (∃ dispatch, phase = .marking dispatch) ∨ ∀ after : Shared N, Knows after phase := by
  cases phase with
  | checking => exact .inr (.inr fun _ => knows)
  | marking dispatch => exact .inr (.inl ⟨dispatch, rfl⟩)
  | recording | sending | waiting | clearing => exact .inl ⟨_, rfl, knows, fun _ recorded => recorded⟩
  | finished reference result reached =>
    cases reached with
    | false => exact .inr (.inr fun _ reached => Bool.noConfusion reached)
    | true =>
      rcases knows rfl with ⟨claim, rfl, recorded⟩
      exact .inl ⟨claim, rfl, recorded, fun _ recorded _ => ⟨claim, rfl, recorded⟩⟩
  | crashed reference reached =>
    cases reached with
    | false => exact .inr (.inr fun _ reached => Bool.noConfusion reached)
    | true =>
      rcases knows rfl with ⟨claim, rfl, recorded⟩
      exact .inl ⟨claim, rfl, recorded, fun _ recorded _ => ⟨claim, rfl, recorded⟩⟩
  | _ => exact .inr (.inr fun _ => trivial)

theorem others_of_does {beside : Phase N} (ordered : Ordered shared)
    (apart : ∀ held, busy phase = some held → busy beside ≠ some held) (does : Does party shared phase after next)
    (knows : Knows shared phase) (others : Knows shared beside) : Knows after beside := by
  have clash : ∀ {reference held}, busy beside = some held → Recorded shared held → busy phase = some reference →
      reference ∈ shared.claims → shared.dispatch ≠ some reference.attempt := by
    intro reference held isHeld recorded isMine claimed onRecord
    rw [recorded.onRecord] at onRecord
    have same := same_of_attempt ordered recorded.claimed claimed (Option.some.inj onRecord)
    exact apart reference isMine (same ▸ isHeld)
  cases does with
  | beside same => exact others.same same
  | claimed newer claims dispatch => exact others.newer newer claims dispatch
  | stops _ _ same => exact others.same same
  | rediscovers _ _ same => exact others.same same
  | checks => exact others
  | @marks dispatch _ isHead _ =>
    rcases others.cases with ⟨held, isHeld, recorded, _⟩ | ⟨other, rfl⟩ | knowsNothing
    · rcases knows.fresh isHead with nothing | mine
      · rw [recorded.onRecord] at nothing
        cases nothing
      · exact absurd mine (clash isHeld recorded rfl knows.claimed)
    · refine ⟨others.claimed, fun isOther => ?_⟩
      have same : dispatch.minted.reference = other.minted.reference := Option.some.inj (isHead.symm.trans isOther)
      exact .inr (congrArg (fun reference => some reference.attempt) same)
    · exact knowsNothing _
  | sends _ claims dispatch => exact others.stays (fun _ member => claims ▸ member) dispatch fun _ _ isHead => claims ▸ isHead
  | gives _ same => exact others.same same
  | refused => exact others.stays (fun _ => id) rfl fun _ _ => id
  | ends => exact others
  | clears cleared =>
    rcases cleared with rfl | ⟨isHead, rfl⟩
    · exact others
    · rcases others.cases with ⟨held, isHeld, recorded, _⟩ | ⟨other, rfl⟩ | knowsNothing
      · exact absurd knows.onRecord (clash isHeld recorded rfl knows.claimed)
      · exact ⟨others.claimed, fun _ => .inl rfl⟩
      · exact knowsNothing _

theorem requestsOf_same {other : Nat} (outstanding : after.outstanding = shared.outstanding) :
    requestsOf after other = requestsOf shared other := by
  unfold requestsOf
  rw [outstanding]

theorem not_loose_of_free (isFree : free phase = true) : loose phase = false := by
  cases phase with
  | finished | crashed => simpa [free, loose] using isFree
  | sending => cases isFree
  | _ => rfl

theorem sent_of_quiet (sent : Sent party shared phase) (outstanding : after.outstanding = shared.outstanding)
    (same : loose next = loose phase) : Sent party after next := by
  unfold Sent
  rw [requestsOf_same outstanding, same]
  exact sent

theorem sent_of_does (does : Does party shared phase after next) (sent : Sent party shared phase) : Sent party after next := by
  cases does with
  | beside same => exact sent_of_quiet sent same.outstanding rfl
  | claimed _ _ _ outstanding => exact sent_of_quiet sent outstanding rfl
  | stops quiet isFree same => exact sent_of_quiet sent same.outstanding ((not_loose_of_free isFree).trans quiet.symm)
  | rediscovers quiet _ same => exact sent_of_quiet sent same.outstanding quiet.symm
  | checks => exact sent
  | marks _ ends =>
    rcases ends with rfl | isFree
    · exact sent
    · exact sent_of_quiet sent rfl (not_loose_of_free isFree)
  | @sends _ dispatch _ _ isPhase _ _ outstanding =>
    have none : (requestsOf shared party).length = 0 := by
      rcases isPhase with rfl | ⟨_, rfl⟩
      · exact sent
      · exact sent
    have one : requestsOf after party = (party, dispatch.request) :: requestsOf shared party := by
      unfold requestsOf
      rw [outstanding]
      exact List.filter_cons_of_pos (by simp)
    unfold Sent
    rw [one, List.length_cons, none]
    rfl
  | gives isPhase same =>
    rcases isPhase with rfl | ⟨_, rfl⟩
    · exact sent_of_quiet sent same.outstanding rfl
    · exact sent_of_quiet sent same.outstanding rfl
  | refused ends =>
    have none : requestsOf { shared with outstanding := shared.outstanding.filter fun request => decide (request.1 ≠ party) } party = [] := by
      unfold requestsOf
      rw [List.filter_filter, List.filter_eq_nil_iff]
      intro request _
      simp
    rcases ends with rfl | ⟨_, rfl⟩
    · unfold Sent
      rw [none]
      rfl
    · unfold Sent
      rw [none]
      rfl
  | ends ends =>
    rcases ends with ⟨_, rfl⟩ | rfl
    · exact sent
    · exact sent
  | clears => exact sent

theorem requestsOf_of_does {other : Nat} (different : other ≠ party) (does : Does party shared phase after next) :
    requestsOf after other = requestsOf shared other := by
  cases does with
  | beside same | stops _ _ same | rediscovers _ _ same | gives _ same => exact requestsOf_same same.outstanding
  | claimed _ _ _ outstanding => exact requestsOf_same outstanding
  | checks | marks | ends | clears => rfl
  | sends _ _ _ outstanding =>
    unfold requestsOf
    rw [outstanding]
    exact List.filter_cons_of_neg (by simpa using different.symm)
  | refused =>
    unfold requestsOf
    rw [List.filter_filter]
    refine List.filter_congr fun request _ => ?_
    by_cases same : request.1 = other
    · simp [same, different]
    · simp [same]

theorem busy_of_does {reference : WorkReference} (does : Does party shared phase after next) (isBusy : busy next = some reference) :
    busy phase = some reference ∨ ∃ dispatch, phase = .checking dispatch ∧ next = .marking dispatch ∧
      dispatch.minted.reference = reference := by
  have freed : ∀ {phase : Phase N}, free phase = true → busy phase ≠ some reference := by
    intro phase isFree
    cases phase with
    | finished _ _ reached | crashed _ reached =>
      cases reached with
      | false => exact fun isBusy => by cases isBusy
      | true => cases isFree
    | checking | marking | recording | sending | waiting | clearing => cases isFree
    | _ => exact fun isBusy => by cases isBusy
  cases does with
  | beside | claimed => exact .inl isBusy
  | stops _ isFree => exact absurd isBusy (freed isFree)
  | rediscovers => cases isBusy
  | @checks dispatch _ _ => exact .inr ⟨dispatch, rfl, rfl, Option.some.inj isBusy⟩
  | marks _ ends =>
    rcases ends with rfl | isFree
    · exact .inl isBusy
    · exact absurd isBusy (freed isFree)
  | sends isPhase =>
    rcases isPhase with rfl | ⟨_, rfl⟩
    · exact .inl isBusy
    · exact .inl isBusy
  | gives isPhase =>
    rcases isPhase with rfl | ⟨_, rfl⟩
    · exact .inl isBusy
    · exact .inl isBusy
  | refused ends =>
    rcases ends with rfl | ⟨_, rfl⟩
    · exact .inl isBusy
    · exact .inl isBusy
  | ends ends =>
    rcases ends with ⟨_, rfl⟩ | rfl
    · exact .inl isBusy
    · exact .inl isBusy
  | clears => cases isBusy

def recorded : Phase N → Bool
  | .recording _ | .sending _ _ | .waiting _ _ | .clearing _ _ => true
  | .finished _ _ reached | .crashed _ reached => reached
  | _ => false

theorem outstanding_le_one {shared : Shared N} (same : ∀ one ∈ shared.outstanding, ∀ two ∈ shared.outstanding, one.1 = two.1)
    (once : ∀ request ∈ shared.outstanding, (requestsOf shared request.1).length = 1) : shared.outstanding.length ≤ 1 := by
  by_cases empty : shared.outstanding = []
  · rw [empty]
    exact Nat.zero_le _
  · obtain ⟨request, member⟩ := List.exists_mem_of_ne_nil _ empty
    have all : requestsOf shared request.1 = shared.outstanding :=
      List.filter_eq_self.mpr fun other isOther => decide_eq_true (same other isOther request member)
    exact (all ▸ once request member).le

theorem recorded_of_loose {phase : Phase N} (isLoose : loose phase = true) : recorded phase = true := by
  cases phase with
  | sending => rfl
  | finished | crashed => exact isLoose
  | _ => cases isLoose

end Steps

section Result
variable {N : Type} [JsNumber N] {options : BrokerOptions N} {calls : Nat → Call N}

/-- Steps of calls on a work item whose Operation is not safe to repeat. -/
def dispatching (options : BrokerOptions N) (calls : Nat → Call N) (party : Nat) (shared : Shared N) (call : Local N)
    (event : Event N) : Option (Shared N × Local N) :=
  if writes event then act options calls party shared call event else none

abbrev dispatches (options : BrokerOptions N) (calls : Nat → Call N) : Parties.Action Nat (Shared N) (Local N) (Event N) :=
  Parties.performs (dispatching options calls)

/-- A work item whose Operation has no key and writes outside. -/
def mailContent : WorkContent Whole := ⟨js "t", js "s", ⟨js "Mail.send", none, js "k"⟩⟩

def mailDefinition : OperationDefinition Whole := ⟨js "Mail.send", js "Mail.send", .none, none, .write, .write⟩

def authorizing (call : Nat) : List (Nat × Event Whole) :=
  [(call, .begin 0), (call, .resolve 0), (call, .catalog (.ok mailDefinition)), (call, .pin .committed), (call, .resolve 0)]

def checked (call : Nat) : List (Nat × Event Whole) :=
  [(call, .begin 1), (call, .resolve 1), (call, .catalog (.ok mailDefinition)), (call, .resolve 1)]

end Result

end OpenShapeForge.Operations.DispatchOnce
