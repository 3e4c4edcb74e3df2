import OpenShapeForge.Js.Whole
import OpenShapeForge.Operations.ExecutionReceipts

/-! An external write is admitted by one call per receipt at most, and a receipt that
is settled stays as it is, over every run of calls with crashes and failed transactions. -/

namespace OpenShapeForge.Operations.ReceiptOnce
open Js Library ExecutionReceipts

section Phases
variable {N T : Type}

/-- The call has claimed the receipt, and not come to an end yet. -/
def owns : Phase N T → Bool
  | .executing _ _ | .completing _ _ _ | .recovering _ _ _ => true
  | _ => false

def admitted : Phase N T → Bool
  | .executing _ effectsAdmitted | .completing _ _ effectsAdmitted | .recovering _ _ effectsAdmitted => effectsAdmitted
  | _ => false

/-- What a call that has claimed the receipt or holds its lock knows of it. -/
def Knows (party : Nat) (shared : Shared N) : Phase N T → Prop
  | .reading _ | .replaying _ _ => shared.lock = some party
  | .inserting _ => shared.lock = some party ∧ shared.row = none
  | .claiming identity row => shared.lock = some party ∧ shared.row = none ∧ row.isFor identity = true ∧ row.state = .running
  | .executing identity _ | .completing identity _ _ | .recovering identity _ _ =>
    ∃ row, shared.row = some row ∧ row.isFor identity = true
  | _ => True

theorem row_of_owns {party : Nat} {shared : Shared N} {phase : Phase N T} (knows : Knows party shared phase)
    (isOwner : owns phase = true) : ∃ row, shared.row = some row := by
  cases phase with
  | executing | completing | recovering =>
    rcases knows with ⟨row, isRow, _⟩
    exact ⟨row, isRow⟩
  | _ => cases isOwner

end Phases

section Rows
variable {N T : Type} [JsNumber N] {identity : ReceiptIdentity} {row : ReceiptRow N}

omit [JsNumber N] in
theorem isFor_insertRunning (identity : ReceiptIdentity) (now : Instant) :
    (insertRunning identity now : ReceiptRow N).isFor identity = true := by
  simp [insertRunning, ReceiptRow.isFor]

omit [JsNumber N] in
theorem runningFor_some {result : ReceiptRow N} {shared : Option (ReceiptRow N)} (found : runningFor identity shared = some result) :
    shared = some result ∧ result.isFor identity = true ∧ result.state = .running := by
  rcases Option.filter_eq_some_iff.mp found with ⟨isRow, fits⟩
  rcases Bool.and_eq_true_iff.mp fits with ⟨isFor, running⟩
  exact ⟨isRow, isFor, of_decide_eq_true running⟩

omit [JsNumber N] in
theorem runningFor_settled (settled : row.state ≠ .running) : runningFor identity (some row) = none := by
  simp [runningFor, settled]

omit [JsNumber N] in
theorem markUnknown_some : ∃ next, markUnknown identity (some row) = some next ∧ next.isFor identity = row.isFor identity := by
  unfold markUnknown
  split
  · next running found =>
    rcases runningFor_some found with ⟨isRow, _⟩
    cases isRow
    exact ⟨_, rfl, rfl⟩
  · exact ⟨row, rfl, rfl⟩

omit [JsNumber N] in
theorem markUnknown_settled (settled : row.state ≠ .running) : markUnknown identity (some row) = some row := by
  simp [markUnknown, runningFor_settled settled]

omit [JsNumber N] in
theorem deleteRunning_settled (settled : row.state ≠ .running) : deleteRunning identity (some row) = some row := by
  simp [deleteRunning, runningFor_settled settled]

theorem complete_ok {encode : T → Option (Value N)} {value : T} {shared : Option (ReceiptRow N)} {completed : ReceiptRow N}
    (done : complete encode identity value shared = .ok completed) :
    ∃ encoded stored running, encode value = some encoded ∧ response encoded = some stored ∧ shared = some running ∧
      running.isFor identity = true ∧ running.state = .running ∧
      completed = { running with state := .completed, response := some stored, retryAt := none } := by
  unfold complete at done
  split at done
  · cases done
  · next encoded isEncoded =>
    split at done
    · cases done
    · next stored isStored =>
      split at done
      · next running found =>
        rcases runningFor_some found with ⟨isRow, isFor, isRunning⟩
        cases done
        exact ⟨encoded, stored, running, isEncoded, isStored, isRow, isFor, isRunning, rfl⟩
      · cases done

end Rows

section Steps
variable {N T : Type} [JsNumber N] {sha256 : Text → Text → Text} {key : ReceiptKey} {calls : Nat → Invocation N T}
  {party : Nat} {shared after : Shared N} {phase next : Phase N T} {event : Event T}

/-- How a call's first transaction ends without a claim of its own. -/
inductive Leaves (calls : Nat → Invocation N T) (party : Nat) (shared : Shared N) : Phase N T → Event T → Outcome T → Prop
  | denied {identity} : Leaves calls party shared (.authorizing identity) (.authorize false) (.failed .denied)
  | busy {identity now} :
    Leaves calls party shared (.locking identity) (.lock false now) (.failed (.inProgress (now + localInFlightRetry)))
  | refused {identity row now failure} : shared.row = some row →
    existingOutcome (calls party).decode identity row now = .error failure →
    Leaves calls party shared (.reading identity) (.read now) (.failed failure)
  | conflict {identity now} : Leaves calls party shared (.inserting identity) (.insert now) (.failed .database)
  | unclaimed {identity row} : Leaves calls party shared (.claiming identity row) (.commit .failed) (.failed .database)
  | replayed {identity value} : Leaves calls party shared (.replaying identity value) (.commit .committed) (.replayed value)
  | unreplayed {identity value fate} :
    Leaves calls party shared (.replaying identity value) (.commit fate) (.failed .database)
  | failed {phase : Phase N T} : claims phase = true → Leaves calls party shared phase .fail (.failed .database)
  | crashed {phase : Phase N T} : Leaves calls party shared phase .crash .crashed

inductive Does (sha256 : Text → Text → Text) (calls : Nat → Invocation N T) (party : Nat) (shared : Shared N) :
    Phase N T → Event T → Shared N → Phase N T → Prop
  | invalid {failure} : keyedOperationReceiptIdentity sha256 (calls party).session (calls party).options = .error failure →
    Does sha256 calls party shared .idle .begin shared (.done (.failed failure))
  | begins {identity} : keyedOperationReceiptIdentity sha256 (calls party).session (calls party).options = .ok identity →
    Does sha256 calls party shared .idle .begin shared (.authorizing identity)
  | authorizes {identity} :
    Does sha256 calls party shared (.authorizing identity) (.authorize true) shared (.locking identity)
  | locks {identity now} : shared.lock = none →
    Does sha256 calls party shared (.locking identity) (.lock true now) { shared with lock := some party } (.reading identity)
  | findsNone {identity now} : shared.row = none →
    Does sha256 calls party shared (.reading identity) (.read now) shared (.inserting identity)
  | finds {identity row now value} : shared.row = some row →
    existingOutcome (calls party).decode identity row now = .ok value →
    Does sha256 calls party shared (.reading identity) (.read now) shared (.replaying identity value)
  | inserts {identity now} : shared.row = none →
    Does sha256 calls party shared (.inserting identity) (.insert now) shared (.claiming identity (insertRunning identity now))
  | claims {identity row} :
    Does sha256 calls party shared (.claiming identity row) (.commit .committed) ⟨some row, none⟩ (.executing identity false)
  | claimsUnheard {identity row} :
    Does sha256 calls party shared (.claiming identity row) (.commit .unheard) ⟨some row, none⟩ (.done (.failed .database))
  | admits {identity effectsAdmitted} :
    Does sha256 calls party shared (.executing identity effectsAdmitted) .markEffectsAdmitted shared (.executing identity true)
  | executes {identity effectsAdmitted value} :
    Does sha256 calls party shared (.executing identity effectsAdmitted) (.execute (some value)) shared
      (.completing identity value effectsAdmitted)
  | throws {identity effectsAdmitted} :
    Does sha256 calls party shared (.executing identity effectsAdmitted) (.execute none) shared
      (.recovering identity .execution effectsAdmitted)
  | completes {identity value effectsAdmitted row} : complete (calls party).encode identity value shared.row = .ok row →
    Does sha256 calls party shared (.completing identity value effectsAdmitted) (.complete .committed)
      { shared with row := some row } (.done (.executed value))
  | completesUnheard {identity value effectsAdmitted row} : complete (calls party).encode identity value shared.row = .ok row →
    Does sha256 calls party shared (.completing identity value effectsAdmitted) (.complete .unheard)
      { shared with row := some row } (.recovering identity .database effectsAdmitted)
  | incomplete {identity value effectsAdmitted fate failure} :
    Does sha256 calls party shared (.completing identity value effectsAdmitted) (.complete fate) shared
      (.recovering identity failure effectsAdmitted)
  | recovers {identity failure effectsAdmitted fate row} :
    (row = shared.row ∨ (effectsAdmitted = true ∧ row = markUnknown identity shared.row) ∨
      (effectsAdmitted = false ∧ row = deleteRunning identity shared.row)) →
    Does sha256 calls party shared (.recovering identity failure effectsAdmitted) (.recover fate) { shared with row := row }
      (.done (.failed (if effectsAdmitted then .outcomeUnknown else failure)))
  | leaves {phase : Phase N T} {event : Event T} {outcome} : Leaves calls party shared phase event outcome →
    Does sha256 calls party shared phase event
      { shared with lock := if shared.lock = some party then none else shared.lock } (.done outcome)

theorem does_of_leave {outcome : Outcome T} (leaves : Leaves calls party shared phase event outcome)
    (done : leave shared party outcome = some (after, next)) : Does sha256 calls party shared phase event after next := by
  cases done
  exact .leaves leaves

theorem does_of_perform (done : perform sha256 key calls party shared phase event = some (after, next)) :
    Does sha256 calls party shared phase event after next := by
  cases event with
  | begin =>
    simp only [perform] at done
    split at done
    · split at done
      · next failed =>
        cases done
        exact .invalid failed
      · next identified =>
        split at done
        · cases done
          exact .begins identified
        · cases done
    · cases done
  | authorize allowed =>
    simp only [perform] at done
    split at done
    · cases allowed with
      | true => cases done; exact .authorizes
      | false => exact does_of_leave .denied done
    · cases done
  | lock acquired now =>
    simp only [perform] at done
    split at done
    · cases acquired with
      | true =>
        simp only [if_true] at done
        split at done
        · next free =>
          cases done
          exact .locks free
        · cases done
      | false => exact does_of_leave .busy done
    · cases done
  | read now =>
    simp only [perform] at done
    split at done
    · split at done
      · next noRow =>
        cases done
        exact .findsNone noRow
      · next isRow =>
        split at done
        · next found =>
          cases done
          exact .finds isRow found
        · next refused => exact does_of_leave (.refused isRow refused) done
    · cases done
  | insert now =>
    simp only [perform] at done
    split at done
    · split at done
      · next noRow =>
        cases done
        exact .inserts noRow
      · exact does_of_leave .conflict done
    · cases done
  | commit fate =>
    simp only [perform] at done
    split at done
    · cases fate with
      | committed => cases done; exact .claims
      | unheard => cases done; exact .claimsUnheard
      | failed => exact does_of_leave .unclaimed done
    · split at done
      · next isCommitted =>
        cases isCommitted
        exact does_of_leave .replayed done
      · exact does_of_leave .unreplayed done
    · cases done
  | markEffectsAdmitted =>
    simp only [perform] at done
    split at done
    · cases done
      exact .admits
    · cases done
  | execute result =>
    simp only [perform] at done
    split at done
    · cases result with
      | some value => cases done; exact .executes
      | none => cases done; exact .throws
    · cases done
  | complete fate =>
    simp only [perform] at done
    split at done
    · split at done
      · cases done
        exact .incomplete
      · next completed =>
        cases done
        exact .completes completed
      · next completed =>
        cases done
        exact .completesUnheard completed
      · cases done
        exact .incomplete
    · cases done
  | recover fate =>
    simp only [perform] at done
    split at done
    · cases done
      refine .recovers ?_
      split
      · exact .inl rfl
      · split
        · next isAdmitted => exact .inr (.inl ⟨isAdmitted, rfl⟩)
        · next notAdmitted => exact .inr (.inr ⟨by simpa using notAdmitted, rfl⟩)
    · cases done
  | fail =>
    simp only [perform] at done
    split at done
    · next inside => exact does_of_leave (.failed inside) done
    · cases done
  | crash =>
    simp only [perform] at done
    split at done
    · cases done
    · exact does_of_leave .crashed done

theorem lock_of_does {other : Nat} (does : Does sha256 calls party shared phase event after next) (knows : Knows party shared phase)
    (held : shared.lock = some other) (different : other ≠ party) : after.lock = some other := by
  have notMine : shared.lock ≠ some party := by
    rw [held]
    exact fun same => different (Option.some.inj same)
  cases does with
  | locks free =>
    rw [held] at free
    cases free
  | claims => exact absurd knows.1 notMine
  | claimsUnheard => exact absurd knows.1 notMine
  | leaves => exact (if_neg notMine).trans held
  | _ => exact held

theorem no_row_of_does (does : Does sha256 calls party shared phase event after next) (noRow : shared.row = none)
    (unclaimed : shared.lock ≠ some party) (knows : Knows party shared phase) : after.row = none := by
  cases does with
  | claims => exact absurd knows.1 unclaimed
  | claimsUnheard => exact absurd knows.1 unclaimed
  | completes completed =>
    rcases complete_ok completed with ⟨_, _, _, _, _, isRow, _⟩
    rw [noRow] at isRow
    cases isRow
  | completesUnheard completed =>
    rcases complete_ok completed with ⟨_, _, _, _, _, isRow, _⟩
    rw [noRow] at isRow
    cases isRow
  | recovers change =>
    rw [noRow] at change
    rcases change with rfl | ⟨_, rfl⟩ | ⟨_, rfl⟩ <;> rfl
  | _ => exact noRow

theorem row_of_does {row : ReceiptRow N} (does : Does sha256 calls party shared phase event after next) (isRow : shared.row = some row)
    (notOwner : owns phase = false) (knows : Knows party shared phase) : after.row = some row := by
  cases does with
  | claims => rw [knows.2.1] at isRow; cases isRow
  | claimsUnheard => rw [knows.2.1] at isRow; cases isRow
  | completes | completesUnheard | recovers => cases notOwner
  | _ => exact isRow

theorem settled_of_does {row : ReceiptRow N} (does : Does sha256 calls party shared phase event after next)
    (isRow : shared.row = some row) (settled : row.state ≠ .running) (knows : Knows party shared phase) : after.row = some row := by
  have stays : ∀ {identity : ReceiptIdentity} {encode : T → Option (Value N)} {value completed},
      complete encode identity value shared.row ≠ .ok completed := by
    intro identity encode value completed done
    rcases complete_ok done with ⟨_, _, running, _, _, isRunning, _, runs, _⟩
    rw [isRow] at isRunning
    cases isRunning
    exact settled runs
  cases does with
  | claims => rw [knows.2.1] at isRow; cases isRow
  | claimsUnheard => rw [knows.2.1] at isRow; cases isRow
  | completes completed => exact absurd completed stays
  | completesUnheard completed => exact absurd completed stays
  | recovers change =>
    rw [isRow, markUnknown_settled settled, deleteRunning_settled settled] at change
    rcases change with rfl | ⟨_, rfl⟩ | ⟨_, rfl⟩ <;> rfl
  | _ => exact isRow

theorem knows_of_does (does : Does sha256 calls party shared phase event after next) (knows : Knows party shared phase) :
    Knows party after next := by
  cases does with
  | locks => exact rfl
  | findsNone noRow => exact ⟨knows, noRow⟩
  | finds => exact knows
  | @inserts identity now noRow => exact ⟨knows.1, noRow, isFor_insertRunning identity now, rfl⟩
  | @claims identity row => exact ⟨row, rfl, knows.2.2.1⟩
  | admits | executes | throws | incomplete => exact knows
  | completesUnheard completed =>
    rcases complete_ok completed with ⟨_, _, running, _, _, _, isFor, _, rfl⟩
    exact ⟨_, rfl, isFor⟩
  | _ => exact trivial

theorem owner_of_does (does : Does sha256 calls party shared phase event after next) (knows : Knows party shared phase)
    (isOwner : owns next = true) : owns phase = true ∨ shared.row = none := by
  cases does with
  | claims => exact .inr knows.2.1
  | admits | executes | throws | completesUnheard | incomplete => exact .inl rfl
  | _ => cases isOwner

theorem others_of_does {other : Nat} {beside : Phase N T} (different : other ≠ party)
    (apart : owns phase = true → owns beside ≠ true) (does : Does sha256 calls party shared phase event after next)
    (knows : Knows party shared phase) (others : Knows other shared beside) : Knows other after beside := by
  have free : shared.lock = some other → shared.lock ≠ some party := by
    intro held mine
    rw [held] at mine
    exact different (Option.some.inj mine)
  have owned : owns beside = true → owns phase = false := by
    intro isOwner
    cases isOwner' : owns phase with
    | false => rfl
    | true => exact absurd isOwner (apart isOwner')
  cases beside with
  | reading | replaying => exact lock_of_does does knows others different
  | inserting =>
    exact ⟨lock_of_does does knows others.1 different, no_row_of_does does others.2 (free others.1) knows⟩
  | claiming =>
    exact ⟨lock_of_does does knows others.1 different, no_row_of_does does others.2.1 (free others.1) knows, others.2.2⟩
  | executing | completing | recovering =>
    rcases others with ⟨row, isRow, isFor⟩
    exact ⟨row, row_of_does does isRow (owned rfl) knows, isFor⟩
  | _ => exact trivial

/-- What only one call has at a time: the claim of the receipt. -/
def ownership (phase : Phase N T) : Option Unit := if owns phase then some () else none

omit [JsNumber N] in
theorem ownership_some : ownership phase = some () ↔ owns phase = true := by
  simp [ownership]

theorem knows_of_run {labels : List (Nat × Event T)} {final : Parties.State Nat (Shared N) (Phase N T)}
    (runs : ReceiptRuns sha256 key calls initial labels final) :
    Parties.Holds (fun _ => True) Knows final ∧ Parties.Apart ownership final := by
  have first : Parties.Holds (fun _ => True) Knows (initial : Parties.State Nat (Shared N) (Phase N T)) :=
    ⟨trivial, fun _ => trivial⟩
  have free : Parties.Apart ownership (initial : Parties.State Nat (Shared N) (Phase N T)) := by
    intro _ _ _ isOwner
    cases isOwner
  refine Parties.invariant_apart first free ?_ ?_ ?_ runs.unguarded
  · intro _ _ _ _ _ _ _ knows acts
    exact ⟨trivial, knows_of_does (does_of_perform acts) knows⟩
  · intro state party _ _ _ _ holds _ acts isOwner
    rcases owner_of_does (does_of_perform acts) (holds.each party) (ownership_some.mp isOwner) with before | noRow
    · exact .inl (ownership_some.mpr before)
    · refine .inr fun other _ isOther => ?_
      rcases row_of_owns (holds.each other) (ownership_some.mp isOther) with ⟨row, isRow⟩
      rw [noRow] at isRow
      cases isRow
  · intro _ _ _ _ _ _ _ _ different apart _ knows others acts
    have alone := fun isOwner isOther => apart () (ownership_some.mpr isOwner) (ownership_some.mpr isOther)
    exact others_of_does different alone (does_of_perform acts) knows others

end Steps

section Admission
variable {N T : Type} [JsNumber N] {sha256 : Text → Text → Text} {key : ReceiptKey} {calls : Nat → Invocation N T}

/-- Once a call admits effects there is a receipt, which no other call owns. -/
structure Admitted (past : List (Nat × Event T)) (state : Parties.State Nat (Shared N) (Phase N T)) (party : Nat) : Prop where
  row : ∃ row, state.shared.row = some row
  owner : ∀ other, owns (state.parties other) = true → other = party ∧ admitted (state.parties other) = true
  alone : ∀ other, (other, .markEffectsAdmitted) ∈ past → other = party

theorem admitted_of_does {party : Nat} {shared after : Shared N} {phase next : Phase N T} {event : Event T}
    (does : Does sha256 calls party shared phase event after next) (isRow : ∃ row, shared.row = some row)
    (knows : Knows party shared phase) (owner : owns phase = true → admitted phase = true) :
    (∃ row, after.row = some row) ∧ (owns next = true → owns phase = true ∧ admitted next = true) := by
  rcases isRow with ⟨row, isRow⟩
  cases does with
  | claims => rw [knows.2.1] at isRow; cases isRow
  | claimsUnheard => rw [knows.2.1] at isRow; cases isRow
  | admits => exact ⟨⟨row, isRow⟩, fun _ => ⟨rfl, rfl⟩⟩
  | executes | throws | incomplete => exact ⟨⟨row, isRow⟩, fun _ => ⟨rfl, owner rfl⟩⟩
  | completes => exact ⟨⟨_, rfl⟩, fun isOwner => Bool.noConfusion isOwner⟩
  | completesUnheard => exact ⟨⟨_, rfl⟩, fun _ => ⟨rfl, owner rfl⟩⟩
  | @recovers identity _ effectsAdmitted _ _ change =>
    refine ⟨?_, fun isOwner => Bool.noConfusion isOwner⟩
    rcases change with rfl | ⟨_, rfl⟩ | ⟨notAdmitted, rfl⟩
    · exact ⟨row, isRow⟩
    · have marked : ∃ unknown, markUnknown identity (some row) = some unknown ∧ _ := markUnknown_some
      rcases marked with ⟨unknown, isUnknown, _⟩
      rw [isRow]
      exact ⟨unknown, isUnknown⟩
    · have isAdmitted : effectsAdmitted = true := owner rfl
      rw [isAdmitted] at notAdmitted
      cases notAdmitted
  | _ => exact ⟨⟨row, isRow⟩, fun isOwner => Bool.noConfusion isOwner⟩

theorem owns_of_admits {party : Nat} {shared after : Shared N} {phase next : Phase N T}
    (does : Does sha256 calls party shared phase .markEffectsAdmitted after next) :
    owns phase = true ∧ owns next = true ∧ admitted next = true ∧ after = shared := by
  cases does with
  | admits => exact ⟨rfl, rfl, rfl, rfl⟩
  | leaves left => cases left

theorem admitted_of_run {labels : List (Nat × Event T)} {final : Parties.State Nat (Shared N) (Phase N T)}
    (runs : ReceiptRuns sha256 key calls initial labels final) :
    ∀ party, (party, .markEffectsAdmitted) ∈ labels → Admitted labels final party := by
  refine runs.history (fun past state => ∀ party, (party, .markEffectsAdmitted) ∈ past → Admitted past state party)
    (fun _ member => absurd member List.not_mem_nil) ?_
  intro past state _ _ before earlier taken
  rcases knows_of_run before with ⟨holds, apart⟩
  rcases taken with @⟨acting, event, after, mine, acts⟩
  have does := does_of_perform acts
  have knows := holds.each acting
  have old : ∀ party, (party, .markEffectsAdmitted) ∈ past →
      Admitted (past ++ [(acting, event)]) ⟨after, Function.update state.parties acting mine⟩ party := by
    intro party member
    rcases earlier party member with ⟨row, owner, alone⟩
    rcases admitted_of_does does row knows (fun isOwner => (owner acting isOwner).2) with ⟨isRow, isOwner⟩
    refine ⟨isRow, fun other => ?_, fun other isAdmitted => ?_⟩
    · by_cases same : other = acting
      · subst same
        intro ownsNext
        simp only [Function.update_self] at ownsNext ⊢
        exact ⟨(owner other (isOwner ownsNext).1).1, (isOwner ownsNext).2⟩
      · simpa [same] using owner other
    · rcases List.mem_append.mp isAdmitted with isOld | isNew
      · exact alone other isOld
      · cases List.mem_singleton.mp isNew
        exact (owner acting (owns_of_admits does).1).1
  intro party member
  rcases List.mem_append.mp member with isOld | isNew
  · exact old party isOld
  · cases List.mem_singleton.mp isNew
    rcases owns_of_admits does with ⟨ownsPhase, ownsNext, isAdmitted, rfl⟩
    refine ⟨row_of_owns knows ownsPhase, fun other isOwner => ?_, fun other isOther => ?_⟩
    · by_cases same : other = acting
      · subst same
        exact ⟨rfl, by simpa using isAdmitted⟩
      · have others := ownership_some.mpr (by simpa [same] using isOwner)
        exact absurd (apart other acting () others (ownership_some.mpr ownsPhase)) same
    · rcases List.mem_append.mp isOther with isOld | isNow
      · exact ((earlier other isOld).owner acting ownsPhase).1.symm
      · cases List.mem_singleton.mp isNow
        rfl

end Admission

section Completion
variable {N T : Type} [JsNumber N] {sha256 : Text → Text → Text} {key : ReceiptKey} {calls : Nat → Invocation N T}
  {party : Nat} {shared after : Shared N} {phase next : Phase N T} {event : Event T}

def CompletedBy (calls : Nat → Invocation N T) (past : List (Nat × Event T)) (row : ReceiptRow N) : Prop :=
  ∃ party value encoded stored, (party, .execute (some value)) ∈ past ∧ (calls party).encode value = some encoded ∧
    response encoded = some stored ∧ row.response = some stored

theorem CompletedBy.later {past : List (Nat × Event T)} {row : ReceiptRow N} (completed : CompletedBy calls past row)
    (label : Nat × Event T) : CompletedBy calls (past ++ [label]) row := by
  rcases completed with ⟨party, value, encoded, stored, member, made⟩
  exact ⟨party, value, encoded, stored, List.mem_append_left _ member, made⟩

theorem completed_of_does {row : ReceiptRow N} (does : Does sha256 calls party shared phase event after next)
    (knows : Knows party shared phase) (isRow : after.row = some row) (isCompleted : row.state = .completed) :
    shared.row = some row ∨ ∃ identity value effectsAdmitted encoded stored, phase = .completing identity value effectsAdmitted ∧
      (calls party).encode value = some encoded ∧ response encoded = some stored ∧ row.response = some stored := by
  have completes : ∀ {identity value effectsAdmitted completed}, complete (calls party).encode identity value shared.row = .ok completed →
      phase = .completing identity value effectsAdmitted → completed = row →
      ∃ identity value effectsAdmitted encoded stored, phase = .completing identity value effectsAdmitted ∧
        (calls party).encode value = some encoded ∧ response encoded = some stored ∧ row.response = some stored := by
    rintro identity value effectsAdmitted _ completed isPhase rfl
    rcases complete_ok completed with ⟨encoded, stored, running, isEncoded, isStored, _, _, _, rfl⟩
    exact ⟨identity, value, effectsAdmitted, encoded, stored, isPhase, isEncoded, isStored, rfl⟩
  cases does with
  | claims =>
    cases isRow
    rw [knows.2.2.2] at isCompleted
    cases isCompleted
  | claimsUnheard =>
    cases isRow
    rw [knows.2.2.2] at isCompleted
    cases isCompleted
  | completes completed => exact .inr (completes completed rfl (Option.some.inj isRow))
  | completesUnheard completed => exact .inr (completes completed rfl (Option.some.inj isRow))
  | @recovers identity _ _ _ _ change =>
    rcases change with rfl | ⟨_, rfl⟩ | ⟨_, rfl⟩
    · exact .inl isRow
    · simp only [markUnknown] at isRow
      split at isRow
      · cases isRow
        cases isCompleted
      · exact .inl isRow
    · simp only [deleteRunning] at isRow
      split at isRow
      · cases isRow
      · exact .inl isRow
  | _ => exact .inl isRow

theorem completing_of_does {identity : ReceiptIdentity} {value : T} {effectsAdmitted : Bool}
    (does : Does sha256 calls party shared phase event after next) (isNext : next = .completing identity value effectsAdmitted) :
    event = .execute (some value) := by
  cases does with
  | executes => cases isNext; rfl
  | _ => cases isNext

/-- What completes the receipt was returned by an execution before. -/
structure Returned (calls : Nat → Invocation N T) (past : List (Nat × Event T))
    (state : Parties.State Nat (Shared N) (Phase N T)) : Prop where
  returned : ∀ party identity value effectsAdmitted, state.parties party = .completing identity value effectsAdmitted →
    (party, .execute (some value)) ∈ past
  completed : ∀ row, state.shared.row = some row → row.state = .completed → CompletedBy calls past row

theorem returned_of_run {labels : List (Nat × Event T)} {final : Parties.State Nat (Shared N) (Phase N T)}
    (runs : ReceiptRuns sha256 key calls initial labels final) : Returned calls labels final := by
  have first : Returned calls [] (initial : Parties.State Nat (Shared N) (Phase N T)) :=
    ⟨fun _ _ _ _ isPhase => (by cases isPhase), fun _ isRow => (by cases isRow)⟩
  refine runs.history (Returned calls) first ?_
  rintro past state _ _ before ⟨returned, completed⟩ taken
  rcases knows_of_run before with ⟨holds, _⟩
  rcases taken with @⟨acting, event, after, mine, acts⟩
  have does := does_of_perform acts
  refine ⟨fun party identity value effectsAdmitted isPhase => ?_, fun row isRow isCompleted => ?_⟩
  · by_cases same : party = acting
    · subst same
      rw [completing_of_does does (by simpa using isPhase)]
      exact List.mem_append_right _ List.mem_cons_self
    · exact List.mem_append_left _ (returned party identity value effectsAdmitted (by simpa [same] using isPhase))
  · rcases completed_of_does does (holds.each acting) isRow isCompleted with old | ⟨_, value, _, encoded, stored, isPhase, made⟩
    · exact (completed row old isCompleted).later _
    · exact ⟨acting, value, encoded, stored, List.mem_append_left _ (returned acting _ value _ isPhase), made⟩

end Completion

section Later
variable {N T : Type} [JsNumber N] {sha256 : Text → Text → Text} {key : ReceiptKey} {calls : Nat → Invocation N T}
  {party : Nat} {shared after : Shared N} {phase next : Phase N T} {event : Event T}

/-- What a call comes to that begins once the receipt is settled. -/
inductive Answers (decode : Value N → Option T) (identity : Except Failure ReceiptIdentity) (row : ReceiptRow N) : Outcome T → Prop
  | crashed : Answers decode identity row .crashed
  | denied : Answers decode identity row (.failed .denied)
  | database : Answers decode identity row (.failed .database)
  | busy {retryAt} : Answers decode identity row (.failed (.inProgress retryAt))
  | invalid {failure} : identity = .error failure → Answers decode identity row (.failed failure)
  | reused {own} : identity = .ok own → row.isFor own = false → Answers decode identity row (.failed .reusedKey)
  | unknown {own} : identity = .ok own → row.isFor own = true → row.state = .outcomeUnknown →
    Answers decode identity row (.failed .outcomeUnknown)
  | unreadable {own} : identity = .ok own → row.isFor own = true → row.state = .completed →
    replayed decode row.response = .error .unavailable → Answers decode identity row (.failed .unavailable)
  | value {own value} : identity = .ok own → row.isFor own = true → row.state = .completed →
    replayed decode row.response = .ok value → Answers decode identity row (.replayed value)

/-- Where a call is that began once the receipt was settled. -/
def Waits (decode : Value N → Option T) (identity : Except Failure ReceiptIdentity) (row : ReceiptRow N) : Phase N T → Prop
  | .idle => True
  | .authorizing own | .locking own | .reading own => identity = .ok own
  | .replaying own value => identity = .ok own ∧ row.isFor own = true ∧ row.state = .completed ∧
    replayed decode row.response = .ok value
  | .done outcome => Answers decode identity row outcome
  | _ => False

theorem replayed_error {decode : Value N → Option T} {stored : Option (Value N)} {failure : Failure}
    (refused : replayed decode stored = .error failure) : failure = .unavailable := by
  unfold replayed at refused
  split at refused
  · split at refused
    · split at refused
      · split at refused
        · cases refused
        · cases refused; rfl
      · cases refused; rfl
    · cases refused; rfl
  · cases refused; rfl

theorem answers_of_existing {decode : Value N → Option T} {identity : Except Failure ReceiptIdentity} {own : ReceiptIdentity}
    {row : ReceiptRow N} {now : Instant} {failure : Failure} (isOwn : identity = .ok own) (settled : row.state ≠ .running)
    (refused : existingOutcome decode own row now = .error failure) : Answers decode identity row (.failed failure) := by
  unfold existingOutcome at refused
  split at refused
  · next other =>
    cases refused
    exact .reused isOwn (by simpa using other)
  · next isFor =>
    have isFor : row.isFor own = true := by simpa using isFor
    split at refused
    · next isCompleted =>
      cases replayed_error refused
      exact .unreadable isOwn isFor isCompleted refused
    · next isUnknown =>
      cases refused
      exact .unknown isOwn isFor isUnknown
    · next isRunning => exact absurd isRunning settled

theorem found_of_existing {decode : Value N → Option T} {own : ReceiptIdentity} {row : ReceiptRow N} {now : Instant} {value : T}
    (found : existingOutcome decode own row now = .ok value) :
    row.isFor own = true ∧ row.state = .completed ∧ replayed decode row.response = .ok value := by
  unfold existingOutcome at found
  split at found
  · cases found
  · next isFor =>
    split at found
    · next isCompleted => exact ⟨by simpa using isFor, isCompleted, found⟩
    · cases found
    · dsimp only at found
      split at found <;> cases found

theorem waits_of_does {row : ReceiptRow N} (isRow : shared.row = some row) (settled : row.state ≠ .running)
    (does : Does sha256 calls party shared phase event after next)
    (waits : Waits (calls party).decode (keyedOperationReceiptIdentity sha256 (calls party).session (calls party).options) row phase) :
    Waits (calls party).decode (keyedOperationReceiptIdentity sha256 (calls party).session (calls party).options) row next := by
  cases does with
  | invalid failed => exact .invalid failed
  | begins identified => exact identified
  | authorizes | locks => exact waits
  | findsNone noRow => rw [isRow] at noRow; cases noRow
  | finds isFound found =>
    rw [isRow] at isFound
    cases isFound
    exact ⟨waits, found_of_existing found⟩
  | inserts | claims | claimsUnheard | admits | executes | throws | completes | completesUnheard | incomplete | recovers =>
    exact waits.elim
  | leaves left =>
    cases left with
    | denied => exact .denied
    | busy => exact .busy
    | refused isFound refused =>
      rw [isRow] at isFound
      cases isFound
      exact answers_of_existing waits settled refused
    | conflict | unclaimed => exact waits.elim
    | replayed => exact .value waits.1 waits.2.1 waits.2.2.1 waits.2.2.2
    | unreplayed | failed => exact .database
    | crashed => exact .crashed

theorem settled_of_run {front back : List (Nat × Event T)} {middle final : Parties.State Nat (Shared N) (Phase N T)}
    (before : ReceiptRuns sha256 key calls initial front middle) (later : ReceiptRuns sha256 key calls middle back final)
    {row : ReceiptRow N} (isRow : middle.shared.row = some row) (settled : row.state ≠ .running) :
    final.shared.row = some row ∧ ∀ party, middle.parties party = .idle →
      Waits (calls party).decode (keyedOperationReceiptIdentity sha256 (calls party).session (calls party).options) row
        (final.parties party) := by
  refine later.history (fun _ state => state.shared.row = some row ∧ ∀ party, middle.parties party = .idle →
    Waits (calls party).decode (keyedOperationReceiptIdentity sha256 (calls party).session (calls party).options) row
      (state.parties party)) ⟨isRow, fun party isIdle => by rw [isIdle]; exact trivial⟩ ?_
  rintro past state _ _ passed ⟨isRow, waits⟩ taken
  have knows := (knows_of_run (before.append passed)).1
  rcases taken with @⟨acting, event, after, mine, acts⟩
  have does := does_of_perform acts
  refine ⟨settled_of_does does isRow settled (knows.each acting), fun party isIdle => ?_⟩
  by_cases same : party = acting
  · subst same
    simpa using waits_of_does isRow settled does (waits party isIdle)
  · simpa [same] using waits party isIdle

end Later

section Result
variable {N T : Type} [JsNumber N] {sha256 : Text → Text → Text} {key : ReceiptKey} {calls : Nat → Invocation N T}

theorem canonicalJson_version [LawfulJsNumber N] : canonicalJson (.number (JsNumber.ofNat receiptVersion) : Value N) =
    some (.number (JsNumber.ofNat receiptVersion)) := by
  simp [canonicalJson, receiptVersion, LawfulJsNumber.isFinite_ofNat (N := N) 1, LawfulJsNumber.equal_ofNat (N := N) 1 0]

theorem canonicalJson_response (version result : Value N) :
    canonicalJson (.object [(js "version", version), (js "result", result)]) =
      (canonicalJson version).bind fun version => (canonicalJson result).map fun result =>
        .object [(js "result", result), (js "version", version)] := by
  have ordered : ∀ a b : Value N, ownOrder (sortMembers [(js "version", a), (js "result", b)]) =
      [(js "result", b), (js "version", a)] := by
    intro a b
    have swapped : textLess (js "result") (js "version") = true := by decide
    have noIndex : elementKey (js "result") = none ∧ elementKey (js "version") = none := by decide +kernel
    simp [ownOrder, sortMembers, swapped, noIndex]
  rw [canonicalJson]
  cases isVersion : canonicalJson version with
  | none => simp [canonicalJson.canonicalMembers, isVersion]
  | some first =>
    cases isResult : canonicalJson result with
    | none => simp [canonicalJson.canonicalMembers, isVersion, isResult]
    | some second => simp [canonicalJson.canonicalMembers, isVersion, isResult, ordered]

theorem replayed_of_response [LawfulJsNumber N] {encoded stored : Value N} (made : response encoded = some stored) :
    ∃ canonical, canonicalJson encoded = some canonical ∧ ∀ decode : Value N → Option T,
      replayed decode (some stored) = match decode canonical with
        | some value => .ok value
        | none => .error .unavailable := by
  rw [response, canonicalJson_response, canonicalJson_version] at made
  rcases Option.map_eq_some_iff.mp made with ⟨canonical, isCanonical, rfl⟩
  refine ⟨canonical, isCanonical, fun decode => ?_⟩
  have version : (Value.object [(js "result", canonical), (js "version", .number (JsNumber.ofNat receiptVersion))]).own?
      (js "version") = some (.number (JsNumber.ofNat receiptVersion : N)) := rfl
  have result : (Value.object [(js "result", canonical), (js "version", .number (JsNumber.ofNat receiptVersion : N))]).own?
      (js "result") = some canonical := rfl
  have equal : JsNumber.equal (JsNumber.ofNat receiptVersion : N) (JsNumber.ofNat receiptVersion) = true := by
    simp [receiptVersion, LawfulJsNumber.equal_ofNat (N := N) 1 1]
  cases decoded : decode canonical <;> simp only [replayed, version, result, equal, if_true, decoded]

/-- What holds of a run of calls: one at most admits effects, a settled receipt stays, a completed one holds what an
execution returned, and calls that begin later come to what it says and never execute. -/
structure WrittenOnce (sha256 : Text → Text → Text) (key : ReceiptKey) (calls : Nat → Invocation N T) (front back : List (Nat × Event T))
    (middle final : Parties.State Nat (Shared N) (Phase N T)) : Prop where
  admitted : ∀ first second, (first, .markEffectsAdmitted) ∈ front ++ back → (second, .markEffectsAdmitted) ∈ front ++ back →
    first = second
  settled : ∀ row, middle.shared.row = some row → row.state ≠ .running → final.shared.row = some row
  completed : ∀ row, middle.shared.row = some row → row.state = .completed →
    ∃ party value encoded canonical, (party, .execute (some value)) ∈ front ∧ (calls party).encode value = some encoded ∧
      canonicalJson encoded = some canonical ∧ ∀ decode : Value N → Option T,
        replayed decode row.response = match decode canonical with
          | some value => .ok value
          | none => .error .unavailable
  later : ∀ row party, middle.shared.row = some row → row.state ≠ .running → middle.parties party = .idle →
    owns (final.parties party) = false ∧ ∀ outcome, final.parties party = .done outcome →
      Answers (calls party).decode (keyedOperationReceiptIdentity sha256 (calls party).session (calls party).options) row outcome
  own : ∀ party identity effectsAdmitted, final.parties party = .executing identity effectsAdmitted →
    ∃ row, final.shared.row = some row ∧ row.isFor identity = true
  reused : ∀ party identity now row after next, final.parties party = .reading identity → final.shared.row = some row →
    row.isFor identity = false → perform sha256 key calls party final.shared (final.parties party) (.read now) = some (after, next) →
    next = .done (.failed .reusedKey)

theorem written_once [LawfulJsNumber N] {front back : List (Nat × Event T)} {middle final : Parties.State Nat (Shared N) (Phase N T)}
    (before : ReceiptRuns sha256 key calls initial front middle) (later : ReceiptRuns sha256 key calls middle back final) :
    WrittenOnce sha256 key calls front back middle final where
  admitted first second isFirst isSecond := (admitted_of_run (before.append later) second isSecond).alone first isFirst
  settled row isRow settled := (settled_of_run before later isRow settled).1
  completed row isRow isCompleted := by
    rcases (returned_of_run before).completed row isRow isCompleted with ⟨party, value, encoded, stored, member, isEncoded, made, isStored⟩
    rcases replayed_of_response made with ⟨canonical, isCanonical, replays⟩
    exact ⟨party, value, encoded, canonical, member, isEncoded, isCanonical, fun decode => isStored ▸ replays decode⟩
  later row party isRow settled isIdle := by
    have waits := (settled_of_run before later isRow settled).2 party isIdle
    refine ⟨?_, fun outcome isOutcome => ?_⟩
    · cases isPhase : final.parties party with
      | executing | completing | recovering =>
        rw [isPhase] at waits
        exact waits.elim
      | _ => rfl
    · rw [isOutcome] at waits
      exact waits
  own party identity effectsAdmitted isPhase := by
    have knows := (knows_of_run (before.append later)).1.each party
    rw [isPhase] at knows
    exact knows
  reused party identity now row after next isPhase isRow other done := by
    simp only [perform, isPhase, isRow, existingOutcome, other, Bool.not_false, if_true, leave] at done
    cases done
    rfl

/-- The digests of the key `k1` and of the input `{}`, which are all that is hashed here. -/
def digest (nameSpace value : Text) : Text :=
  if nameSpace = js "openshapeforge:operation-idempotency-key:v1" ∧ value = js "k1" then
    js "f378b19f744401f940277a92b7d959f9c1934f97a16626ed933b103f0d397c96"
  else if value = js "\x7b\x7d" then js "4ea23a3c9d7a91f7844ad2587830d452df9f5f3b7c991e1eb081d8b601f65184"
  else []

def plainOperation : KeyedOperation Whole := ⟨js "send", js "create", js "k1", [], none, [], js "sha256:c"⟩

def plainIdentity : ReceiptIdentity :=
  ⟨⟨js "t", js "u", js "send", js "create", digest (js "openshapeforge:operation-idempotency-key:v1") (js "k1")⟩,
    js "sha256:" ++ digest (js "openshapeforge:operation-business-input:v1") (js "\x7b\x7d"), js "sha256:c"⟩

def plainCalls : Nat → Invocation Whole Text := fun _ => {
  session := ⟨some (js "t"), some (js "u")⟩
  options := plainOperation
  encode := fun value => some (.text value)
  decode := fun value => match value with
    | .text value => some value
    | _ => none }

def firstCall : List (Nat × Event Text) :=
  [(0, .begin), (0, .authorize true), (0, .lock true 0), (0, .read 0), (0, .insert 0), (0, .commit .committed),
    (0, .markEffectsAdmitted), (0, .execute (some (js "sent"))), (0, .complete .committed)]

/-- Two calls after it; the second meets the lock of the first. -/
def laterCalls : List (Nat × Event Text) :=
  [(1, .begin), (2, .begin), (1, .authorize true), (2, .authorize true), (1, .lock true 5), (2, .lock false 6), (1, .read 7),
    (1, .commit .committed)]

theorem written_once_twice : ∃ middle final,
    Parties.play (perform digest plainIdentity.key plainCalls) initial firstCall = some middle ∧
    Parties.play (perform digest plainIdentity.key plainCalls) middle laterCalls = some final ∧
    WrittenOnce digest plainIdentity.key plainCalls firstCall laterCalls middle final := by
  have played : ((Parties.play (perform digest plainIdentity.key plainCalls) initial firstCall).bind fun middle =>
      Parties.play (perform digest plainIdentity.key plainCalls) middle laterCalls).isSome := by decide +kernel
  rcases Option.isSome_iff_exists.mp played with ⟨final, isFinal⟩
  rcases Option.bind_eq_some_iff.mp isFinal with ⟨middle, isMiddle, isFinal⟩
  exact ⟨middle, final, isMiddle, isFinal, written_once (Parties.runs_of_play _ isMiddle) (Parties.runs_of_play _ isFinal)⟩

def failureOf (state : Parties.State Nat (Shared Whole) (Phase Whole Text)) (party : Nat) : Option Failure :=
  match state.parties party with
  | .done (.failed failure) => some failure
  | _ => none

def isIdle (state : Parties.State Nat (Shared Whole) (Phase Whole Text)) (party : Nat) : Bool :=
  match state.parties party with
  | .idle => true
  | _ => false

/-- A call that begins once the receipt is completed, with the same fingerprints, and
comes neither to its value nor to an unknown outcome. -/
theorem later_call_in_progress : ∃ middle final row, ReceiptRuns digest plainIdentity.key plainCalls initial firstCall middle ∧
    ReceiptRuns digest plainIdentity.key plainCalls middle laterCalls final ∧
    middle.shared.row = some row ∧ row.state = .completed ∧ row.isFor plainIdentity = true ∧
    keyedOperationReceiptIdentity digest (plainCalls 2).session (plainCalls 2).options = .ok plainIdentity ∧
    isIdle middle 2 = true ∧ failureOf final 2 = some (.inProgress 1006) := by
  have played : ((Parties.play (perform digest plainIdentity.key plainCalls) initial firstCall).bind fun middle =>
      (Parties.play (perform digest plainIdentity.key plainCalls) middle laterCalls).map fun final =>
        (middle.shared.row.map fun row => (row.state, row.isFor plainIdentity), isIdle middle 2, failureOf final 2)) =
      some (some (.completed, true), true, some (.inProgress 1006)) := by decide +kernel
  rcases Option.bind_eq_some_iff.mp played with ⟨middle, isMiddle, ends⟩
  rcases Option.map_eq_some_iff.mp ends with ⟨final, isFinal, facts⟩
  simp only [Prod.mk.injEq, Option.map_eq_some_iff] at facts
  rcases facts with ⟨⟨row, isRow, isCompleted, isFor⟩, idle, failed⟩
  exact ⟨middle, final, row, Parties.runs_of_play _ isMiddle, Parties.runs_of_play _ isFinal, isRow, isCompleted, isFor, rfl,
    idle, failed⟩

end Result

end OpenShapeForge.Operations.ReceiptOnce
