import OpenShapeForge.Library.Run
import OpenShapeForge.Operations.EditLeases

/-! A lease that is consumed was its owner's alone from its acquisition on, over
every run of lease transactions on a target, whatever their clocks say. -/

namespace OpenShapeForge.Operations.EditLeaseExclusive
open Js Library EditLeases

/-- A transaction of a run, its time and what it answered. -/
structure Entry where
  now : Timestamp
  transaction : Transaction
  outcome : Except LeaseFailure Reply

section Entries

/-- A lease somebody holds from an entry on. -/
structure Acquisition where
  userId : Text
  operationId : Text
  leaseToken : Text
  targetVersion : Text

structure Use where
  userId : Text
  operationId : Text
  expectedVersion : Text
  leaseToken : Text

def Entry.acquisition (entry : Entry) : Option Acquisition :=
  match entry.transaction, entry.outcome with
  | .acquire userId _ operation leaseToken _, .ok (.acquired _ lease) =>
    some ⟨userId, operation.id, leaseToken, lease.targetVersion⟩
  | _, _ => none

def Entry.consumption (entry : Entry) : Option Use :=
  match entry.transaction, entry.outcome with
  | .consume userId operation expectedVersion leaseToken, .ok _ => some ⟨userId, operation.id, expectedVersion, leaseToken⟩
  | _, _ => none

def Entry.validation (entry : Entry) : Option Use :=
  match entry.transaction, entry.outcome with
  | .validate userId operation expectedVersion leaseToken, .ok _ => some ⟨userId, operation.id, expectedVersion, leaseToken⟩
  | _, _ => none

def Entry.released (entry : Entry) : Option Text :=
  match entry.transaction, entry.outcome with
  | .release _ leaseToken, .ok (.released true) => some leaseToken
  | _, _ => none

/-- The token an acquisition mints, also where it is then refused. -/
def Entry.minted (entry : Entry) : Option Text :=
  match entry.transaction with
  | .acquire _ _ _ leaseToken _ => some leaseToken
  | _ => none

def Entry.token (entry : Entry) : Text :=
  match entry.transaction with
  | .acquire _ _ _ leaseToken _ | .renew _ leaseToken _ | .release _ leaseToken | .validate _ _ _ leaseToken
  | .consume _ _ _ leaseToken => leaseToken

def Entry.Quiet (entry : Entry) : Prop := entry.acquisition = none ∧ entry.consumption = none ∧ entry.released = none

end Entries

section Runs
variable (tokenHash : Text → Text) (normalizeTimestampToken : Text → Option Text)

def Step (row : Option LeaseRow) (entry : Entry) (next : Option LeaseRow) : Prop :=
  perform tokenHash normalizeTimestampToken row entry.now entry.transaction = (next, entry.outcome)

/-- What transactions do to a target that nobody has a lease on at first. -/
abbrev LeaseRun : List Entry → Option LeaseRow → Prop := Run (Step tokenHash normalizeTimestampToken) none

structure Holds (row : LeaseRow) (acquired : Acquisition) : Prop where
  owner : row.ownerUserId = acquired.userId
  operation : row.operationId = acquired.operationId
  token : row.tokenHash = tokenHash acquired.leaseToken
  version : normalizeTimestampToken row.acquiredVersion = some acquired.targetVersion

/-- The row was acquired on the way here, and nobody has acquired, consumed or released since. -/
def Held (past : List Entry) (row : LeaseRow) : Prop :=
  ∃ earlier acquiring since acquired, past = earlier ++ acquiring :: since ∧ acquiring.acquisition = some acquired ∧
    Holds tokenHash normalizeTimestampToken row acquired ∧ ∀ entry ∈ since, entry.Quiet

end Runs

section Steps
variable {tokenHash : Text → Text} {normalizeTimestampToken : Text → Option Text} {row next : Option LeaseRow} {entry : Entry}

theorem ok_of_bind {ε α β : Type} {first : Except ε α} {later : α → Except ε β} {result : β}
    (done : (first >>= later) = .ok result) : ∃ value, first = .ok value ∧ later value = .ok result := by
  cases first with
  | error failure => cases done
  | ok value => exact ⟨value, rfl, done⟩

theorem normalized_ok {value token : Text} (done : normalized normalizeTimestampToken value = .ok token) :
    normalizeTimestampToken value = some token := by
  unfold normalized at done
  cases found : normalizeTimestampToken value with
  | none => rw [found] at done; cases done
  | some other => rw [found] at done; cases done; rfl

theorem reported_ok {held : LeaseRow} {lease : EntityEditLease} (done : reported normalizeTimestampToken held = .ok lease) :
    normalizeTimestampToken held.acquiredVersion = some lease.targetVersion := by
  rcases ok_of_bind done with ⟨version, isVersion, made⟩
  cases made
  exact normalized_ok isVersion

theorem acquire_ok {now : Timestamp} {userId leaseToken : Text} {userDisplayName : Option Text}
    {operation : LeaseProtectedOperation} {current : CurrentVersion} {acquired : LeaseRow} {lease : EntityEditLease}
    (done : acquireEntityEditLease tokenHash normalizeTimestampToken row now userId userDisplayName operation leaseToken current =
      .ok (acquired, lease)) :
    Holds tokenHash normalizeTimestampToken acquired ⟨userId, operation.id, leaseToken, lease.targetVersion⟩ := by
  rcases ok_of_bind done with ⟨_, _, done⟩
  rcases ok_of_bind done with ⟨_, _, done⟩
  rcases ok_of_bind done with ⟨_, _, done⟩
  dsimp only at done
  split at done
  · cases done
  · rcases ok_of_bind done with ⟨_, isReported, made⟩
    cases made
    exact ⟨rfl, rfl, rfl, reported_ok isReported⟩

theorem renew_ok {now : Timestamp} {userId leaseToken : Text} {allowed : List Text} {renewed : LeaseRow} {lease : EntityEditLease}
    (done : renewEntityEditLease tokenHash normalizeTimestampToken row now userId leaseToken allowed = .ok (renewed, lease)) :
    ∃ held expiresAt, row = some held ∧ renewed = { held with expiresAt := expiresAt } := by
  unfold renewEntityEditLease at done
  split at done
  · cases done
  · split at done
    · cases done
    · next held found =>
      rcases ok_of_bind done with ⟨_, _, made⟩
      cases made
      exact ⟨held, _, (Option.filter_eq_some_iff.mp found).1, rfl⟩

structure Matches (tokenHash : Text → Text) (normalizeTimestampToken : Text → Option Text) (row : LeaseRow) (use : Use) : Prop where
  owner : row.ownerUserId = use.userId
  operation : row.operationId = use.operationId
  token : row.tokenHash = tokenHash use.leaseToken
  version : ∃ version, normalizeTimestampToken row.acquiredVersion = some version ∧
    normalizeTimestampToken use.expectedVersion = some version

theorem require_ok {now : Timestamp} {userId expectedVersion leaseToken : Text} {operation : LeaseProtectedOperation}
    (done : requireEntityEditLease tokenHash normalizeTimestampToken row now userId operation expectedVersion leaseToken = .ok ()) :
    ∃ held, row = some held ∧
      Matches tokenHash normalizeTimestampToken held ⟨userId, operation.id, expectedVersion, leaseToken⟩ := by
  rcases ok_of_bind done with ⟨_, _, done⟩
  split at done
  · cases done
  · next held found =>
    split at done
    · cases done
    · next owned =>
      rcases ok_of_bind done with ⟨acquired, isAcquired, done⟩
      rcases ok_of_bind done with ⟨expected, isExpected, done⟩
      split at done
      · cases done
      · next sameVersion =>
        split at done
        · cases done
        · next fits =>
          rcases not_or.mp fits with ⟨sameOperation, sameToken⟩
          refine ⟨held, (Option.filter_eq_some_iff.mp found).1, of_not_not owned, of_not_not sameOperation, of_not_not sameToken,
            acquired, normalized_ok isAcquired, ?_⟩
          rw [of_not_not sameVersion]
          exact normalized_ok isExpected

theorem acquisition_step (taken : Step tokenHash normalizeTimestampToken row entry next) {acquired : Acquisition}
    (acquires : entry.acquisition = some acquired) :
    ∃ held, next = some held ∧ Holds tokenHash normalizeTimestampToken held acquired := by
  rcases entry with ⟨now, transaction, outcome⟩
  cases transaction with
  | acquire userId userDisplayName operation leaseToken current =>
    simp only [Step, perform] at taken
    split at taken
    · next held lease done =>
      cases taken
      cases acquires
      exact ⟨held, rfl, acquire_ok done⟩
    · cases taken
      cases acquires
  | _ => cases acquires

theorem consumption_step (taken : Step tokenHash normalizeTimestampToken row entry next) {use : Use}
    (consumes : entry.consumption = some use) :
    next = none ∧ ∃ held, row = some held ∧ Matches tokenHash normalizeTimestampToken held use := by
  rcases entry with ⟨now, transaction, outcome⟩
  cases transaction with
  | consume userId operation expectedVersion leaseToken =>
    simp only [Step, perform] at taken
    split at taken
    · next done =>
      cases taken
      cases consumes
      exact ⟨rfl, require_ok done⟩
    · cases taken
      cases consumes
  | _ => cases consumes

theorem validation_step (taken : Step tokenHash normalizeTimestampToken row entry next) {use : Use}
    (validates : entry.validation = some use) : ∃ held, row = some held ∧ Matches tokenHash normalizeTimestampToken held use := by
  rcases entry with ⟨now, transaction, outcome⟩
  cases transaction with
  | validate userId operation expectedVersion leaseToken =>
    simp only [Step, perform] at taken
    cases done : requireEntityEditLease tokenHash normalizeTimestampToken row now userId operation expectedVersion leaseToken with
    | ok _ =>
      rw [done] at taken
      cases taken
      cases validates
      exact require_ok done
    | error failure =>
      rw [done] at taken
      cases taken
      cases validates
  | _ => cases validates

theorem release_step (taken : Step tokenHash normalizeTimestampToken row entry next) {token : Text}
    (released : entry.released = some token) : next = none ∧ ∃ held, row = some held ∧ held.tokenHash = tokenHash token := by
  rcases entry with ⟨now, transaction, outcome⟩
  cases transaction with
  | release userId leaseToken =>
    simp only [Step, perform] at taken
    split at taken
    · next found =>
      cases taken
      cases released
      rcases Option.isSome_iff_exists.mp found with ⟨held, isHeld⟩
      rcases Option.filter_eq_some_iff.mp isHeld with ⟨isRow, fits⟩
      exact ⟨rfl, held, isRow, of_decide_eq_true (Bool.and_eq_true_iff.mp fits).2⟩
    · cases taken
      cases released
  | _ => cases released

theorem quiet_step (taken : Step tokenHash normalizeTimestampToken row entry next) (quiet : entry.Quiet) :
    next = row ∨ ∃ held expiresAt, row = some held ∧ next = some { held with expiresAt := expiresAt } := by
  rcases entry with ⟨now, transaction, outcome⟩
  rcases quiet with ⟨noAcquisition, noConsumption, noRelease⟩
  cases transaction with
  | acquire userId userDisplayName operation leaseToken current =>
    simp only [Step, perform] at taken
    split at taken
    · cases taken
      cases noAcquisition
    · exact .inl (congrArg Prod.fst taken).symm
  | renew userId leaseToken allowed =>
    simp only [Step, perform] at taken
    split at taken
    · next renewed lease done =>
      rcases renew_ok done with ⟨held, expiresAt, isRow, rfl⟩
      exact .inr ⟨held, expiresAt, isRow, (congrArg Prod.fst taken).symm⟩
    · exact .inl (congrArg Prod.fst taken).symm
  | release userId leaseToken =>
    simp only [Step, perform] at taken
    split at taken
    · cases taken
      cases noRelease
    · exact .inl (congrArg Prod.fst taken).symm
  | validate userId operation expectedVersion leaseToken => exact .inl (congrArg Prod.fst taken).symm
  | consume userId operation expectedVersion leaseToken =>
    simp only [Step, perform] at taken
    split at taken
    · cases taken
      cases noConsumption
    · exact .inl (congrArg Prod.fst taken).symm

theorem minted_of_acquisition {acquired : Acquisition} (acquires : entry.acquisition = some acquired) :
    entry.minted = some acquired.leaseToken ∧ entry.token = acquired.leaseToken := by
  rcases entry with ⟨now, transaction, outcome⟩
  cases transaction with
  | acquire userId userDisplayName operation leaseToken current =>
    unfold Entry.acquisition at acquires
    split at acquires
    · next same _ =>
      cases same
      cases acquires
      exact ⟨rfl, rfl⟩
    · cases acquires
  | _ => cases acquires

end Steps

section Invariant
variable {tokenHash : Text → Text} {normalizeTimestampToken : Text → Option Text}

theorem held_of_run {run : List Entry} {final : Option LeaseRow} (reached : LeaseRun tokenHash normalizeTimestampToken run final) :
    ∀ held, final = some held → Held tokenHash normalizeTimestampToken run held := by
  refine reached.history (fun past row => ∀ held, row = some held → Held tokenHash normalizeTimestampToken past held)
    (fun _ none => by cases none) ?_
  intro past row entry next _ before taken held isNext
  cases acquires : entry.acquisition with
  | some acquired =>
    rcases acquisition_step taken acquires with ⟨fresh, isFresh, holds⟩
    rw [isNext] at isFresh
    cases isFresh
    exact ⟨past, entry, [], acquired, rfl, acquires, holds, fun _ member => absurd member List.not_mem_nil⟩
  | none =>
    cases consumes : entry.consumption with
    | some use =>
      rw [(consumption_step taken consumes).1] at isNext
      cases isNext
    | none =>
      cases released : entry.released with
      | some token =>
        rw [(release_step taken released).1] at isNext
        cases isNext
      | none =>
        have quiet : entry.Quiet := ⟨acquires, consumes, released⟩
        have extend : ∀ row', Held tokenHash normalizeTimestampToken past row' →
            ∀ expiresAt, Held tokenHash normalizeTimestampToken (past ++ [entry]) { row' with expiresAt := expiresAt } := by
          rintro row' ⟨earlier, acquiring, since, acquired, same, isAcquired, holds, quietSince⟩ expiresAt
          refine ⟨earlier, acquiring, since ++ [entry], acquired, by rw [same]; simp, isAcquired,
            ⟨holds.owner, holds.operation, holds.token, holds.version⟩, fun other member => ?_⟩
          rcases List.mem_append.mp member with old | isLast
          · exact quietSince other old
          · rw [List.mem_singleton.mp isLast]
            exact quiet
        rcases quiet_step taken quiet with same | ⟨old, expiresAt, isOld, isNew⟩
        · rw [isNext] at same
          exact extend held (before held same.symm) held.expiresAt
        · rw [isNext] at isNew
          cases isNew
          exact extend old (before old isOld) expiresAt

def CollisionFree (tokenHash : Text → Text) (run : List Entry) : Prop :=
  ∀ first ∈ run, ∀ second ∈ run, tokenHash first.token = tokenHash second.token → first.token = second.token

/-- A token never repeats: each acquisition mints another. -/
def MintedOnce (run : List Entry) : Prop := (run.filterMap Entry.minted).Nodup

/-- A token is consumed or validated here, or its lease released. -/
def Entry.Uses (entry : Entry) (token : Text) : Prop :=
  (∃ use, (entry.consumption = some use ∨ entry.validation = some use) ∧ use.leaseToken = token) ∨ entry.released = some token

theorem token_of_uses {entry : Entry} {token : Text} (uses : entry.Uses token) : entry.token = token := by
  rcases entry with ⟨now, transaction, outcome⟩
  rcases uses with ⟨use, consumes | validates, rfl⟩ | released
  · unfold Entry.consumption at consumes
    split at consumes
    · next same _ =>
      cases same
      cases consumes
      rfl
    · cases consumes
  · unfold Entry.validation at validates
    split at validates
    · next same _ =>
      cases same
      cases validates
      rfl
    · cases validates
  · unfold Entry.released at released
    split at released
    · next same _ =>
      cases same
      cases released
      rfl
    · cases released

theorem hash_of_uses {row next : Option LeaseRow} {entry : Entry} {token : Text}
    (taken : Step tokenHash normalizeTimestampToken row entry next) (uses : entry.Uses token) :
    ∃ held, row = some held ∧ held.tokenHash = tokenHash token := by
  rcases uses with ⟨use, consumes | validates, rfl⟩ | released
  · rcases consumption_step taken consumes with ⟨_, held, isHeld, fits⟩
    exact ⟨held, isHeld, fits.token⟩
  · rcases validation_step taken validates with ⟨held, isHeld, fits⟩
    exact ⟨held, isHeld, fits.token⟩
  · rcases release_step taken released with ⟨_, held, isHeld, same⟩
    exact ⟨held, isHeld, same⟩

theorem acquired_of_uses {final : Option LeaseRow} {front back : List Entry} {entry : Entry} {token : Text}
    (reached : LeaseRun tokenHash normalizeTimestampToken (front ++ entry :: back) final)
    (collisionFree : CollisionFree tokenHash (front ++ entry :: back)) (uses : entry.Uses token) :
    ∃ earlier acquiring since acquired, front = earlier ++ acquiring :: since ∧ acquiring.acquisition = some acquired ∧
      acquired.leaseToken = token ∧ ∀ other ∈ since, other.Quiet := by
  rcases reached.step_at with ⟨row, next, before, taken, _⟩
  rcases hash_of_uses taken uses with ⟨held, isHeld, sameHash⟩
  rcases held_of_run before held isHeld with ⟨earlier, acquiring, since, acquired, rfl, acquires, holds, quiet⟩
  refine ⟨earlier, acquiring, since, acquired, rfl, acquires, ?_, quiet⟩
  rw [← (minted_of_acquisition acquires).2, ← token_of_uses uses]
  refine collisionFree acquiring (by simp) entry (by simp) ?_
  rw [(minted_of_acquisition acquires).2, token_of_uses uses, ← holds.token, sameHash]

/-- What a consumed lease was: acquired under the same token by the same user for the same Operation at the version
now expected, with nobody else on the target since; never consumed or released before, and of no use afterwards. -/
structure Exclusive (normalizeTimestampToken : Text → Option Text) (front : List Entry) (use : Use) (back : List Entry) : Prop where
  acquired : ∃ earlier acquiring since acquired, front = earlier ++ acquiring :: since ∧ acquiring.acquisition = some acquired ∧
    acquired.leaseToken = use.leaseToken ∧ acquired.userId = use.userId ∧ acquired.operationId = use.operationId ∧
    normalizeTimestampToken use.expectedVersion = some acquired.targetVersion ∧ ∀ entry ∈ since, entry.Quiet
  fresh : ∀ entry ∈ front, (∀ other, entry.consumption = some other → other.leaseToken ≠ use.leaseToken) ∧
    entry.released ≠ some use.leaseToken
  spent : ∀ entry ∈ back, ¬entry.Uses use.leaseToken

/-- Every consumption of a lease in a run is of one that was exclusive until then. -/
theorem consumed_lease_exclusive {run : List Entry} {final : Option LeaseRow}
    (reached : LeaseRun tokenHash normalizeTimestampToken run final) (collisionFree : CollisionFree tokenHash run)
    (once : MintedOnce run) {front back : List Entry} {entry : Entry} {use : Use} (place : run = front ++ entry :: back)
    (consumes : entry.consumption = some use) : Exclusive normalizeTimestampToken front use back := by
  subst place
  rcases reached.step_at with ⟨row, next, before, taken, _⟩
  rcases consumption_step taken consumes with ⟨_, held, isHeld, fits⟩
  rcases held_of_run before held isHeld with ⟨earlier, acquiring, since, acquired, rfl, acquires, holds, quiet⟩
  have sameToken : acquired.leaseToken = use.leaseToken := by
    have uses : entry.Uses use.leaseToken := .inl ⟨use, .inl consumes, rfl⟩
    rw [← (minted_of_acquisition acquires).2, ← token_of_uses uses]
    refine collisionFree acquiring (by simp) entry (by simp) ?_
    rw [(minted_of_acquisition acquires).2, token_of_uses uses, ← holds.token, fits.token]
  have minted : acquiring.minted = some use.leaseToken := by rw [(minted_of_acquisition acquires).1, sameToken]
  refine ⟨⟨earlier, acquiring, since, acquired, rfl, acquires, sameToken, holds.owner.symm.trans fits.owner,
    holds.operation.symm.trans fits.operation, ?_, quiet⟩, fun other member => ?_, fun other member uses => ?_⟩
  · rcases fits.version with ⟨version, isAcquired, isExpected⟩
    rw [isExpected, ← isAcquired]
    exact holds.version
  · -- A use before would stand behind the one acquisition of the token, where all is quiet.
    have quietHere : other.Uses use.leaseToken → other.Quiet := by
      intro uses
      rcases List.append_of_mem member with ⟨first, second, split⟩
      rw [split, List.append_assoc, List.cons_append] at reached collisionFree
      rcases acquired_of_uses reached collisionFree uses with ⟨older, minting, between, old, rfl, isOld, oldToken, _⟩
      have alsoMinted : minting.minted = some use.leaseToken := by rw [(minted_of_acquisition isOld).1, oldToken]
      have whole : earlier ++ acquiring :: (since ++ entry :: back) =
          older ++ minting :: (between ++ other :: second ++ entry :: back) := by
        have same := congrArg (· ++ entry :: back) split
        simpa using same
      have once' : ((earlier ++ acquiring :: (since ++ entry :: back)).filterMap Entry.minted).Nodup := by
        simpa [MintedOnce] using once
      rcases mark_once once' whole minted alsoMinted with ⟨_, _, rest⟩
      refine quiet other ?_
      rw [List.append_cancel_right rest]
      exact List.mem_append_right _ List.mem_cons_self
    refine ⟨fun consumed isConsumed same => ?_, fun released => ?_⟩
    · have none := (quietHere (.inl ⟨consumed, .inl isConsumed, same⟩)).2.1
      rw [isConsumed] at none
      cases none
    · have none := (quietHere (.inr released)).2.2
      rw [released] at none
      cases none
  · -- A use afterwards would be of the same acquisition, with this consumption behind it.
    rcases List.append_of_mem member with ⟨first, second, rfl⟩
    have asWhole : earlier ++ acquiring :: since ++ entry :: (first ++ other :: second) =
        (earlier ++ acquiring :: since ++ entry :: first) ++ other :: second := by simp
    rw [asWhole] at reached collisionFree
    rcases acquired_of_uses reached collisionFree uses with ⟨older, minting, between, old, split, isOld, oldToken, quietBetween⟩
    have alsoMinted : minting.minted = some use.leaseToken := by rw [(minted_of_acquisition isOld).1, oldToken]
    have onceFront : ((earlier ++ acquiring :: (since ++ entry :: first)).filterMap Entry.minted).Nodup := by
      refine List.Nodup.sublist (List.Sublist.filterMap _ ?_) once
      rw [asWhole]
      simp
    rcases mark_once onceFront (by simpa using split) minted alsoMinted with ⟨_, _, rfl⟩
    have none := (quietBetween entry (List.mem_append_right _ List.mem_cons_self)).2.1
    rw [consumes] at none
    cases none

end Invariant

section Example

/-- SHA-256 of the tokens `k1` and `k2`. -/
def exampleHash (token : Text) : Text :=
  if token = js "k1" then js "6ab9f1eb8f7d3388f4f9d586f66e99fd54080df2c446f0e58668b09c08a16dd0"
  else if token = js "k2" then js "015f7e6bc5aeaf483724089e9252cc13b50951a6b69412522765cff4d780306e"
  else []

def exampleTimestamp (value : Text) : Option Text :=
  if value ∈ [js "2026-01-01 00:00:00+00", js "2026-01-01T00:00:00.000Z"] then js "2026-01-01T00:00:00.000Z" else none

def exampleOperation : LeaseProtectedOperation := ⟨js "Relation.update", js "updatedAt", js "PT30S"⟩

def exampleLease (expiresAt : Timestamp) : EntityEditLease := ⟨js "Relation.update", js "2026-01-01T00:00:00.000Z", expiresAt⟩

/-- `u` acquires with `k1`, `v` is refused, `u` renews by a clock that lags, and `v` is refused again. -/
def exampleFront : List Entry := [
  ⟨0, .acquire (js "u") none exampleOperation (js "k1") (.found (js "2026-01-01 00:00:00+00")),
    .ok (.acquired (js "k1") (exampleLease 30000000))⟩,
  ⟨29000000, .acquire (js "v") none exampleOperation (js "k2") (.found (js "2026-01-01 00:00:00+00")),
    .error (.locked none 30000000)⟩,
  ⟨20000000, .renew (js "u") (js "k1") [js "Relation.update"], .ok (.renewed (exampleLease 50000000))⟩]

def exampleConsumption : Entry :=
  ⟨40000000, .consume (js "u") exampleOperation (js "2026-01-01T00:00:00.000Z") (js "k1"), .ok .consumed⟩

def exampleBack : List Entry :=
  [⟨0, .validate (js "u") exampleOperation (js "2026-01-01T00:00:00.000Z") (js "k1"), .error .leaseInvalid⟩]

def exampleRow (expiresAt : Timestamp) : LeaseRow where
  operationId := js "Relation.update"
  ownerUserId := js "u"
  ownerDisplayName := none
  tokenHash := exampleHash (js "k1")
  acquiredVersion := js "2026-01-01T00:00:00.000Z"
  inactivityTimeoutSeconds := 30
  expiresAt

theorem exampleRun : LeaseRun exampleHash exampleTimestamp (exampleFront ++ exampleConsumption :: exampleBack) none := by
  have first : Step exampleHash exampleTimestamp none exampleFront[0] (some (exampleRow 30000000)) := by
    simp only [Step]
    rfl
  have second : Step exampleHash exampleTimestamp (some (exampleRow 30000000)) exampleFront[1] (some (exampleRow 30000000)) := rfl
  have third : Step exampleHash exampleTimestamp (some (exampleRow 30000000)) exampleFront[2] (some (exampleRow 50000000)) := rfl
  have fourth : Step exampleHash exampleTimestamp (some (exampleRow 50000000)) exampleConsumption none := rfl
  have fifth : Step exampleHash exampleTimestamp none exampleBack[0] none := rfl
  exact .cons first (.cons second (.cons third (.cons fourth (.cons fifth .start))))

theorem consumed_lease_exclusive_k1 : Exclusive exampleTimestamp exampleFront
    ⟨js "u", js "Relation.update", js "2026-01-01T00:00:00.000Z", js "k1"⟩ exampleBack := by
  have collisionFree : CollisionFree exampleHash (exampleFront ++ exampleConsumption :: exampleBack) := by
    unfold CollisionFree
    decide
  have once : MintedOnce (exampleFront ++ exampleConsumption :: exampleBack) := by
    unfold MintedOnce
    decide
  exact consumed_lease_exclusive exampleRun collisionFree once rfl rfl

end Example

end OpenShapeForge.Operations.EditLeaseExclusive
