import Mathlib.Data.List.Nodup
import OpenShapeForge.Library.Run
import OpenShapeForge.Operations.OperationTakeovers

/-! An accepted takeover stays recorded with its owner and is replayed once, over every run of the
calls that share it, where none of them stores its answer after another one discarded the row. -/

namespace OpenShapeForge.Operations.TakeoverKept
open Js Library OperationTakeovers

section Rows
variable {Id : Type} [DecidableEq Id] {rows next later : Id → Option Row} {key : Key} {takeover at' : Id} {row : Row} {change : Row → Row}

omit [DecidableEq Id] in
/-- No takeover is new, and none that was completed is open again. -/
def Shrinks (rows next : Id → Option Row) : Prop :=
  ∀ takeover after, next takeover = some after →
    ∃ before, rows takeover = some before ∧ after.key = before.key ∧ (before.completed = true → after.completed = true)

theorem updateRow_some (isRow : updateRow rows takeover change at' = some row) :
    at' = takeover ∧ (∃ before, rows at' = some before ∧ row = change before) ∨ at' ≠ takeover ∧ rows at' = some row := by
  unfold updateRow at isRow
  by_cases same : at' = takeover
  · subst same
    rw [Function.update_self] at isRow
    obtain ⟨before, isBefore, isChange⟩ := Option.map_eq_some_iff.mp isRow
    exact .inl ⟨rfl, before, isBefore, isChange.symm⟩
  · rw [Function.update_of_ne same] at isRow
    exact .inr ⟨same, isRow⟩

theorem shrinks_update (keeps : ∀ before, (change before).key = before.key)
    (completes : ∀ before, before.completed = true → (change before).completed = true) : Shrinks rows (updateRow rows takeover change) := by
  intro at' after isAfter
  rcases updateRow_some isAfter with ⟨-, before, isBefore, rfl⟩ | ⟨-, isRow⟩
  · exact ⟨before, isBefore, keeps before, completes before⟩
  · exact ⟨after, isRow, rfl, id⟩

theorem shrinks_discard : Shrinks rows (discardRow rows takeover) := by
  intro at' after isAfter
  unfold discardRow at isAfter
  by_cases same : at' = takeover
  · subst same
    rw [Function.update_self] at isAfter
    exact ⟨after, (Option.filter_eq_some_iff.mp isAfter).1, rfl, id⟩
  · rw [Function.update_of_ne same] at isAfter
    exact ⟨after, isAfter, rfl, id⟩

omit [DecidableEq Id] in
theorem Shrinks.open_before (shrinks : Shrinks rows next) (isOpen : IsOpen next key takeover row) :
    ∃ before, IsOpen rows key takeover before := by
  obtain ⟨before, isBefore, sameKey, completes⟩ := shrinks takeover row isOpen.1
  refine ⟨before, isBefore, sameKey.symm.trans isOpen.2.1, Bool.eq_false_iff.mpr fun done => ?_⟩
  exact absurd (isOpen.2.2.symm.trans (completes done)) (by decide)

omit [DecidableEq Id] in
/-- A recorded owner stays recorded. -/
def Keeps (rows next : Id → Option Row) : Prop :=
  ∀ takeover before owner status, rows takeover = some before → before.owner = some (owner, status) →
    ∃ after status', next takeover = some after ∧ after.key = before.key ∧ after.owner = some (owner, status')

omit [DecidableEq Id] in
theorem keeps_refl : Keeps rows rows := fun _ before _ status isBefore isOwner => ⟨before, status, isBefore, rfl, isOwner⟩

theorem keeps_update (keeps : ∀ before owner status, rows takeover = some before → before.owner = some (owner, status) →
      (change before).key = before.key ∧ ∃ status', (change before).owner = some (owner, status')) :
    Keeps rows (updateRow rows takeover change) := by
  intro at' before owner status isBefore isOwner
  unfold updateRow
  by_cases same : at' = takeover
  · subst same
    obtain ⟨sameKey, status', isStill⟩ := keeps before owner status isBefore isOwner
    refine ⟨change before, status', ?_, sameKey, isStill⟩
    rw [Function.update_self, isBefore]
    rfl
  · rw [Function.update_of_ne same]
    exact ⟨before, status, isBefore, rfl, isOwner⟩

theorem keeps_discard : Keeps rows (discardRow rows takeover) := by
  intro at' before owner status isBefore isOwner
  unfold discardRow
  refine ⟨before, status, ?_, rfl, isOwner⟩
  by_cases same : at' = takeover
  · subst same
    rw [Function.update_self, isBefore]
    exact Option.filter_eq_some_iff.mpr ⟨rfl, by rw [isOwner]; rfl⟩
  · rw [Function.update_of_ne same]
    exact isBefore

end Rows

section Calls
variable {Caller Replay Id : Type} {run : Override → Key → Owner} {state next : State Caller Replay Id} {action : Action Caller Replay}
  {caller : Caller} {key : Key} {takeover : Id} {phase : Phase Id}

/-- The takeover that a call has been given, with its key. -/
def holds : Phase Id → Option (Id × Key)
  | .finishing key _ takeover _ | .letting key _ takeover | .asking key _ takeover | .storing key _ takeover _ | .completing key takeover
  | .discarding key takeover | .accepted key takeover _ => some (takeover, key)
  | _ => none

/-- The owner that a call has found recorded, or has answered with. -/
def names : Phase Id → Option (Id × Key × Owner)
  | .finishing key _ takeover owner | .accepted key takeover owner => some (takeover, key, owner)
  | _ => none

structure Sane (state : State Caller Replay Id) : Prop where
  unique : ∀ key one two first second, IsOpen state.rows key one first → IsOpen state.rows key two second → one = two
  issued : ∀ takeover row, state.rows takeover = some row → state.issued takeover = some row.key
  held : ∀ caller takeover key, holds (state.calls caller) = some (takeover, key) → state.issued takeover = some key
  once : (state.writes.map Prod.fst).Nodup
  written : ∀ takeover key, (takeover, key) ∈ state.writes →
    state.issued takeover = some key ∧ ∀ row, state.rows takeover = some row → row.completed = true

theorem Sane.shrink (sane : Sane state) {rows : Id → Option Row} (shrinks : Shrinks state.rows rows) : Sane { state with rows := rows } where
  unique key one two first second isFirst isSecond := by
    obtain ⟨before, wasFirst⟩ := shrinks.open_before isFirst
    obtain ⟨other, wasSecond⟩ := shrinks.open_before isSecond
    exact sane.unique key one two before other wasFirst wasSecond
  issued takeover row isRow := by
    obtain ⟨before, isBefore, sameKey, -⟩ := shrinks takeover row isRow
    exact sameKey ▸ sane.issued takeover before isBefore
  held := sane.held
  once := sane.once
  written takeover key member := by
    refine ⟨(sane.written takeover key member).1, fun row isRow => ?_⟩
    obtain ⟨before, isBefore, -, completes⟩ := shrinks takeover row isRow
    exact completes ((sane.written takeover key member).2 before isBefore)

variable [DecidableEq Caller]

theorem Sane.become (sane : Sane state) (given : ∀ takeover key, holds phase = some (takeover, key) → state.issued takeover = some key) :
    Sane (state.become caller phase) where
  unique := sane.unique
  issued := sane.issued
  held other takeover key isHeld := by
    unfold State.become at isHeld
    by_cases same : other = caller
    · subst same
      exact given takeover key ((congrArg holds (Function.update_self other phase state.calls)).symm.trans isHeld)
    · exact sane.held other takeover key ((congrArg holds (Function.update_of_ne same phase state.calls)).symm.trans isHeld)
  once := sane.once
  written := sane.written

theorem Sane.go (sane : Sane state) (same : holds phase = none ∨ holds phase = holds (state.calls caller)) : Sane (state.become caller phase) := by
  refine sane.become fun takeover key isHeld => ?_
  rcases same with none' | kept
  · cases none'.symm.trans isHeld
  · exact sane.held caller takeover key (kept.symm.trans isHeld)

variable [DecidableEq Id]

omit [DecidableEq Caller] in
theorem Sane.write (sane : Sane state) {row : Row} (isOpen : IsOpen state.rows key takeover row) {replays : Replay → Option (Id × Key)} :
    Sane { state with rows := updateRow state.rows takeover Row.complete, replays := replays, writes := (takeover, key) :: state.writes } := by
  have shrinks : Shrinks state.rows (updateRow state.rows takeover Row.complete) := shrinks_update (fun _ => rfl) fun _ _ => rfl
  have shrunk := sane.shrink shrinks
  refine ⟨shrunk.unique, shrunk.issued, shrunk.held, List.nodup_cons.mpr ⟨fun member => ?_, sane.once⟩, fun at' key' member => ?_⟩
  · obtain ⟨⟨_, key'⟩, written, rfl⟩ := List.mem_map.mp member
    exact absurd (isOpen.2.2.symm.trans ((sane.written _ key' written).2 row isOpen.1)) (by decide)
  · rcases List.mem_cons.mp member with same | earlier
    · cases same
      refine ⟨isOpen.2.1 ▸ sane.issued takeover row isOpen.1, fun after isAfter => ?_⟩
      rcases updateRow_some isAfter with ⟨-, before, -, rfl⟩ | ⟨different, -⟩
      · rfl
      · exact absurd rfl different
    · exact shrunk.written at' key' earlier

omit [DecidableEq Caller] in
theorem Sane.record (sane : Sane state) {override' : Override} (free : ∀ other row, ¬IsOpen state.rows key other row)
    (fresh : state.issued takeover = none) :
    Sane { state with
      rows := Function.update state.rows takeover (some ⟨key, override', none, false⟩)
      issued := Function.update state.issued takeover (some key) } := by
  have absent : ∀ row, state.rows takeover ≠ some row := fun row isRow => by cases fresh.symm.trans (sane.issued takeover row isRow)
  have opens : ∀ key' at' row, IsOpen (Function.update state.rows takeover (some ⟨key, override', none, false⟩)) key' at' row →
      at' = takeover ∧ key' = key ∨ at' ≠ takeover ∧ IsOpen state.rows key' at' row := by
    rintro key' at' row ⟨isRow, isKey, isOpen⟩
    by_cases same : at' = takeover
    · subst same
      rw [Function.update_self] at isRow
      cases isRow
      exact .inl ⟨rfl, isKey.symm⟩
    · rw [Function.update_of_ne same] at isRow
      exact .inr ⟨same, isRow, isKey, isOpen⟩
  have later : ∀ at' key', state.issued at' = some key' → Function.update state.issued takeover (some key) at' = some key' := by
    intro at' key' isIssued
    have different : at' ≠ takeover := fun same => by cases fresh.symm.trans (same ▸ isIssued)
    rwa [Function.update_of_ne different]
  constructor
  · intro key' one two first second isFirst isSecond
    rcases opens key' one first isFirst with ⟨rfl, rfl⟩ | ⟨-, wasFirst⟩
    · rcases opens key' two second isSecond with ⟨rfl, -⟩ | ⟨-, wasSecond⟩
      · rfl
      · exact absurd wasSecond (free two second)
    · rcases opens key' two second isSecond with ⟨rfl, rfl⟩ | ⟨-, wasSecond⟩
      · exact absurd wasFirst (free one first)
      · exact sane.unique key' one two first second wasFirst wasSecond
  · intro at' row isRow
    by_cases same : at' = takeover
    · subst same
      change Function.update state.rows at' _ at' = some row at isRow
      rw [Function.update_self] at isRow
      cases isRow
      exact Function.update_self _ _ _
    · change Function.update state.rows takeover _ at' = some row at isRow
      rw [Function.update_of_ne same] at isRow
      exact later at' row.key (sane.issued at' row isRow)
  · exact fun other at' key' isHeld => later at' key' (sane.held other at' key' isHeld)
  · exact sane.once
  · intro at' key' member
    obtain ⟨isIssued, completed⟩ := sane.written at' key' member
    refine ⟨later at' key' isIssued, fun row isRow => ?_⟩
    have different : at' ≠ takeover := fun same => by cases fresh.symm.trans (same ▸ isIssued)
    change Function.update state.rows takeover _ at' = some row at isRow
    rw [Function.update_of_ne different] at isRow
    exact completed row isRow

omit [DecidableEq Caller] [DecidableEq Id] in
theorem holds_found {override' : Override} {row : Row} {accepted : Owner → Phase Id}
    (same : ∀ owner, holds (accepted owner) = some (takeover, key)) : holds (found key override' takeover row accepted) = some (takeover, key) := by
  unfold found
  split
  · exact same _
  · rfl

variable [DecidableEq Replay]

theorem Sane.step (sane : Sane state) (step : Step run state action next) : Sane next := by
  cases step with
  | call => exact sane.go (.inl rfl)
  | @look caller key override' takeover row _ isOpen =>
    refine sane.become fun at' key' isHeld => ?_
    cases (holds_found fun _ => rfl).symm.trans isHeld
    exact isOpen.2.1 ▸ sane.issued takeover row isOpen.1
  | lookNone => exact sane.go (.inl rfl)
  | unfinished isCall => exact sane.go (.inr (by rw [isCall]; rfl))
  | finished isCall => exact sane.go (.inr (by rw [isCall]; rfl))
  | letGo => exact Sane.go (sane.shrink (shrinks_update (fun _ => rfl) fun _ _ => rfl)) (.inl rfl)
  | @record caller key override' takeover _ free fresh =>
    refine (sane.record free fresh).become fun at' key' isHeld => ?_
    cases isHeld
    exact Function.update_self _ _ _
  | conflict => exact sane.go (.inl rfl)
  | @race caller key override' takeover row _ isOpen =>
    refine sane.become fun at' key' isHeld => ?_
    cases (holds_found fun _ => rfl).symm.trans isHeld
    exact isOpen.2.1 ▸ sane.issued takeover row isOpen.1
  | raceNone => exact sane.go (.inl rfl)
  | @answer caller key override' takeover answer isCall =>
    refine sane.go (.inr ?_)
    rw [isCall]
    cases answer with
    | _ => rfl
  | @store caller key override' takeover status isCall =>
    have shrinks : Shrinks state.rows (updateRow state.rows takeover fun row => row.store (run override' key) status) :=
      shrinks_update (fun _ => rfl) fun _ completed => Bool.or_eq_true_iff.mpr (.inl completed)
    refine Sane.go (sane.shrink shrinks) (.inr ?_)
    change _ = holds (state.calls caller)
    rw [isCall]
    rfl
  | complete => exact Sane.go (sane.shrink (shrinks_update (fun _ => rfl) fun _ _ => rfl)) (.inl rfl)
  | discard => exact Sane.go (sane.shrink shrinks_discard) (.inl rfl)
  | crash => exact sane.go (.inl rfl)
  | prepareReplay => exact ⟨sane.unique, sane.issued, sane.held, sane.once, sane.written⟩
  | closeReplay _ isOpen => exact (sane.write isOpen)
  | failReplay => exact ⟨sane.unique, sane.issued, sane.held, sane.once, sane.written⟩

/-- A call stores its owner's answer in a row that no other call has discarded, and that names no
other run: the calls that share it resolve to one override. -/
def Unshared (run : Override → Key → Owner) (state : State Caller Replay Id) : Action Caller Replay → Prop
  | .store caller => ∀ key override' takeover status, state.calls caller = .storing key override' takeover status →
      ∃ row, state.rows takeover = some row ∧ ∀ owner status, row.owner = some (owner, status) → owner = run override' key
  | _ => True

omit [DecidableEq Caller] [DecidableEq Id] [DecidableEq Replay] in
def Recorded (rows : Id → Option Row) (takeover : Id) (key : Key) (owner : Owner) : Prop :=
  ∃ row status, rows takeover = some row ∧ row.key = key ∧ row.owner = some (owner, status)

structure Kept (state : State Caller Replay Id) : Prop where
  sane : Sane state
  named : ∀ caller takeover key owner, names (state.calls caller) = some (takeover, key, owner) → Recorded state.rows takeover key owner

omit [DecidableEq Caller] [DecidableEq Id] [DecidableEq Replay] in
theorem Recorded.keep {rows next : Id → Option Row} {owner : Owner} (recorded : Recorded rows takeover key owner) (keeps : Keeps rows next) :
    Recorded next takeover key owner := by
  obtain ⟨row, status, isRow, isKey, isOwner⟩ := recorded
  obtain ⟨after, status', isAfter, sameKey, isStill⟩ := keeps takeover row owner status isRow isOwner
  exact ⟨after, status', isAfter, sameKey.trans isKey, isStill⟩

omit [DecidableEq Id] [DecidableEq Replay] in
theorem Kept.become (kept : Kept state) (sane : Sane next) (keeps : Keeps state.rows next.rows)
    (calls : next.calls = Function.update state.calls caller phase)
    (given : ∀ takeover key owner, names phase = some (takeover, key, owner) → Recorded next.rows takeover key owner) : Kept next where
  sane := sane
  named other takeover key owner isNamed := by
    rw [calls] at isNamed
    by_cases same : other = caller
    · subst same
      rw [Function.update_self] at isNamed
      exact given takeover key owner isNamed
    · rw [Function.update_of_ne same] at isNamed
      exact (kept.named other takeover key owner isNamed).keep keeps

omit [DecidableEq Caller] [DecidableEq Id] [DecidableEq Replay] in
theorem recorded_found {override' : Override} {row : Row} {accepted : Owner → Phase Id} {rows : Id → Option Row}
    (isOpen : IsOpen rows key takeover row) (same : ∀ owner, names (accepted owner) = some (takeover, key, owner)) (at' : Id) (key' : Key)
    (owner : Owner) (isNamed : names (found key override' takeover row accepted) = some (at', key', owner)) : Recorded rows at' key' owner := by
  unfold found at isNamed
  split at isNamed
  next recorded status isOwner =>
    cases (same recorded).symm.trans isNamed
    exact ⟨row, status, isOpen.1, isOpen.2.1, isOwner⟩
  next => cases isNamed

theorem Kept.step (kept : Kept state) (unshared : Unshared run state action) (step : Step run state action next) : Kept next := by
  have sane := kept.sane.step step
  have silent : ∀ {phase : Phase Id}, names phase = none → ∀ takeover key owner, names phase = some (takeover, key, owner) →
      Recorded next.rows takeover key owner := fun none' _ _ _ isNamed => by cases none'.symm.trans isNamed
  cases step with
  | call => exact kept.become sane keeps_refl rfl (silent rfl)
  | look _ isOpen => exact kept.become sane keeps_refl rfl (recorded_found isOpen fun _ => rfl)
  | lookNone => exact kept.become sane keeps_refl rfl (silent rfl)
  | @unfinished caller key override' takeover owner isCall =>
    refine kept.become sane keeps_refl rfl fun at' key' owner' isNamed => kept.named caller at' key' owner' ?_
    rw [isCall]
    exact isNamed
  | finished => exact kept.become sane keeps_refl rfl (silent rfl)
  | letGo => exact kept.become sane (keeps_update fun _ _ status _ isOwner => ⟨rfl, status, isOwner⟩) rfl (silent rfl)
  | @record caller key override' takeover _ _ fresh =>
    refine kept.become sane ?_ rfl (silent rfl)
    intro at' before owner status isBefore isOwner
    have different : at' ≠ takeover := fun same => by cases fresh.symm.trans (same ▸ kept.sane.issued at' before isBefore)
    exact ⟨before, status, (Function.update_of_ne different _ _).trans isBefore, rfl, isOwner⟩
  | conflict => exact kept.become sane keeps_refl rfl (silent rfl)
  | race _ isOpen => exact kept.become sane keeps_refl rfl (recorded_found isOpen fun _ => rfl)
  | raceNone => exact kept.become sane keeps_refl rfl (silent rfl)
  | @answer caller key override' takeover answer =>
    refine kept.become sane keeps_refl rfl (silent ?_)
    cases answer with
    | _ => rfl
  | @store caller key override' takeover status isCall =>
    obtain ⟨row, isRow, sameOwner⟩ := unshared key override' takeover status isCall
    have isKey : row.key = key := by
      have given := kept.sane.held caller takeover key (by rw [isCall]; rfl)
      exact Option.some.inj ((kept.sane.issued takeover row isRow).symm.trans given)
    refine kept.become sane (keeps_update ?_) rfl ?_
    · intro before owner old isBefore isOwner
      cases isRow.symm.trans isBefore
      exact ⟨rfl, status, by rw [sameOwner owner old isOwner]; rfl⟩
    · intro at' key' owner isNamed
      cases isNamed
      refine ⟨row.store (run override' key) status, status, ?_, isKey, rfl⟩
      change updateRow state.rows takeover _ takeover = _
      unfold updateRow
      rw [Function.update_self, isRow]
      rfl
  | complete => exact kept.become sane (keeps_update fun _ _ status _ isOwner => ⟨rfl, status, isOwner⟩) rfl (silent rfl)
  | discard => exact kept.become sane keeps_discard rfl (silent rfl)
  | crash => exact kept.become sane keeps_refl rfl (silent rfl)
  | prepareReplay => exact ⟨sane, kept.named⟩
  | closeReplay =>
    exact ⟨sane, fun caller takeover key owner isNamed => (kept.named caller takeover key owner isNamed).keep
      (keeps_update fun _ _ status _ isOwner => ⟨rfl, status, isOwner⟩)⟩
  | failReplay => exact ⟨sane, kept.named⟩

end Calls

section Instances

def rename : Key := ⟨js "Document.update", js "7", js "sha256:1"⟩

def approval : Override := ⟨js "workflow", js "approve-rename"⟩

def workflowRun (_ : Override) (_ : Key) : Owner := ⟨js "workflow", js "instance-1"⟩

def asked (caller : Bool) (state : State Bool Unit Nat) : State Bool Unit Nat :=
  { state with
    rows := Function.update state.rows 0 (some ⟨rename, approval, none, false⟩)
    issued := Function.update state.issued 0 (some rename) }.become caller (.asking rename approval 0)

def recording (caller : Bool) : State Bool Unit Nat :=
  (State.empty.become caller (.looking rename approval)).become caller (.recording rename approval)

def waiting : State Bool Unit Nat := (asked false (recording false)).become true (.looking rename approval)

def shared : State Bool Unit Nat := waiting.become true (.asking rename approval 0)

def thrown : State Bool Unit Nat := shared.become false (.discarding rename 0)

def discarded : State Bool Unit Nat := { thrown with rows := discardRow thrown.rows 0 }.become false .ended

def agreed : State Bool Unit Nat := discarded.become true (.storing rename approval 0 .running)

def stored : State Bool Unit Nat :=
  let asking := (asked false (recording false)).become false (.storing rename approval 0 .running)
  { asking with rows := updateRow asking.rows 0 fun row => row.store (workflowRun approval rename) .running }.become false
    (.accepted rename 0 (workflowRun approval rename))

end Instances

end OpenShapeForge.Operations.TakeoverKept
