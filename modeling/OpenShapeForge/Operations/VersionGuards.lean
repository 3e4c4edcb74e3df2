import OpenShapeForge.Library.Run
import OpenShapeForge.Operations.RecordVersions

/-! A guarded write overwrites no change that its caller did not see, where the updates that
stamp `now()` began after the version that the caller saw. -/

namespace OpenShapeForge.Operations.VersionGuards
open Library Library.RowLocks RecordVersions

section Frames
variable {Tx Id Content : Type} [DecidableEq Tx] {state : State Tx Id Content} {tx other : Tx} {id at' : Id} {guard : Option Time} {carried : Bool}

theorem lt_bumped (clock updatedAt : Time) : updatedAt < bumped clock updatedAt :=
  (Int.lt_succ updatedAt).trans_le (le_max_right clock (updatedAt + 1))

@[simp] theorem compare_rows : (state.compare tx id guard).rows = state.rows := by
  cases guard with
  | none => rfl
  | some => rfl

@[simp] theorem compare_now : (state.compare tx id guard).now = state.now := by
  cases guard with
  | none => rfl
  | some => rfl

@[simp] theorem compare_plain : (state.compare tx id guard).plain = state.plain := by
  cases guard with
  | none => rfl
  | some => rfl

theorem mem_compare {pair : Id × Time} : pair ∈ (state.compare tx id guard).guards other ↔
    pair ∈ state.guards other ∨ other = tx ∧ pair.1 = id ∧ guard = some pair.2 := by
  cases guard with
  | none => simp [State.compare]
  | some version =>
    by_cases same : other = tx
    · subst same
      simp only [State.compare, Function.update_self, List.mem_cons, Prod.ext_iff, Option.some.injEq, true_and]
      rw [or_comm, eq_comm (a := version)]
    · simp [State.compare, same]

@[simp] theorem stampNow_rows : (state.stampNow tx id carried).rows = state.rows := by
  cases carried with
  | true => rfl
  | false => rfl

@[simp] theorem stampNow_now : (state.stampNow tx id carried).now = state.now := by
  cases carried with
  | true => rfl
  | false => rfl

@[simp] theorem stampNow_guards : (state.stampNow tx id carried).guards = state.guards := by
  cases carried with
  | true => rfl
  | false => rfl

theorem mem_stampNow : at' ∈ (state.stampNow tx id carried).plain other ↔
    at' ∈ state.plain other ∨ other = tx ∧ at' = id ∧ carried = false := by
  cases carried with
  | true => simp [State.stampNow]
  | false =>
    by_cases same : other = tx
    · subst same
      simp [State.stampNow, Set.mem_insert_iff, or_comm]
    · simp [State.stampNow, same]

variable [DecidableEq Id] {row : Record Content}

@[simp] theorem put_now : (state.put tx id row).now = state.now := rfl

@[simp] theorem put_plain : (state.put tx id row).plain = state.plain := rfl

@[simp] theorem put_guards : (state.put tx id row).guards = state.guards := rfl

end Frames

section Versions
variable {Tx Id Content : Type} {carriers : Id → Bool} {state next : State Tx Id Content} {action : Action Tx Id Content}
  {tx : Tx} {id : Id} {before after : Record Content} {now version : Time} {guard : Option Time} {carried : Bool}

/-- How a version that an open transaction has written stands to the committed one. -/
structure Later (state : State Tx Id Content) (tx : Tx) (id : Id) (past row : Record Content) : Prop where
  began : id ∈ state.plain tx → ∃ now, state.now tx = some now ∧ now ≤ row.updatedAt
  bumped : id ∉ state.plain tx → past.updatedAt < row.updatedAt

structure Stamped (state : State Tx Id Content) : Prop where
  consistent : state.rows.Consistent
  written : ∀ tx id row, (state.rows.sessions tx).written id = some row →
    ∃ past new, row = some new ∧ state.rows.committed id = some past ∧ Later state tx id past new
  plain : ∀ tx id, id ∈ state.plain tx → (state.rows.sessions tx).written id ≠ none
  guards : ∀ tx id version, (id, version) ∈ state.guards tx → state.rows.Owns tx id

theorem stamped_start (committed : Id → Option (Record Content)) (clock : Time) :
    Stamped (State.start committed clock : State Tx Id Content) where
  consistent := .idle _
  written _ _ _ written := by cases written
  plain _ _ member := absurd member (Set.notMem_empty _)
  guards _ _ _ member := absurd member List.not_mem_nil

theorem Stamped.seen (stamped : Stamped state) (isRow : state.rows.view tx id = some before) :
    ∃ past, state.rows.committed id = some past ∧ (past = before ∧ id ∉ state.plain tx ∨ Later state tx id past before) := by
  cases isWritten : (state.rows.sessions tx).written id with
  | none =>
    rw [Store.view_of_unwritten isWritten] at isRow
    exact ⟨before, isRow, .inl ⟨rfl, fun member => stamped.plain tx id member isWritten⟩⟩
  | some row =>
    obtain ⟨past, new, isNew, isPast, later⟩ := stamped.written tx id row isWritten
    rw [Store.view_of_written isWritten, isNew] at isRow
    cases isRow
    exact ⟨past, isPast, .inr later⟩

variable [DecidableEq Tx] [DecidableEq Id]

theorem Stamped.write (stamped : Stamped state) (isNow : state.now tx = some now) (free : state.rows.Grants tx id .update)
    (isBefore : state.rows.view tx id = some before) (stays : carried = false → now ≤ after.updatedAt)
    (bumps : carried = true → before.updatedAt < after.updatedAt) :
    Stamped (((state.put tx id after).compare tx id guard).stampNow tx id carried) := by
  obtain ⟨past, isPast, sees⟩ := stamped.seen isBefore
  constructor
  · simp only [stampNow_rows, compare_rows]
    exact stamped.consistent.put free
  · intro other at' row isWritten
    simp only [stampNow_rows, compare_rows] at isWritten ⊢
    have keeps : ∀ past row, ¬(other = tx ∧ at' = id) → Later state other at' past row →
        Later (((state.put tx id after).compare tx id guard).stampNow tx id carried) other at' past row := by
      intro past row elsewhere later
      refine ⟨fun member => ?_, fun absent => later.bumped fun member => absent (mem_stampNow.mpr (.inl ?_))⟩
      · simp only [mem_stampNow, compare_plain] at member
        rcases member with member | ⟨same, sameId, -⟩
        · simpa using later.began member
        · exact absurd ⟨same, sameId⟩ elsewhere
      · simpa using member
    by_cases same : other = tx
    · subst same
      change (((state.rows.lock other id .update).write other id (some after)).sessions other).written at' = some row at isWritten
      rw [Store.put_written] at isWritten
      split at isWritten
      next atId =>
        cases isWritten
        subst atId
        refine ⟨past, after, rfl, isPast, ⟨fun member => ?_, fun absent => ?_⟩⟩
        · simp only [mem_stampNow, compare_plain, put_plain] at member
          simp only [stampNow_now, compare_now, put_now]
          cases isCarried : carried with
          | false => exact ⟨now, isNow, stays isCarried⟩
          | true =>
            have inPlain : at' ∈ state.plain other := member.resolve_right fun both => by cases isCarried.symm.trans both.2.2
            obtain ⟨began, isBegan, early⟩ := (sees.resolve_left fun both => both.2 inPlain).began inPlain
            exact ⟨began, isBegan, early.trans (bumps isCarried).le⟩
        · simp only [mem_stampNow, compare_plain, put_plain, not_or] at absent
          have isCarried : carried = true := Bool.eq_true_of_not_eq_false fun isPlain => absent.2 ⟨trivial, trivial, isPlain⟩
          rcases sees with ⟨rfl, -⟩ | later
          · exact bumps isCarried
          · exact (later.bumped absent.1).trans (bumps isCarried)
      next elsewhere =>
        obtain ⟨old, new, isNew, isOld, later⟩ := stamped.written other at' row isWritten
        exact ⟨old, new, isNew, isOld, keeps old new (fun both => elsewhere both.2) later⟩
    · change (((state.rows.lock tx id .update).write tx id (some after)).sessions other).written at' = some row at isWritten
      rw [Store.put_written_other same] at isWritten
      obtain ⟨old, new, isNew, isOld, later⟩ := stamped.written other at' row isWritten
      exact ⟨old, new, isNew, isOld, keeps old new (fun both => same both.1) later⟩
  · intro other at' member
    simp only [mem_stampNow, compare_plain, put_plain] at member
    simp only [stampNow_rows, compare_rows]
    change (((state.rows.lock tx id .update).write tx id (some after)).sessions other).written at' ≠ none
    by_cases same : other = tx
    · subst same
      rw [Store.put_written]
      split
      · exact Option.some_ne_none _
      next elsewhere => exact stamped.plain other at' (member.resolve_right fun both => elsewhere both.2.1)
    · rw [Store.put_written_other same]
      exact stamped.plain other at' (member.resolve_right fun both => same both.1)
  · intro other at' version member
    rw [stampNow_guards, mem_compare, put_guards] at member
    simp only [stampNow_rows, compare_rows]
    change ((state.rows.lock tx id .update).write tx id (some after)).Owns other at'
    unfold Store.Owns
    rw [Store.write_holds, Store.write_holds, Store.lock_holds, Store.lock_holds]
    rcases member with earlier | ⟨same, sameId, -⟩
    · exact (stamped.guards other at' version earlier).imp .inl .inl
    · exact .inr (.inr ⟨same, sameId, rfl⟩)

theorem Stamped.check (stamped : Stamped state) (free : state.rows.Grants tx id .update) :
    Stamped ((state.lock tx id).compare tx id (some version)) where
  consistent := stamped.consistent.lock free
  written other at' row isWritten := by
    change ((state.rows.lock tx id .update).sessions other).written at' = some row at isWritten
    rw [Store.lock_written] at isWritten
    obtain ⟨past, new, isNew, isPast, later⟩ := stamped.written other at' row isWritten
    exact ⟨past, new, isNew, isPast, later.began, later.bumped⟩
  plain other at' member := by
    change ((state.rows.lock tx id .update).sessions other).written at' ≠ none
    rw [Store.lock_written]
    exact stamped.plain other at' member
  guards other at' compared member := by
    rw [mem_compare] at member
    change (state.rows.lock tx id .update).Owns other at'
    unfold Store.Owns
    rw [Store.lock_holds, Store.lock_holds]
    rcases member with earlier | ⟨same, sameId, -⟩
    · exact (stamped.guards other at' compared earlier).imp .inl .inl
    · exact .inr (.inr ⟨same, sameId, rfl⟩)

omit [DecidableEq Id] in
theorem Stamped.ended (stamped : Stamped state) (consistent : next.rows.Consistent) (own : next.rows.sessions tx = .idle)
    (others : ∀ other, other ≠ tx → next.rows.sessions other = state.rows.sessions other)
    (committed : ∀ other, other ≠ tx → ∀ id, (state.rows.sessions other).written id ≠ none → next.rows.committed id = state.rows.committed id)
    (now : next.now = Function.update state.now tx none) (guards : next.guards = Function.update state.guards tx [])
    (plain : next.plain = Function.update state.plain tx ∅) : Stamped next where
  consistent := consistent
  written other at' row isWritten := by
    by_cases same : other = tx
    · rw [same, own] at isWritten
      cases isWritten
    · rw [others other same] at isWritten
      obtain ⟨past, new, isNew, isPast, later⟩ := stamped.written other at' row isWritten
      have present : (state.rows.sessions other).written at' ≠ none := by
        rw [isWritten]
        exact Option.some_ne_none _
      refine ⟨past, new, isNew, (committed other same at' present).trans isPast, ?_, ?_⟩
      · rw [now, plain, Function.update_of_ne same, Function.update_of_ne same]
        exact later.began
      · rw [plain, Function.update_of_ne same]
        exact later.bumped
  plain other at' member := by
    rw [plain] at member
    by_cases same : other = tx
    · rw [same, Function.update_self] at member
      exact absurd member (Set.notMem_empty _)
    · rw [Function.update_of_ne same] at member
      rw [others other same]
      exact stamped.plain other at' member
  guards other at' compared member := by
    rw [guards] at member
    by_cases same : other = tx
    · rw [same, Function.update_self] at member
      exact absurd member List.not_mem_nil
    · rw [Function.update_of_ne same] at member
      unfold Store.Owns Store.Holds
      rw [others other same]
      exact stamped.guards other at' compared member

theorem Stamped.step (stamped : Stamped state) (step : Step carriers state action next) : Stamped next := by
  cases step with
  | @begin tx now idle =>
    refine ⟨stamped.consistent, fun other at' row isWritten => ?_, stamped.plain, stamped.guards⟩
    obtain ⟨past, new, isNew, isPast, later⟩ := stamped.written other at' row isWritten
    refine ⟨past, new, isNew, isPast, fun member => ?_, later.bumped⟩
    obtain ⟨began, isBegan, early⟩ := later.began member
    have different : other ≠ tx := fun same => by cases idle.symm.trans (same ▸ isBegan)
    exact ⟨began, (Function.update_of_ne different _ _).trans isBegan, early⟩
  | @update tx id expected content row now isNow free isRow =>
    refine stamped.write isNow free isRow (fun isPlain => ?_) fun isCarried => ?_
    · simp [stamp, isPlain]
    · simpa [stamp, isCarried] using lt_bumped state.clock row.updatedAt
  | check _ free => exact stamped.check free
  | @touch tx id content row now isNow free isRow =>
    have written : Stamped (((state.put tx id ⟨content, bumped state.clock row.updatedAt⟩).compare tx id none).stampNow tx id true) :=
      stamped.write isNow free isRow (fun isPlain => by cases isPlain) fun _ => lt_bumped state.clock row.updatedAt
    exact written
  | commit =>
    exact stamped.ended stamped.consistent.commit Store.commit_own (fun _ different => Store.commit_session different)
      (fun _ different id written => stamped.consistent.committed_owned different (stamped.consistent.owned _ id written)) rfl rfl rfl
  | abort =>
    exact stamped.ended stamped.consistent.rollback Store.rollback_own (fun _ different => Store.rollback_session different)
      (fun _ _ _ _ => rfl) rfl rfl rfl
  | tick =>
    refine ⟨stamped.consistent, fun other at' row isWritten => ?_, stamped.plain, stamped.guards⟩
    obtain ⟨past, new, isNew, isPast, later⟩ := stamped.written other at' row isWritten
    exact ⟨past, new, isNew, isPast, later.began, later.bumped⟩

theorem committed_step (step : Step carriers state action next) (pending : ∀ tx, action ≠ .commit tx) :
    next.rows.committed = state.rows.committed := by
  cases step with
  | begin => rfl
  | update =>
    simp only [stampNow_rows, compare_rows]
    rfl
  | check => rfl
  | touch => rfl
  | commit => exact absurd rfl (pending _)
  | abort => rfl
  | tick => rfl

/-- A transaction that has stamped the record with `now()` began after the version. -/
def BegunAfter (id : Id) (version : Time) (state : State Tx Id Content) (tx : Tx) : Prop :=
  id ∈ state.plain tx → ∀ now, state.now tx = some now → version < now

/-- What commits between a read of the version and the end of a write that it guards, and what a
transaction wrote of the record itself before it compared the version. -/
def Fresh (id : Id) (version : Time) (state : State Tx Id Content) : Action Tx Id Content → Prop
  | .commit tx | .check tx _ _ | .update tx _ (some _) _ => BegunAfter id version state tx
  | _ => True

section Commits
variable {seen past row : Record Content}

omit [DecidableEq Id] in
theorem Stamped.commits (stamped : Stamped state) (isPast : state.rows.committed id = some past) (tx : Tx) (version : Time) :
    ∃ row, (state.commit tx).rows.committed id = some row ∧ ((state.rows.sessions tx).written id = none ∧ row = past ∨
      (state.rows.sessions tx).written id ≠ none ∧ (BegunAfter id version state tx → version ≤ past.updatedAt → version < row.updatedAt)) := by
  cases isWritten : (state.rows.sessions tx).written id with
  | none => exact ⟨past, (Store.view_of_unwritten isWritten).trans isPast, .inl ⟨rfl, rfl⟩⟩
  | some found =>
    obtain ⟨old, new, isNew, isOld, later⟩ := stamped.written tx id found isWritten
    cases isPast.symm.trans isOld
    refine ⟨new, (Store.view_of_written isWritten).trans isNew, .inr ⟨Option.some_ne_none _, fun begun reached => ?_⟩⟩
    by_cases member : id ∈ state.plain tx
    · obtain ⟨now, isNow, early⟩ := later.began member
      exact (begun member now isNow).trans_le early
    · exact reached.trans_lt (later.bumped member)

theorem above_step (stamped : Stamped state) (above : ∃ past, state.rows.committed id = some past ∧ version < past.updatedAt)
    (fresh : Fresh id version state action) (step : Step carriers state action next) :
    ∃ past, next.rows.committed id = some past ∧ version < past.updatedAt := by
  by_cases ends : ∃ tx, action = .commit tx
  · obtain ⟨tx, rfl⟩ := ends
    obtain ⟨past, isPast, isAbove⟩ := above
    cases step with
    | commit =>
      obtain ⟨row, isRow, ⟨-, rfl⟩ | ⟨-, moves⟩⟩ := stamped.commits isPast tx version
      · exact ⟨row, isRow, isAbove⟩
      · exact ⟨row, isRow, moves fresh isAbove.le⟩
  · rw [committed_step step fun tx same => ends ⟨tx, same⟩]
    exact above

/-- The record is as it was read or has passed that version, and who compared it holds it as it was read. -/
structure Kept (seen : Record Content) (id : Id) (state : State Tx Id Content) : Prop where
  passed : ∃ past, state.rows.committed id = some past ∧ (past = seen ∨ seen.updatedAt < past.updatedAt)
  held : ∀ tx, (id, seen.updatedAt) ∈ state.guards tx → state.rows.committed id = some seen

omit [DecidableEq Tx] [DecidableEq Id] in
theorem Kept.compare (kept : Kept seen id state) (stamped : Stamped state) (isRow : state.rows.view tx id = some row)
    (fits : row.updatedAt = seen.updatedAt) (fresh : BegunAfter id seen.updatedAt state tx) : state.rows.committed id = some seen := by
  obtain ⟨past, isPast, passed⟩ := kept.passed
  obtain ⟨old, isOld, sees⟩ := stamped.seen isRow
  cases isPast.symm.trans isOld
  rcases passed with rfl | later
  · exact isPast
  · exfalso
    rcases sees with ⟨rfl, -⟩ | wrote
    · exact absurd fits (ne_of_gt later)
    · by_cases member : id ∈ state.plain tx
      · obtain ⟨now, isNow, early⟩ := wrote.began member
        exact absurd (fits ▸ early) (not_le.mpr (fresh member now isNow))
      · exact absurd (wrote.bumped member) (not_lt.mpr (fits ▸ later.le))

omit [DecidableEq Id] in
theorem mem_ended {pair : Id × Time} {other : Tx} (member : pair ∈ Function.update state.guards tx [] other) :
    other ≠ tx ∧ pair ∈ state.guards other := by
  by_cases same : other = tx
  · rw [same, Function.update_self] at member
    exact absurd member List.not_mem_nil
  · rw [Function.update_of_ne same] at member
    exact ⟨same, member⟩

theorem guards_step (step : Step carriers state action next) (member : (id, version) ∈ next.guards tx) :
    (id, version) ∈ state.guards tx ∨ ∃ row, state.rows.view tx id = some row ∧ row.updatedAt = version ∧
      (action = .check tx id version ∨ ∃ content, action = .update tx id (some version) content) := by
  cases step with
  | begin => exact .inl member
  | @update on at' expected content row now _ _ isRow fits =>
    rw [stampNow_guards, mem_compare, put_guards] at member
    rcases member with earlier | ⟨rfl, same, compared⟩
    · exact .inl earlier
    · cases same
      cases compared
      exact .inr ⟨row, isRow, fits version rfl, .inr ⟨content, rfl⟩⟩
  | @check on at' compared row now _ _ isRow fits =>
    rw [mem_compare] at member
    rcases member with earlier | ⟨rfl, same, isCompared⟩
    · exact .inl earlier
    · cases same
      cases isCompared
      exact .inr ⟨row, isRow, fits, .inl rfl⟩
  | touch => exact .inl member
  | commit => exact .inl (mem_ended member).2
  | abort => exact .inl (mem_ended member).2
  | tick => exact .inl member

theorem Kept.step (kept : Kept seen id state) (stamped : Stamped state) (fresh : Fresh id seen.updatedAt state action)
    (step : Step carriers state action next) : Kept seen id next := by
  obtain ⟨past, isPast, passed⟩ := kept.passed
  by_cases ends : ∃ tx, action = .commit tx
  · obtain ⟨tx, rfl⟩ := ends
    cases step with
    | commit =>
      obtain ⟨row, isRow, ⟨-, rfl⟩ | ⟨written, moves⟩⟩ := stamped.commits isPast tx seen.updatedAt
      · refine ⟨⟨row, isRow, passed⟩, fun other member => ?_⟩
        rw [isRow, ← isPast]
        exact kept.held other (mem_ended member).2
      · refine ⟨⟨row, isRow, .inr (moves fresh ?_)⟩, fun other member => ?_⟩
        · rcases passed with rfl | later
          · exact le_rfl
          · exact later.le
        -- who has compared the version owns the record, so another transaction has not written it
        · obtain ⟨different, before⟩ := mem_ended member
          exact absurd (stamped.consistent.unwritten different.symm (stamped.guards other id _ before)) written
  · have still := committed_step step fun tx same => ends ⟨tx, same⟩
    refine ⟨⟨past, still ▸ isPast, passed⟩, fun tx member => still ▸ ?_⟩
    rcases guards_step step member with before | ⟨row, isRow, fits, rfl | ⟨content, rfl⟩⟩
    · exact kept.held tx before
    · exact kept.compare stamped isRow fits fresh
    · exact kept.compare stamped isRow fits fresh

end Commits

theorem stamped_run {committed : Id → Option (Record Content)} {clock : Time} {labels : List (Action Tx Id Content)} {final : State Tx Id Content}
    (run : Run (Step carriers) (State.start committed clock) labels final) : Stamped final :=
  run.invariant Stamped (stamped_start committed clock) Stamped.step

/-- Between a committed state that carries the version and the commit of a write that compared it,
no other transaction changes the record, where those that stamp `now()` began after it. -/
theorem guarded_write_unseen {committed : Id → Option (Record Content)} {clock : Time} {past front back : List (Action Tx Id Content)}
    {middle between final : State Tx Id Content} {seen : Record Content} (before : Run (Step carriers) (State.start committed clock) past middle)
    (read : middle.rows.committed id = some seen) (early : Run (guarded (Fresh id seen.updatedAt) (Step carriers)) middle front between)
    (late : Run (guarded (Fresh id seen.updatedAt) (Step carriers)) between back final) (compared : (id, seen.updatedAt) ∈ final.guards tx) :
    between.rows.committed id = some seen := by
  have stamped := stamped_run before
  have first : Stamped between ∧ Kept seen id between :=
    early.invariant (fun state => Stamped state ∧ Kept seen id state) ⟨stamped, ⟨seen, read, .inl rfl⟩, fun _ _ => read⟩
      fun both taken => ⟨both.1.step taken.2, both.2.step both.1 taken.1 taken.2⟩
  have last : Stamped final ∧ Kept seen id final :=
    late.invariant (fun state => Stamped state ∧ Kept seen id state) first
      fun both taken => ⟨both.1.step taken.2, both.2.step both.1 taken.1 taken.2⟩
  obtain ⟨found, isFound, rfl | above⟩ := first.2.passed
  · exact isFound
  · obtain ⟨-, row, isRow, isAbove⟩ :=
      late.invariant (fun state => Stamped state ∧ ∃ row, state.rows.committed id = some row ∧ seen.updatedAt < row.updatedAt)
        ⟨first.1, found, isFound, above⟩ fun both taken => ⟨both.1.step taken.2, above_step both.1 both.2 taken.1 taken.2⟩
    cases isRow.symm.trans (last.2.held tx compared)
    exact absurd isAbove (lt_irrefl _)

end Versions

section Instances

inductive Caller where
  | first | second | third
deriving DecidableEq

def draft : Record Nat := ⟨0, 5⟩

def opened : State Caller Unit Nat := ((State.start (fun _ => some draft) 20).begin .first 10).begin .second 10

/-- An update of a table without carriers, in a transaction of its own. -/
def updated (state : State Caller Unit Nat) (tx : Caller) (expected : Option Time) (content : Nat) (now : Time) : State Caller Unit Nat :=
  ((state.put tx () ⟨content, now⟩).compare tx () expected).stampNow tx () false

def firstSaved : State Caller Unit Nat := (updated opened .first none 1 10).commit .first

def secondSaved : State Caller Unit Nat := (updated firstSaved .second none 2 10).commit .second

def thirdSaved : State Caller Unit Nat := updated (secondSaved.begin .third 20) .third (some 10) 3 20

/-- Two updates that began together give the record one version, so a write that is guarded by the
first one's overwrites the second. -/
theorem lost_update : ∃ past rest : List (Action Caller Unit Nat), ∃ middle between final : State Caller Unit Nat, ∃ seen : Record Nat,
    Run (Step fun _ => false) (State.start (fun _ => some draft) 20) past middle ∧ middle.rows.committed () = some seen ∧
      Run (Step fun _ => false) middle rest between ∧ Run (Step fun _ => false) between [.begin .third 20, .update .third () (some seen.updatedAt) 3] final ∧
      Step (fun _ => false) final (.commit .third) (final.commit .third) ∧ between.rows.committed () ≠ some seen := by
  have first : Step (fun _ => false) opened (.update .first () none 1) (updated opened .first none 1 10) :=
    .update rfl (Store.grants_of_unlocked fun other different => by cases other <;> rfl) rfl (fun _ none' => by cases none') (by decide)
  have second : Step (fun _ => false) firstSaved (.update .second () none 2) (updated firstSaved .second none 2 10) :=
    .update rfl (Store.grants_of_unlocked fun other different => by cases other <;> rfl) rfl (fun _ none' => by cases none') (by decide)
  have third : Step (fun _ => false) (secondSaved.begin .third 20) (.update .third () (some 10) 3) thirdSaved :=
    .update rfl (Store.grants_of_unlocked fun other different => by cases other <;> rfl) rfl (fun _ same => by cases same; rfl) (by decide)
  refine ⟨[.begin .first 10, .begin .second 10, .update .first () none 1, .commit .first], [.update .second () none 2, .commit .second],
    firstSaved, secondSaved, thirdSaved, ⟨1, 10⟩, ?_, rfl, ?_, ?_, .commit, by decide⟩
  · exact .cons (.begin rfl) (.cons (.begin rfl) (.cons first (.cons .commit .start)))
  · exact .cons second (.cons .commit .start)
  · exact .cons (.begin rfl) (.cons third .start)

def awaited : State Caller Unit Nat := ((State.start (fun _ => some draft) 20).begin .first 10).begin .third 20

/-- A caller that read the draft saves it; nobody else has. -/
theorem guarded_write_unseen_draft : awaited.rows.committed () = some draft := by
  have save : Step (fun _ => false) awaited (.update .third () (some 5) 3) (updated awaited .third (some 5) 3 20) :=
    .update rfl (Store.grants_of_unlocked fun other different => by cases other <;> rfl) rfl (fun _ same => by cases same; rfl) (by decide)
  have early : Run (guarded (Fresh () 5) (Step fun _ => false)) (State.start (fun _ => some draft) 20)
      [.begin .first 10, .begin .third 20] awaited := .cons ⟨trivial, .begin rfl⟩ (.cons ⟨trivial, .begin rfl⟩ .start)
  have late : Run (guarded (Fresh () 5) (Step fun _ => false)) awaited [.update .third () (some 5) 3] (updated awaited .third (some 5) 3 20) :=
    .cons ⟨fun member => absurd member (Set.notMem_empty _), save⟩ .start
  have compared : ((), draft.updatedAt) ∈ (updated awaited .third (some 5) 3 20).guards .third := List.mem_cons_self
  exact guarded_write_unseen .start rfl early late compared

end Instances

end OpenShapeForge.Operations.VersionGuards
