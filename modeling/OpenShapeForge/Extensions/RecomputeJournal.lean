import OpenShapeForge.Library.Parties
import Mathlib.Data.List.Sort

/-! The recompute journal of one lookup and one target: the writers that change the target
and journal it, the writers of records that refer to it, and the batches that recompute
those records (journalRecompute and runRecomputeBatch in
apps/api/src/operations/entity/extensions/linked.ts). Each runs in a transaction of its own,
statement by statement. -/

namespace OpenShapeForge.Extensions.RecomputeJournal
open Library

/-- A row of `platform.extension_field_recomputes`. -/
structure JournalRow (Id : Type) where
  id : Nat
  generation : Nat
  passGeneration : Option Nat
  cursor : Option Id
deriving DecidableEq

/-- What a record holds for the lookup: whether its reference names the target, and the value. -/
structure RecordRow (R : Type) where
  refers : Bool
  value : R
deriving DecidableEq

structure Records (Id R : Type) [LinearOrder Id] where
  ids : List Id
  sorted : ids.Pairwise (· < ·)
  row : Id → RecordRow R

/-- What is committed, and who holds which lock. A run is a connection that does one transaction
after the other. -/
structure Shared (Id V R : Type) [LinearOrder Id] where
  target : V
  /-- Who holds the target `for no key update`, and who `for share`. -/
  owner : Option Nat
  sharers : List Nat
  records : Records Id R
  recordLocks : Id → Option Nat
  journal : Option (JournalRow Id)
  journalLock : Option Nat
  /-- The advisory lock under which the batches of one row take turns. -/
  turns : Nat → Option Nat
  nextRow : Nat
  committed : Nat

structure Writing (Id V R : Type) where
  target : Option V
  /-- The target was written after it was last journaled. -/
  due : Bool
  row : Option (JournalRow Id)
  /-- The latest first. -/
  records : List (Id × RecordRow R)

structure Batch (Id R : Type) where
  row : JournalRow Id
  size : Nat
  sources : List Id
  todo : List Id
  done : List (Id × RecordRow R)

inductive Decision (Id : Type) where
  | remove
  | restart
  | next (pass : Nat) (cursor : Id)
deriving DecidableEq

inductive Phase (Id V R : Type) where
  | idle
  | writing (own : Writing Id V R)
  | opened (rowId size : Nat)
  | found (row : JournalRow Id) (size : Nat)
  | walking (batch : Batch Id R)
  /-- It holds the first of what is left to do, and has read whether that refers to the target. -/
  | holding (batch : Batch Id R) (id : Id) (refers : Bool)
  | settled (batch : Batch Id R) (decision : Decision Id)
  /-- The row it came for is gone. -/
  | leaving (done : List (Id × RecordRow R))

inductive Event (Id V R : Type) where
  | start
  | lockTarget
  | changeTarget (value : V)
  | journal
  | point (id : Id)
  | pointAway (id : Id) (value : R)
  | open (rowId size : Nat)
  | read
  | list
  | lock
  /-- With the value of a record that refers to another target by now. -/
  | compute (other : R)
  | settle
  | commit
  | abort

section Steps
variable {Id V R : Type} [LinearOrder Id]

/-- How ids are told apart, as a proof with a name. -/
theorem lawful_ids : LawfulBEq Id := inferInstance

attribute [local instance] lawful_ids

def Records.has (records : Records Id R) (id : Id) : Bool := records.ids.contains id

def Records.put (records : Records Id R) (id : Id) (row : RecordRow R) : Records Id R where
  ids := if id ∈ records.ids then records.ids else records.ids.orderedInsert (· ≤ ·) id
  sorted := by
    split
    · exact records.sorted
    next absent =>
      have least : (records.ids.orderedInsert (· ≤ ·) id).Pairwise (· ≤ ·) :=
        List.Pairwise.orderedInsert id records.ids (records.sorted.imp le_of_lt)
      have once : (records.ids.orderedInsert (· ≤ ·) id).Nodup :=
        (List.perm_orderedInsert _ id records.ids).nodup_iff.mpr (List.nodup_cons.mpr ⟨absent, records.sorted.imp ne_of_lt⟩)
      exact (least.and once).imp fun both => lt_of_le_of_ne both.1 both.2
  row := Function.update records.row id row

/-- What a transaction wrote, its latest first. -/
def Records.apply (records : Records Id R) (written : List (Id × RecordRow R)) : Records Id R :=
  written.foldr (fun entry after => after.put entry.1 entry.2) records

def afterCursor (cursor : Option Id) (id : Id) : Bool := cursor.all fun cursor => decide (cursor < id)

/-- `referringRecords`: a page of the records whose reference names the target, in id order. -/
def referringRecords (records : Records Id R) (cursor : Option Id) (limit : Nat) : List Id :=
  (records.ids.filter fun id => (records.row id).refers && afterCursor cursor id).take limit

/-- The insert of `journalRecompute`, or its update on conflict. -/
def journalRecompute (fresh : Nat) : Option (JournalRow Id) → JournalRow Id
  | some row => { row with generation := row.generation + 1 }
  | none => { id := fresh, generation := 1, passGeneration := none, cursor := none }

def JournalRow.pass (row : JournalRow Id) : Nat := row.passGeneration.getD row.generation

def JournalRow.start (row : JournalRow Id) : Option Id := row.passGeneration.bind fun _ => row.cursor

def Batch.decision (batch : Batch Id R) (generation : Nat) : Option (Decision Id) :=
  if batch.sources.length < batch.size then some (if batch.row.pass = generation then .remove else .restart)
  else batch.sources.getLast?.map fun last => .next batch.row.pass last

def Decision.leave (row : JournalRow Id) : Decision Id → Option (JournalRow Id)
  | .remove => none
  | .restart => some { row with passGeneration := none, cursor := none }
  | .next pass cursor => some { row with passGeneration := some pass, cursor := some cursor }

/-- Everything a transaction holds is let go when it ends. -/
def Shared.release (shared : Shared Id V R) (run : Nat) : Shared Id V R :=
  { shared with
    owner := shared.owner.filter (· ≠ run)
    sharers := shared.sharers.filter (· ≠ run)
    recordLocks := fun id => (shared.recordLocks id).filter (· ≠ run)
    journalLock := shared.journalLock.filter (· ≠ run)
    turns := fun row => (shared.turns row).filter (· ≠ run) }

def free (run : Nat) (holder : Option Nat) : Bool := holder.all (· = run)

def commitWriting (run : Nat) (shared : Shared Id V R) (own : Writing Id V R) : Shared Id V R :=
  { shared with
    target := own.target.getD shared.target
    records := shared.records.apply own.records
    journal := own.row.or shared.journal }.release run

def commitBatch (run : Nat) (shared : Shared Id V R) (batch : Batch Id R) (decision : Decision Id) : Shared Id V R :=
  { shared with
    records := shared.records.apply batch.done
    journal := shared.journal.bind decision.leave
    committed := shared.committed + 1 }.release run

abbrev Next (Id V R : Type) [LinearOrder Id] := Option (Shared Id V R × Phase Id V R)

/-- A statement of a writer's transaction. A record that is pointed at the target gets the
value computed from it, under a lock of the target that no other writer of it passes. -/
def write (computed : V → R) (run : Nat) (shared : Shared Id V R) (own : Writing Id V R) : Event Id V R → Next Id V R
  | .lockTarget =>
    if free run shared.owner then some ({ shared with sharers := run :: shared.sharers }, .writing own) else none
  | .changeTarget value =>
    if free run shared.owner && shared.sharers.all (· = run) then
      some ({ shared with owner := some run }, .writing { own with target := some value, due := true })
    else none
  | .journal =>
    if free run shared.journalLock && own.target.isSome then
      some ({ shared with journalLock := some run, nextRow := shared.nextRow + 1 },
        .writing { own with due := false, row := some (journalRecompute shared.nextRow (own.row.or shared.journal)) })
    else none
  | .point id =>
    if free run (shared.recordLocks id) && (run ∈ shared.sharers || own.target.isSome) then
      some ({ shared with recordLocks := Function.update shared.recordLocks id (some run) },
        .writing { own with records := (id, ⟨true, computed (own.target.getD shared.target)⟩) :: own.records })
    else none
  | .pointAway id value =>
    if free run (shared.recordLocks id) then
      some ({ shared with recordLocks := Function.update shared.recordLocks id (some run) },
        .writing { own with records := (id, ⟨false, value⟩) :: own.records })
    else none
  | .commit => if own.due then none else some (commitWriting run shared own, .idle)
  | .abort => some (shared.release run, .idle)
  | _ => none

/-- A statement of `runRecomputeBatch`: the records come first, the row last. -/
def recompute (computed : V → R) (run : Nat) (shared : Shared Id V R) : Phase Id V R → Event Id V R → Next Id V R
  | .idle, .open rowId size =>
    if free run (shared.turns rowId) && decide (0 < size) then
      some ({ shared with turns := Function.update shared.turns rowId (some run) }, .opened rowId size)
    else none
  | .opened rowId size, .read =>
    match shared.journal.filter fun row => row.id = rowId with
    | some row => some (shared, .found row size)
    | none => some (shared, .leaving [])
  | .found row size, .list =>
    let sources := referringRecords shared.records row.start size
    some (shared, .walking { row, size, sources, todo := sources, done := [] })
  | .walking batch, .lock =>
    match batch.todo with
    | id :: _ =>
      if free run (shared.recordLocks id) then
        some ({ shared with recordLocks := Function.update shared.recordLocks id (some run) },
          .holding batch id (shared.records.row id).refers)
      else none
    | [] => none
  | .holding batch id refers, .compute other =>
    let row : RecordRow R := { refers, value := if refers then computed shared.target else other }
    some (shared, .walking { batch with todo := batch.todo.tail, done := (id, row) :: batch.done })
  | .walking batch, .settle =>
    if batch.todo.isEmpty && free run shared.journalLock then
      match shared.journal.filter fun row => row.id = batch.row.id with
      | some row => (batch.decision row.generation).map fun decision =>
          ({ shared with journalLock := some run }, .settled batch decision)
      | none => some (shared, .leaving batch.done)
    else none
  | .settled batch decision, .commit => some (commitBatch run shared batch decision, .idle)
  | .leaving done, .commit => some (({ shared with records := shared.records.apply done }).release run, .idle)
  | _, .abort => some (shared.release run, .idle)
  | _, _ => none

def perform (computed : V → R) (run : Nat) (shared : Shared Id V R) : Phase Id V R → Event Id V R → Next Id V R
  | .writing own, event => write computed run shared own event
  | .idle, .start => some (shared, .writing { target := none, due := false, row := none, records := [] })
  | phase, event => recompute computed run shared phase event

inductive Statement (computed : V → R) (run : Nat) (shared : Shared Id V R) :
    Phase Id V R → Event Id V R → Shared Id V R → Phase Id V R → Prop
  | start : Statement computed run shared .idle .start shared (.writing { target := none, due := false, row := none, records := [] })
  | lockTarget {own} : (∀ other, shared.owner = some other → other = run) →
      Statement computed run shared (.writing own) .lockTarget { shared with sharers := run :: shared.sharers } (.writing own)
  | changeTarget {own value} : (∀ other, shared.owner = some other → other = run) → (∀ other ∈ shared.sharers, other = run) →
      Statement computed run shared (.writing own) (.changeTarget value) { shared with owner := some run }
        (.writing { own with target := some value, due := true })
  | journal {own} : (∀ other, shared.journalLock = some other → other = run) → own.target.isSome = true →
      Statement computed run shared (.writing own) .journal { shared with journalLock := some run, nextRow := shared.nextRow + 1 }
        (.writing { own with due := false, row := some (journalRecompute shared.nextRow (own.row.or shared.journal)) })
  | point {own id} : (∀ other, shared.recordLocks id = some other → other = run) → (run ∈ shared.sharers ∨ own.target.isSome = true) →
      Statement computed run shared (.writing own) (.point id)
        { shared with recordLocks := Function.update shared.recordLocks id (some run) }
        (.writing { own with records := (id, ⟨true, computed (own.target.getD shared.target)⟩) :: own.records })
  | pointAway {own id value} : (∀ other, shared.recordLocks id = some other → other = run) →
      Statement computed run shared (.writing own) (.pointAway id value)
        { shared with recordLocks := Function.update shared.recordLocks id (some run) }
        (.writing { own with records := (id, ⟨false, value⟩) :: own.records })
  | commitWriting {own} : own.due = false →
      Statement computed run shared (.writing own) .commit (commitWriting run shared own) .idle
  | open {rowId size} : (∀ other, shared.turns rowId = some other → other = run) → 0 < size →
      Statement computed run shared .idle (.open rowId size)
        { shared with turns := Function.update shared.turns rowId (some run) } (.opened rowId size)
  | read {rowId size row} : shared.journal = some row → row.id = rowId →
      Statement computed run shared (.opened rowId size) .read shared (.found row size)
  | miss {rowId size} : Statement computed run shared (.opened rowId size) .read shared (.leaving [])
  | list {row size sources} : sources = referringRecords shared.records row.start size →
      Statement computed run shared (.found row size) .list shared (.walking { row, size, sources, todo := sources, done := [] })
  | lock {batch id rest} : batch.todo = id :: rest → (∀ other, shared.recordLocks id = some other → other = run) →
      Statement computed run shared (.walking batch) .lock
        { shared with recordLocks := Function.update shared.recordLocks id (some run) }
        (.holding batch id (shared.records.row id).refers)
  | compute {batch id refers other} : Statement computed run shared (.holding batch id refers) (.compute other) shared
      (.walking { batch with todo := batch.todo.tail, done := (id, ⟨refers, if refers then computed shared.target else other⟩) :: batch.done })
  | settle {batch row decision} : batch.todo = [] → (∀ other, shared.journalLock = some other → other = run) →
      shared.journal = some row → row.id = batch.row.id → batch.decision row.generation = some decision →
      Statement computed run shared (.walking batch) .settle { shared with journalLock := some run } (.settled batch decision)
  | lost {batch} : (∀ row, shared.journal = some row → row.id ≠ batch.row.id) →
      Statement computed run shared (.walking batch) .settle shared (.leaving batch.done)
  | commitBatch {batch decision} : Statement computed run shared (.settled batch decision) .commit
      (commitBatch run shared batch decision) .idle
  | leave {done} : Statement computed run shared (.leaving done) .commit
      (({ shared with records := shared.records.apply done }).release run) .idle
  | abort {phase} : Statement computed run shared phase .abort (shared.release run) .idle

theorem free_iff {run : Nat} {holder : Option Nat} : free run holder = true ↔ ∀ other, holder = some other → other = run := by
  cases holder <;> simp [free]

variable {computed : V → R} {run : Nat} {shared after : Shared Id V R} {phase next : Phase Id V R} {event : Event Id V R}

theorem statement_of_write {own : Writing Id V R} (written : write computed run shared own event = some (after, next)) :
    Statement computed run shared (.writing own) event after next := by
  cases event with
  | lockTarget =>
    simp only [write, Option.ite_none_right_eq_some] at written
    obtain ⟨isFree, same⟩ := written
    cases same
    exact .lockTarget (free_iff.mp isFree)
  | changeTarget value =>
    simp only [write, Option.ite_none_right_eq_some, Bool.and_eq_true, List.all_eq_true, decide_eq_true_eq] at written
    obtain ⟨⟨isFree, alone⟩, same⟩ := written
    cases same
    exact .changeTarget (free_iff.mp isFree) alone
  | journal =>
    simp only [write, Option.ite_none_right_eq_some, Bool.and_eq_true] at written
    obtain ⟨⟨isFree, changed⟩, same⟩ := written
    cases same
    exact .journal (free_iff.mp isFree) changed
  | point id =>
    simp only [write, Option.ite_none_right_eq_some, Bool.and_eq_true, Bool.or_eq_true, decide_eq_true_eq] at written
    obtain ⟨⟨isFree, shares⟩, same⟩ := written
    cases same
    exact .point (free_iff.mp isFree) shares
  | pointAway id value =>
    simp only [write, Option.ite_none_right_eq_some] at written
    obtain ⟨isFree, same⟩ := written
    cases same
    exact .pointAway (free_iff.mp isFree)
  | commit =>
    simp only [write, Option.ite_none_left_eq_some, Bool.not_eq_true] at written
    obtain ⟨journaled, same⟩ := written
    cases same
    exact .commitWriting journaled
  | abort =>
    cases written
    exact .abort
  | start => cases written
  | «open» => cases written
  | read => cases written
  | list => cases written
  | lock => cases written
  | compute => cases written
  | settle => cases written

theorem statement_of_recompute (recomputed : recompute computed run shared phase event = some (after, next)) :
    Statement computed run shared phase event after next := by
  unfold recompute at recomputed
  split at recomputed
  next rowId size =>
    simp only [Option.ite_none_right_eq_some, Bool.and_eq_true, decide_eq_true_eq] at recomputed
    obtain ⟨⟨isFree, positive⟩, same⟩ := recomputed
    cases same
    exact .open (free_iff.mp isFree) positive
  next rowId size =>
    split at recomputed
    next row found =>
      obtain ⟨isRow, isId⟩ := Option.filter_eq_some_iff.mp found
      cases recomputed
      exact .read isRow (of_decide_eq_true isId)
    next =>
      cases recomputed
      exact .miss
  next row size =>
    cases recomputed
    exact .list rfl
  next batch =>
    split at recomputed
    next id rest isFirst =>
      simp only [Option.ite_none_right_eq_some] at recomputed
      obtain ⟨isFree, same⟩ := recomputed
      cases same
      exact .lock isFirst (free_iff.mp isFree)
    next => cases recomputed
  next batch id refers other =>
    cases recomputed
    exact .compute
  next batch =>
    simp only [Option.ite_none_right_eq_some, Bool.and_eq_true, List.isEmpty_iff] at recomputed
    obtain ⟨⟨isDone, isFree⟩, settled⟩ := recomputed
    split at settled
    next row found =>
      obtain ⟨isRow, isId⟩ := Option.filter_eq_some_iff.mp found
      obtain ⟨decision, decided, same⟩ := Option.map_eq_some_iff.mp settled
      cases same
      exact .settle isDone (free_iff.mp isFree) isRow (of_decide_eq_true isId) decided
    next gone =>
      cases settled
      refine .lost fun row isRow isId => ?_
      exact Option.filter_eq_none_iff.mp gone row isRow (decide_eq_true isId)
  next =>
    cases recomputed
    exact .commitBatch
  next =>
    cases recomputed
    exact .leave
  next =>
    cases recomputed
    exact .abort
  next => cases recomputed

theorem statement_of_perform (performed : perform computed run shared phase event = some (after, next)) :
    Statement computed run shared phase event after next := by
  unfold perform at performed
  split at performed
  next => exact statement_of_write performed
  next =>
    cases performed
    exact .start
  next => exact statement_of_recompute performed

omit [LinearOrder Id] in
theorem decision_remove {batch : Batch Id R} {generation : Nat} (decided : batch.decision generation = some .remove) :
    batch.sources.length < batch.size ∧ batch.row.pass = generation := by
  simp only [Batch.decision] at decided
  grind

omit [LinearOrder Id] in
theorem decision_restart {batch : Batch Id R} {generation : Nat} (decided : batch.decision generation = some .restart) :
    batch.sources.length < batch.size ∧ batch.row.pass ≠ generation := by
  simp only [Batch.decision] at decided
  grind

omit [LinearOrder Id] in
theorem decision_next {batch : Batch Id R} {generation pass : Nat} {cursor : Id}
    (decided : batch.decision generation = some (.next pass cursor)) :
    batch.size ≤ batch.sources.length ∧ pass = batch.row.pass ∧ batch.sources.getLast? = some cursor := by
  simp only [Batch.decision] at decided
  grind

/-- What a page leaves out does not refer to the target, or is not after the cursor, or comes after a full page. -/
theorem mem_referringRecords {records : Records Id R} {cursor : Option Id} {limit : Nat} {id : Id} (present : id ∈ records.ids)
    (refers : (records.row id).refers = true) (isAfter : afterCursor cursor id = true) :
    id ∈ referringRecords records cursor limit ∨ limit ≤ (referringRecords records cursor limit).length ∧
      ∀ last, (referringRecords records cursor limit).getLast? = some last → last < id := by
  unfold referringRecords
  generalize isAll : records.ids.filter (fun id => (records.row id).refers && afterCursor cursor id) = all
  have member : id ∈ all := by
    rw [← isAll, List.mem_filter]
    exact ⟨present, by rw [refers, isAfter]; rfl⟩
  have sorted : all.Pairwise (· < ·) := isAll ▸ records.sorted.filter _
  rw [← List.take_append_drop limit all] at member sorted
  rcases List.mem_append.mp member with inPage | behind
  · exact .inl inPage
  · refine .inr ⟨?_, fun last isLast => (List.pairwise_append.mp sorted).2.2 last (List.mem_of_getLast? isLast) id behind⟩
    have long : limit < all.length := by
      by_contra short
      rw [List.drop_eq_nil_of_le (by omega)] at behind
      cases behind
    rw [List.length_take]
    omega

theorem of_mem_referringRecords {records : Records Id R} {cursor : Option Id} {limit : Nat} {id : Id}
    (member : id ∈ referringRecords records cursor limit) : id ∈ records.ids ∧ afterCursor cursor id = true := by
  have inAll := List.mem_filter.mp (List.mem_of_mem_take member)
  exact ⟨inAll.1, (Bool.and_eq_true _ _ ▸ inAll.2).2⟩

end Steps

end OpenShapeForge.Extensions.RecomputeJournal
