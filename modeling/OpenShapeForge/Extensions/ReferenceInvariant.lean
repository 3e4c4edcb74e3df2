import OpenShapeForge.Extensions.TenantReferences
import OpenShapeForge.Library.Run

/-! What the writes, the deletes and the journal batches of tenant references have each done so
far, and why none of it is undone when another one commits. -/

namespace OpenShapeForge.Extensions.ReferenceTargets
open Js Library Library.RowLocks TenantReferences

section Invariant
variable {Tx Id : Type}

/-- Each id that a live reference field of a record holds names a row of its target, or stands in the journal. -/
def Pointing (registry : Registry) (state : State Tx Id) : Prop :=
  ∀ field ∈ registry.fields, ∀ record id, Refers state.rows.committed field id record →
    (∃ row, state.rows.committed id = some row ∧ row.entity = field.target) ∨ state.journal.committed (field.fieldId, id) = some ()

/-- There is no such row, and no transaction is about to make one. -/
def Gone (state : State Tx Id) (id : Id) : Prop :=
  state.rows.committed id = none ∧ ∀ tx row, (state.rows.sessions tx).written id ≠ some (some row)

def seen (committed : Id → Option (Row Id)) (own : Session Id (Row Id)) (id : Id) : Option (Row Id) := (own.written id).getD (committed id)

/-- A write's rows hold what they held before, and what was checked and is kept from being removed. -/
structure Writing (registry : Registry) (committed : Id → Option (Row Id)) (own : Session Id (Row Id)) (journal : Session (Text × Id) Unit)
    (checked : List (ReferenceField × Id)) : Prop where
  quiet : journal = .idle
  keeps : ∀ record, own.written record ≠ some none
  shares : ∀ pair ∈ checked, .keyShare ∈ own.locks pair.2 ∧ ∃ row, seen committed own pair.2 = some row ∧ row.entity = pair.1.target
  entities : ∀ record row before, own.written record = some (some row) → committed record = some before → row.entity = before.entity
  rows : ∀ record row, own.written record = some (some row) → ∀ field ∈ registry.fields, row.entity = field.entity →
    ∀ id ∈ row.values field.fieldId, Refers committed field id record ∨ (field, id) ∈ checked

/-- Rows that were only unlinked; with `strict` in no field that restricts. -/
def Shrinking (registry : Registry) (committed : Id → Option (Row Id)) (own : Session Id (Row Id)) (strict : Bool) : Prop :=
  ∀ record row, own.written record = some (some row) → ∃ before, committed record = some before ∧ row.entity = before.entity ∧
    ∀ field ∈ registry.fields, (∀ id ∈ row.values field.fieldId, id ∈ before.values field.fieldId) ∧
      (strict = true → field.onDelete = .restrict → row.values field.fieldId = before.values field.fieldId)

/-- No record is left that names the target by a field, or a journal row is on its way; a field that restricts has none at all. -/
def Clear (committed : Id → Option (Row Id)) (own : Session Id (Row Id)) (journal : Session (Text × Id) Unit) (target : Id)
    (field : ReferenceField) : Prop :=
  (∀ record, ¬Refers committed field target record) ∨ field.onDelete = .setNull ∧
    ((∀ record, Refers committed field target record → ¬Refers (seen committed own) field target record) ∨
      journal.written (field.fieldId, target) = some (some ()))

/-- What a delete's guard has still to look at. -/
def Left (committed : Id → Option (Row Id)) (own : Session Id (Row Id)) (target : Id) (field : ReferenceField) : Removal Id → Prop
  | .source rest => field.entity ∈ rest.map Extensible.name
  | .field _ found rest => field.entity ∈ rest.map Extensible.name ∨ field ∈ found
  | .unlink _ other records found rest => field.entity ∈ rest.map Extensible.name ∨ field ∈ found ∨
      field = other ∧ field.onDelete = .setNull ∧
        ∀ record, Refers committed field target record → Refers (seen committed own) field target record → record ∈ records
  | _ => False

def pending : Removal Id → List ReferenceField
  | .field _ found _ => found
  | .unlink _ field _ found _ => field :: found
  | _ => []

/-- A delete's guard at work, under the lock of its locked read. -/
structure Guarding (registry : Registry) (committed : Id → Option (Row Id)) (own : Session Id (Row Id)) (journal : Session (Text × Id) Unit)
    (name : Text) (target : Id) (progress : Removal Id) : Prop where
  locked : .update ∈ own.locks target
  row : ∃ row, committed target = some row ∧ registry.inScope name row
  shrinking : Shrinking registry committed own true
  keeps : ∀ record, own.written record ≠ some none
  journaled : ∀ key, journal.written key ≠ none → key.2 = target ∧ journal.written key = some (some ())
  known : ∀ field ∈ pending progress, field ∈ registry.fields
  nulls : ∀ entry field records found rest, progress = .unlink entry field records found rest → field.onDelete = .setNull
  looked : ∀ field ∈ registry.fields, field.entity ∈ (registry.referencedBy name).map Extensible.name →
    Left committed own target field progress ∨ Clear committed own journal target field

structure Deleted (registry : Registry) (committed : Id → Option (Row Id)) (own : Session Id (Row Id)) (journal : Session (Text × Id) Unit)
    (target : Id) : Prop where
  locked : .update ∈ own.locks target
  written : own.written target = some none
  shrinking : Shrinking registry committed own true
  only : ∀ record, own.written record = some none → record = target
  journaled : ∀ key, journal.written key ≠ none → key.2 = target ∧ journal.written key = some (some ())
  clear : ∀ field ∈ registry.fields, Clear committed own journal target field

structure Batching (registry : Registry) (committed : Id → Option (Row Id)) (own : Session Id (Row Id)) (journal : Session (Text × Id) Unit)
    (field : ReferenceField) (target : Id) (progress : Batch Id) : Prop where
  known : field ∈ registry.fields
  shrinking : Shrinking registry committed own false
  keeps : ∀ record, own.written record ≠ some none
  journaled : ∀ key, journal.written key ≠ none → key = (field.fieldId, target) ∧
    ∀ record, Refers committed field target record → ¬Refers (seen committed own) field target record
  started : progress = .start → own = .idle
  unlinks : progress ≠ .done → journal = .idle
  whole : ∀ records, progress = .unlink records true →
    ∀ record, Refers committed field target record → Refers (seen committed own) field target record → record ∈ records

def JobHolds (registry : Registry) (committed : Id → Option (Row Id)) (own : Session Id (Row Id)) (journal : Session (Text × Id) Unit) :
    Option (Job Id) → Prop
  | none | some (.remove _ _ .start) | some (.remove _ _ .unseen) => own = .idle ∧ journal = .idle
  | some (.write checked) => Writing registry committed own journal checked
  | some (.remove _ target .deleted) => Deleted registry committed own journal target
  | some (.remove name target progress) => Guarding registry committed own journal name target progress
  | some (.batch field target progress) => Batching registry committed own journal field target progress

def Working (journal : Session (Text × Id) Unit) (field : ReferenceField) (target : Id) : Batch Id → Prop
  | .start => False
  | .unlink _ _ => True
  | .done => journal.written (field.fieldId, target) ≠ none

/-- An open journal row names the id, or a batch works on one that did. -/
def Awaited (registry : Registry) (state : State Tx Id) (id : Id) : Prop :=
  (∃ field ∈ registry.fields, state.journal.committed (field.fieldId, id) ≠ none) ∨
    ∃ tx field progress, state.jobs tx = some (.batch field id progress) ∧ Working (state.journal.sessions tx) field id progress

structure Invariant (registry : Registry) (state : State Tx Id) : Prop where
  rows : state.rows.Consistent
  journal : state.journal.Consistent
  pointing : Pointing registry state
  gone : ∀ id, Awaited registry state id → Gone state id
  jobs : ∀ tx, JobHolds registry state.rows.committed (state.rows.sessions tx) (state.journal.sessions tx) (state.jobs tx)

end Invariant

section Frames
variable {Id : Type} {registry : Registry} {committed now : Id → Option (Row Id)} {own : Session Id (Row Id)}
  {journal : Session (Text × Id) Unit} {field : ReferenceField} {target record : Id}

theorem seen_of_unwritten (unwritten : own.written record = none) : seen committed own record = committed record := by
  unfold seen
  rw [unwritten]
  rfl

theorem seen_of_written {row : Option (Row Id)} (written : own.written record = some row) : seen committed own record = row := by
  unfold seen
  rw [written]
  rfl

theorem refers_congr {rows other : Id → Option (Row Id)} (same : rows record = other record) :
    Refers rows field target record ↔ Refers other field target record := by
  unfold Refers
  rw [same]

theorem refers_seen_later (fewer : ∀ record, Refers now field target record → Refers committed field target record)
    (refers : Refers now field target record) (isSeen : Refers (seen now own) field target record) :
    Refers (seen committed own) field target record := by
  cases written : own.written record with
  | none => exact (refers_congr (seen_of_unwritten written)).mpr (fewer record refers)
  | some row => exact (refers_congr ((seen_of_written written).trans (seen_of_written written).symm)).mp isSeen

theorem Clear.later (fewer : ∀ record, Refers now field target record → Refers committed field target record)
    (clear : Clear committed own journal target field) : Clear now own journal target field := by
  rcases clear with none | ⟨nulls, unlinked | journaled⟩
  · exact .inl fun record refers => none record (fewer record refers)
  · exact .inr ⟨nulls, .inl fun record refers isSeen => unlinked record (fewer record refers) (refers_seen_later fewer refers isSeen)⟩
  · exact .inr ⟨nulls, .inr journaled⟩

theorem Left.later {progress : Removal Id} (fewer : ∀ record, Refers now field target record → Refers committed field target record)
    (left : Left committed own target field progress) : Left now own target field progress := by
  cases progress with
  | unlink entry other records found rest =>
    rcases left with inRest | inFound | ⟨same, nulls, all⟩
    · exact .inl inRest
    · exact .inr (.inl inFound)
    · exact .inr (.inr ⟨same, nulls, fun record refers isSeen => all record (fewer record refers) (refers_seen_later fewer refers isSeen)⟩)
  | start | unseen | source | field | deleted => exact left

theorem Shrinking.later {strict : Bool} (owned : ∀ record, own.written record ≠ none → now record = committed record)
    (shrinking : Shrinking registry committed own strict) : Shrinking registry now own strict := by
  intro record row written
  rw [owned record (by rw [written]; exact Option.some_ne_none _)]
  exact shrinking record row written

theorem Guarding.later {name : Text} {progress : Removal Id} (owned : ∀ record, own.written record ≠ none → now record = committed record)
    (same : now target = committed target)
    (fewer : ∀ field ∈ registry.fields, ∀ record, Refers now field target record → Refers committed field target record)
    (guarding : Guarding registry committed own journal name target progress) : Guarding registry now own journal name target progress where
  locked := guarding.locked
  row := same ▸ guarding.row
  shrinking := guarding.shrinking.later owned
  keeps := guarding.keeps
  journaled := guarding.journaled
  known := guarding.known
  nulls := guarding.nulls
  looked field member inNames := (guarding.looked field member inNames).imp (Left.later (fewer field member)) (Clear.later (fewer field member))

theorem Deleted.later (owned : ∀ record, own.written record ≠ none → now record = committed record)
    (fewer : ∀ field ∈ registry.fields, ∀ record, Refers now field target record → Refers committed field target record)
    (deleted : Deleted registry committed own journal target) : Deleted registry now own journal target where
  locked := deleted.locked
  written := deleted.written
  shrinking := deleted.shrinking.later owned
  only := deleted.only
  journaled := deleted.journaled
  clear field member := (deleted.clear field member).later (fewer field member)

theorem Batching.later {progress : Batch Id} (owned : ∀ record, own.written record ≠ none → now record = committed record)
    (fewer : Working journal field target progress → ∀ record, Refers now field target record → Refers committed field target record)
    (batching : Batching registry committed own journal field target progress) :
    Batching registry now own journal field target progress where
  known := batching.known
  shrinking := batching.shrinking.later owned
  keeps := batching.keeps
  journaled key written := by
    obtain ⟨isKey, unlinked⟩ := batching.journaled key written
    have working : Working journal field target progress := by
      cases progress with
      | start =>
        rw [batching.unlinks (by simp)] at written
        exact absurd rfl written
      | unlink => trivial
      | done =>
        rw [isKey] at written
        exact written
    exact ⟨isKey, fun record refers isSeen =>
      unlinked record (fewer working record refers) (refers_seen_later (fewer working) refers isSeen)⟩
  started := batching.started
  unlinks := batching.unlinks
  whole records isProgress record refers isSeen := by
    have working : Working journal field target progress := by
      rw [isProgress]
      trivial
    exact batching.whole records isProgress record (fewer working record refers) (refers_seen_later (fewer working) refers isSeen)

theorem Writing.later {checked : List (ReferenceField × Id)} (owned : ∀ record, own.written record ≠ none → now record = committed record)
    (kept : ∀ id row, .keyShare ∈ own.locks id → own.written id = none → committed id = some row →
      ∃ after, now id = some after ∧ after.entity = row.entity)
    (writing : Writing registry committed own journal checked) : Writing registry now own journal checked where
  quiet := writing.quiet
  keeps := writing.keeps
  shares pair member := by
    obtain ⟨shared, row, isSeen, isTarget⟩ := writing.shares pair member
    refine ⟨shared, ?_⟩
    cases written : own.written pair.2 with
    | none =>
      rw [seen_of_unwritten written] at isSeen ⊢
      obtain ⟨after, isAfter, same⟩ := kept pair.2 row shared written isSeen
      exact ⟨after, isAfter, same.trans isTarget⟩
    | some found =>
      rw [seen_of_written written] at isSeen ⊢
      exact ⟨row, isSeen, isTarget⟩
  entities record row before written isBefore := by
    rw [owned record (by rw [written]; exact Option.some_ne_none _)] at isBefore
    exact writing.entities record row before written isBefore
  rows record row written field member ofEntity id isValue := by
    have same := owned record (by rw [written]; exact Option.some_ne_none _)
    exact (writing.rows record row written field member ofEntity id isValue).imp_left (refers_congr same).mpr

end Frames

section Commits
variable {Id : Type} {registry : Registry} {committed : Id → Option (Row Id)} {own : Session Id (Row Id)}
  {journal : Session (Text × Id) Unit} {job : Option (Job Id)} {field : ReferenceField} {id record : Id}

theorem Shrinking.loose {strict : Bool} (shrinking : Shrinking registry committed own strict) : Shrinking registry committed own false := by
  intro record row written
  obtain ⟨before, isBefore, same, values⟩ := shrinking record row written
  exact ⟨before, isBefore, same, fun field member => ⟨(values field member).1, fun never => absurd never (by decide)⟩⟩

theorem shrinking_idle {strict : Bool} : Shrinking registry committed .idle strict := by
  intro record row written
  cases written

theorem Shrinking.refers {strict : Bool} (shrinking : Shrinking registry committed own strict) (member : field ∈ registry.fields)
    (isSeen : Refers (seen committed own) field id record) : Refers committed field id record := by
  obtain ⟨row, isRow, ofEntity, isValue⟩ := isSeen
  cases written : own.written record with
  | none =>
    rw [seen_of_unwritten written] at isRow
    exact ⟨row, isRow, ofEntity, isValue⟩
  | some found =>
    rw [seen_of_written written] at isRow
    subst isRow
    obtain ⟨before, isBefore, same, values⟩ := shrinking record row written
    exact ⟨before, isBefore, same.symm.trans ofEntity, (values field member).1 id isValue⟩

theorem write_or_shrinking (holds : JobHolds registry committed own journal job) :
    (∃ checked, job = some (.write checked) ∧ Writing registry committed own journal checked) ∨ Shrinking registry committed own false := by
  match job, holds with
  | none, ⟨idle, _⟩ => exact .inr (idle ▸ shrinking_idle)
  | some (.write checked), writing => exact .inl ⟨checked, rfl, writing⟩
  | some (.remove _ _ .start), ⟨idle, _⟩ => exact .inr (idle ▸ shrinking_idle)
  | some (.remove _ _ .unseen), ⟨idle, _⟩ => exact .inr (idle ▸ shrinking_idle)
  | some (.remove _ _ (.source _)), guarding => exact .inr (Guarding.shrinking guarding).loose
  | some (.remove _ _ (.field ..)), guarding => exact .inr (Guarding.shrinking guarding).loose
  | some (.remove _ _ (.unlink ..)), guarding => exact .inr (Guarding.shrinking guarding).loose
  | some (.remove _ _ .deleted), deleted => exact .inr (Deleted.shrinking deleted).loose
  | some (.batch ..), batching => exact .inr (Batching.shrinking batching)

theorem refers_or_shared (holds : JobHolds registry committed own journal job) (member : field ∈ registry.fields)
    (isSeen : Refers (seen committed own) field id record) : Refers committed field id record ∨
      .keyShare ∈ own.locks id ∧ ∃ row, seen committed own id = some row ∧ row.entity = field.target := by
  rcases write_or_shrinking holds with ⟨checked, -, writing⟩ | shrinking
  · obtain ⟨row, isRow, ofEntity, isValue⟩ := isSeen
    cases written : own.written record with
    | none =>
      rw [seen_of_unwritten written] at isRow
      exact .inl ⟨row, isRow, ofEntity, isValue⟩
    | some found =>
      rw [seen_of_written written] at isRow
      subst isRow
      exact (writing.rows record row written field member ofEntity id isValue).imp_right fun isChecked => writing.shares _ isChecked
  · exact .inl (shrinking.refers member isSeen)

theorem entity_kept (holds : JobHolds registry committed own journal job) {row before : Row Id}
    (written : own.written record = some (some row)) (isBefore : committed record = some before) : row.entity = before.entity := by
  rcases write_or_shrinking holds with ⟨checked, -, writing⟩ | shrinking
  · exact writing.entities record row before written isBefore
  · obtain ⟨found, isFound, same, -⟩ := shrinking record row written
    rw [isBefore] at isFound
    cases isFound
    exact same

end Commits

section Others
variable {Tx Id : Type} {registry : Registry} {state : State Tx Id} {tx other : Tx} {field : ReferenceField}
  {target : Id}

theorem fewer_of_update (invariant : Invariant registry state) (different : other ≠ tx) (locked : state.rows.Holds other target .update) :
    ∀ field ∈ registry.fields, ∀ record, Refers (state.rows.view tx) field target record →
      Refers state.rows.committed field target record := by
  intro field member record refers
  rcases refers_or_shared (invariant.jobs tx) member refers with before | ⟨shared, -⟩
  · exact before
  · exact absurd shared (invariant.rows.not_shared different.symm locked)

theorem fewer_of_gone (invariant : Invariant registry state) (gone : Gone state target) (member : field ∈ registry.fields) :
    ∀ record, Refers (state.rows.view tx) field target record → Refers state.rows.committed field target record := by
  intro record refers
  rcases refers_or_shared (invariant.jobs tx) member refers with before | ⟨-, row, isRow, -⟩
  · exact before
  · cases written : (state.rows.sessions tx).written target with
    | none =>
      rw [seen_of_unwritten written, gone.1] at isRow
      cases isRow
    | some found =>
      rw [seen_of_written written] at isRow
      exact absurd (isRow ▸ written) (gone.2 tx row)

variable [DecidableEq Tx]

theorem jobHolds_commit (invariant : Invariant registry state) (different : other ≠ tx) :
    JobHolds registry (state.rows.view tx) (state.rows.sessions other) (state.journal.sessions other) (state.jobs other) := by
  have owned : ∀ record, (state.rows.sessions other).written record ≠ none → state.rows.view tx record = state.rows.committed record :=
    fun record written => invariant.rows.committed_owned different (invariant.rows.owned other record written)
  have ofGuarding : ∀ {name target progress}, Guarding registry state.rows.committed (state.rows.sessions other) (state.journal.sessions other)
      name target progress → Guarding registry (state.rows.view tx) (state.rows.sessions other) (state.journal.sessions other) name target progress :=
    fun guarding => guarding.later owned (invariant.rows.committed_owned different (.inr guarding.locked))
      (fewer_of_update invariant different guarding.locked)
  have holds := invariant.jobs other
  cases isJob : state.jobs other with
  | none =>
    rw [isJob] at holds
    exact holds
  | some job =>
    rw [isJob] at holds
    cases job with
    | write checked =>
      refine Writing.later owned ?_ holds
      intro id row shared unwritten isRow
      cases written : (state.rows.sessions tx).written id with
      | none => exact ⟨row, (Store.view_of_unwritten written).trans isRow, rfl⟩
      | some found =>
        cases found with
        | none => exact absurd written (invariant.rows.kept different.symm shared)
        | some after => exact ⟨after, Store.view_of_written written, entity_kept (invariant.jobs tx) written isRow⟩
    | remove name target progress =>
      cases progress with
      | start | unseen => exact holds
      | source | field | unlink => exact ofGuarding holds
      | deleted => exact Deleted.later owned (fewer_of_update invariant different holds.locked) holds
    | batch field target progress =>
      refine Batching.later owned (fun working => ?_) holds
      have gone := invariant.gone target (.inr ⟨other, field, progress, isJob, working⟩)
      exact fewer_of_gone invariant gone holds.known

theorem Gone.commit (gone : Gone state target) : Gone (state.commit tx) target := by
  have unseen : state.rows.view tx target = none := by
    cases written : (state.rows.sessions tx).written target with
    | none => exact (Store.view_of_unwritten written).trans gone.1
    | some found =>
      cases found with
      | none => exact Store.view_of_written written
      | some row => exact absurd written (gone.2 tx row)
  refine ⟨unseen, fun other row written => ?_⟩
  by_cases same : other = tx
  · subst same
    rw [show (state.commit other).rows.sessions other = .idle from Store.commit_own] at written
    cases written
  · rw [show (state.commit tx).rows.sessions other = state.rows.sessions other from Store.commit_session same] at written
    exact gone.2 other row written

end Others

end OpenShapeForge.Extensions.ReferenceTargets
