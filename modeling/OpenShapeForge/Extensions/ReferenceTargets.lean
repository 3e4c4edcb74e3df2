import Mathlib.Data.List.Dedup
import OpenShapeForge.Extensions.ReferenceInvariant

/-! No tenant reference points at nothing: what the deletes, the writes and the journal keep of
it in every run, and the deletes that look for no reference. -/

namespace OpenShapeForge.Extensions.ReferenceTargets
open Js Library Library.RowLocks TenantReferences

section Writes
variable {Id : Type} {registry : Registry} {committed : Id → Option (Row Id)} {own : Session Id (Row Id)}
  {journal : Session (Text × Id) Unit} {field other : ReferenceField} {target id record at' : Id} {strength : Strength}
  {checked : List (ReferenceField × Id)}

theorem writing_idle : Writing registry committed (.idle : Session Id (Row Id)) .idle [] where
  quiet := rfl
  keeps record written := by cases written
  shares pair member := absurd member List.not_mem_nil
  entities record row before written := by cases written
  rows record row written := by cases written

theorem Writing.refers (writing : Writing registry committed own journal checked) (member : field ∈ registry.fields)
    (isSeen : Refers (seen committed own) field id record) : Refers committed field id record ∨ (field, id) ∈ checked := by
  obtain ⟨row, isRow, ofEntity, isValue⟩ := isSeen
  cases written : own.written record with
  | none =>
    rw [seen_of_unwritten written] at isRow
    exact .inl ⟨row, isRow, ofEntity, isValue⟩
  | some found =>
    rw [seen_of_written written] at isRow
    subst isRow
    exact writing.rows record row written field member ofEntity id isValue

variable [DecidableEq Id]

theorem seen_write {row : Option (Row Id)} : seen committed (own.write record row) at' = if at' = record then row else seen committed own at' := by
  unfold seen
  rw [Session.write_written]
  split
  · rfl
  · rfl

theorem Writing.lock (writing : Writing registry committed own journal checked) :
    Writing registry committed (own.lock record strength) journal checked where
  quiet := writing.quiet
  keeps := writing.keeps
  shares pair member := (writing.shares pair member).imp_left fun shared => Session.mem_lock.mpr (.inl shared)
  entities := writing.entities
  rows := writing.rows

theorem Writing.check (writing : Writing registry committed own journal checked) {row : Row Id} (isRow : seen committed own id = some row)
    (isTarget : row.entity = field.target) : Writing registry committed (own.lock id .keyShare) journal ((field, id) :: checked) where
  quiet := writing.quiet
  keeps := writing.keeps
  shares pair member := by
    rcases List.mem_cons.mp member with rfl | before
    · exact ⟨Session.mem_lock.mpr (.inr ⟨rfl, rfl⟩), row, isRow, isTarget⟩
    · exact writing.lock.shares pair before
  entities := writing.entities
  rows record row written field member ofEntity id isValue :=
    (writing.rows record row written field member ofEntity id isValue).imp_right (List.mem_cons_of_mem _)

theorem Writing.write (writing : Writing registry committed own journal checked) {row : Row Id}
    (entity : ∀ before, seen committed own record = some before ∨ committed record = some before → row.entity = before.entity)
    (values : ∀ field ∈ registry.fields, row.entity = field.entity → ∀ id ∈ row.values field.fieldId,
      Refers committed field id record ∨ (field, id) ∈ checked) :
    Writing registry committed (own.write record (some row)) journal checked where
  quiet := writing.quiet
  keeps at' written := by
    rw [Session.write_written] at written
    split at written
    · cases written
    · exact writing.keeps at' written
  shares pair member := by
    obtain ⟨shared, found, isSeen, isTarget⟩ := writing.shares pair member
    refine ⟨shared, ?_⟩
    rw [seen_write]
    split
    next same => exact ⟨row, rfl, (entity found (.inl (same ▸ isSeen))).trans isTarget⟩
    next => exact ⟨found, isSeen, isTarget⟩
  entities at' found before written isBefore := by
    rw [Session.write_written] at written
    split at written
    next same =>
      cases written
      exact entity before (.inr (same ▸ isBefore))
    next => exact writing.entities at' found before written isBefore
  rows at' found written field member ofEntity id isValue := by
    rw [Session.write_written] at written
    split at written
    next same =>
      cases written
      exact same ▸ values field member ofEntity id isValue
    next => exact writing.rows at' found written field member ofEntity id isValue

theorem Writing.store (writing : Writing registry committed own journal checked) {before after : Row Id}
    (isBefore : seen committed own record = some before) (same : after.entity = before.entity)
    (values : ∀ field ∈ registry.fields, after.entity = field.entity → after.values field.fieldId = before.values field.fieldId ∨
      ∀ id ∈ after.values field.fieldId, (field, id) ∈ checked) :
    Writing registry committed (own.write record (some after)) journal checked := by
  refine writing.write ?_ ?_
  · rintro found (isFound | isFound)
    · rw [isBefore] at isFound
      cases isFound
      exact same
    · cases written : own.written record with
      | none =>
        rw [seen_of_unwritten written, isFound] at isBefore
        cases isBefore
        exact same
      | some row =>
        rw [seen_of_written written] at isBefore
        subst isBefore
        exact same.trans (writing.entities record before found written isFound)
  · intro field member ofEntity id isValue
    rcases values field member ofEntity with kept | isChecked
    · exact writing.refers member ⟨before, isBefore, same.symm.trans ofEntity, kept ▸ isValue⟩
    · exact .inr (isChecked id isValue)

end Writes

section Removals
variable {Id : Type} {registry : Registry} {committed : Id → Option (Row Id)} {own : Session Id (Row Id)}
  {journal : Session (Text × Id) Unit} {field other : ReferenceField} {target id record at' : Id} {strength : Strength} {strict : Bool}

theorem field_of_id (registry : Registry) (member : field ∈ registry.fields) (also : other ∈ registry.fields)
    (same : other.fieldId = field.fieldId) : other = field :=
  List.inj_on_of_nodup_map registry.once also member same

theorem Shrinking.restricts (shrinking : Shrinking registry committed own true) (keeps : ∀ record, own.written record ≠ some none)
    (member : field ∈ registry.fields) (restricts : field.onDelete = .restrict) (refers : Refers committed field id record) :
    Refers (seen committed own) field id record := by
  obtain ⟨before, isBefore, ofEntity, isValue⟩ := refers
  cases written : own.written record with
  | none => exact ⟨before, (seen_of_unwritten written).trans isBefore, ofEntity, isValue⟩
  | some found =>
    cases found with
    | none => exact absurd written (keeps record)
    | some row =>
      obtain ⟨past, isPast, same, values⟩ := shrinking record row written
      rw [isBefore] at isPast
      cases isPast
      refine ⟨row, seen_of_written written, same.trans ofEntity, ?_⟩
      rw [(values field member).2 rfl restricts]
      exact isValue

theorem clear_of_unseen (shrinking : Shrinking registry committed own true) (keeps : ∀ record, own.written record ≠ some none)
    (member : field ∈ registry.fields) (unseen : ∀ record, ¬Refers (seen committed own) field target record) :
    Clear committed own journal target field := by
  cases onDelete : field.onDelete with
  | restrict => exact .inl fun record refers => unseen record (shrinking.restricts keeps member onDelete refers)
  | setNull => exact .inr ⟨onDelete, .inl fun record _ => unseen record⟩

variable [DecidableEq Id]

theorem refers_unlink {row : Row Id} (isRow : seen committed own record = some row) (member : field ∈ registry.fields)
    (also : other ∈ registry.fields) (isSeen : Refers (seen committed (own.write record (some (unlink field target row)))) other id at') :
    Refers (seen committed own) other id at' ∧ ¬(at' = record ∧ other = field ∧ id = target) := by
  obtain ⟨found, isFound, ofEntity, isValue⟩ := isSeen
  rw [seen_write] at isFound
  split at isFound
  next same =>
    cases isFound
    have unlinked : id ∈ row.values other.fieldId ∧ ¬(other = field ∧ id = target) := by
      simp only [unlink, Function.update_apply] at isValue
      split at isValue
      next sameId =>
        have isOther := field_of_id registry member also sameId
        rw [List.mem_filter] at isValue
        exact ⟨sameId ▸ isValue.1, fun both => of_decide_eq_true isValue.2 both.2⟩
      next differs => exact ⟨isValue, fun both => differs (both.1 ▸ rfl)⟩
    exact ⟨⟨row, same ▸ isRow, ofEntity, unlinked.1⟩, fun all => unlinked.2 all.2⟩
  next differs => exact ⟨⟨found, isFound, ofEntity, isValue⟩, fun all => differs all.1⟩

theorem Shrinking.unlink (shrinking : Shrinking registry committed own strict) {row : Row Id} (isRow : seen committed own record = some row)
    (member : field ∈ registry.fields) (nulls : strict = true → field.onDelete = .setNull) :
    Shrinking registry committed (own.write record (some (unlink field target row))) strict := by
  intro at' found written
  rw [Session.write_written] at written
  split at written
  next same =>
    cases written
    subst same
    have unlinked : ∀ other ∈ registry.fields, (∀ id ∈ (TenantReferences.unlink field target row).values other.fieldId, id ∈ row.values other.fieldId) ∧
        (strict = true → other.onDelete = .restrict →
          (TenantReferences.unlink field target row).values other.fieldId = row.values other.fieldId) := by
      intro other also
      simp only [TenantReferences.unlink, Function.update_apply]
      split
      next sameId =>
        have isOther := field_of_id registry member also sameId
        refine ⟨fun id isValue => sameId ▸ (List.mem_filter.mp isValue).1, fun isStrict restricts => ?_⟩
        rw [isOther, nulls isStrict] at restricts
        cases restricts
      next => exact ⟨fun id isValue => isValue, fun _ _ => rfl⟩
    cases before : own.written at' with
    | none =>
      rw [seen_of_unwritten before] at isRow
      exact ⟨row, isRow, rfl, unlinked⟩
    | some past =>
      rw [seen_of_written before] at isRow
      subst isRow
      obtain ⟨first, isFirst, entity, values⟩ := shrinking at' row before
      refine ⟨first, isFirst, entity, fun other also => ⟨fun id isValue => (values other also).1 id ((unlinked other also).1 id isValue), ?_⟩⟩
      intro isStrict restricts
      exact ((unlinked other also).2 isStrict restricts).trans ((values other also).2 isStrict restricts)
  next => exact shrinking at' found written

theorem keeps_write {row : Row Id} (keeps : ∀ record, own.written record ≠ some none) :
    ∀ at', (own.write record (some row)).written at' ≠ some none := by
  intro at' written
  rw [Session.write_written] at written
  split at written
  · cases written
  · exact keeps at' written

theorem Clear.unlink {row : Row Id} (isRow : seen committed own record = some row) (member : field ∈ registry.fields)
    (also : other ∈ registry.fields) (clear : Clear committed own journal target other) :
    Clear committed (own.write record (some (TenantReferences.unlink field target row))) journal target other := by
  rcases clear with none | ⟨nulls, unlinked | journaled⟩
  · exact .inl none
  · exact .inr ⟨nulls, .inl fun at' refers isSeen => unlinked at' refers (refers_unlink isRow member also isSeen).1⟩
  · exact .inr ⟨nulls, .inr journaled⟩

end Removals

section Guards
variable {Id : Type} {registry : Registry} {committed : Id → Option (Row Id)} {own : Session Id (Row Id)}
  {journal : Session (Text × Id) Unit} {name : Text} {target record : Id} {field : ReferenceField} {entry : Extensible}
  {found : List ReferenceField} {rest : List Extensible} {records : List Id} {progress after : Removal Id}

theorem Guarding.move (guarding : Guarding registry committed own journal name target progress)
    (known : ∀ field ∈ pending after, field ∈ registry.fields)
    (nulls : ∀ entry field records found rest, after = .unlink entry field records found rest → field.onDelete = .setNull)
    (looked : ∀ field ∈ registry.fields, Left committed own target field progress →
      Left committed own target field after ∨ Clear committed own journal target field) :
    Guarding registry committed own journal name target after where
  locked := guarding.locked
  row := guarding.row
  shrinking := guarding.shrinking
  keeps := guarding.keeps
  journaled := guarding.journaled
  known := known
  nulls := nulls
  looked field member inNames := by
    rcases guarding.looked field member inNames with left | clear
    · exact looked field member left
    · exact .inr clear

theorem Guarding.scan (guarding : Guarding registry committed own journal name target (.source (entry :: rest)))
    (isFound : Found registry (seen committed own) entry target found) :
    Guarding registry committed own journal name target (.field entry found rest) := by
  refine guarding.move (fun field member => ((isFound field).mp member).1) (fun _ _ _ _ _ never => by cases never) ?_
  intro field member left
  rcases List.mem_cons.mp left with isEntry | inRest
  · by_cases named : ∃ record, Refers (seen committed own) field target record
    · exact .inl (.inr ((isFound field).mpr ⟨member, isEntry, named⟩))
    · exact .inr (clear_of_unseen guarding.shrinking guarding.keeps member fun record refers => named ⟨record, refers⟩)
  · exact .inl (.inl inRest)

theorem Guarding.nextSource (guarding : Guarding registry committed own journal name target (.field entry [] rest)) :
    Guarding registry committed own journal name target (.source rest) := by
  refine guarding.move (fun field member => absurd member List.not_mem_nil) (fun _ _ _ _ _ never => by cases never) ?_
  intro field _ left
  rcases left with inRest | inNone
  · exact .inl inRest
  · exact absurd inNone List.not_mem_nil

theorem Guarding.withinBudget (guarding : Guarding registry committed own journal name target (.field entry (field :: found) rest))
    (nulls : field.onDelete = .setNull) (all : ∀ record, Refers (seen committed own) field target record → record ∈ records) :
    Guarding registry committed own journal name target (.unlink entry field records found rest) := by
  refine guarding.move guarding.known (fun _ _ _ _ _ same => by cases same; exact nulls) ?_
  intro other _ left
  rcases left with inRest | inFound
  · exact .inl (.inl inRest)
  · rcases List.mem_cons.mp inFound with rfl | later
    · exact .inl (.inr (.inr ⟨rfl, nulls, fun record _ isSeen => all record isSeen⟩))
    · exact .inl (.inr (.inl later))

theorem Guarding.skip (guarding : Guarding registry committed own journal name target (.unlink entry field (record :: records) found rest))
    (unseen : seen committed own record = none) :
    Guarding registry committed own journal name target (.unlink entry field records found rest) := by
  refine guarding.move guarding.known (fun _ _ _ _ _ same => by cases same; exact guarding.nulls _ _ _ _ _ rfl) ?_
  intro other _ left
  rcases left with inRest | inFound | ⟨same, nulls, all⟩
  · exact .inl (.inl inRest)
  · exact .inl (.inr (.inl inFound))
  · refine .inl (.inr (.inr ⟨same, nulls, fun at' refers isSeen => ?_⟩))
    rcases List.mem_cons.mp (all at' refers isSeen) with rfl | later
    · obtain ⟨row, isRow, -⟩ := isSeen
      rw [unseen] at isRow
      cases isRow
    · exact later

theorem Guarding.nextField (guarding : Guarding registry committed own journal name target (.unlink entry field [] found rest)) :
    Guarding registry committed own journal name target (.field entry found rest) := by
  refine guarding.move (fun other member => guarding.known other (List.mem_cons_of_mem _ member)) (fun _ _ _ _ _ never => by cases never) ?_
  intro other _ left
  rcases left with inRest | inFound | ⟨-, nulls, all⟩
  · exact .inl (.inl inRest)
  · exact .inl (.inr inFound)
  · exact .inr (.inr ⟨nulls, .inl fun at' refers isSeen => absurd (all at' refers isSeen) List.not_mem_nil⟩)

variable [DecidableEq Id]

theorem guarding_fetch {row : Row Id} (isRow : committed target = some row) (inScope : registry.inScope name row) :
    Guarding registry committed ((.idle : Session Id (Row Id)).lock target .update) .idle name target (.source (registry.referencedBy name)) where
  locked := Session.mem_lock.mpr (.inr ⟨rfl, rfl⟩)
  row := ⟨row, isRow, inScope⟩
  shrinking := shrinking_idle
  keeps at' written := by cases written
  journaled key written := absurd rfl written
  known other member := absurd member List.not_mem_nil
  nulls _ _ _ _ _ never := by cases never
  looked field _ inNames := .inl inNames

theorem Guarding.journalRecompute (guarding : Guarding registry committed own journal name target (.field entry (field :: found) rest))
    (nulls : field.onDelete = .setNull) : Guarding registry committed own
      ((journal.lock (field.fieldId, target) .update).write (field.fieldId, target) (some ())) name target (.field entry found rest) where
  locked := guarding.locked
  row := guarding.row
  shrinking := guarding.shrinking
  keeps := guarding.keeps
  journaled key written := by
    rw [Session.write_written] at written ⊢
    split
    next same => exact ⟨same ▸ rfl, rfl⟩
    next differs =>
      rw [if_neg differs] at written
      exact guarding.journaled key written
  known other member := guarding.known other (List.mem_cons_of_mem _ member)
  nulls _ _ _ _ _ never := by cases never
  looked other member inNames := by
    have kept : Clear committed own journal target other → Clear committed own
        ((journal.lock (field.fieldId, target) .update).write (field.fieldId, target) (some ())) target other := by
      rintro (none | ⟨alsoNulls, unlinked | journaled⟩)
      · exact .inl none
      · exact .inr ⟨alsoNulls, .inl unlinked⟩
      · refine .inr ⟨alsoNulls, .inr ?_⟩
        rw [Session.write_written]
        split
        · rfl
        · exact journaled
    rcases guarding.looked other member inNames with left | clear
    · rcases left with inRest | inFound
      · exact .inl (.inl inRest)
      · rcases List.mem_cons.mp inFound with rfl | later
        · refine .inr (.inr ⟨nulls, .inr ?_⟩)
          rw [Session.write_written, if_pos rfl]
        · exact .inl (.inr later)
    · exact .inr (kept clear)

theorem Guarding.unlink (guarding : Guarding registry committed own journal name target (.unlink entry field (record :: records) found rest))
    {row : Row Id} (isRow : seen committed own record = some row) :
    Guarding registry committed ((own.lock record .noKeyUpdate).write record (some (TenantReferences.unlink field target row))) journal name target
      (.unlink entry field records found rest) where
  locked := Session.mem_lock.mpr (.inl guarding.locked)
  row := guarding.row
  shrinking := by
    have known := guarding.known field List.mem_cons_self
    exact guarding.shrinking.unlink isRow known fun _ => guarding.nulls _ _ _ _ _ rfl
  keeps := keeps_write guarding.keeps
  journaled := guarding.journaled
  known := guarding.known
  nulls _ _ _ _ _ same := by
    cases same
    exact guarding.nulls _ _ _ _ _ rfl
  looked other member inNames := by
    have known := guarding.known field List.mem_cons_self
    rcases guarding.looked other member inNames with left | clear
    · rcases left with inRest | inFound | ⟨same, nulls, all⟩
      · exact .inl (.inl inRest)
      · exact .inl (.inr (.inl inFound))
      · refine .inl (.inr (.inr ⟨same, nulls, fun at' refers isSeen => ?_⟩))
        obtain ⟨before, differs⟩ := refers_unlink isRow known member isSeen
        rcases List.mem_cons.mp (all at' refers before) with rfl | later
        · exact absurd ⟨rfl, same, rfl⟩ differs
        · exact later
    · exact .inr (clear.unlink isRow known member)

theorem take_of_withinBudget {budget taken : List (Text × Id)} {all : List Id} (once : all.Nodup)
    (within : TenantReferences.withinBudget budget entry (all.take (entry.syncFanOut + 1)) = some taken) :
    all.take (entry.syncFanOut + 1) = all := by
  unfold TenantReferences.withinBudget at within
  dsimp only at within
  split at within
  · cases within
  · next fits =>
    have pairs : ((all.take (entry.syncFanOut + 1)).map fun id => (entry.name, id)).Nodup :=
      (once.sublist (List.take_sublist _ _)).map fun _ _ same => (Prod.mk.inj same).2
    have counted : (all.take (entry.syncFanOut + 1)).length ≤ entry.syncFanOut := by
      calc (all.take (entry.syncFanOut + 1)).length
          = ((all.take (entry.syncFanOut + 1)).map fun id => (entry.name, id)).dedup.length := by
            rw [List.dedup_eq_self.mpr pairs, List.length_map]
        _ ≤ (budget ++ (all.take (entry.syncFanOut + 1)).map fun id => (entry.name, id)).dedup.length :=
            (List.subperm_of_subset (List.nodup_dedup _) fun pair member =>
              List.mem_dedup.mpr (List.mem_append_right _ (List.mem_dedup.mp member))).length_le
        _ ≤ entry.syncFanOut := Nat.le_of_not_lt fits
    rw [List.length_take] at counted
    exact List.take_of_length_le (by omega)

end Guards

section Batches
variable {Id : Type} {registry : Registry} {committed : Id → Option (Row Id)} {own : Session Id (Row Id)}
  {journal : Session (Text × Id) Unit} {target record : Id} {field : ReferenceField} {records : List Id} {whole : Bool}
  {progress after : Batch Id}

theorem batching_start (member : field ∈ registry.fields) :
    Batching registry committed (.idle : Session Id (Row Id)) .idle field target .start where
  known := member
  shrinking := shrinking_idle
  keeps at' written := by cases written
  journaled key written := absurd rfl written
  started _ := rfl
  unlinks _ := rfl
  whole _ never := by cases never

theorem Batching.move (batching : Batching registry committed own journal field target progress) (started : after ≠ .start)
    (quiet : journal = .idle) (all : ∀ records, after = .unlink records true →
      ∀ record, Refers committed field target record → Refers (seen committed own) field target record → record ∈ records) :
    Batching registry committed own journal field target after where
  known := batching.known
  shrinking := batching.shrinking
  keeps := batching.keeps
  journaled := batching.journaled
  started never := absurd never started
  unlinks _ := quiet
  whole := all

theorem Batching.referringRecords {all : List Id} {size : Nat} (batching : Batching registry committed own journal field target .start)
    (lists : Lists (seen committed own) field target all) :
    Batching registry committed own journal field target (.unlink (all.take size) (decide ((all.take size).length < size))) := by
  refine batching.move (fun never => by cases never) (batching.unlinks (fun never => by cases never)) ?_
  intro records same record _ isSeen
  obtain ⟨rfl, isWhole⟩ := Batch.unlink.inj same
  have short := of_decide_eq_true isWhole
  rw [List.length_take] at short
  rw [List.take_of_length_le (by omega)]
  exact (lists.all record).mpr isSeen

theorem Batching.skip (batching : Batching registry committed own journal field target (.unlink (record :: records) whole))
    (unseen : seen committed own record = none) : Batching registry committed own journal field target (.unlink records whole) := by
  refine batching.move (fun never => by cases never) (batching.unlinks (fun never => by cases never)) ?_
  intro rest same at' refers isSeen
  cases same
  rcases List.mem_cons.mp (batching.whole _ rfl at' refers isSeen) with rfl | later
  · obtain ⟨row, isRow, -⟩ := isSeen
    rw [unseen] at isRow
    cases isRow
  · exact later

variable [DecidableEq Id]

theorem Batching.unlink (batching : Batching registry committed own journal field target (.unlink (record :: records) whole))
    {row : Row Id} (isRow : seen committed own record = some row) :
    Batching registry committed ((own.lock record .noKeyUpdate).write record (some (TenantReferences.unlink field target row))) journal field target
      (.unlink records whole) where
  known := batching.known
  shrinking := batching.shrinking.unlink isRow batching.known fun never => absurd never (by decide)
  keeps := keeps_write batching.keeps
  journaled key written := by
    rw [batching.unlinks (fun never => by cases never)] at written
    exact absurd rfl written
  started never := by cases never
  unlinks _ := batching.unlinks fun never => by cases never
  whole rest same at' refers isSeen := by
    cases same
    obtain ⟨before, differs⟩ := refers_unlink isRow batching.known batching.known isSeen
    rcases List.mem_cons.mp (batching.whole _ rfl at' refers before) with rfl | later
    · exact absurd ⟨rfl, rfl, rfl⟩ differs
    · exact later

theorem Batching.remove (batching : Batching registry committed own journal field target (.unlink [] true)) :
    Batching registry committed own ((journal.lock (field.fieldId, target) .update).write (field.fieldId, target) none) field target .done where
  known := batching.known
  shrinking := batching.shrinking
  keeps := batching.keeps
  journaled key written := by
    rw [Session.write_written] at written
    split at written
    next same =>
      exact ⟨same, fun record refers isSeen => absurd (batching.whole _ rfl record refers isSeen) List.not_mem_nil⟩
    next =>
      rw [Session.lock_written, batching.unlinks (fun never => by cases never)] at written
      exact absurd rfl written
  started never := by cases never
  unlinks never := absurd rfl never
  whole _ never := by cases never

end Batches

section Deletes
variable {Tx Id : Type} {registry : Registry} {state : State Tx Id} {tx : Tx} {name : Text} {target : Id}

theorem clear_of_elsewhere (invariant : Invariant registry state) {row : Row Id} (isRow : state.rows.committed target = some row)
    {field : ReferenceField} (member : field ∈ registry.fields) (differs : row.entity ≠ field.target) (record : Id) :
    ¬Refers state.rows.committed field target record := by
  intro refers
  rcases invariant.pointing field member record target refers with ⟨found, isFound, isTarget⟩ | journaled
  · rw [isRow] at isFound
    cases isFound
    exact differs isTarget
  · have gone := invariant.gone target (.inl ⟨field, member, by rw [journaled]; exact Option.some_ne_none _⟩)
    rw [gone.1] at isRow
    cases isRow

theorem clear_of_guarding (invariant : Invariant registry state) (base : registry.baseOf name = none)
    (guarding : Guarding registry state.rows.committed (state.rows.sessions tx) (state.journal.sessions tx) name target (.source [])) :
    ∀ field ∈ registry.fields, Clear state.rows.committed (state.rows.sessions tx) (state.journal.sessions tx) target field := by
  intro field member
  obtain ⟨entry, isEntry, isName, isTarget⟩ := registry.allowed field member
  by_cases same : field.target = name
  · have named : field.entity ∈ (registry.referencedBy name).map Extensible.name := by
      refine List.mem_map.mpr ⟨entry, List.mem_filter.mpr ⟨isEntry, decide_eq_true (same ▸ isTarget)⟩, isName⟩
    rcases guarding.looked field member named with left | clear
    · exact absurd left List.not_mem_nil
    · exact clear
  · obtain ⟨row, isRow, inScope⟩ := guarding.row
    unfold Registry.inScope at inScope
    rw [base] at inScope
    exact .inl (clear_of_elsewhere invariant isRow member fun isOf => same (isOf.symm.trans inScope))

end Deletes

section Statements
variable {Tx Id : Type} {registry : Registry} {state next : State Tx Id} {tx : Tx}

structure Beside (tx : Tx) (state next : State Tx Id) : Prop where
  committed : next.rows.committed = state.rows.committed
  journaled : next.journal.committed = state.journal.committed
  session : ∀ other, other ≠ tx → next.rows.sessions other = state.rows.sessions other
  journal : ∀ other, other ≠ tx → next.journal.sessions other = state.journal.sessions other
  job : ∀ other, other ≠ tx → next.jobs other = state.jobs other

theorem Beside.refl (tx : Tx) (state : State Tx Id) : Beside tx state state := ⟨rfl, rfl, fun _ _ => rfl, fun _ _ => rfl, fun _ _ => rfl⟩

theorem not_awaited_of_written (invariant : Invariant registry state) {id : Id} {row : Row Id}
    (written : (state.rows.sessions tx).written id = some (some row)) : ¬Awaited registry state id := fun awaited =>
  (invariant.gone id awaited).2 tx row written

theorem not_awaited_of_view (invariant : Invariant registry state) {id : Id} (isSeen : state.rows.view tx id ≠ none) :
    ¬Awaited registry state id := by
  intro awaited
  obtain ⟨absent, unwritten⟩ := invariant.gone id awaited
  refine isSeen ?_
  cases written : (state.rows.sessions tx).written id with
  | none => exact (Store.view_of_unwritten written).trans absent
  | some found =>
    cases found with
    | none => exact Store.view_of_written written
    | some row => exact absurd written (unwritten tx row)

theorem Invariant.beside (invariant : Invariant registry state) (beside : Beside tx state next) (rows : next.rows.Consistent)
    (journal : next.journal.Consistent)
    (own : JobHolds registry state.rows.committed (next.rows.sessions tx) (next.journal.sessions tx) (next.jobs tx))
    (working : ∀ field id progress, next.jobs tx = some (.batch field id progress) → Working (next.journal.sessions tx) field id progress →
      Awaited registry state id)
    (written : ∀ id row, (next.rows.sessions tx).written id = some (some row) → ¬Awaited registry state id) : Invariant registry next where
  rows := rows
  journal := journal
  pointing := by
    unfold Pointing
    rw [beside.committed, beside.journaled]
    exact invariant.pointing
  gone id awaited := by
    have before : Awaited registry state id := by
      rcases awaited with ⟨field, member, journaled⟩ | ⟨other, field, progress, isJob, isWorking⟩
      · exact .inl ⟨field, member, beside.journaled ▸ journaled⟩
      · by_cases same : other = tx
        · subst same
          exact working field id progress isJob isWorking
        · rw [beside.job other same] at isJob
          rw [beside.journal other same] at isWorking
          exact .inr ⟨other, field, progress, isJob, isWorking⟩
    obtain ⟨absent, unwritten⟩ := invariant.gone id before
    refine ⟨beside.committed ▸ absent, fun other row isWritten => ?_⟩
    by_cases same : other = tx
    · subst same
      exact written id row isWritten before
    · rw [beside.session other same] at isWritten
      exact unwritten other row isWritten
  jobs other := by
    rw [beside.committed]
    by_cases same : other = tx
    · exact same ▸ own
    · rw [beside.session other same, beside.journal other same, beside.job other same]
      exact invariant.jobs other

theorem not_awaited_of_write [DecidableEq Id] (invariant : Invariant registry state) {id at' : Id} {written : Option (Row Id)} {row : Row Id}
    {strength : Strength} (fresh : ¬Awaited registry state id)
    (isWritten : (((state.rows.sessions tx).lock id strength).write id written).written at' = some (some row)) :
    ¬Awaited registry state at' := by
  rw [Session.write_written] at isWritten
  split at isWritten
  next same => exact same ▸ fresh
  next => exact not_awaited_of_written invariant isWritten

variable [DecidableEq Tx]

theorem Beside.become (beside : Beside tx state next) (job : Job Id) : Beside tx state (next.become tx job) :=
  { beside with job := fun other different => (Function.update_of_ne different _ _).trans (beside.job other different) }

theorem Beside.spend (beside : Beside tx state next) (budget : List (Text × Id)) : Beside tx state (next.spend tx budget) :=
  { beside with }

@[simp] theorem become_job (job : Job Id) : (state.become tx job).jobs tx = some job := Function.update_self _ _ _

@[simp] theorem become_rows (job : Job Id) : (state.become tx job).rows = state.rows := rfl

@[simp] theorem become_journal (job : Job Id) : (state.become tx job).journal = state.journal := rfl

variable [DecidableEq Id]

theorem Beside.lockRow (beside : Beside tx state next) (id : Id) (strength : Strength) : Beside tx state (next.lockRow tx id strength) :=
  { beside with session := fun other different => (Store.lock_session different).trans (beside.session other different) }

theorem Beside.writeRow (beside : Beside tx state next) (id : Id) (row : Option (Row Id)) : Beside tx state (next.writeRow tx id row) :=
  { beside with session := fun other different => (Store.write_session different).trans (beside.session other different) }

theorem Beside.setJournal (beside : Beside tx state next) (key : Text × Id) (row : Option Unit) : Beside tx state (next.setJournal tx key row) :=
  { beside with
    journal := fun other different =>
      ((Store.write_session different).trans (Store.lock_session different)).trans (beside.journal other different) }

@[simp] theorem lockRow_session (id : Id) (strength : Strength) :
    (state.lockRow tx id strength).rows.sessions tx = (state.rows.sessions tx).lock id strength := Store.lock_own

@[simp] theorem writeRow_session (id : Id) (row : Option (Row Id)) :
    (state.writeRow tx id row).rows.sessions tx = (state.rows.sessions tx).write id row := Store.write_own

@[simp] theorem lockRow_journal (id : Id) (strength : Strength) : (state.lockRow tx id strength).journal = state.journal := rfl

@[simp] theorem setJournal_session (key : Text × Id) (row : Option Unit) :
    (state.setJournal tx key row).journal.sessions tx = ((state.journal.sessions tx).lock key .update).write key row := by
  unfold State.setJournal
  rw [Store.write_own, Store.lock_own]

theorem rows_of_lock_write (invariant : Invariant registry state) {id : Id} {strength : Strength} {row : Option (Row Id)}
    (grants : state.rows.Grants tx id strength) (writes : strength = .noKeyUpdate ∨ strength = .update)
    (removes : row = none → strength = .update) :
    ((state.lockRow tx id strength).writeRow tx id row).rows.Consistent := by
  have holds : (state.rows.lock tx id strength).Holds tx id strength := Store.lock_holds.mpr (.inr ⟨rfl, rfl, rfl⟩)
  refine (invariant.rows.lock grants).write ?_ fun isNone => removes isNone ▸ holds
  rcases writes with rfl | rfl
  · exact .inl holds
  · exact .inr holds

theorem journal_of_set (invariant : Invariant registry state) {key : Text × Id} {row : Option Unit}
    (grants : state.journal.Grants tx key .update) : (state.setJournal tx key row).journal.Consistent := by
  have holds : (state.journal.lock tx key .update).Holds tx key .update := Store.lock_holds.mpr (.inr ⟨rfl, rfl, rfl⟩)
  exact (invariant.journal.lock grants).write (.inr holds) fun _ => holds

end Statements

section Steps
variable {Tx Id : Type} [DecidableEq Tx] {registry : Registry} {state next : State Tx Id} {tx : Tx}

theorem Invariant.become (invariant : Invariant registry state) {job : Job Id} (noBatch : ∀ field id progress, job ≠ .batch field id progress)
    (own : JobHolds registry state.rows.committed (state.rows.sessions tx) (state.journal.sessions tx) (some job)) :
    Invariant registry (state.become tx job) := by
  refine invariant.beside ((Beside.refl tx state).become job) invariant.rows invariant.journal ?_ ?_ ?_
  · rw [become_job]
    exact own
  · intro field id progress isJob
    rw [become_job] at isJob
    exact absurd (Option.some.inj isJob) (noBatch field id progress)
  · exact fun id row => not_awaited_of_written invariant

variable [DecidableEq Id]

theorem Invariant.write (invariant : Invariant registry state) {checked : List (ReferenceField × Id)} (isJob : state.jobs tx = some (.write checked))
    (taken : WriteStep registry state tx checked next) : Invariant registry next := by
  have writing : Writing registry state.rows.committed (state.rows.sessions tx) (state.journal.sessions tx) checked := by
    have holds := invariant.jobs tx
    rw [isJob] at holds
    exact holds
  have noBatch : ∀ {job : Option (Job Id)} {listed : List (ReferenceField × Id)}, job = some (.write listed) →
      ∀ field id progress, job = some (.batch field id progress) → Working (state.journal.sessions tx) field id progress →
        Awaited registry state id := by
    intro job listed isWrite field id progress isBatch
    rw [isWrite] at isBatch
    cases isBatch
  cases taken with
  | @hold record strength _ present grants =>
    refine invariant.beside ((Beside.refl tx state).lockRow record strength) (invariant.rows.lock grants) invariant.journal ?_ (noBatch isJob) ?_
    · rw [lockRow_session, show (state.lockRow tx record strength).jobs tx = _ from isJob]
      exact writing.lock
    · rw [lockRow_session]
      exact fun id row => not_awaited_of_written invariant
  | @assertReferencesReadable field id row member isRow isTarget grants =>
    refine invariant.beside (((Beside.refl tx state).lockRow id .keyShare).become _) (invariant.rows.lock grants) invariant.journal ?_
      (noBatch (become_job _)) ?_
    · rw [become_job, become_rows, lockRow_session]
      exact writing.check isRow isTarget
    · rw [become_rows, lockRow_session]
      exact fun id row => not_awaited_of_written invariant
  | @insert record row fresh grants values =>
    have notAwaited : ¬Awaited registry state record := by
      rintro (⟨field, member, journaled⟩ | ⟨other, field, progress, isBatch, -⟩)
      · exact journaled (fresh.unjournaled field member)
      · exact fresh.unnamed other field progress isBatch
    refine invariant.beside (((Beside.refl tx state).lockRow record .update).writeRow record (some row))
      (rows_of_lock_write invariant grants (by decide) (fun _ => rfl)) invariant.journal ?_ (noBatch isJob) ?_
    · rw [writeRow_session, lockRow_session, show ((state.lockRow tx record .update).writeRow tx record (some row)).jobs tx = _ from isJob]
      refine writing.lock.write ?_ fun field member ofEntity id isValue => .inr (values field member ofEntity id isValue)
      rintro before (isSeen | isBefore)
      · have absent : seen state.rows.committed (state.rows.sessions tx) record = none :=
          (seen_of_unwritten (fresh.unwritten tx)).trans fresh.absent
        cases absent.symm.trans isSeen
      · rw [fresh.absent] at isBefore
        cases isBefore
    · rw [writeRow_session, lockRow_session]
      exact fun id row => not_awaited_of_write invariant notAwaited
  | @store record before after owns isBefore same subtype values =>
    have present : state.rows.view tx record ≠ none := by
      rw [isBefore]
      exact Option.some_ne_none _
    refine invariant.beside ((Beside.refl tx state).writeRow record (some after))
      (invariant.rows.write owns fun never => by cases never) invariant.journal ?_ (noBatch isJob) ?_
    · rw [writeRow_session, show (state.writeRow tx record (some after)).jobs tx = _ from isJob]
      exact writing.store isBefore same values
    · rw [writeRow_session]
      intro id row isWritten
      rw [Session.write_written] at isWritten
      split at isWritten
      next sameId => exact sameId ▸ not_awaited_of_view invariant present
      next => exact not_awaited_of_written invariant isWritten

theorem Invariant.remove (invariant : Invariant registry state) {name : Text} {target : Id} {progress : Removal Id}
    (isJob : state.jobs tx = some (.remove name target progress)) (taken : RemoveStep registry state tx name target progress next) :
    Invariant registry next := by
  have holds := invariant.jobs tx
  rw [isJob] at holds
  have noBatch : ∀ {job : Option (Job Id)} {journal : Session (Text × Id) Unit} {done : Removal Id}, job = some (.remove name target done) →
      ∀ field id progress, job = some (.batch field id progress) → Working journal field id progress → Awaited registry state id := by
    intro job journal done isRemove field id progress isBatch
    rw [isRemove] at isBatch
    cases isBatch
  have goes : ∀ {after : Removal Id}, JobHolds registry state.rows.committed (state.rows.sessions tx) (state.journal.sessions tx)
      (some (.remove name target after)) → Invariant registry (state.become tx (.remove name target after)) :=
    fun own => invariant.become (fun _ _ _ never => by cases never) own
  cases taken with
  | @fetch row isRow inScope grants =>
    obtain ⟨idle, quiet⟩ := holds
    refine invariant.beside (((Beside.refl tx state).lockRow target .update).become _) (invariant.rows.lock grants) invariant.journal ?_
      (noBatch (become_job _)) ?_
    · rw [Store.view_idle idle] at isRow
      rw [become_job, become_rows, lockRow_session, become_journal, lockRow_journal, idle, quiet]
      exact guarding_fetch isRow inScope
    · rw [become_rows, lockRow_session]
      exact fun id row => not_awaited_of_written invariant
  | miss => exact goes holds
  | scan isFound => exact goes (Guarding.scan holds isFound)
  | nextSource => exact goes (Guarding.nextSource holds)
  | nextField => exact goes (Guarding.nextField holds)
  | skip unseen => exact goes (Guarding.skip holds unseen)
  | @withinBudget entry field found rest records budget nulls lists within =>
    rw [take_of_withinBudget lists.once within]
    have listed : Guarding registry state.rows.committed (state.rows.sessions tx) (state.journal.sessions tx) name target
        (.unlink entry field records found rest) := Guarding.withinBudget holds nulls fun record => (lists.all record).mpr
    refine invariant.beside (((Beside.refl tx state).spend budget).become _) invariant.rows invariant.journal ?_ (noBatch (become_job _)) ?_
    · rw [become_job]
      exact listed
    · exact fun id row => not_awaited_of_written invariant
  | @journalRecompute entry field found rest records nulls lists none grants =>
    refine invariant.beside (((Beside.refl tx state).setJournal _ _).become _) invariant.rows (journal_of_set invariant grants) ?_
      (noBatch (become_job _)) ?_
    · rw [become_job, become_journal, setJournal_session]
      exact Guarding.journalRecompute holds nulls
    · exact fun id row => not_awaited_of_written invariant
  | @unlink entry field record records found rest row grants isRow =>
    have present : state.rows.view tx record ≠ none := by
      rw [isRow]
      exact Option.some_ne_none _
    refine invariant.beside ((((Beside.refl tx state).lockRow record .noKeyUpdate).writeRow record _).become _)
      (rows_of_lock_write invariant grants (by decide) fun never => by cases never) invariant.journal ?_ (noBatch (become_job _)) ?_
    · rw [become_job, become_rows, writeRow_session, lockRow_session]
      exact Guarding.unlink holds isRow
    · rw [become_rows, writeRow_session, lockRow_session]
      exact fun id row => not_awaited_of_write invariant (not_awaited_of_view invariant present)

theorem Invariant.batch (invariant : Invariant registry state) {field : ReferenceField} {target : Id} {progress : Batch Id}
    (isJob : state.jobs tx = some (.batch field target progress)) (taken : BatchStep state tx field target progress next) :
    Invariant registry next := by
  have batching : Batching registry state.rows.committed (state.rows.sessions tx) (state.journal.sessions tx) field target progress := by
    have holds := invariant.jobs tx
    rw [isJob] at holds
    exact holds
  have goes : ∀ {after : Batch Id}, Batching registry state.rows.committed (state.rows.sessions tx) (state.journal.sessions tx) field target after →
      (Working (state.journal.sessions tx) field target after → Awaited registry state target) →
      Invariant registry (state.become tx (.batch field target after)) := by
    intro after own working
    refine invariant.beside ((Beside.refl tx state).become _) invariant.rows invariant.journal ?_ ?_ ?_
    · rw [become_job]
      exact own
    · intro other id progress isBatch
      rw [become_job] at isBatch
      cases isBatch
      exact working
    · exact fun id row => not_awaited_of_written invariant
  have unfinished : ∀ {records : List Id} {whole : Bool}, progress = .unlink records whole → Awaited registry state target := by
    intro records whole isProgress
    exact .inr ⟨tx, field, progress, isJob, by rw [isProgress]; trivial⟩
  have quiet : progress ≠ .done → ¬Working (state.journal.sessions tx) field target .done := by
    intro differs working
    have idle := batching.unlinks differs
    exact working (by rw [idle]; rfl)
  cases taken with
  | gone =>
    exact goes (batching.move (fun never => by cases never) (batching.unlinks fun never => by cases never) fun _ never => by cases never)
      fun working => absurd working (quiet fun never => by cases never)
  | @referringRecords records size isOpen lists =>
    refine goes (batching.referringRecords lists) fun _ => .inl ⟨field, batching.known, ?_⟩
    rw [Store.view_idle (batching.unlinks fun never => by cases never)] at isOpen
    rw [isOpen]
    exact Option.some_ne_none _
  | skip unseen => exact goes (batching.skip unseen) fun _ => unfinished rfl
  | keep =>
    exact goes (batching.move (fun never => by cases never) (batching.unlinks fun never => by cases never) fun _ never => by cases never)
      fun working => absurd working (quiet fun never => by cases never)
  | @unlink record records whole row grants isRow =>
    have present : state.rows.view tx record ≠ none := by
      rw [isRow]
      exact Option.some_ne_none _
    refine invariant.beside ((((Beside.refl tx state).lockRow record .noKeyUpdate).writeRow record _).become _)
      (rows_of_lock_write invariant grants (by decide) fun never => by cases never) invariant.journal ?_ ?_ ?_
    · rw [become_job, become_rows, writeRow_session, lockRow_session]
      exact batching.unlink isRow
    · intro other id progress isBatch _
      rw [become_job] at isBatch
      cases isBatch
      exact unfinished rfl
    · rw [become_rows, writeRow_session, lockRow_session]
      exact fun id row => not_awaited_of_write invariant (not_awaited_of_view invariant present)
  | remove isOpen grants =>
    refine invariant.beside (((Beside.refl tx state).setJournal _ _).become _) invariant.rows (journal_of_set invariant grants) ?_ ?_ ?_
    · rw [become_job, become_journal, setJournal_session]
      exact batching.remove
    · intro other id progress isBatch _
      rw [become_job] at isBatch
      cases isBatch
      exact unfinished rfl
    · exact fun id row => not_awaited_of_written invariant

end Steps

section Runs
variable {Tx Id : Type}

/-- A delete that looks for references, or that needs to look for none. A subtype's name is the
target of no field, and where the locked read found no row the guard is passed by. -/
def Watched (registry : Registry) (state : State Tx Id) : Action Tx → Prop
  | .delete tx => ∀ name target progress, state.jobs tx = some (.remove name target progress) →
      registry.baseOf name = none ∧ progress ≠ .unseen ∨ ∀ field ∈ registry.fields, ∀ record, ¬Refers state.rows.committed field target record
  | _ => True

variable {registry : Registry} {state next : State Tx Id} {tx : Tx}

theorem removed_of_finished {job : Job Id} (invariant : Invariant registry state) (isJob : state.jobs tx = some job) (finished : job.finished = true)
    {record : Id} (written : (state.rows.sessions tx).written record = some none) :
    Deleted registry state.rows.committed (state.rows.sessions tx) (state.journal.sessions tx) record := by
  have holds := invariant.jobs tx
  rw [isJob] at holds
  match job, finished, holds with
  | .write _, _, writing => exact absurd written (Writing.keeps writing record)
  | .remove _ _ .unseen, _, ⟨idle, _⟩ =>
    rw [idle] at written
    cases written
  | .remove _ target .deleted, _, deleted =>
    obtain rfl := Deleted.only deleted record written
    exact deleted
  | .batch _ _ .done, _, batching => exact absurd written (Batching.keeps batching record)

/-- What a finished job has done to the journal: rows a delete has added, or the one a batch has worked off. -/
theorem journaled_of_finished {job : Job Id} (invariant : Invariant registry state) (isJob : state.jobs tx = some job)
    (finished : job.finished = true) {key : Text × Id} (written : (state.journal.sessions tx).written key ≠ none) :
    ((state.journal.sessions tx).written key = some (some ()) ∧
      Deleted registry state.rows.committed (state.rows.sessions tx) (state.journal.sessions tx) key.2) ∨
    ∃ field, state.jobs tx = some (.batch field key.2 .done) ∧ key = (field.fieldId, key.2) ∧
      Batching registry state.rows.committed (state.rows.sessions tx) (state.journal.sessions tx) field key.2 .done := by
  have holds := invariant.jobs tx
  rw [isJob] at holds
  match job, finished, holds with
  | .write _, _, writing =>
    rw [Writing.quiet writing] at written
    exact absurd rfl written
  | .remove _ _ .unseen, _, ⟨_, quiet⟩ =>
    rw [quiet] at written
    exact absurd rfl written
  | .remove _ target .deleted, _, deleted =>
    obtain ⟨rfl, isOpen⟩ := Deleted.journaled deleted key written
    exact .inl ⟨isOpen, deleted⟩
  | .batch field target .done, _, batching =>
    obtain ⟨rfl, -⟩ := Batching.journaled batching key written
    exact .inr ⟨field, isJob, rfl, batching⟩

theorem invariant_empty (registry : Registry) : Invariant registry (State.empty : State Tx Id) where
  rows := .idle _
  journal := .idle _
  pointing field _ record id refers := by
    obtain ⟨row, isRow, -⟩ := refers
    cases isRow
  gone id _ := ⟨rfl, fun _ _ never => by cases never⟩
  jobs tx := ⟨rfl, rfl⟩

variable [DecidableEq Tx]

theorem Invariant.delete [DecidableEq Id] (invariant : Invariant registry state) {name : Text} {target : Id} {progress : Removal Id}
    (watched : Watched registry state (.delete tx)) (isJob : state.jobs tx = some (.remove name target progress))
    (passed : progress = .source [] ∨ progress = .unseen) (grants : state.rows.Grants tx target .update) :
    Invariant registry (((state.lockRow tx target .update).writeRow tx target none).become tx (.remove name target .deleted)) := by
  have holds := invariant.jobs tx
  rw [isJob] at holds
  have before : Shrinking registry state.rows.committed (state.rows.sessions tx) true ∧
      (∀ record, (state.rows.sessions tx).written record ≠ some none) ∧
      (∀ key, (state.journal.sessions tx).written key ≠ none → key.2 = target ∧ (state.journal.sessions tx).written key = some (some ())) ∧
      ∀ field ∈ registry.fields, Clear state.rows.committed (state.rows.sessions tx) (state.journal.sessions tx) target field := by
    rcases passed with rfl | rfl
    · have guarding : Guarding registry state.rows.committed (state.rows.sessions tx) (state.journal.sessions tx) name target (.source []) := holds
      refine ⟨guarding.shrinking, guarding.keeps, guarding.journaled, ?_⟩
      rcases watched name target _ isJob with ⟨base, -⟩ | none
      · exact clear_of_guarding invariant base guarding
      · exact fun field member => .inl (none field member)
    · obtain ⟨idle, quiet⟩ := holds
      rcases watched name target _ isJob with ⟨-, differs⟩ | none
      · exact absurd rfl differs
      · rw [idle, quiet]
        exact ⟨shrinking_idle, fun _ => Option.some_ne_none _ ∘ Eq.symm, fun _ written => absurd rfl written,
          fun field member => .inl (none field member)⟩
  obtain ⟨shrinking, keeps, journaled, clear⟩ := before
  refine invariant.beside ((((Beside.refl tx state).lockRow target .update).writeRow target none).become _)
    (rows_of_lock_write invariant grants (by decide) fun _ => rfl) invariant.journal ?_ ?_ ?_
  · rw [become_job, become_rows, writeRow_session, lockRow_session]
    exact {
      locked := Session.mem_lock.mpr (.inr ⟨rfl, rfl⟩)
      written := by rw [Session.write_written, if_pos rfl]
      shrinking := fun record found written => by
        rw [Session.write_written] at written
        split at written
        · cases written
        · exact shrinking record found written
      only := fun record written => by
        rw [Session.write_written] at written
        split at written
        next same => exact same
        next => exact absurd written (keeps record)
      journaled := journaled
      clear := fun field member => by
        rcases clear field member with none | ⟨nulls, unlinked | toJournal⟩
        · exact .inl none
        · refine .inr ⟨nulls, .inl fun record refers isSeen => ?_⟩
          obtain ⟨found, isFound, ofEntity, isValue⟩ := isSeen
          rw [seen_write] at isFound
          split at isFound
          · cases isFound
          · exact unlinked record refers ⟨found, isFound, ofEntity, isValue⟩
        · exact .inr ⟨nulls, .inr toJournal⟩ }
  · intro field id progress isBatch
    rw [become_job] at isBatch
    cases isBatch
  · rw [become_rows, writeRow_session, lockRow_session]
    intro id row isWritten
    rw [Session.write_written] at isWritten
    split at isWritten
    · cases isWritten
    · exact not_awaited_of_written invariant isWritten

theorem Invariant.abort (invariant : Invariant registry state) : Invariant registry (state.rollback tx) := by
  have own : (state.rollback tx).jobs tx = none := Function.update_self _ _ _
  have idle : (state.rollback tx).rows.sessions tx = .idle := Store.rollback_own
  refine invariant.beside ⟨rfl, rfl, fun _ => Store.rollback_session, fun _ => Store.rollback_session, fun _ different =>
    Function.update_of_ne different _ _⟩ invariant.rows.rollback invariant.journal.rollback ?_ ?_ ?_
  · rw [own]
    exact ⟨idle, Store.rollback_own⟩
  · intro field id progress isBatch
    rw [own] at isBatch
    cases isBatch
  · rw [idle]
    intro id row isWritten
    cases isWritten

theorem Invariant.commit (invariant : Invariant registry state) {job : Job Id} (isJob : state.jobs tx = some job)
    (finished : job.finished = true) : Invariant registry (state.commit tx) where
  rows := invariant.rows.commit
  journal := invariant.journal.commit
  pointing field member record id refers := by
    have isView : seen state.rows.committed (state.rows.sessions tx) = state.rows.view tx := rfl
    rcases refers_or_shared (invariant.jobs tx) member refers with before | ⟨-, row, isRow, isTarget⟩
    · rcases invariant.pointing field member record id before with ⟨row, isRow, isTarget⟩ | journaled
      · cases written : (state.rows.sessions tx).written id with
        | none => exact .inl ⟨row, (Store.view_of_unwritten written).trans isRow, isTarget⟩
        | some found =>
          cases found with
          | some after => exact .inl ⟨after, Store.view_of_written written, (entity_kept (invariant.jobs tx) written isRow).trans isTarget⟩
          | none =>
            have deleted := removed_of_finished invariant isJob finished written
            rcases deleted.clear field member with none | ⟨-, unlinked | toJournal⟩
            · exact absurd before (none record)
            · exact absurd refers (unlinked record before)
            · exact .inr (Store.view_of_written toJournal)
      · cases written : (state.journal.sessions tx).written (field.fieldId, id) with
        | none => exact .inr ((Store.view_of_unwritten written).trans journaled)
        | some found =>
          have isWritten : (state.journal.sessions tx).written (field.fieldId, id) ≠ none := by
            rw [written]
            exact Option.some_ne_none _
          rcases journaled_of_finished invariant isJob finished isWritten with ⟨isOpen, -⟩ | ⟨other, -, isKey, batching⟩
          · exact .inr (Store.view_of_written isOpen)
          · obtain rfl := field_of_id registry batching.known member (Prod.mk.inj isKey).1
            exact absurd refers ((batching.journaled _ isWritten).2 record before)
    · exact .inl ⟨row, isRow, isTarget⟩
  gone id awaited := by
    have ofBatch : ∀ {field : ReferenceField} {progress : Batch Id}, state.jobs tx = some (.batch field id progress) →
        Working (state.journal.sessions tx) field id progress → Gone (state.commit tx) id := fun isBatch working =>
      (invariant.gone id (.inr ⟨tx, _, _, isBatch, working⟩)).commit
    rcases awaited with ⟨field, member, journaled⟩ | ⟨other, field, progress, isBatch, working⟩
    · by_cases unwritten : (state.journal.sessions tx).written (field.fieldId, id) = none
      · have before : state.journal.committed (field.fieldId, id) ≠ none := by
          rw [← Store.view_of_unwritten unwritten]
          exact journaled
        exact (invariant.gone id (.inl ⟨field, member, before⟩)).commit
      · rcases journaled_of_finished invariant isJob finished unwritten with ⟨-, deleted⟩ | ⟨other, isBatch, isKey, batching⟩
        · refine ⟨Store.view_of_written deleted.written, fun other row written => ?_⟩
          by_cases same : other = tx
          · rw [same, show (state.commit tx).rows.sessions tx = .idle from Store.commit_own] at written
            cases written
          · rw [show (state.commit tx).rows.sessions other = state.rows.sessions other from Store.commit_session same,
              invariant.rows.unwritten same (.inr deleted.locked)] at written
            cases written
        · obtain rfl := field_of_id registry batching.known member (Prod.mk.inj isKey).1
          exact ofBatch isBatch unwritten
    · by_cases same : other = tx
      · rw [same, show (state.commit tx).jobs tx = none from Function.update_self _ _ _] at isBatch
        cases isBatch
      · rw [show (state.commit tx).jobs other = state.jobs other from Function.update_of_ne same _ _] at isBatch
        rw [show (state.commit tx).journal.sessions other = state.journal.sessions other from Store.commit_session same] at working
        exact (invariant.gone id (.inr ⟨other, field, progress, isBatch, working⟩)).commit
  jobs other := by
    by_cases same : other = tx
    · rw [same, show (state.commit tx).jobs tx = none from Function.update_self _ _ _]
      exact ⟨Store.commit_own, Store.commit_own⟩
    · rw [show (state.commit tx).jobs other = state.jobs other from Function.update_of_ne same _ _,
        show (state.commit tx).rows.sessions other = state.rows.sessions other from Store.commit_session same,
        show (state.commit tx).journal.sessions other = state.journal.sessions other from Store.commit_session same]
      exact jobHolds_commit invariant same

theorem Invariant.step [DecidableEq Id] {action : Action Tx} (invariant : Invariant registry state)
    (taken : guarded (Watched registry) (Step registry) state action next) : Invariant registry next := by
  obtain ⟨watched, taken⟩ := taken
  have waiting : ∀ {tx : Tx}, state.jobs tx = none → state.rows.sessions tx = .idle ∧ state.journal.sessions tx = .idle := by
    intro tx isJob
    have holds := invariant.jobs tx
    rw [isJob] at holds
    exact holds
  cases taken with
  | beginWrite isJob =>
    obtain ⟨idle, quiet⟩ := waiting isJob
    refine invariant.become (fun _ _ _ never => by cases never) ?_
    rw [idle, quiet]
    exact writing_idle
  | beginRemove isJob => exact invariant.become (fun _ _ _ never => by cases never) (waiting isJob)
  | @beginBatch tx field target isJob member =>
    obtain ⟨idle, quiet⟩ := waiting isJob
    refine invariant.beside ((Beside.refl tx state).become _) invariant.rows invariant.journal ?_ ?_ fun id row => not_awaited_of_written invariant
    · rw [become_job, become_rows, become_journal, idle, quiet]
      exact batching_start member
    · intro other id progress isBatch working
      rw [become_job] at isBatch
      cases isBatch
      exact absurd working id
  | write isJob taken => exact invariant.write isJob taken
  | remove isJob taken => exact invariant.remove isJob taken
  | delete isJob passed isRow inScope grants => exact invariant.delete watched isJob passed grants
  | batch isJob taken => exact invariant.batch isJob taken
  | @spend tx budget =>
    refine invariant.beside ((Beside.refl tx state).spend budget) invariant.rows invariant.journal (invariant.jobs tx) ?_ fun id row =>
      not_awaited_of_written invariant
    exact fun field id progress isBatch working => .inr ⟨tx, field, progress, isBatch, working⟩
  | commit isJob finished => exact invariant.commit isJob finished
  | abort => exact invariant.abort

variable [DecidableEq Id] {actions : List (Action Tx)}

/-- Where the deletes look for references, each id that a record holds names a row or is journaled,
and what is deleted is named by no field that restricts. -/
theorem references_point (run : Run (guarded (Watched registry) (Step registry)) (State.empty : State Tx Id) actions state) :
    Pointing registry state ∧ ∀ tx name target, state.jobs tx = some (.remove name target .deleted) →
      ∀ field ∈ registry.fields, field.onDelete = .restrict → ∀ record, ¬Refers state.rows.committed field target record := by
  have invariant : Invariant registry state := run.invariant (Invariant registry) (invariant_empty registry) Invariant.step
  refine ⟨invariant.pointing, fun tx name target isJob field member restricts => ?_⟩
  have holds := invariant.jobs tx
  rw [isJob] at holds
  rcases Deleted.clear holds field member with none | ⟨nulls, -⟩
  · exact none
  · rw [restricts] at nulls
    cases nulls

end Runs

section Suppliers

/-- Nothing is open but one transaction. -/
structure Resting {Tx Id : Type} (state : State Tx Id) : Prop where
  rows : ∀ tx, state.rows.sessions tx = .idle
  journal : ∀ tx, state.journal.sessions tx = .idle
  jobs : ∀ tx, state.jobs tx = none

variable {Tx Id : Type} {registry : Registry} {state next : State Tx Id} {tx : Tx}

theorem Resting.grants (resting : Resting state) (beside : Beside tx state next) (key : Id) (strength : Strength) :
    next.rows.Grants tx key strength := by
  intro other different held holds
  unfold Store.Holds at holds
  rw [beside.session other different, resting.rows] at holds
  exact absurd holds (Set.notMem_empty held)

theorem Resting.fresh (resting : Resting state) (beside : Beside tx state next) {id : Id} {checked : List (ReferenceField × Id)}
    (isJob : next.jobs tx = some (.write checked)) (absent : next.rows.committed id = none)
    (unwritten : (next.rows.sessions tx).written id = none) (empty : ∀ key, next.journal.committed key = none) : Fresh registry next id where
  absent := absent
  unwritten other := by
    by_cases same : other = tx
    · exact same ▸ unwritten
    · rw [beside.session other same, resting.rows]
      rfl
  unjournaled field _ := empty _
  unnamed other field progress isBatch := by
    by_cases same : other = tx
    · rw [same, isJob] at isBatch
      cases isBatch
    · rw [beside.job other same, resting.jobs] at isBatch
      cases isBatch

theorem Resting.commit [DecidableEq Tx] (resting : Resting state) (beside : Beside tx state next) : Resting (next.commit tx) where
  rows other := by
    by_cases same : other = tx
    · exact same ▸ Store.commit_own
    · exact (Store.commit_session same).trans ((beside.session other same).trans (resting.rows other))
  journal other := by
    by_cases same : other = tx
    · exact same ▸ Store.commit_own
    · exact (Store.commit_session same).trans ((beside.journal other same).trans (resting.journal other))
  jobs other := by
    by_cases same : other = tx
    · exact same ▸ Function.update_self _ _ _
    · exact (Function.update_of_ne same _ _).trans ((beside.job other same).trans (resting.jobs other))

def approver : ReferenceField := ⟨js "approver", js "Task", js "Party", .restrict⟩

/-- Tasks are approved by parties, and a supplier is a party. -/
def supplierRegistry : Registry where
  extensible := [⟨js "Task", [js "Party"], 100⟩]
  baseOf name := if name = js "Supplier" then some (js "Party") else none
  bases := by decide +kernel
  fields := [approver]
  once := by decide +kernel
  allowed := by decide +kernel

def supplier : Row Nat := ⟨js "Party", some (js "Supplier"), fun _ => []⟩

def task : Row Nat := ⟨js "Task", none, fun _ => [0]⟩

def supplierInserted : State Nat Nat := ((State.empty.become 0 (.write [])).lockRow 0 0 .update).writeRow 0 0 (some supplier)

def supplierKept : State Nat Nat := supplierInserted.commit 0

def taskChecked : State Nat Nat :=
  ((supplierKept.become 1 (.write [])).lockRow 1 0 .keyShare).become 1 (.write [(approver, 0)])

def taskInserted : State Nat Nat := (taskChecked.lockRow 1 1 .update).writeRow 1 1 (some task)

def taskKept : State Nat Nat := taskInserted.commit 1

theorem resting_empty : Resting (State.empty : State Nat Nat) := ⟨fun _ => rfl, fun _ => rfl, fun _ => rfl⟩

theorem resting_supplierKept : Resting supplierKept :=
  resting_empty.commit ((((Beside.refl 0 _).become _).lockRow 0 .update).writeRow 0 _)

theorem resting_taskKept : Resting taskKept :=
  resting_supplierKept.commit ((((((Beside.refl 1 _).become _).lockRow 0 .keyShare).become _).lockRow 1 .update).writeRow 1 _)

theorem task_run : Run (guarded (Watched supplierRegistry) (Step supplierRegistry)) (State.empty : State Nat Nat)
    [.statement 0, .statement 0, .commit 0, .statement 1, .statement 1, .statement 1, .commit 1] taskKept := by
  have started : Beside 0 State.empty (State.empty.become 0 (.write []) : State Nat Nat) := (Beside.refl 0 _).become _
  have continued : Beside 1 supplierKept (supplierKept.become 1 (.write [])) := (Beside.refl 1 _).become _
  have checked : Beside 1 supplierKept taskChecked := (continued.lockRow 0 .keyShare).become _
  have insertSupplier : Step supplierRegistry (State.empty.become 0 (.write [])) (.statement 0) supplierInserted :=
    .write rfl (.insert (resting_empty.fresh started rfl rfl rfl fun _ => rfl) (resting_empty.grants started 0 .update) (by decide +kernel))
  have commitSupplier : Step supplierRegistry supplierInserted (.commit 0) supplierKept := .commit rfl rfl
  have isSupplier : (supplierKept.become 1 (.write [])).rows.view 1 0 = some supplier := rfl
  have check : Step supplierRegistry (supplierKept.become 1 (.write [])) (.statement 1) taskChecked :=
    .write rfl (.assertReferencesReadable (List.mem_singleton_self approver) isSupplier rfl
      (resting_supplierKept.grants continued 0 .keyShare))
  have insertTask : Step supplierRegistry taskChecked (.statement 1) taskInserted :=
    .write rfl (.insert (resting_supplierKept.fresh checked rfl rfl rfl fun _ => rfl) (resting_supplierKept.grants checked 1 .update)
      (by decide +kernel))
  have commitTask : Step supplierRegistry taskInserted (.commit 1) taskKept := .commit rfl rfl
  exact Run.cons ⟨trivial, .beginWrite rfl⟩ (.cons ⟨trivial, insertSupplier⟩ (.cons ⟨trivial, commitSupplier⟩
    (.cons ⟨trivial, .beginWrite rfl⟩ (.cons ⟨trivial, check⟩ (.cons ⟨trivial, insertTask⟩ (.cons ⟨trivial, commitTask⟩ .start))))))

theorem references_point_task : Pointing supplierRegistry taskKept := (references_point task_run).1

def guardPassed : State Nat Nat :=
  ((taskKept.become 2 (.remove (js "Supplier") 0 .start)).lockRow 2 0 .update).become 2 (.remove (js "Supplier") 0 (.source []))

def supplierDeleted : State Nat Nat :=
  ((guardPassed.lockRow 2 0 .update).writeRow 2 0 none).become 2 (.remove (js "Supplier") 0 .deleted)

/-- The task's approver is deleted as a supplier: the guard looks at no field. -/
theorem supplier_delete_dangles : ∃ actions, ∃ before after : State Nat Nat,
    Run (Step supplierRegistry) State.empty actions before ∧ before.jobs 2 = some (.remove (js "Supplier") 0 .deleted) ∧
      approver ∈ supplierRegistry.fields ∧ approver.onDelete = .restrict ∧ Refers before.rows.committed approver 0 1 ∧
      Step supplierRegistry before (.commit 2) after ∧ ¬Pointing supplierRegistry after := by
  have started : Beside 2 taskKept (taskKept.become 2 (.remove (js "Supplier") 0 .start)) := (Beside.refl 2 _).become _
  have passed : Beside 2 taskKept guardPassed := (started.lockRow 0 .update).become _
  have isScoped : supplierRegistry.inScope (js "Supplier") supplier := ⟨rfl, rfl⟩
  have isSupplier : (taskKept.become 2 (.remove (js "Supplier") 0 .start)).rows.view 2 0 = some supplier := rfl
  have begun : Step supplierRegistry taskKept (.statement 2) (taskKept.become 2 (.remove (js "Supplier") 0 .start)) := .beginRemove rfl
  have fetched : Step supplierRegistry (taskKept.become 2 (.remove (js "Supplier") 0 .start)) (.statement 2) guardPassed := by
    have taken := RemoveStep.fetch isSupplier isScoped (resting_taskKept.grants started 0 .update)
    have subtype : supplierRegistry.baseOf (js "Supplier") = some (js "Party") := rfl
    rw [Registry.referencedBy_subtype subtype] at taken
    exact .remove rfl taken
  have deleted : Step supplierRegistry guardPassed (.delete 2) supplierDeleted :=
    .delete rfl (.inl rfl) isSupplier isScoped (resting_taskKept.grants passed 0 .update)
  have run : Run (Step supplierRegistry) State.empty _ supplierDeleted :=
    ((task_run.mono And.right).append (.cons begun (.cons fetched (.cons deleted .start))))
  refine ⟨_, supplierDeleted, supplierDeleted.commit 2, run, rfl, List.mem_singleton_self _, rfl, ?_, .commit rfl rfl, ?_⟩
  · exact ⟨task, rfl, rfl, List.mem_singleton_self 0⟩
  · intro pointing
    rcases pointing approver (List.mem_singleton_self _) 1 0 ⟨task, rfl, rfl, List.mem_singleton_self 0⟩ with ⟨row, isRow, -⟩ | journaled
    · cases isRow
    · cases journaled

end Suppliers

end OpenShapeForge.Extensions.ReferenceTargets
