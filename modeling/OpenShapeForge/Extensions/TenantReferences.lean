import OpenShapeForge.Js.Text
import OpenShapeForge.Library.RowLocks

/-! Tenant references without a foreign key: the writes that set them
(assertReferencesReadable in apps/api/src/operations/entity/extensions/write.ts), the deletes
that look for them (enforceExtensionReferencesOnDelete in extensions/references.ts, called by
deleteGeneratedEntity and by a collection's remove), and the journal batches that take out what
a delete left (runRecomputeBatch in extensions/linked.ts). Each runs in a transaction of its
own, statement by statement, under row locks. -/

namespace OpenShapeForge.Extensions.TenantReferences
open Js Library.RowLocks

inductive OnDelete where
  | restrict | setNull
deriving DecidableEq

structure ReferenceField where
  fieldId : Text
  entity : Text
  target : Text
  onDelete : OnDelete
deriving DecidableEq

structure Extensible where
  name : Text
  targets : List Text
  syncFanOut : Nat
deriving DecidableEq

/-- The compiled registry, with the live reference fields of a tenant. -/
structure Registry where
  extensible : List Extensible
  /-- The entity whose table a subtype shares. -/
  baseOf : Text → Option Text
  bases : ∀ entry ∈ extensible, ∀ target ∈ entry.targets, baseOf target = none
  fields : List ReferenceField
  once : (fields.map ReferenceField.fieldId).Nodup
  allowed : ∀ field ∈ fields, ∃ entry ∈ extensible, entry.name = field.entity ∧ field.target ∈ entry.targets

/-- A record: the entity whose table it is in, and the ids its reference fields hold. -/
structure Row (Id : Type) where
  entity : Text
  subtype : Option Text
  values : Text → List Id

namespace Registry

/-- The entities with fields that may name this one. -/
def referencedBy (registry : Registry) (target : Text) : List Extensible :=
  registry.extensible.filter fun entry => target ∈ entry.targets

/-- `subtypeScopeWhere`: a subtype's statements reach its own rows of the table it shares. -/
def inScope {Id : Type} (registry : Registry) (name : Text) (row : Row Id) : Prop :=
  match registry.baseOf name with
  | none => row.entity = name
  | some base => row.entity = base ∧ row.subtype = some name

theorem referencedBy_subtype {registry : Registry} {name base : Text} (subtype : registry.baseOf name = some base) :
    registry.referencedBy name = [] := by
  refine List.filter_eq_nil_iff.mpr fun entry member isTarget => ?_
  have isBase := registry.bases entry member name (of_decide_eq_true isTarget)
  rw [subtype] at isBase
  cases isBase

end Registry

/-- How far a delete is. -/
inductive Removal (Id : Type) where
  | start
  /-- The locked read found no row. -/
  | unseen
  | source (rest : List Extensible)
  | field (entry : Extensible) (found : List ReferenceField) (rest : List Extensible)
  | unlink (entry : Extensible) (field : ReferenceField) (records : List Id) (found : List ReferenceField) (rest : List Extensible)
  | deleted

/-- How far a journal batch is; `whole` when it found fewer records than it may take. -/
inductive Batch (Id : Type) where
  | start
  | unlink (records : List Id) (whole : Bool)
  | done

inductive Job (Id : Type) where
  /-- With what `assertReferencesReadable` has passed. -/
  | write (checked : List (ReferenceField × Id))
  | remove (name : Text) (target : Id) (progress : Removal Id)
  | batch (field : ReferenceField) (target : Id) (progress : Batch Id)

def Job.finished {Id : Type} : Job Id → Bool
  | write _ | remove _ _ .unseen | remove _ _ .deleted | batch _ _ .done => true
  | _ => false

structure State (Tx Id : Type) where
  rows : Store Tx Id (Row Id)
  /-- The open rows of `platform.extension_field_recomputes`, by field and target. -/
  journal : Store Tx (Text × Id) Unit
  jobs : Tx → Option (Job Id)
  budgets : Tx → List (Text × Id)

def State.empty {Tx Id : Type} : State Tx Id where
  rows := ⟨fun _ => none, fun _ => .idle⟩
  journal := ⟨fun _ => none, fun _ => .idle⟩
  jobs _ := none
  budgets _ := []

inductive Action (Tx : Type) where
  | statement (tx : Tx)
  | delete (tx : Tx)
  | commit (tx : Tx)
  | abort (tx : Tx)

section Statements
variable {Tx Id : Type} [DecidableEq Tx] [DecidableEq Id]

def Refers (rows : Id → Option (Row Id)) (field : ReferenceField) (id record : Id) : Prop :=
  ∃ row, rows record = some row ∧ row.entity = field.entity ∧ id ∈ row.values field.fieldId

/-- What a scan of the index answers. -/
structure Lists (rows : Id → Option (Row Id)) (field : ReferenceField) (id : Id) (records : List Id) : Prop where
  once : records.Nodup
  all : ∀ record, record ∈ records ↔ Refers rows field id record

def unlink (field : ReferenceField) (target : Id) (row : Row Id) : Row Id :=
  { row with values := Function.update row.values field.fieldId ((row.values field.fieldId).filter fun id => id ≠ target) }

def withinBudget (budget : List (Text × Id)) (entry : Extensible) (records : List Id) : Option (List (Text × Id)) :=
  let taken := (budget ++ records.map fun id => (entry.name, id)).dedup
  if taken.length > entry.syncFanOut then none else some taken

/-- `gen_random_uuid`: an id that no row has, no journal row names and no batch works on. -/
structure Fresh (registry : Registry) (state : State Tx Id) (id : Id) : Prop where
  absent : state.rows.committed id = none
  unwritten : ∀ tx, (state.rows.sessions tx).written id = none
  unjournaled : ∀ field ∈ registry.fields, state.journal.committed (field.fieldId, id) = none
  unnamed : ∀ tx field progress, state.jobs tx ≠ some (.batch field id progress)

namespace State

def become (state : State Tx Id) (tx : Tx) (job : Job Id) : State Tx Id := { state with jobs := Function.update state.jobs tx (some job) }

def lockRow (state : State Tx Id) (tx : Tx) (id : Id) (strength : Strength) : State Tx Id :=
  { state with rows := state.rows.lock tx id strength }

def writeRow (state : State Tx Id) (tx : Tx) (id : Id) (row : Option (Row Id)) : State Tx Id :=
  { state with rows := state.rows.write tx id row }

/-- `journalRecompute`, or the row that `runRecomputeBatch` removes: under its lock. -/
def setJournal (state : State Tx Id) (tx : Tx) (key : Text × Id) (row : Option Unit) : State Tx Id :=
  { state with journal := (state.journal.lock tx key .update).write tx key row }

def spend (state : State Tx Id) (tx : Tx) (budget : List (Text × Id)) : State Tx Id :=
  { state with budgets := Function.update state.budgets tx budget }

def commit (state : State Tx Id) (tx : Tx) : State Tx Id where
  rows := state.rows.commit tx
  journal := state.journal.commit tx
  jobs := Function.update state.jobs tx none
  budgets := Function.update state.budgets tx []

def rollback (state : State Tx Id) (tx : Tx) : State Tx Id where
  rows := state.rows.rollback tx
  journal := state.journal.rollback tx
  jobs := Function.update state.jobs tx none
  budgets := Function.update state.budgets tx []

end State

/-- The fields of one entity that name the target, as the first scan of its index finds them. -/
def Found (registry : Registry) (rows : Id → Option (Row Id)) (entry : Extensible) (target : Id) (found : List ReferenceField) : Prop :=
  ∀ field, field ∈ found ↔ field ∈ registry.fields ∧ field.entity = entry.name ∧ ∃ record, Refers rows field target record

/-- A write of a record. What it holds, inserts and stores, in any order the locks allow. -/
inductive WriteStep (registry : Registry) (state : State Tx Id) (tx : Tx) (checked : List (ReferenceField × Id)) : State Tx Id → Prop
  | hold {record : Id} {strength : Strength} : strength ≠ .keyShare → state.rows.view tx record ≠ none →
      state.rows.Grants tx record strength → WriteStep registry state tx checked (state.lockRow tx record strength)
  | assertReferencesReadable {field : ReferenceField} {id : Id} {row : Row Id} : field ∈ registry.fields →
      state.rows.view tx id = some row → row.entity = field.target → state.rows.Grants tx id .keyShare →
      WriteStep registry state tx checked ((state.lockRow tx id .keyShare).become tx (.write ((field, id) :: checked)))
  | insert {record : Id} {row : Row Id} : Fresh registry state record → state.rows.Grants tx record .update →
      (∀ field ∈ registry.fields, row.entity = field.entity → ∀ id ∈ row.values field.fieldId, (field, id) ∈ checked) →
      WriteStep registry state tx checked ((state.lockRow tx record .update).writeRow tx record (some row))
  /-- A field that is left as it is, is not checked again. -/
  | store {record : Id} {before after : Row Id} : state.rows.Owns tx record → state.rows.view tx record = some before →
      after.entity = before.entity → after.subtype = before.subtype →
      (∀ field ∈ registry.fields, after.entity = field.entity → after.values field.fieldId = before.values field.fieldId ∨
        ∀ id ∈ after.values field.fieldId, (field, id) ∈ checked) →
      WriteStep registry state tx checked (state.writeRow tx record (some after))

/-- A delete before its last statement: the locked read, and the guard that looks for references. -/
inductive RemoveStep (registry : Registry) (state : State Tx Id) (tx : Tx) (name : Text) (target : Id) : Removal Id → State Tx Id → Prop
  | fetch {row : Row Id} : state.rows.view tx target = some row → registry.inScope name row → state.rows.Grants tx target .update →
      RemoveStep registry state tx name target .start
        ((state.lockRow tx target .update).become tx (.remove name target (.source (registry.referencedBy name))))
  /-- The row is not there, or this session does not see it. -/
  | miss : RemoveStep registry state tx name target .start (state.become tx (.remove name target .unseen))
  | scan {entry : Extensible} {rest : List Extensible} {found : List ReferenceField} :
      Found registry (state.rows.view tx) entry target found →
      RemoveStep registry state tx name target (.source (entry :: rest)) (state.become tx (.remove name target (.field entry found rest)))
  | nextSource {entry : Extensible} {rest : List Extensible} :
      RemoveStep registry state tx name target (.field entry [] rest) (state.become tx (.remove name target (.source rest)))
  /-- A field that restricts refuses the delete; the others' records are unlinked while the budget lasts. -/
  | withinBudget {entry : Extensible} {field : ReferenceField} {found : List ReferenceField} {rest : List Extensible}
      {records : List Id} {budget : List (Text × Id)} : field.onDelete = .setNull → Lists (state.rows.view tx) field target records →
      withinBudget (state.budgets tx) entry (records.take (entry.syncFanOut + 1)) = some budget →
      RemoveStep registry state tx name target (.field entry (field :: found) rest)
        ((state.spend tx budget).become tx (.remove name target (.unlink entry field (records.take (entry.syncFanOut + 1)) found rest)))
  | journalRecompute {entry : Extensible} {field : ReferenceField} {found : List ReferenceField} {rest : List Extensible}
      {records : List Id} : field.onDelete = .setNull → Lists (state.rows.view tx) field target records →
      TenantReferences.withinBudget (state.budgets tx) entry (records.take (entry.syncFanOut + 1)) = none →
      state.journal.Grants tx (field.fieldId, target) .update →
      RemoveStep registry state tx name target (.field entry (field :: found) rest)
        ((state.setJournal tx (field.fieldId, target) (some ())).become tx (.remove name target (.field entry found rest)))
  | unlink {entry : Extensible} {field : ReferenceField} {record : Id} {records : List Id} {found : List ReferenceField}
      {rest : List Extensible} {row : Row Id} : state.rows.Grants tx record .noKeyUpdate → state.rows.view tx record = some row →
      RemoveStep registry state tx name target (.unlink entry field (record :: records) found rest)
        (((state.lockRow tx record .noKeyUpdate).writeRow tx record (some (TenantReferences.unlink field target row))).become tx
          (.remove name target (.unlink entry field records found rest)))
  | skip {entry : Extensible} {field : ReferenceField} {record : Id} {records : List Id} {found : List ReferenceField}
      {rest : List Extensible} : state.rows.view tx record = none →
      RemoveStep registry state tx name target (.unlink entry field (record :: records) found rest)
        (state.become tx (.remove name target (.unlink entry field records found rest)))
  | nextField {entry : Extensible} {field : ReferenceField} {found : List ReferenceField} {rest : List Extensible} :
      RemoveStep registry state tx name target (.unlink entry field [] found rest)
        (state.become tx (.remove name target (.field entry found rest)))

inductive BatchStep (state : State Tx Id) (tx : Tx) (field : ReferenceField) (target : Id) : Batch Id → State Tx Id → Prop
  | gone : BatchStep state tx field target .start (state.become tx (.batch field target .done))
  | referringRecords {records : List Id} {size : Nat} : state.journal.view tx (field.fieldId, target) = some () →
      Lists (state.rows.view tx) field target records →
      BatchStep state tx field target .start
        (state.become tx (.batch field target (.unlink (records.take size) (decide ((records.take size).length < size)))))
  | unlink {record : Id} {records : List Id} {whole : Bool} {row : Row Id} : state.rows.Grants tx record .noKeyUpdate →
      state.rows.view tx record = some row →
      BatchStep state tx field target (.unlink (record :: records) whole)
        (((state.lockRow tx record .noKeyUpdate).writeRow tx record (some (TenantReferences.unlink field target row))).become tx
          (.batch field target (.unlink records whole)))
  | skip {record : Id} {records : List Id} {whole : Bool} : state.rows.view tx record = none →
      BatchStep state tx field target (.unlink (record :: records) whole) (state.become tx (.batch field target (.unlink records whole)))
  /-- The row goes once a pass on its latest generation has ended. -/
  | remove : state.journal.view tx (field.fieldId, target) = some () → state.journal.Grants tx (field.fieldId, target) .update →
      BatchStep state tx field target (.unlink [] true)
        ((state.setJournal tx (field.fieldId, target) none).become tx (.batch field target .done))
  | keep {whole : Bool} : BatchStep state tx field target (.unlink [] whole) (state.become tx (.batch field target .done))

inductive Step (registry : Registry) (state : State Tx Id) : Action Tx → State Tx Id → Prop
  | beginWrite {tx : Tx} : state.jobs tx = none → Step registry state (.statement tx) (state.become tx (.write []))
  | beginRemove {tx : Tx} {name : Text} {target : Id} : state.jobs tx = none →
      Step registry state (.statement tx) (state.become tx (.remove name target .start))
  | beginBatch {tx : Tx} {field : ReferenceField} {target : Id} : state.jobs tx = none → field ∈ registry.fields →
      Step registry state (.statement tx) (state.become tx (.batch field target .start))
  | write {tx : Tx} {checked : List (ReferenceField × Id)} {next : State Tx Id} : state.jobs tx = some (.write checked) →
      WriteStep registry state tx checked next → Step registry state (.statement tx) next
  | remove {tx : Tx} {name : Text} {target : Id} {progress : Removal Id} {next : State Tx Id} :
      state.jobs tx = some (.remove name target progress) → RemoveStep registry state tx name target progress next →
      Step registry state (.statement tx) next
  /-- `delete from`: after the guard, or straight away where the locked read found no row. -/
  | delete {tx : Tx} {name : Text} {target : Id} {progress : Removal Id} {row : Row Id} :
      state.jobs tx = some (.remove name target progress) → progress = .source [] ∨ progress = .unseen →
      state.rows.view tx target = some row → registry.inScope name row → state.rows.Grants tx target .update →
      Step registry state (.delete tx) (((state.lockRow tx target .update).writeRow tx target none).become tx (.remove name target .deleted))
  | batch {tx : Tx} {field : ReferenceField} {target : Id} {progress : Batch Id} {next : State Tx Id} :
      state.jobs tx = some (.batch field target progress) → BatchStep state tx field target progress next →
      Step registry state (.statement tx) next
  /-- What a write sets in motion takes from the budget as well. -/
  | spend {tx : Tx} {budget : List (Text × Id)} : Step registry state (.statement tx) (state.spend tx budget)
  | commit {tx : Tx} {job : Job Id} : state.jobs tx = some job → job.finished = true → Step registry state (.commit tx) (state.commit tx)
  | abort {tx : Tx} : Step registry state (.abort tx) (state.rollback tx)

end Statements

end OpenShapeForge.Extensions.TenantReferences
