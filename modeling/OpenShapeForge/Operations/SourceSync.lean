import OpenShapeForge.Js.Json
import OpenShapeForge.Js.Utf8
import OpenShapeForge.Library.RowHistory
import OpenShapeForge.Library.Run

/-! Keeping records in step with a source system
(apps/api/src/operations/source-sync-operations.ts): what a call asks for, what becomes of the
stored records of its source, and the transactions it runs in. -/

namespace OpenShapeForge.Operations.SourceSync
open Js Library RowLocks

section Inputs

def maxRecords : Nat := 1000

structure Catalog where
  tableOf : Text → Option Text
  /-- Written through another Operation only. -/
  withheld : Text → Bool
  /-- The references of an entity by their field, each with the entity it leads to. -/
  relationships : Text → List (Text × Text)

structure Source where
  table : Text
  authority : Text
  administration : Text
deriving DecidableEq

/-- A source as a call names it. The readable name is written where it is given. -/
structure NamedSource where
  entity : Text
  source : Source
  administrationName : Option Text
deriving DecidableEq

/-- A record of a page, with the text of its externalId. -/
structure SyncRecord (N : Type) where
  externalId : Text
  members : Members N

inductive Call (N : Type) where
  | upsert (named : NamedSource) (records : List (SyncRecord N))
  | remove (named : NamedSource) (externalIds : List Text)

/-- What a transaction does: the sources it locks before anything else, and its calls. -/
structure Plan (N : Type) where
  locks : List Source
  calls : List (Call N)

variable {N : Type} [JsNumber N]

def field (members : Members N) (name : Text) : Value N := ((Value.object members).own? name).getD .undefined

/-- `text`: a string that is not blank. -/
def text (value : Value N) (name : Text) : Except Text Text :=
  match value with
  | .text text => if trim text = [] then .error (name ++ js " must be a non-empty string.") else .ok text
  | _ => .error (name ++ js " must be a non-empty string.")

def entityTable (catalog : Catalog) (entity : Text) : Except Text Text :=
  match catalog.tableOf entity with
  | some table => .ok table
  | none => .error (js "Entity " ++ quoteJson entity ++ js " is not a tenant entity that can be synchronised.")

def sourceOf (catalog : Catalog) (input : Members N) : Except Text NamedSource := do
  let entity ← text (field input (js "entity")) (js "entity")
  let table ← entityTable catalog entity
  let authority ← text (field input (js "sourceAuthority")) (js "sourceAuthority")
  let administration ← text (field input (js "sourceAdministration")) (js "sourceAdministration")
  let name := field input (js "sourceAdministrationName")
  let administrationName ←
    if name.isNullish then .ok none else (text name (js "sourceAdministrationName")).map some
  return ⟨entity, ⟨table, authority, administration⟩, administrationName⟩

def syncRecord (value : Value N) (index : Nat) : Except Text (SyncRecord N) :=
  match value with
  | .object members =>
    (text (field members (js "externalId")) (js "records[" ++ decimal index ++ js "].externalId")).map fun externalId => ⟨externalId, members⟩
  | _ => .error (js "records[" ++ decimal index ++ js "] must be an object.")

def repeatedId : List Text → List Text → Option Text
  | _, [] => none
  | seen, id :: rest => if id ∈ seen then some id else repeatedId (id :: seen) rest

def upsertCall (catalog : Catalog) (input : Members N) : Except Text (Call N) := do
  let named ← sourceOf catalog input
  if catalog.withheld named.entity then
    .error (named.entity ++ js " is written through another Operation, not by a source sync.")
  else
    match field input (js "records") with
    | .array values =>
      if maxRecords < values.length then .error (js "records must be an array of at most 1000 records.")
      else
        let records ← values.zipIdx.mapM fun entry => syncRecord entry.1 entry.2
        match repeatedId [] (records.map SyncRecord.externalId) with
        | some id => .error (js "externalId " ++ quoteJson id ++ js " appears more than once in this page.")
        | none => .ok (.upsert named records)
    | _ => .error (js "records must be an array of at most 1000 records.")

def removedRecord (entity : Text) (value : Value N) (index : Nat) : Except Text (Option Text) :=
  match value with
  | .object members =>
    match field members (js "entity") with
    | .undefined => (text (field members (js "externalId")) (js "records[" ++ decimal index ++ js "].externalId")).map some
    | .text named =>
      if named = entity then (text (field members (js "externalId")) (js "records[" ++ decimal index ++ js "].externalId")).map some
      else .ok none
    | _ => .ok none
  | _ => .error (js "records[" ++ decimal index ++ js "] must be an object.")

def removalIds (input : Members N) (entity : Text) : Except Text (List Text) := do
  let ids ←
    match field input (js "records"), field input (js "externalIds") with
    | .array _, .array _ => .error (js "Give either externalIds or records.")
    | .array records, _ => (records.zipIdx.mapM fun entry => removedRecord entity entry.1 entry.2).map fun ids => ids.filterMap id
    | _, .array ids => ids.zipIdx.mapM fun entry => text entry.1 (js "externalIds[" ++ decimal entry.2 ++ js "]")
    | _, _ => .error (js "Give either externalIds or records.")
  if maxRecords < ids.length then .error (js "At most 1000 ids per call.") else .ok ids.eraseDups

def removeCall (catalog : Catalog) (input : Members N) : Except Text (Call N) := do
  let named ← sourceOf catalog input
  let ids ← removalIds input named.entity
  return .remove named ids

inductive BatchAction where
  | upsert
  | remove
deriving DecidableEq

structure Batch (N : Type) where
  entity : Text
  action : BatchAction
  named : NamedSource
  records : List (Value N)

/-- `{ ...members, [name]: value }`. -/
def withMember (members : Members N) (name : Text) (value : Value N) : Members N :=
  (name, value) :: members.filter fun member => member.1 ≠ name

def ofBatchEntity (entity : Value N) (value : Value N) : Except Text (Option (Value N)) :=
  match value with
  | .object members =>
    match field members (js "entity"), entity with
    | .undefined, _ => .ok (some value)
    | .text named, .text entity => .ok (if named = entity then some value else none)
    | _, _ => .ok none
  | _ => .error (js "Each removal record must be an object.")

def upsertedId (value : Value N) : Except Text Text :=
  match value with
  | .object members => text (field members (js "externalId")) (js "externalId")
  | _ => .error (js "Each upsert record must be an object.")

def malformedBatch : Text := js "Each batch needs entity, action (upsert/remove) and records."

def addBatch (catalog : Catalog) (input : Members N) (before : Nat × List (Batch N)) (value : Value N) : Except Text (Nat × List (Batch N)) :=
  match value with
  | .object members =>
    match field members (js "records"), field members (js "action") with
    | .array records, .text action => do
      let entity := field members (js "entity")
      let named ← if action = js "upsert" ∨ action = js "remove" then sourceOf catalog (withMember input (js "entity") entity)
        else .error malformedBatch
      let kept ← if action = js "remove" then (records.mapM (ofBatchEntity entity)).map fun kept => kept.filterMap id else .ok records
      let total := before.1 + kept.length
      if 10000 < total then .error (js "A source page may contain at most 10000 records across its batches.")
      else if action = js "remove" then return (total, before.2 ++ [⟨named.entity, .remove, named, kept⟩])
      else
        let ids ← records.mapM upsertedId
        if ids.Nodup then return (total, before.2 ++ [⟨named.entity, .upsert, named, kept⟩])
        else .error (js "Duplicate externalId in an upsert batch.")
    | _, _ => .error malformedBatch
  | _ => .error malformedBatch

/-- `slice(offset, offset + MAX_RECORDS)`, one after the other. -/
def chunksOf : Nat → List (Value N) → List (List (Value N))
  | 0, _ => []
  | steps + 1, records => if records = [] then [] else records.take maxRecords :: chunksOf steps (records.drop maxRecords)

def chunkInput (batch : Batch N) (chunk : List (Value N)) : Members N :=
  [(js "entity", .text batch.entity), (js "sourceAuthority", .text batch.named.source.authority),
    (js "sourceAdministration", .text batch.named.source.administration), (js "records", .array chunk)] ++
  match batch.action, batch.named.administrationName with
  | .upsert, some name => [(js "sourceAdministrationName", .text name)]
  | _, _ => []

def chunkCall (catalog : Catalog) (batch : Batch N) (chunk : List (Value N)) : Except Text (Call N) :=
  match batch.action with
  | .upsert => upsertCall catalog (chunkInput batch chunk)
  | .remove => removeCall catalog (chunkInput batch chunk)

def pagePlan (catalog : Catalog) (notAfter : Text → Text → Bool) (input : Members N) : Except Text (Plan N) :=
  match field input (js "batches") with
  | .array values =>
    if values.length < 1 ∨ 10 < values.length then .error (js "batches must contain 1 to 10 entity batches.")
    else do
      let (_, batches) ← values.foldlM (addBatch catalog input) (0, [])
      if (batches.map fun batch => batch.named.source.table).Nodup then
        let chunks := batches.flatMap fun batch => (chunksOf batch.records.length batch.records).map fun chunk => (batch, chunk)
        let calls ← chunks.mapM fun entry => chunkCall catalog entry.1 entry.2
        return ⟨(batches.map fun batch => batch.named.source).mergeSort fun a b => notAfter a.table b.table, calls⟩
      else .error (js "Each entity may occur only once in a source page.")
  | _ => .error (js "batches must contain 1 to 10 entity batches.")

inductive Request (N : Type) where
  | upsertBySource (input : Members N)
  | removeBySource (input : Members N)
  | applySourcePage (input : Members N)

def Request.plan (catalog : Catalog) (notAfter : Text → Text → Bool) : Request N → Except Text (Plan N)
  | .upsertBySource input => (upsertCall catalog input).map fun call => ⟨[], [call]⟩
  | .removeBySource input => (removeCall catalog input).map fun call => ⟨[], [call]⟩
  | .applySourcePage input => pagePlan catalog notAfter input

end Inputs

section Values

/-- A stored record of a source. -/
structure Row (N : Type) where
  externalId : Text
  sourceVersion : Option Text
  sourceAdministrationName : Option Text
  /-- Its other fields. -/
  content : Members N

/-- What the host and its database do: `localeCompare`, the advisory lock of a key, the text of
an array or an object, and what a column of text holds of a value that is none, where it takes it. -/
structure Host (N : Type) where
  catalog : Catalog
  notAfter : Text → Text → Bool
  tenantId : Text
  hash : Text → Int
  shown : Value N → Text
  columnText : Value N → Option Text

variable {N : Type} [JsNumber N] (host : Host N)

def lockOf (source : Source) : Int :=
  host.hash (stringify (N := N) (.array [.text (js "source-sync"), .text host.tenantId, .text source.table, .text source.authority,
    .text source.administration]))

/-- `String(value)`. -/
def stringOf : Value N → Text
  | .text value => value
  | .number value => JsNumber.toText value
  | .boolean value => if value then js "true" else js "false"
  | .null => js "null"
  | .undefined => js "undefined"
  | other => host.shown other

def referenceSuffix : Text := js "ExternalId"

/-- `<field>ExternalId` gives `<field>Id`. -/
def referenceField (key : Text) : Option Text :=
  if key ≠ js "externalId" ∧ referenceSuffix.isSuffixOf key = true then some (key.take (key.length - referenceSuffix.length) ++ js "Id") else none

def resolveMember (entity : Text) (lookup : Text → Text → Option Text) (member : Text × Value N) : Except Text (Text × Value N) :=
  match referenceField member.1 with
  | none => .ok member
  | some fieldKey =>
    match (host.catalog.relationships entity).find? fun relationship => relationship.1 = fieldKey with
    | none => .error (member.1 ++ js " names no reference " ++ fieldKey ++ js " on " ++ entity ++ js ".")
    | some (_, target) =>
      if member.2.isNullish then .ok (fieldKey, .null)
      else
        match member.2 with
        | .text [] => .ok (fieldKey, .null)
        | other => do
          let named ← text other member.1
          match lookup target named with
          | some id => return (fieldKey, .text id)
          | none => .error (member.1 ++ js " " ++ quoteJson named ++ js " is not available for this source; import it first.")

/-- `Object.fromEntries`. -/
def fromEntries (entries : Members N) : Members N := entries.foldl (fun members entry => withMember members entry.1 entry.2) []

def resolveReferences (entity : Text) (lookup : Text → Text → Option Text) (record : SyncRecord N) : Except Text (Members N) :=
  (record.members.mapM (resolveMember host entity lookup)).map fromEntries

/-- The values of a call that its records may repeat but not contradict. -/
def ownedValues (named : NamedSource) : List (Text × Text) :=
  [(js "sourceAuthority", named.source.authority), (js "sourceAdministration", named.source.administration)] ++
    (named.administrationName.map fun name => (js "sourceAdministrationName", name)).toList

def checkOwned (externalId : Text) (prepared : Members N) (owned : Text × Text) : Except Text Unit :=
  let value := field prepared owned.1
  if value.isNullish ∨ stringOf host value = owned.2 then .ok ()
  else .error (js "Record " ++ quoteJson externalId ++ js " has " ++ owned.1 ++ js " " ++ stringify value ++ js ", not " ++ quoteJson owned.2 ++ js ".")

def sourceValues (named : NamedSource) (externalId : Text) (prepared : Members N) : Except Text (Members N) := do
  (ownedValues named).forM (checkOwned host externalId prepared)
  let rest := prepared.filter fun member => member.1 ≠ js "sourceAdministrationName"
  return (ownedValues named).foldl (fun values owned => withMember values owned.1 (.text owned.2)) rest

def sourceColumns : List Text :=
  [js "externalId", js "sourceAuthority", js "sourceAdministration", js "sourceAdministrationName", js "sourceVersion"]

def contentOf (values : Members N) : Members N :=
  values.filter fun member => member.1 ∉ sourceColumns ∧ (match member.2 with | .undefined => false | _ => true) = true

/-- What the column holds of a sourceVersion that is written; nothing where that fails. -/
def storedVersion : Value N → Option (Option Text)
  | .text version => some (some version)
  | .null => some none
  | other => (host.columnText other).map some

def SyncRecord.sourceVersion (record : SyncRecord N) : Value N := field record.members (js "sourceVersion")

def isNewer (stored : Option Text) (carried : Value N) : Bool :=
  match stored, carried with
  | some stored, .text carried => textLess carried stored
  | _, _ => false

def createdRow (named : NamedSource) (record : SyncRecord N) (values : Members N) : Option (Row N) :=
  let version := match record.sourceVersion with
    | .undefined => some none
    | carried => storedVersion host carried
  version.map fun sourceVersion => ⟨record.externalId, sourceVersion, named.administrationName, contentOf values⟩

def updatedRow (named : NamedSource) (record : SyncRecord N) (values : Members N) (row : Row N) : Option (Row N) :=
  let version := match record.sourceVersion with
    | .undefined => some row.sourceVersion
    | carried => storedVersion host carried
  version.map fun sourceVersion => {
    externalId := row.externalId
    sourceVersion
    sourceAdministrationName := named.administrationName.or row.sourceAdministrationName
    content := (contentOf values).foldl (fun content member => withMember content member.1 member.2) row.content }

end Values

section States

abbrev Rows (N : Type) := Source × Text → Option (Row N)

def Matches {N : Type} (rows : Rows N) (source : Source) (externalId : Text) (found : Option (Text × Option Text)) : Prop :=
  match found with
  | none => ∀ id row, rows (source, id) = some row → row.externalId ≠ externalId
  | some (id, version) => (∃ row, rows (source, id) = some row ∧ row.externalId = externalId ∧ row.sourceVersion = version) ∧
    ∀ other row, rows (source, other) = some row → row.externalId = externalId → other = id

/-- How far a transaction has come in its plan. -/
inductive Phase (N : Type) where
  | idle
  /-- The sources that it has yet to lock, and its further calls. -/
  | pending (locks : List Source) (calls : List (Call N))
  /-- The source of the call is locked. -/
  | looking (call : Call N) (calls : List (Call N))
  /-- The records still to be written, with their references resolved, and what was stored of them. -/
  | writing (named : NamedSource) (found : Text → Option (Text × Option Text)) (records : List (SyncRecord N × Members N)) (calls : List (Call N))
  | deleting (named : NamedSource) (externalIds ids : List Text) (calls : List (Call N))

structure State (Tx N : Type) where
  rows : Store Tx (Source × Text) (Row N)
  /-- The advisory locks of a transaction. -/
  held : Tx → Set Int
  phases : Tx → Phase N
  /-- What a transaction was begun for. -/
  asked : Tx → List (Call N)

def State.empty {Tx N : Type} : State Tx N where
  rows := ⟨fun _ => none, fun _ => .idle⟩
  held _ := ∅
  phases _ := .idle
  asked _ := []

inductive Action (Tx N : Type) where
  | begin (tx : Tx) (request : Request N)
  | lock (tx : Tx)
  | look (tx : Tx)
  /-- The next record of an upsert. -/
  | write (tx : Tx)
  /-- The next row of a removal. -/
  | delete (tx : Tx)
  | next (tx : Tx)
  | commit (tx : Tx)
  /-- A statement or a check throws. -/
  | fail (tx : Tx)

def Call.named {N : Type} : Call N → NamedSource
  | .upsert named _ | .remove named _ => named

variable {Tx N : Type} [DecidableEq Tx]

namespace State
variable (state : State Tx N) (tx : Tx)

def enter (phase : Phase N) : State Tx N := { state with phases := Function.update state.phases tx phase }

def ask (calls : List (Call N)) : State Tx N := { state with asked := Function.update state.asked tx calls }

def hold (lock : Int) : State Tx N := { state with held := Function.update state.held tx (insert lock (state.held tx)) }

def put (key : Source × Text) (row : Option (Row N)) : State Tx N :=
  { state with rows := (state.rows.lock tx key .update).write tx key row }

/-- The end of a transaction, which lets go of its locks. -/
def finish (rows : Store Tx (Source × Text) (Row N)) : State Tx N where
  rows
  held := Function.update state.held tx ∅
  phases := Function.update state.phases tx .idle
  asked := Function.update state.asked tx []

def Free (lock : Int) : Prop := ∀ other, other ≠ tx → lock ∉ state.held other

end State

variable [JsNumber N]

/-- The statements of the transactions, each of which commits as a whole or rolls back. -/
inductive Step (host : Host N) (state : State Tx N) : Action Tx N → State Tx N → Prop
  | begin {tx : Tx} {request : Request N} {plan : Plan N} : state.phases tx = .idle →
      request.plan host.catalog host.notAfter = .ok plan →
      Step host state (.begin tx request) ((state.ask tx plan.calls).enter tx (.pending plan.locks plan.calls))
  | lock {tx : Tx} {source : Source} {locks : List Source} {calls : List (Call N)} : state.phases tx = .pending (source :: locks) calls →
      state.Free tx (lockOf host source) →
      Step host state (.lock tx) ((state.hold tx (lockOf host source)).enter tx (.pending locks calls))
  /-- A call locks its source itself; within a page it holds that lock already. -/
  | start {tx : Tx} {call : Call N} {calls : List (Call N)} : state.phases tx = .pending [] (call :: calls) →
      state.Free tx (lockOf host call.named.source) →
      Step host state (.lock tx) ((state.hold tx (lockOf host call.named.source)).enter tx (.looking call calls))
  /-- storedByExternalId and resolveReferences. -/
  | look {tx : Tx} {named : NamedSource} {records : List (SyncRecord N)} {calls : List (Call N)}
      {found : Text → Option (Text × Option Text)} {lookup : Text → Text → Option Text} {prepared : List (Members N)} :
      state.phases tx = .looking (.upsert named records) calls →
      (∀ record ∈ records, Matches (state.rows.view tx) named.source record.externalId (found record.externalId)) →
      (∀ target table, host.catalog.tableOf target = some table → ∀ externalId, ∃ version,
        Matches (state.rows.view tx) { named.source with table } externalId ((lookup target externalId).map fun id => (id, version))) →
      records.mapM (resolveReferences host named.entity lookup) = .ok prepared →
      Step host state (.look tx) (state.enter tx (.writing named found (records.zip prepared) calls))
  | find {tx : Tx} {named : NamedSource} {externalIds ids : List Text} {calls : List (Call N)} :
      state.phases tx = .looking (.remove named externalIds) calls →
      ids.Nodup ∧ (∀ id, id ∈ ids ↔ ∃ row, state.rows.view tx (named.source, id) = some row ∧ row.externalId ∈ externalIds) →
      Step host state (.look tx) (state.enter tx (.deleting named externalIds ids calls))
  /-- The id of a new record is new. -/
  | create {tx : Tx} {named : NamedSource} {found : Text → Option (Text × Option Text)} {record : SyncRecord N} {prepared values : Members N}
      {records : List (SyncRecord N × Members N)} {calls : List (Call N)} {id : Text} {row : Row N} :
      state.phases tx = .writing named found ((record, prepared) :: records) calls → found record.externalId = none →
      sourceValues host named record.externalId prepared = .ok values → createdRow host named record values = some row →
      state.rows.Grants tx (named.source, id) .update → state.rows.committed (named.source, id) = none →
      state.rows.view tx (named.source, id) = none →
      Step host state (.write tx) ((state.put tx (named.source, id) (some row)).enter tx (.writing named found records calls))
  | skip {tx : Tx} {named : NamedSource} {found : Text → Option (Text × Option Text)} {record : SyncRecord N} {prepared values : Members N}
      {records : List (SyncRecord N × Members N)} {calls : List (Call N)} {id : Text} {version : Option Text} :
      state.phases tx = .writing named found ((record, prepared) :: records) calls → found record.externalId = some (id, version) →
      sourceValues host named record.externalId prepared = .ok values → isNewer version record.sourceVersion = true →
      Step host state (.write tx) (state.enter tx (.writing named found records calls))
  | update {tx : Tx} {named : NamedSource} {found : Text → Option (Text × Option Text)} {record : SyncRecord N} {prepared values : Members N}
      {records : List (SyncRecord N × Members N)} {calls : List (Call N)} {id : Text} {version : Option Text} {before after : Row N} :
      state.phases tx = .writing named found ((record, prepared) :: records) calls → found record.externalId = some (id, version) →
      sourceValues host named record.externalId prepared = .ok values → isNewer version record.sourceVersion = false →
      state.rows.Grants tx (named.source, id) .update → state.rows.view tx (named.source, id) = some before →
      updatedRow host named record values before = some after →
      Step host state (.write tx) ((state.put tx (named.source, id) (some after)).enter tx (.writing named found records calls))
  /-- updateGeneratedEntity finds no row. -/
  | missing {tx : Tx} {named : NamedSource} {found : Text → Option (Text × Option Text)} {record : SyncRecord N} {prepared values : Members N}
      {records : List (SyncRecord N × Members N)} {calls : List (Call N)} {id : Text} {version : Option Text} :
      state.phases tx = .writing named found ((record, prepared) :: records) calls → found record.externalId = some (id, version) →
      sourceValues host named record.externalId prepared = .ok values → isNewer version record.sourceVersion = false →
      state.rows.view tx (named.source, id) = none →
      Step host state (.write tx) (state.enter tx (.writing named found records calls))
  | delete {tx : Tx} {named : NamedSource} {externalIds ids : List Text} {calls : List (Call N)} {id : Text} :
      state.phases tx = .deleting named externalIds (id :: ids) calls → state.rows.Grants tx (named.source, id) .update →
      Step host state (.delete tx) ((state.put tx (named.source, id) none).enter tx (.deleting named externalIds ids calls))
  | written {tx : Tx} {named : NamedSource} {found : Text → Option (Text × Option Text)} {calls : List (Call N)} :
      state.phases tx = .writing named found [] calls → Step host state (.next tx) (state.enter tx (.pending [] calls))
  | deleted {tx : Tx} {named : NamedSource} {externalIds : List Text} {calls : List (Call N)} :
      state.phases tx = .deleting named externalIds [] calls → Step host state (.next tx) (state.enter tx (.pending [] calls))
  | commit {tx : Tx} : state.phases tx = .pending [] [] → Step host state (.commit tx) (state.finish tx (state.rows.commit tx))
  | fail {tx : Tx} : state.phases tx ≠ .idle → Step host state (.fail tx) (state.finish tx (state.rows.rollback tx))

end States

section Watermarks

/-- A padded integer without its padding, else the stored value. -/
def sinceFromSourceVersion (version : Text) : Text :=
  if version ≠ [] ∧ version.all isDigit = true then
    let stripped := version.dropWhile fun c => c == unit '0'
    if stripped = [] then [unit '0'] else stripped
  else version

end Watermarks

end OpenShapeForge.Operations.SourceSync
