import Mathlib.Data.List.Nodup
import Mathlib.Data.List.Sort
import Mathlib.Data.String.Basic
import OpenShapeForge.Library.Run
import OpenShapeForge.Library.Failing

/-! The insert, move, update and remove of the member of a collection, as one transaction
on its parent runs them. -/

namespace OpenShapeForge.Operations.CollectionMutations

inductive Action
  | insert
  | move
  | update
  | remove
  deriving DecidableEq

def Action.name : Action → String
  | .insert => "insert"
  | .move => "move"
  | .update => "update"
  | .remove => "remove"

inductive Ownership
  | owned
  | reference
  deriving DecidableEq

/-- A cardinality authored by its bounds; an unbounded maximum is left out. -/
structure Cardinality where
  min : Option Nat
  max : Option Nat

/-- What is read of a relationship. Its cardinality is none where it is the bare `collection`. -/
structure Relation where
  ownership : Ownership
  sortable : Bool
  ownerAuthorizes : Bool
  childLock : Bool
  cardinality : Option Cardinality

def Relation.bounds (relation : Relation) : Cardinality := relation.cardinality.getD ⟨none, none⟩

inductive Code
  | unsupported
  | badUserInput
  | forbidden
  | notFound
  | versionConflict
  | validation
  | invalidState
  | database
  deriving DecidableEq

structure Refusal where
  code : Code
  message : String
  deriving DecidableEq

def unsupported {α : Type} (message : String) : Except Refusal α := .error ⟨.unsupported, message⟩

def invalid {α : Type} (message : String) : Except Refusal α := .error ⟨.badUserInput, message⟩

def forbidden {α : Type} (message : String) : Except Refusal α := .error ⟨.forbidden, message⟩

def refuseIf (condition : Bool) (refusal : Except Refusal Unit) : Except Refusal Unit := if condition then refusal else .ok ()

/-- A row of the child's table: its timestamp in microseconds, and the columns of no part here. -/
structure Row (Id Fields : Type) where
  id : Id
  position : Option Int
  locked : Bool
  updatedAt : Nat
  fields : Fields
  deriving DecidableEq

/-- The parent's version and the rows that refer to it, whose primary keys differ. -/
structure Collection (Id Fields : Type) where
  version : Nat
  members : List (Row Id Fields)
  distinct : (members.map Row.id).Nodup

namespace Collection
variable {Id Fields : Type} [DecidableEq Id]

def ids (collection : Collection Id Fields) : List Id := collection.members.map Row.id

omit [DecidableEq Id] in
theorem distinct_append {members : List (Row Id Fields)} {row : Row Id Fields} (distinct : (members.map Row.id).Nodup)
    (fresh : row.id ∉ members.map Row.id) : ((members ++ [row]).map Row.id).Nodup := by
  rw [List.map_append]
  exact List.nodup_append.mpr ⟨distinct, List.nodup_singleton _, fun id member other single same =>
    fresh (List.mem_singleton.mp single ▸ same ▸ member)⟩

/-- `insert into`, which a primary key in use fails. -/
def append (collection : Collection Id Fields) (row : Row Id Fields) (fresh : row.id ∉ collection.ids) : Collection Id Fields :=
  { collection with members := collection.members ++ [row], distinct := distinct_append collection.distinct fresh }

theorem ids_rewritten (members : List (Row Id Fields)) (id : Id) {write : Row Id Fields → Row Id Fields}
    (keeps : ∀ row, (write row).id = row.id) :
    (members.map fun row => if row.id = id then write row else row).map Row.id = members.map Row.id := by
  rw [List.map_map]
  apply List.map_congr_left
  intro row _
  change (if row.id = id then write row else row).id = row.id
  split
  next => exact keeps row
  next => rfl

/-- `update … where id`, which writes no primary key. -/
def rewrite (collection : Collection Id Fields) (id : Id) (write : Row Id Fields → Row Id Fields)
    (keeps : ∀ row, (write row).id = row.id) : Collection Id Fields :=
  { collection with
    members := collection.members.map fun row => if row.id = id then write row else row
    distinct := ids_rewritten collection.members id keeps ▸ collection.distinct }

/-- `delete … where id`. -/
def delete (collection : Collection Id Fields) (id : Id) : Collection Id Fields :=
  { collection with
    members := collection.members.filter fun row => row.id ≠ id
    distinct := collection.distinct.sublist (List.filter_sublist.map Row.id) }

def touch (collection : Collection Id Fields) (now : Nat) : Collection Id Fields :=
  { collection with version := max now (collection.version + 1) }

end Collection

structure Request (Id Values : Type) where
  expectedVersion : Nat
  childExpectedVersion : Option Nat
  childLeaseToken : Option String
  values : Option Values
  childId : Option Id
  /-- Left out, null, or a member. -/
  beforeId : Option (Option Id)

structure Written (Fields : Type) where
  locked : Bool
  fields : Fields
  deriving DecidableEq

/-- What the transaction meets besides the collection: the metadata of both tables, the
session's permissions, the writes of the child's own operations, and the clock. -/
structure Environment (Id Values Fields : Type) where
  supported : Except Refusal Unit
  contract : Option Values → Except Refusal Unit
  sameSession : Bool
  parentVisible : Bool
  parentEdit : Except Refusal Unit
  parentWritable : Bool
  lockable : Row Id Fields → Bool
  allowed : Row Id Fields → Except Refusal Unit
  view : Id → Except Refusal Unit
  edit : Id → Except Refusal Unit
  createdView : Id → Except Refusal Unit
  related : Row Id Fields → Except Refusal Unit
  create : Values → Except Refusal (Id × Written Fields)
  lease : Id → Except Refusal Unit
  prepare : Row Id Fields → Values → Except Refusal (Option (Written Fields))
  referencesRemoved : Id → Except Refusal Unit
  admitted : Except Refusal Unit
  effectsAdmitted : Except Refusal Unit
  deletable : Id → Bool
  writable : Id → Bool
  localeCompare : Id → Id → Ordering
  now : Nat

section Executor
variable {Id Values Fields : Type}

def editing (action : Action) : Bool := action = .update || action = .remove

def singleMember (relation : Relation) (action : Action) : Bool := relation.ownership = .reference && action = .update

/-- The checks of the request that come before the transaction. -/
def admitRequest (environment : Environment Id Values Fields) (relation : Relation) (action : Action) (request : Request Id Values) :
    Except Refusal Unit := do
  refuseIf (relation.ownership = .reference && (relation.sortable || relation.ownerAuthorizes || !(action = .insert || action = .update)))
    (unsupported "Reference collections retain child permissions and support insert/update only.")
  refuseIf (singleMember relation action && request.childExpectedVersion.isNone) (invalid "A member expected version is required.")
  refuseIf (action = .move && !relation.sortable) (unsupported "Move requires a sortable collection.")
  refuseIf (!relation.sortable && request.beforeId.isSome) (invalid "beforeId is not accepted for a non-sortable collection.")
  environment.supported
  refuseIf (!singleMember relation action && (request.childExpectedVersion.isSome || request.childLeaseToken.isSome))
    (invalid "Unknown collection mutation input.")
  refuseIf (action = .move && (request.childId.isNone || request.values.isSome)) (invalid "Move requires childId and does not accept values.")
  refuseIf (editing action && (request.childId.isNone || request.beforeId.isSome))
    (invalid (action.name ++ " requires childId and does not accept beforeId."))
  refuseIf (action = .remove && request.values.isSome) (invalid "Remove does not accept values.")
  refuseIf (action = .update && request.values.isNone) (invalid "Update requires child values.")
  refuseIf (action = .insert && (request.childId.isSome || request.values.isNone))
    (invalid "Insert requires child values and cannot link an existing id.")
  environment.contract request.values

variable [LinearOrder Id]

def lockMembers (environment : Environment Id Values Fields) (relation : Relation) (action : Action) (request : Request Id Values)
    (collection : Collection Id Fields) : Except Refusal (List (Row Id Fields)) :=
  let inScope :=
    if singleMember relation action then collection.members.filter fun row => some row.id = request.childId else collection.members
  let visible := inScope.insertionSort fun a b => a.id ≤ b.id
  let rows := visible.filter environment.lockable
  if visible.map Row.id = rows.map Row.id then .ok rows
  else forbidden "The complete collection cannot be locked with the current permissions."

/-- One count for the four actions, compared with both bounds. -/
def checkSize (relation : Relation) (action : Action) (rows : List (Row Id Fields)) : Except Refusal Unit :=
  let count := rows.length + if action = .insert then 1 else 0
  refuseIf (!singleMember relation action &&
      (decide (count < relation.bounds.min.getD 0) || relation.bounds.max.any fun max => decide (max < count)))
    (.error ⟨.validation, "The collection size would violate its cardinality."⟩)

def Row.place (row : Row Id Fields) : Int := row.position.getD 0

def orderMembers (environment : Environment Id Values Fields) (relation : Relation) (rows : List (Row Id Fields)) : List Id :=
  let order (a b : Row Id Fields) : Ordering :=
    (if relation.sortable then compare a.place b.place else .eq).then (environment.localeCompare a.id b.id)
  (rows.insertionSort fun a b => (order a b).isLE = true).map Row.id

def isMember (ordered : List Id) (id : Option Id) : Bool := id.any ordered.contains

def checkNamed (relation : Relation) (action : Action) (request : Request Id Values) (rows : List (Row Id Fields)) (ordered : List Id) :
    Except Refusal Unit := do
  refuseIf (request.beforeId.join.isSome && !isMember ordered request.beforeId.join) (invalid "beforeId is not a member of this collection.")
  refuseIf ((action = .move || editing action) && !isMember ordered request.childId) (invalid "childId is not a member of this collection.")
  refuseIf (relation.childLock && (action = .move || editing action) &&
      (rows.find? fun row => decide (some row.id = request.childId)).any Row.locked)
    (.error ⟨.invalidState, "This item is locked by its source and cannot be changed, moved or removed."⟩)

/-- Where a mutation stands between its writes. -/
structure Progress (Id Fields : Type) where
  collection : Collection Id Fields
  childId : Id
  ordered : List Id
  changed : Bool

def createChild (environment : Environment Id Values Fields) (relation : Relation) (rows : List (Row Id Fields)) (ordered : List Id)
    (values : Values) (collection : Collection Id Fields) : Except Refusal (Progress Id Fields) := do
  let (id, written) ← environment.create values
  if used : id ∈ collection.ids then .error ⟨.database, "duplicate key value violates unique constraint"⟩
  else
    let position := if relation.sortable then some (rows.length : Int) else none
    let created : Row Id Fields := ⟨id, position, written.locked, environment.now, written.fields⟩
    environment.view id
    environment.createdView id
    return ⟨collection.append created used, id, ordered ++ [id], true⟩

/-- A reference collection's member has a version and a lease of its own. -/
def checkMember (environment : Environment Id Values Fields) (relation : Relation) (request : Request Id Values)
    (current : Row Id Fields) : Except Refusal Unit :=
  if relation.ownership = .reference then do
    environment.lease current.id
    refuseIf (request.childExpectedVersion ≠ some current.updatedAt) (.error ⟨.versionConflict, "The member changed; reload before editing."⟩)
  else .ok ()

def updateChild [DecidableEq Fields] (environment : Environment Id Values Fields) (relation : Relation) (request : Request Id Values)
    (values : Values) (current : Row Id Fields) (progress : Progress Id Fields) : Except Refusal (Progress Id Fields) := do
  checkMember environment relation request current
  match ← environment.prepare current values with
  | none => return progress
  | some written =>
    environment.admitted
    if written = ⟨current.locked, current.fields⟩ then return progress
    else if environment.writable current.id then
      let write (row : Row Id Fields) : Row Id Fields :=
        { row with locked := written.locked, fields := written.fields, updatedAt := max environment.now (row.updatedAt + 1) }
      return { progress with collection := progress.collection.rewrite current.id write fun _ => rfl, changed := true }
    else if current.id ∈ progress.collection.ids then return progress
    else forbidden "Child update was refused."

def removeChild (environment : Environment Id Values Fields) (childId : Id) (progress : Progress Id Fields) :
    Except Refusal (Progress Id Fields) := do
  environment.referencesRemoved childId
  environment.admitted
  if childId ∈ progress.collection.ids ∧ environment.deletable childId = true then
    return { progress with
      collection := progress.collection.delete childId
      ordered := progress.ordered.erase childId
      changed := true }
  else forbidden "Child removal was refused."

def putBefore (ordered : List Id) (childId : Id) (beforeId : Option Id) : List Id :=
  let others := ordered.erase childId
  let index := match beforeId with
    | none => others.length
    | some id => others.idxOf id
  others.insertIdx index childId

def standsAt (rows : List (Row Id Fields)) (id : Id) (index : Nat) : Bool :=
  match rows.find? fun row => row.id = id with
  | none => index = rows.length
  | some previous => previous.place = index

/-- One position, written where it changes. -/
def renumberOne (environment : Environment Id Values Fields) (rows : List (Row Id Fields)) (progress : Progress Id Fields)
    (entry : Id × Nat) : Except Refusal (Progress Id Fields) := do
  if standsAt rows entry.1 entry.2 then return progress
  else
    (if (rows.find? fun row => row.id = entry.1).isNone then environment.edit entry.1 else .ok ())
    environment.admitted
    if entry.1 ∈ progress.collection.ids ∧ environment.writable entry.1 = true then
      let write (row : Row Id Fields) : Row Id Fields :=
        { row with position := some entry.2, updatedAt := max environment.now (row.updatedAt + 1) }
      return { progress with collection := progress.collection.rewrite entry.1 write fun _ => rfl, changed := true }
    else forbidden "Child update was refused."

def renumber (environment : Environment Id Values Fields) (relation : Relation) (rows : List (Row Id Fields))
    (progress : Progress Id Fields) : Except Refusal (Progress Id Fields) :=
  (if relation.sortable then progress.ordered.zipIdx else []).foldlM (renumberOne environment rows) progress

def viewedIds (environment : Environment Id Values Fields) (collection : Collection Id Fields) : Except Refusal (List Id) :=
  (collection.ids.insertionSort fun a b => a ≤ b).foldlM
    (fun seen id =>
      match environment.view id with
      | .ok () => .ok (seen ++ [id])
      | .error refusal => if refusal.code = .forbidden then .ok seen else .error refusal) []

structure Outcome (Id : Type) where
  version : Nat
  childId : Id
  orderedIds : List Id

def resultIds (environment : Environment Id Values Fields) (relation : Relation) (action : Action) (progress : Progress Id Fields) :
    Except Refusal (List Id) :=
  if singleMember relation action then viewedIds environment progress.collection
  else .ok (if relation.sortable then progress.ordered else progress.ordered.insertionSort fun a b => a ≤ b)

/-- The result, and the parent's new version where any row was written. -/
def finish (environment : Environment Id Values Fields) (relation : Relation) (action : Action) (progress : Progress Id Fields) :
    Except Refusal (Outcome Id × Collection Id Fields) := do
  let orderedIds ← resultIds environment relation action progress
  if !progress.changed then return (⟨progress.collection.version, progress.childId, orderedIds⟩, progress.collection)
  else
    environment.effectsAdmitted
    refuseIf (!environment.parentWritable) (forbidden "Parent update was refused.")
    let touched := progress.collection.touch environment.now
    return (⟨touched.version, progress.childId, orderedIds⟩, touched)

def write [DecidableEq Fields] (environment : Environment Id Values Fields) (relation : Relation) (action : Action)
    (request : Request Id Values) (rows : List (Row Id Fields)) (ordered : List Id) (collection : Collection Id Fields) :
    Except Refusal (Progress Id Fields) :=
  match action, request.childId, request.values with
  | .insert, _, some values => createChild environment relation rows ordered values collection
  | .move, some childId, _ => .ok ⟨collection, childId, ordered, false⟩
  | .update, some childId, some values =>
    match rows.find? fun row => row.id = childId with
    | none => invalid "childId is not a member of this collection."
    | some current => do
      environment.related current
      environment.edit childId
      updateChild environment relation request values current ⟨collection, childId, ordered, false⟩
  | .remove, some childId, _ =>
    match rows.find? fun row => row.id = childId with
    | none => invalid "childId is not a member of this collection."
    | some current => do
      environment.related current
      environment.edit childId
      removeChild environment childId ⟨collection, childId, ordered, false⟩
  | _, _, _ => invalid "Collection mutation input must be an object."

def placed (action : Action) (request : Request Id Values) (progress : Progress Id Fields) : Progress Id Fields :=
  if !editing action ∧ request.beforeId.join ≠ some progress.childId then
    { progress with ordered := putBefore progress.ordered progress.childId request.beforeId.join }
  else progress

/-- The transaction. -/
def run [DecidableEq Fields] (environment : Environment Id Values Fields) (relation : Relation) (action : Action)
    (request : Request Id Values) (collection : Collection Id Fields) : Except Refusal (Outcome Id × Collection Id Fields) := do
  refuseIf (!environment.sameSession) (forbidden "The transaction must use the same verified session as the collection Operation.")
  refuseIf (!environment.parentVisible) (.error ⟨.notFound, "Parent not found or not visible."⟩)
  environment.parentEdit
  refuseIf (collection.version ≠ request.expectedVersion)
    (.error ⟨.versionConflict, "The parent changed; reload before editing its collection."⟩)
  let rows ← lockMembers environment relation action request collection
  rows.forM environment.allowed
  rows.forM fun row => environment.view row.id
  checkSize relation action rows
  let ordered := orderMembers environment relation rows
  checkNamed relation action request rows ordered
  (if relation.sortable || editing action then rows.forM fun row => environment.edit row.id else .ok ())
  let written ← write environment relation action request rows ordered collection
  let numbered ← renumber environment relation rows (placed action request written)
  finish environment relation action numbered

/-- A mutation of the collection; a refused one is rolled back. -/
def execute [DecidableEq Fields] (environment : Environment Id Values Fields) (relation : Relation) (action : Action)
    (request : Request Id Values) (collection : Collection Id Fields) : Except Refusal (Outcome Id × Collection Id Fields) := do
  admitRequest environment relation action request
  run environment relation action request collection

end Executor

end OpenShapeForge.Operations.CollectionMutations
