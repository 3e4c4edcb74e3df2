import OpenShapeForge.Library.RowHistory

/-! The version of a record: `updated_at`, as applyGeneratedRowUpdate (apps/api/src/operations/
entity/mutations.ts), the collection mutations (collection-mutations.ts), rewriteExtensionValues
(extensions/write.ts) and draftOwningHead (versioned-head.ts) check and write it, each in a
transaction of its own. -/

namespace OpenShapeForge.Operations.RecordVersions
open Library.RowLocks

/-- Microseconds, as a `timestamptz` has them. -/
abbrev Time := Int

structure Record (Content : Type) where
  content : Content
  updatedAt : Time
deriving DecidableEq

/-- `greatest(clock_timestamp(), updated_at + interval '1 microsecond')` -/
def bumped (clock updatedAt : Time) : Time := max clock (updatedAt + 1)

/-- What an update stamps: `now()`, the transaction's start, unless the table has entity-value carriers. -/
def stamp (carriers : Bool) (now clock updatedAt : Time) : Time := if carriers then bumped clock updatedAt else now

structure State (Tx Id Content : Type) where
  rows : Store Tx Id (Record Content)
  /-- `now()` of the open transactions. -/
  now : Tx → Option Time
  clock : Time
  /-- The versions that an open transaction's guards have been compared with, by record. -/
  guards : Tx → List (Id × Time)
  /-- The records that an open transaction has stamped with `now()`. -/
  plain : Tx → Set Id

def State.start {Tx Id Content : Type} (committed : Id → Option (Record Content)) (clock : Time) : State Tx Id Content where
  rows := ⟨committed, fun _ => .idle⟩
  now _ := none
  clock := clock
  guards _ := []
  plain _ := ∅

inductive Action (Tx Id Content : Type) where
  | begin (tx : Tx) (now : Time)
  /-- `updateGeneratedEntity`, with the version its caller expects where it is guarded. -/
  | update (tx : Tx) (id : Id) (expectedVersion : Option Time) (content : Content)
  /-- A guarded update that changes no column, or a collection mutation's locked read of its parent. -/
  | check (tx : Tx) (id : Id) (expectedVersion : Time)
  /-- A child, a position or the parent of a collection, a tenant value, a head that becomes a draft. -/
  | touch (tx : Tx) (id : Id) (content : Content)
  | commit (tx : Tx)
  | abort (tx : Tx)
  | tick (clock : Time)

section Statements
variable {Tx Id Content : Type} [DecidableEq Tx]

namespace State

def begin (state : State Tx Id Content) (tx : Tx) (now : Time) : State Tx Id Content :=
  { state with now := Function.update state.now tx (some now) }

def compare (state : State Tx Id Content) (tx : Tx) (id : Id) (expected : Option Time) : State Tx Id Content :=
  match expected with
  | none => state
  | some version => { state with guards := Function.update state.guards tx ((id, version) :: state.guards tx) }

def stampNow (state : State Tx Id Content) (tx : Tx) (id : Id) (carriers : Bool) : State Tx Id Content :=
  if carriers then state else { state with plain := Function.update state.plain tx (insert id (state.plain tx)) }

def commit (state : State Tx Id Content) (tx : Tx) : State Tx Id Content where
  rows := state.rows.commit tx
  now := Function.update state.now tx none
  clock := state.clock
  guards := Function.update state.guards tx []
  plain := Function.update state.plain tx ∅

def rollback (state : State Tx Id Content) (tx : Tx) : State Tx Id Content where
  rows := state.rows.rollback tx
  now := Function.update state.now tx none
  clock := state.clock
  guards := Function.update state.guards tx []
  plain := Function.update state.plain tx ∅

variable [DecidableEq Id]

def lock (state : State Tx Id Content) (tx : Tx) (id : Id) : State Tx Id Content := { state with rows := state.rows.lock tx id .update }

def put (state : State Tx Id Content) (tx : Tx) (id : Id) (row : Record Content) : State Tx Id Content :=
  { state with rows := (state.rows.lock tx id .update).write tx id (some row) }

end State

variable [DecidableEq Id]

/-- `carriers` says of each record whether its table has entity-value carriers. -/
inductive Step (carriers : Id → Bool) (state : State Tx Id Content) : Action Tx Id Content → State Tx Id Content → Prop
  | begin {tx : Tx} {now : Time} : state.now tx = none → Step carriers state (.begin tx now) (state.begin tx now)
  /-- The row is locked, its version is compared, and it is written when a column changes. -/
  | update {tx : Tx} {id : Id} {expected : Option Time} {content : Content} {row : Record Content} {now : Time} :
      state.now tx = some now → state.rows.Grants tx id .update → state.rows.view tx id = some row →
      (∀ version, expected = some version → row.updatedAt = version) → content ≠ row.content →
      Step carriers state (.update tx id expected content)
        (((state.put tx id ⟨content, stamp (carriers id) now state.clock row.updatedAt⟩).compare tx id expected).stampNow tx id (carriers id))
  | check {tx : Tx} {id : Id} {version : Time} {row : Record Content} {now : Time} : state.now tx = some now →
      state.rows.Grants tx id .update → state.rows.view tx id = some row → row.updatedAt = version →
      Step carriers state (.check tx id version) ((state.lock tx id).compare tx id (some version))
  | touch {tx : Tx} {id : Id} {content : Content} {row : Record Content} {now : Time} : state.now tx = some now →
      state.rows.Grants tx id .update → state.rows.view tx id = some row →
      Step carriers state (.touch tx id content) (state.put tx id ⟨content, bumped state.clock row.updatedAt⟩)
  | commit {tx : Tx} : Step carriers state (.commit tx) (state.commit tx)
  | abort {tx : Tx} : Step carriers state (.abort tx) (state.rollback tx)
  | tick {clock : Time} : state.clock ≤ clock → Step carriers state (.tick clock) { state with clock := clock }

end Statements

end OpenShapeForge.Operations.RecordVersions
