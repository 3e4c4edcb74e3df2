import OpenShapeForge.Extensions.Revalidation
import OpenShapeForge.Library.Propagation
import Mathlib.Logic.Relation

/-! How far a suspension reaches: what a revalidation leaves behind, and when that is all
there is to suspend. -/

namespace OpenShapeForge.Extensions.SuspensionReach
open Js FieldModel LinkedResolution Revalidation Library

section Agreement
variable {contract : Contract} {first second : Tenant}

structure Agree (first second : Tenant) : Prop where
  fields : first.fields = second.fields
  deleted : ∀ entity field, first.state entity field = .deleted ↔ second.state entity field = .deleted
  deprecated : ∀ entity field, first.state entity field = .deprecated ↔ second.state entity field = .deprecated

theorem Agree.byId (agree : Agree first second) (entity id : Text) : first.byId entity id = second.byId entity id := by
  unfold Tenant.byId
  rw [agree.fields]

theorem Agree.byKey (agree : Agree first second) (entity key : Text) : first.byKey entity key = second.byKey entity key := by
  unfold Tenant.byKey
  simp only [agree.fields, ne_eq, agree.deleted]

theorem Agree.findField (agree : Agree first second) (stored : Bool) (entity name : Text) :
    findField first stored entity name = findField second stored entity name := by
  unfold LinkedResolution.findField
  rw [agree.byId, agree.byKey]

theorem Agree.resolveField (agree : Agree first second) (stored : Bool) (entity : Text) (path : FieldPath) (purpose : Text) :
    resolveField contract first stored entity path purpose = resolveField contract second stored entity path purpose := by
  simp only [LinkedResolution.resolveField, agree.findField, agree.deleted, agree.deprecated]

theorem Agree.resolveFields (agree : Agree first second) (stored : Bool) (entity purpose : Text) (paths : List FieldPath) :
    resolveFields contract first stored entity purpose paths = resolveFields contract second stored entity purpose paths := by
  induction paths with
  | nil => rfl
  | cons path rest ih => simp only [LinkedResolution.resolveFields, agree.resolveField, ih]

theorem Agree.singleReference (agree : Agree first second) (entity : Text) (entry : ExtensibleEntity) (name : Text) (stored : Bool)
    (purpose kind : Text) : singleReference contract first entity entry name stored purpose kind =
      singleReference contract second entity entry name stored purpose kind := by
  simp only [LinkedResolution.singleReference, agree.findField, agree.deleted, agree.deprecated]

theorem Agree.resolveLookup (agree : Agree first second) (stored : Bool) (entity : Text) (entry : ExtensibleEntity) (via field : FieldPath) :
    resolveLookup contract first stored entity entry via field = resolveLookup contract second stored entity entry via field := by
  have sameVia : resolveVia contract first stored entity entry via = resolveVia contract second stored entity entry via := by
    cases via with
    | authored => rfl
    | tenant => simp only [resolveVia, agree.singleReference]
  simp only [LinkedResolution.resolveLookup, sameVia, agree.resolveField]

theorem Agree.resolveStep (agree : Agree first second) (stored : Bool) (child : Text) (via : FieldPath) :
    resolveStep contract first stored child via = resolveStep contract second stored child via := by
  cases via with
  | authored => rfl
  | tenant => simp only [LinkedResolution.resolveStep, agree.singleReference]

theorem Agree.resolveCollection (agree : Agree first second) (stored : Bool) (entity : Text) (entry : ExtensibleEntity)
    (collection : CollectionPath) : resolveCollection contract first stored entity entry collection =
      resolveCollection contract second stored entity entry collection := by
  cases collection with
  | relation => rfl
  | reference => simp only [LinkedResolution.resolveCollection, agree.findField, agree.deleted, agree.deprecated]

theorem Agree.resolveOf (agree : Agree first second) (stored : Bool) (child : Text) (of : Option OfPath) :
    resolveOf contract first stored child of = resolveOf contract second stored child of := by
  cases of with
  | none => rfl
  | some path => simp only [LinkedResolution.resolveOf, agree.resolveStep, agree.resolveField]

theorem Agree.resolveRollup (agree : Agree first second) (stored : Bool) (entity : Text) (entry : ExtensibleEntity)
    (collection : CollectionPath) (aggregate : RollupAggregate) (of : Option OfPath) (filter : Option Condition) :
    resolveRollup contract first stored entity entry collection aggregate of filter =
      resolveRollup contract second stored entity entry collection aggregate of filter := by
  have sameWhere : ∀ child, resolveWhere contract first stored child filter = resolveWhere contract second stored child filter := by
    intro child
    cases filter with
    | none => rfl
    | some condition => simp only [resolveWhere, agree.resolveFields]
  have sameSql : ∀ child of whereFields, rollupSql contract first stored child of filter whereFields =
      rollupSql contract second stored child of filter whereFields := by
    intro child of whereFields
    simp only [rollupSql, storedWhere, agree.byKey]
  simp only [LinkedResolution.resolveRollup, agree.resolveCollection, agree.resolveOf, sameWhere, sameSql]

theorem Agree.resolveSpec (agree : Agree first second) (stored : Bool) (entity : Text) (entry : ExtensibleEntity) (spec : Spec) :
    resolveSpec contract first stored entity entry spec = resolveSpec contract second stored entity entry spec := by
  cases spec with
  | stored | formula => rfl
  | lookup => simp only [LinkedResolution.resolveSpec, agree.resolveLookup]
  | rollup => simp only [LinkedResolution.resolveSpec, agree.resolveRollup]

theorem Agree.ownFailure (agree : Agree first second) (managed : List Text) (entity : Text) (entry : ExtensibleEntity) (field : ExtensionField) :
    ownFailure contract managed first entity entry field = ownFailure contract managed second entity entry field := by
  unfold Revalidation.ownFailure
  have sameInputs : ∀ reads, formulaInputs contract first entity entry reads = formulaInputs contract second entity entry reads := by
    intro reads
    have sameInput : formulaInput contract first entity entry = formulaInput contract second entity entry := by
      funext read
      simp only [formulaInput, agree.byId]
    rw [formulaInputs, formulaInputs, sameInput]
  simp only [agree.resolveSpec, sameInputs]

end Agreement

section Reads
variable (contract : Contract) (tenant : Tenant)

abbrev Node := Text × Text

def nodesOf (resolved : Resolved) : List Node :=
  (readFields resolved).filterMap fun read => read.field.map fun input => (read.entity, input.fieldId)

def readNodes (entity : Text) (entry : ExtensibleEntity) (field : ExtensionField) : List Node :=
  match field.definition.spec with
  | .stored => []
  | .formula reads _ => (selfReads tenant entity reads).map fun input => (entity, input.fieldId)
  | .lookup .. | .rollup .. =>
    match resolveSpec contract tenant true entity entry field.definition.spec with
    | .error _ => []
    | .ok resolved => nodesOf resolved

structure Computed (node : Node) (entry : ExtensibleEntity) (field : ExtensionField) : Prop where
  extensible : (node.1, entry) ∈ contract.entities
  member : field ∈ tenant.fields node.1
  named : field.fieldId = node.2
  computed : field.definition.spec.isStored = false

/-- A computed field reads another field directly. -/
def Reads (node read : Node) : Prop :=
  ∃ entry field, Computed contract tenant node entry field ∧ read ∈ readNodes contract tenant node.1 entry field

def Suspended (node : Node) : Prop := (tenant.status node.1 node.2).state = .suspended

def suspendedNodes : Set Node := {node | Suspended tenant node}

def Lost (node : Node) : Prop := tenant.status node.1 node.2 = ⟨.suspended, some .authorizationProofLost⟩

end Reads

section Reasons
variable {contract : Contract} {managed : List Text} {tenant : Tenant} {entity : Text} {entry : ExtensibleEntity} {field : ExtensionField}

theorem Agree.readNodes {first second : Tenant} (agree : Agree first second) :
    readNodes contract first entity entry field = readNodes contract second entity entry field := by
  unfold SuspensionReach.readNodes
  have sameReads : ∀ reads, selfReads first entity reads = selfReads second entity reads := by
    intro reads
    simp only [selfReads, agree.byId]
  simp only [agree.resolveSpec, sameReads]

theorem suspendedInput_eq_some {resolved : Resolved} {input : TargetField} {read : ExtensionField}
    (isFirst : suspendedInput tenant resolved = some input) (isRead : input.field = some read) :
    Propagation.FirstOf (Suspended tenant) (nodesOf resolved) (input.entity, read.fieldId) := by
  obtain ⟨suspended, front, back, isFields, none⟩ := List.find?_eq_some_iff_append.mp isFirst
  unfold isSuspended at suspended
  rw [isRead] at suspended
  unfold nodesOf
  rw [isFields, List.filterMap_append, List.filterMap_cons, isRead]
  refine ⟨_, _, rfl, (of_decide_eq_true suspended : tenant.state input.entity read = .suspended), ?_⟩
  intro other member otherSuspended
  obtain ⟨field, inFront, ofField⟩ := List.mem_filterMap.mp member
  obtain ⟨found, isFound, same⟩ := Option.map_eq_some_iff.mp ofField
  cases same
  have notSuspended := none field inFront
  unfold isSuspended at notSuspended
  rw [isFound, Option.any_some, decide_eq_true (show tenant.state field.entity found = .suspended from otherSuspended)] at notSuspended
  cases notSuspended

theorem suspendedInput_exists {resolved : Resolved} {node : Node} (read : node ∈ nodesOf resolved) (suspended : Suspended tenant node) :
    ∃ input found, suspendedInput tenant resolved = some input ∧ input.field = some found := by
  obtain ⟨input, member, ofInput⟩ := List.mem_filterMap.mp read
  obtain ⟨found, isFound, same⟩ := Option.map_eq_some_iff.mp ofInput
  cases same
  have isInput : isSuspended tenant input = true := by
    unfold isSuspended
    rw [isFound]
    exact decide_eq_true (show tenant.state input.entity found = .suspended from suspended)
  cases isFirst : suspendedInput tenant resolved with
  | none => exact absurd isInput (List.find?_eq_none.mp isFirst input member)
  | some one =>
    have oneSuspended : isSuspended tenant one = true := List.find?_some isFirst
    cases ofOne : one.field with
    | none =>
      unfold isSuspended at oneSuspended
      rw [ofOne] at oneSuspended
      cases oneSuspended
    | some read => exact ⟨one, read, rfl, ofOne⟩

theorem readNodes_linked (linked : field.definition.spec.isLinked = true) :
    readNodes contract tenant entity entry field =
      match resolveSpec contract tenant true entity entry field.definition.spec with
      | .error _ => []
      | .ok resolved => nodesOf resolved := by
  unfold SuspensionReach.readNodes
  cases isSpec : field.definition.spec with
  | stored | formula => exact absurd linked (by simp [isSpec, Spec.isLinked])
  | lookup | rollup => rfl

theorem suspendedRead_linked (linked : field.definition.spec.isLinked = true) :
    suspendedRead contract tenant entity entry field =
      match resolveSpec contract tenant true entity entry field.definition.spec with
      | .error _ => none
      | .ok resolved => (suspendedInput tenant resolved).bind fun input =>
          input.field.map fun read => (tenant.status input.entity read.fieldId, input.label) := by
  unfold suspendedRead
  cases isSpec : field.definition.spec with
  | stored | formula => exact absurd linked (by simp [isSpec, Spec.isLinked])
  | lookup | rollup => rfl

theorem suspendedRead_eq_some {status : Status} {name : Text} (found : suspendedRead contract tenant entity entry field = some (status, name)) :
    ∃ node, Propagation.FirstOf (Suspended tenant) (readNodes contract tenant entity entry field) node ∧ tenant.status node.1 node.2 = status := by
  cases linked : field.definition.spec.isLinked with
  | true =>
    rw [suspendedRead_linked linked] at found
    rw [readNodes_linked linked]
    split at found
    next => cases found
    next resolved isResolved =>
      obtain ⟨input, isFirst, ofInput⟩ := Option.bind_eq_some_iff.mp found
      obtain ⟨read, isRead, same⟩ := Option.map_eq_some_iff.mp ofInput
      cases same
      exact ⟨_, suspendedInput_eq_some isFirst isRead, rfl⟩
  | false =>
    unfold suspendedRead at found
    unfold SuspensionReach.readNodes
    cases isSpec : field.definition.spec with
    | lookup | rollup => exact absurd linked (by simp [isSpec, Spec.isLinked])
    | stored => simp [isSpec] at found
    | formula reads type =>
      simp only [isSpec] at found
      obtain ⟨input, isFirst, same⟩ := Option.map_eq_some_iff.mp found
      cases same
      obtain ⟨suspended, front, back, isReads, none⟩ := List.find?_eq_some_iff_append.mp isFirst
      dsimp only
      rw [isReads, List.map_append, List.map_cons]
      refine ⟨_, ⟨_, _, rfl, (of_decide_eq_true suspended : tenant.state entity input = .suspended), ?_⟩, rfl⟩
      intro other member otherSuspended
      obtain ⟨found, inFront, same⟩ := List.mem_map.mp member
      cases same
      have notSuspended := none found inFront
      rw [decide_eq_true (show tenant.state entity found = .suspended from otherSuspended)] at notSuspended
      cases notSuspended

theorem suspendedRead_isSome {node : Node} (read : node ∈ readNodes contract tenant entity entry field) (suspended : Suspended tenant node) :
    (suspendedRead contract tenant entity entry field).isSome = true := by
  cases linked : field.definition.spec.isLinked with
  | true =>
    rw [readNodes_linked linked] at read
    rw [suspendedRead_linked linked]
    split at read
    next => cases read
    next resolved isResolved =>
      obtain ⟨input, found, isFirst, isFound⟩ := suspendedInput_exists read suspended
      rw [isFirst, Option.bind_some, isFound]
      rfl
  | false =>
    unfold SuspensionReach.readNodes at read
    unfold suspendedRead
    cases isSpec : field.definition.spec with
    | lookup | rollup => exact absurd linked (by simp [isSpec, Spec.isLinked])
    | stored => simp [isSpec] at read
    | formula reads type =>
      simp only [isSpec] at read ⊢
      obtain ⟨input, member, same⟩ := List.mem_map.mp read
      cases same
      rw [Option.isSome_map, List.find?_isSome]
      exact ⟨input, member, decide_eq_true (show tenant.state entity input = .suspended from suspended)⟩

theorem suspensionOf_isSome : (suspensionOf contract managed tenant entity entry field).isSome = true ↔
    ownFailure contract managed tenant entity entry field ≠ none ∨
      ∃ node ∈ readNodes contract tenant entity entry field, Suspended tenant node := by
  have either : (suspensionOf contract managed tenant entity entry field).isSome = true ↔
      (ownFailure contract managed tenant entity entry field).isSome = true ∨
        (suspendedRead contract tenant entity entry field).isSome = true := by
    unfold suspensionOf
    split
    next => rw [Option.isSome_or, Bool.or_eq_true, Option.isSome_map, Option.isSome_map]
    next => rw [Option.isSome_or, Bool.or_eq_true, Option.isSome_map, Option.isSome_map, or_comm]
  rw [either, Option.isSome_iff_ne_none]
  refine or_congr Iff.rfl ⟨fun found => ?_, fun ⟨node, read, suspended⟩ => suspendedRead_isSome read suspended⟩
  obtain ⟨⟨status, name⟩, isFound⟩ := Option.isSome_iff_exists.mp found
  obtain ⟨node, isFirst, -⟩ := suspendedRead_eq_some isFound
  exact ⟨node, isFirst.mem, isFirst.holds_item⟩

end Reasons

section Turns
variable {contract : Contract} {managed : List Text} {start tenant : Tenant} {entity : Text}

/-- What suspensions make of a tenant: the same definitions, some of the live ones suspended. -/
structure Since (start tenant : Tenant) : Prop where
  fields : tenant.fields = start.fields
  status : ∀ entity id, tenant.status entity id = start.status entity id ∨
    isLive (start.status entity id).state = true ∧ Suspended tenant (entity, id)

theorem isLive_iff {state : ExtensionState} : isLive state = true ↔ state = .ready ∨ state = .updating := by
  cases state <;> simp [isLive]

theorem Since.agree (since : Since start tenant) : Agree start tenant where
  fields := since.fields.symm
  deleted := by
    intro entity field
    rcases since.status entity field.fieldId with same | ⟨live, suspended⟩
    · unfold Tenant.state
      rw [same]
    · have notStart : start.state entity field ≠ .deleted := by
        rcases isLive_iff.mp live with ready | updating
        · exact fun deleted => absurd (ready.symm.trans deleted) (by decide)
        · exact fun deleted => absurd (updating.symm.trans deleted) (by decide)
      have notNow : tenant.state entity field ≠ .deleted := fun deleted => absurd (suspended.symm.trans deleted) (by decide)
      exact iff_of_false notStart notNow
  deprecated := by
    intro entity field
    rcases since.status entity field.fieldId with same | ⟨live, suspended⟩
    · unfold Tenant.state
      rw [same]
    · have notStart : start.state entity field ≠ .deprecated := by
        rcases isLive_iff.mp live with ready | updating
        · exact fun deprecated => absurd (ready.symm.trans deprecated) (by decide)
        · exact fun deprecated => absurd (updating.symm.trans deprecated) (by decide)
      have notNow : tenant.state entity field ≠ .deprecated := fun deprecated => absurd (suspended.symm.trans deprecated) (by decide)
      exact iff_of_false notStart notNow

theorem Since.refl : Since start start := ⟨rfl, fun _ _ => .inl rfl⟩

theorem Since.trans {later : Tenant} (one : Since start tenant) (two : Since tenant later) : Since start later where
  fields := two.fields.trans one.fields
  status := by
    intro entity id
    rcases two.status entity id with same | ⟨live, suspended⟩
    · rcases one.status entity id with unchanged | ⟨wasLive, suspended⟩
      · exact .inl (same.trans unchanged)
      · exact .inr ⟨wasLive, (congrArg Status.state same).trans suspended⟩
    · rcases one.status entity id with unchanged | ⟨-, already⟩
      · exact .inr ⟨unchanged ▸ live, suspended⟩
      · exact absurd live (by rw [show (tenant.status entity id).state = .suspended from already]; decide)

theorem Since.suspended (since : Since start tenant) {node : Node} (suspended : Suspended start node) :
    tenant.status node.1 node.2 = start.status node.1 node.2 := by
  rcases since.status node.1 node.2 with same | ⟨live, -⟩
  · exact same
  · exact absurd live (by rw [show (start.status node.1 node.2).state = .suspended from suspended]; decide)

theorem since_suspendField (code : SuspendedReason) {id : Text} : Since tenant (suspendField tenant entity id code) where
  fields := rfl
  status := by
    intro e i
    unfold Suspended suspendField
    dsimp only
    split
    next holds => exact .inr ⟨holds.2.2, rfl⟩
    next => exact .inl rfl

theorem since_suspendAll (entity : Text) : ∀ (failed : List (ExtensionField × SuspendedReason × Text)) (tenant : Tenant),
    Since tenant (suspendAll tenant entity failed)
  | [], _ => Since.refl
  | entry :: rest, tenant => (since_suspendField entry.2.1).trans (since_suspendAll entity rest (suspendField tenant entity entry.1.fieldId entry.2.1))

theorem suspendAll_status (entity : Text) : ∀ (failed : List (ExtensionField × SuspendedReason × Text)) (tenant : Tenant),
    (failed.map fun entry => entry.1.fieldId).Nodup → ∀ e id, (suspendAll tenant entity failed).status e id =
      match failed.find? fun entry => entry.1.fieldId = id with
      | some entry => if e = entity ∧ isLive (tenant.status e id).state = true then ⟨.suspended, some entry.2.1⟩ else tenant.status e id
      | none => tenant.status e id
  | [], _, _, _, _ => rfl
  | entry :: rest, tenant, once, e, id => by
    obtain ⟨absent, onceRest⟩ := List.nodup_cons.mp once
    have after := suspendAll_status entity rest (suspendField tenant entity entry.1.fieldId entry.2.1) onceRest e id
    change (suspendAll (suspendField tenant entity entry.1.fieldId entry.2.1) entity rest).status e id = _
    rw [after]
    by_cases same : entry.1.fieldId = id
    · have notAgain : rest.find? (fun other => other.1.fieldId = id) = none := by
        rw [List.find?_eq_none]
        intro other member isId
        have isSame : other.1.fieldId = entry.1.fieldId := (of_decide_eq_true isId).trans same.symm
        exact absent (List.mem_map.mpr ⟨other, member, isSame⟩)
      simp only [notAgain, List.find?_cons, same, decide_true, suspendField, true_and]
    · simp only [List.find?_cons, same, decide_false]
      have unchanged : (suspendField tenant entity entry.1.fieldId entry.2.1).status e id = tenant.status e id := by
        dsimp only [suspendField]
        exact if_neg fun holds => same holds.2.1.symm
      rw [unchanged]

theorem mem_failing {entry : ExtensibleEntity} {failed : ExtensionField × SuspendedReason × Text} :
    failed ∈ failing contract managed tenant entity entry ↔ failed.1 ∈ tenant.fields entity ∧ failed.1.definition.spec.isStored = false ∧
      isLive (tenant.state entity failed.1) = true ∧ suspensionOf contract managed tenant entity entry failed.1 = some failed.2 := by
  unfold failing
  rw [List.mem_filterMap]
  constructor
  · rintro ⟨field, member, found⟩
    split at found
    next => cases found
    next isOpen =>
      obtain ⟨reason, isReason, same⟩ := Option.map_eq_some_iff.mp found
      cases same
      rw [Bool.or_eq_true, not_or, Bool.not_eq_true, Bool.not_eq_true, Bool.not_eq_false'] at isOpen
      exact ⟨member, isOpen.1, isOpen.2, isReason⟩
  · rintro ⟨member, computed, live, found⟩
    refine ⟨failed.1, member, ?_⟩
    rw [if_neg (by simp [computed, live]), found]
    rfl

theorem failing_once {entry : ExtensibleEntity} :
    ((failing contract managed tenant entity entry).map fun failed => failed.1.fieldId).Nodup := by
  have apart : (tenant.fields entity).Pairwise fun one two => one.fieldId ≠ two.fieldId := List.pairwise_map.mp (tenant.once entity)
  refine List.pairwise_map.mpr (apart.filterMap _ ?_)
  intro one two different first isFirst second isSecond
  have ofOne : first.1 = one := by
    split at isFirst
    next => cases isFirst
    next =>
      obtain ⟨reason, -, same⟩ := Option.map_eq_some_iff.mp isFirst
      exact same ▸ rfl
  have ofTwo : second.1 = two := by
    split at isSecond
    next => cases isSecond
    next =>
      obtain ⟨reason, -, same⟩ := Option.map_eq_some_iff.mp isSecond
      exact same ▸ rfl
  rw [ofOne, ofTwo]
  exact different

theorem turn_status (contract : Contract) (managed : List Text) (tenant : Tenant) (entity : Text) (entry : ExtensibleEntity) (node : Node) :
    (suspendAll tenant entity (failing contract managed tenant entity entry)).status node.1 node.2 = tenant.status node.1 node.2 ∨
      node.1 = entity ∧ ∃ field code reason, field ∈ tenant.fields entity ∧ field.fieldId = node.2 ∧ field.definition.spec.isStored = false ∧
        isLive (tenant.state entity field) = true ∧ suspensionOf contract managed tenant entity entry field = some (code, reason) ∧
        (suspendAll tenant entity (failing contract managed tenant entity entry)).status node.1 node.2 = ⟨.suspended, some code⟩ := by
  have status := suspendAll_status entity (failing contract managed tenant entity entry) tenant failing_once node.1 node.2
  split at status
  next failed isFound =>
    split at status
    next holds =>
      obtain ⟨member, computed, live, found⟩ := mem_failing.mp (List.mem_of_find?_eq_some isFound)
      have named := List.find?_some isFound
      replace named : failed.1.fieldId = node.2 := of_decide_eq_true named
      exact .inr ⟨holds.1, failed.1, failed.2.1, failed.2.2, member, named, computed, live, found, status⟩
    next => exact .inl status
  next => exact .inl status

theorem turn_suspends {entry : ExtensibleEntity} {field : ExtensionField} (member : field ∈ tenant.fields entity)
    (computed : field.definition.spec.isStored = false) (live : isLive (tenant.state entity field) = true)
    (found : (suspensionOf contract managed tenant entity entry field).isSome = true) :
    Suspended (suspendAll tenant entity (failing contract managed tenant entity entry)) (entity, field.fieldId) := by
  obtain ⟨reason, isReason⟩ := Option.isSome_iff_exists.mp found
  have failed : (field, reason) ∈ failing contract managed tenant entity entry := mem_failing.mpr ⟨member, computed, live, isReason⟩
  have status := suspendAll_status entity (failing contract managed tenant entity entry) tenant failing_once entity field.fieldId
  split at status
  next =>
    rw [if_pos ⟨rfl, live⟩] at status
    unfold Suspended
    rw [status]
  next isNone => exact absurd (decide_eq_true rfl) (List.find?_eq_none.mp isNone _ failed)

def spreadOf (contract : Contract) (managed : List Text) (start : Tenant) : Propagation.Spread Node Text where
  group := Prod.fst
  order := contract.entityNames
  once := contract.once
  root node := ∃ entry field, Computed contract start node entry field ∧ isLive (start.status node.1 node.2).state = true ∧
    ownFailure contract managed start node.1 entry field ≠ none
  reads node read := ∃ entry field, Computed contract start node entry field ∧ isLive (start.status node.1 node.2).state = true ∧
    read ∈ readNodes contract start node.1 entry field
  given := suspendedNodes start

theorem entry_unique {name : Text} {one two : ExtensibleEntity} (first : (name, one) ∈ contract.entities)
    (second : (name, two) ∈ contract.entities) : one = two := by
  have same := List.inj_on_of_nodup_map contract.once first second rfl
  exact (Prod.mk.inj same).2

theorem turn_eq (managed : List Text) {entry : ExtensibleEntity} (since : Since start tenant) (member : (entity, entry) ∈ contract.entities) :
    suspendedNodes (suspendAll tenant entity (failing contract managed tenant entity entry)) =
      (spreadOf contract managed start).turn (suspendedNodes tenant) entity := by
  have agree := since.agree
  have failure : ∀ field, ownFailure contract managed tenant entity entry field = ownFailure contract managed start entity entry field :=
    fun field => (agree.ownFailure managed entity entry field).symm
  have reading : ∀ field, readNodes contract tenant entity entry field = readNodes contract start entity entry field :=
    fun field => agree.readNodes.symm
  have becomes := since_suspendAll entity (failing contract managed tenant entity entry) tenant
  ext node
  constructor
  · intro suspended
    rcases turn_status contract managed tenant entity entry node with
      same | ⟨ofEntity, field, code, reason, inFields, named, computed, live, found, -⟩
    · exact .inl ((congrArg Status.state same).symm.trans suspended)
    · have isComputed : Computed contract start node entry field := ⟨ofEntity ▸ member, ofEntity ▸ since.fields ▸ inFields, named, computed⟩
      have wasLive : isLive (start.status node.1 node.2).state = true := by
        rcases since.status node.1 node.2 with same | ⟨wasLive, -⟩
        · rw [← same, ofEntity, ← named]
          exact live
        · exact wasLive
      refine .inr ⟨ofEntity, ?_⟩
      rcases suspensionOf_isSome.mp (by rw [found]; rfl) with fails | ⟨read, isRead, readSuspended⟩
      · exact .inl ⟨entry, field, isComputed, wasLive, ofEntity ▸ failure field ▸ fails⟩
      · exact .inr ⟨read, ⟨entry, field, isComputed, wasLive, ofEntity ▸ reading field ▸ isRead⟩, readSuspended⟩
  · rintro (already | ⟨ofEntity, falls⟩)
    · exact (congrArg Status.state (becomes.suspended already)).trans already
    · obtain ⟨entity', id⟩ := node
      replace ofEntity : entity' = entity := ofEntity
      subst ofEntity
      by_cases already : Suspended tenant (entity', id)
      · exact (congrArg Status.state (becomes.suspended already)).trans already
      have suspends : ∀ other field, Computed contract start (entity', id) other field → isLive (start.status entity' id).state = true →
          (suspensionOf contract managed tenant entity' entry field).isSome = true →
          Suspended (suspendAll tenant entity' (failing contract managed tenant entity' entry)) (entity', id) := by
        intro other field isComputed wasLive found
        have live : isLive (tenant.state entity' field) = true := by
          unfold Tenant.state
          rw [isComputed.named]
          rcases since.status entity' id with same | ⟨-, suspended⟩
          · exact same ▸ wasLive
          · exact absurd suspended already
        have inFields : field ∈ tenant.fields entity' := since.fields ▸ isComputed.member
        have named : field.fieldId = id := isComputed.named
        exact named ▸ turn_suspends inFields isComputed.computed live found
      rcases falls with ⟨other, field, isComputed, wasLive, fails⟩ | ⟨read, ⟨other, field, isComputed, wasLive, isRead⟩, readSuspended⟩
      · have sameEntry : other = entry := entry_unique isComputed.extensible member
        subst sameEntry
        exact suspends other field isComputed wasLive (suspensionOf_isSome.mpr (.inl ((failure field).symm ▸ fails)))
      · have sameEntry : other = entry := entry_unique isComputed.extensible member
        subst sameEntry
        exact suspends other field isComputed wasLive (suspensionOf_isSome.mpr (.inr ⟨read, (reading field).symm ▸ isRead, readSuspended⟩))

end Turns

section Rounds
variable {contract : Contract} {managed : List Text} {start tenant : Tenant}

theorem turns_eq (managed : List Text) : ∀ (extensibles : List (Text × ExtensibleEntity)) (progress : Tenant × List Suspension),
    (∀ extensible ∈ extensibles, extensible ∈ contract.entities) → Since start progress.1 →
    Since start (extensibles.foldl (entityTurn contract managed) progress).1 ∧
      suspendedNodes (extensibles.foldl (entityTurn contract managed) progress).1 =
        (extensibles.map Prod.fst).foldl (spreadOf contract managed start).turn (suspendedNodes progress.1)
  | [], _, _, since => ⟨since, rfl⟩
  | extensible :: rest, progress, members, since => by
    have member := members extensible List.mem_cons_self
    have turned : Since start (entityTurn contract managed progress extensible).1 :=
      since.trans (since_suspendAll extensible.1 (failing contract managed progress.1 extensible.1 extensible.2) progress.1)
    have after := turns_eq managed rest (entityTurn contract managed progress extensible)
      (fun other inside => members other (List.mem_cons_of_mem _ inside)) turned
    refine ⟨after.1, ?_⟩
    have turn : suspendedNodes (entityTurn contract managed progress extensible).1 =
        (spreadOf contract managed start).turn (suspendedNodes progress.1) extensible.1 := turn_eq managed since member
    rw [List.foldl_cons, after.2, List.map_cons, List.foldl_cons, turn]

theorem turns_quiet : ∀ (extensibles : List (Text × ExtensibleEntity)) (progress : Tenant × List Suspension),
    (extensibles.foldl (entityTurn contract managed) progress).2 = [] →
    (extensibles.foldl (entityTurn contract managed) progress).1 = progress.1 ∧ progress.2 = []
  | [], _, quiet => ⟨rfl, quiet⟩
  | extensible :: rest, progress, quiet => by
    obtain ⟨same, nothing⟩ := turns_quiet rest (entityTurn contract managed progress extensible) quiet
    obtain ⟨before, found⟩ := List.append_eq_nil_iff.mp nothing
    refine ⟨?_, before⟩
    rw [List.foldl_cons, same]
    change suspendAll progress.1 extensible.1 (failing contract managed progress.1 extensible.1 extensible.2) = progress.1
    rw [List.map_eq_nil_iff.mp found]
    rfl

theorem rounds_eq : ∀ (rounds : Nat) (tenant : Tenant), Since start tenant →
    Since start (revalidationRounds contract managed rounds tenant).1 ∧
      suspendedNodes (revalidationRounds contract managed rounds tenant).1 =
        (spreadOf contract managed start).round^[rounds] (suspendedNodes tenant)
  | 0, _, since => ⟨since, rfl⟩
  | rounds + 1, tenant, since => by
    have round := turns_eq managed contract.entities (tenant, []) (fun _ member => member) since
    unfold revalidationRounds
    split
    next quiet =>
      have unchanged := (turns_quiet contract.entities (tenant, []) quiet).1
      have fixed : (spreadOf contract managed start).round (suspendedNodes tenant) = suspendedNodes tenant := by
        refine round.2.symm.trans ?_
        rw [unchanged]
      exact ⟨since, (Function.iterate_fixed fixed _).symm⟩
    next =>
      have rest := rounds_eq rounds (revalidationRound contract managed tenant).1 round.1
      refine ⟨rest.1, ?_⟩
      rw [Function.iterate_succ_apply]
      exact rest.2.trans (congrArg _ round.2)

/-- Nothing is left that should be suspended, and nothing is suspended that should not be. -/
structure Settled (contract : Contract) (managed : List Text) (start final : Tenant) : Prop where
  stable : ∀ node entry field, Computed contract final node entry field → isLive (final.status node.1 node.2).state = true →
    ownFailure contract managed final node.1 entry field = none ∧ ∀ read ∈ readNodes contract final node.1 entry field, ¬Suspended final read
  sound : ∀ node entry field, Computed contract final node entry field → isLive (start.status node.1 node.2).state = true →
    Suspended final node → ownFailure contract managed final node.1 entry field ≠ none ∨
      ∃ read ∈ readNodes contract final node.1 entry field, Suspended final read

/-- A suspended field that reads one whose proof is lost, through any number of suspended ones, has lost its own. -/
def Inherited (contract : Contract) (final : Tenant) : Prop :=
  ∀ node read, Relation.ReflTransGen (fun node read => Reads contract final node read ∧ Suspended final node) node read →
    Lost final read → Lost final node

/-- A chain of reads that a revalidation follows needs this many rounds after the first. -/
abbrev Falls (contract : Contract) (managed : List Text) (start : Tenant) : Nat → Node → Prop := (spreadOf contract managed start).Falls

theorem since_revalidate : Since start (revalidateLinkedFields contract managed start).1 := (rounds_eq maxRounds start Since.refl).1

theorem nodes_revalidate : suspendedNodes (revalidateLinkedFields contract managed start).1 =
    (spreadOf contract managed start).round^[maxRounds] (spreadOf contract managed start).given :=
  (rounds_eq maxRounds start Since.refl).2

theorem live_of_falls {count : Nat} {node : Node} (falls : Falls contract managed start count node) :
    isLive (start.status node.1 node.2).state = true := by
  cases falls with
  | root _ root =>
    obtain ⟨_, _, _, live, _⟩ := root
    exact live
  | given _ reads | earlier _ reads | later _ reads =>
    obtain ⟨_, _, _, live, _⟩ := reads
    exact live

theorem not_suspended {tenant : Tenant} {node : Node} (live : isLive (tenant.status node.1 node.2).state = true) : ¬Suspended tenant node := by
  intro suspended
  rw [show (tenant.status node.1 node.2).state = .suspended from suspended] at live
  exact absurd live (by decide)

theorem computed_since {tenant : Tenant} {node : Node} {entry : ExtensibleEntity} {field : ExtensionField} (since : Since start tenant) :
    Computed contract tenant node entry field ↔ Computed contract start node entry field := by
  constructor
  · exact fun computed => ⟨computed.extensible, since.fields ▸ computed.member, computed.named, computed.computed⟩
  · exact fun computed => ⟨computed.extensible, since.fields.symm ▸ computed.member, computed.named, computed.computed⟩

theorem Computed.unique {tenant : Tenant} {node : Node} {one two : ExtensibleEntity} {field other : ExtensionField}
    (first : Computed contract tenant node one field) (second : Computed contract tenant node two other) : one = two ∧ field = other :=
  ⟨entry_unique first.extensible second.extensible,
    List.inj_on_of_nodup_map (tenant.once node.1) first.member second.member (first.named.trans second.named.symm)⟩

theorem mem_entityNames {node : Node} {entry : ExtensibleEntity} {field : ExtensionField} (computed : Computed contract start node entry field) :
    node.1 ∈ contract.entityNames := List.mem_map.mpr ⟨(node.1, entry), computed.extensible, rfl⟩

theorem suspended_revalidate {node : Node} : Suspended (revalidateLinkedFields contract managed start).1 node ↔
    Suspended start node ∨ ∃ count < maxRounds, Falls contract managed start count node := by
  have reached : node ∈ suspendedNodes (revalidateLinkedFields contract managed start).1 ↔
      node ∈ suspendedNodes start ∨ ∃ count < maxRounds, Falls contract managed start count node := by
    rw [nodes_revalidate]
    exact Propagation.Spread.mem_rounds
  exact reached

theorem sound_revalidate {node : Node} {entry : ExtensibleEntity} {field : ExtensionField} (computed : Computed contract start node entry field)
    (live : isLive (start.status node.1 node.2).state = true) (suspended : Suspended (revalidateLinkedFields contract managed start).1 node) :
    ownFailure contract managed start node.1 entry field ≠ none ∨
      ∃ read ∈ readNodes contract start node.1 entry field, Suspended (revalidateLinkedFields contract managed start).1 read := by
  rcases suspended_revalidate.mp suspended with before | ⟨count, bound, falls⟩
  · exact absurd before (not_suspended live)
  cases falls with
  | root _ root =>
    obtain ⟨other, again, same, -, fails⟩ := root
    obtain ⟨rfl, rfl⟩ := computed.unique same
    exact .inl fails
  | given _ reads before =>
    obtain ⟨other, again, same, -, isRead⟩ := reads
    obtain ⟨rfl, rfl⟩ := computed.unique same
    exact .inr ⟨_, isRead, suspended_revalidate.mpr (.inl before)⟩
  | earlier falls reads =>
    obtain ⟨other, again, same, -, isRead⟩ := reads
    obtain ⟨rfl, rfl⟩ := computed.unique same
    exact .inr ⟨_, isRead, suspended_revalidate.mpr (.inr ⟨_, bound, falls⟩)⟩
  | later falls reads =>
    obtain ⟨other, again, same, -, isRead⟩ := reads
    obtain ⟨rfl, rfl⟩ := computed.unique same
    exact .inr ⟨_, isRead, suspended_revalidate.mpr (.inr ⟨_, (Nat.lt_succ_self _).trans bound, falls⟩)⟩

theorem settled_iff_closed : Settled contract managed start (revalidateLinkedFields contract managed start).1 ↔
    (spreadOf contract managed start).Closed (suspendedNodes (revalidateLinkedFields contract managed start).1) := by
  have since : Since start (revalidateLinkedFields contract managed start).1 := since_revalidate
  have sound := fun node entry field => @sound_revalidate contract managed start node entry field
  generalize (revalidateLinkedFields contract managed start).1 = final at since sound
  have agree := since.agree
  have failure : ∀ entity entry field, ownFailure contract managed final entity entry field = ownFailure contract managed start entity entry field :=
    fun entity entry field => (agree.ownFailure managed entity entry field).symm
  have reading : ∀ entity entry field, readNodes contract final entity entry field = readNodes contract start entity entry field :=
    fun entity entry field => agree.readNodes.symm
  constructor
  · rintro settled node - falls
    have suspends : ∀ entry field, Computed contract start node entry field → isLive (start.status node.1 node.2).state = true →
        (ownFailure contract managed start node.1 entry field ≠ none ∨
          ∃ read ∈ readNodes contract start node.1 entry field, Suspended final read) → Suspended final node := by
      intro entry field computed live falls
      by_contra notSuspended
      have unchanged := (since.status node.1 node.2).resolve_right fun both => notSuspended both.2
      obtain ⟨holds, reads⟩ := settled.stable node entry field ((computed_since since).mpr computed) (unchanged.symm ▸ live)
      rcases falls with fails | ⟨read, isRead, suspended⟩
      · exact fails ((failure _ _ _).symm.trans holds)
      · exact reads read ((reading _ _ _).symm ▸ isRead) suspended
    rcases falls with ⟨entry, field, computed, live, fails⟩ | ⟨read, ⟨entry, field, computed, live, isRead⟩, suspended⟩
    · exact suspends entry field computed live (.inl fails)
    · exact suspends entry field computed live (.inr ⟨read, isRead, suspended⟩)
  · intro closed
    constructor
    · intro node entry field computed live
      have atStart := (computed_since since).mp computed
      have wasLive : isLive (start.status node.1 node.2).state = true := by
        rcases since.status node.1 node.2 with same | ⟨-, suspended⟩
        · exact same ▸ live
        · exact absurd suspended (not_suspended live)
      have holds : ¬((spreadOf contract managed start).root node ∨
          ∃ read, (spreadOf contract managed start).reads node read ∧ read ∈ suspendedNodes final) :=
        fun falls => not_suspended live (closed node (mem_entityNames atStart) falls)
      constructor
      · by_contra fails
        exact holds (.inl ⟨entry, field, atStart, wasLive, (failure _ _ _) ▸ fails⟩)
      · intro read isRead suspended
        exact holds (.inr ⟨read, ⟨entry, field, atStart, wasLive, (reading _ _ _) ▸ isRead⟩, suspended⟩)
    · intro node entry field computed live suspended
      rw [failure, reading]
      exact sound node entry field ((computed_since since).mp computed) live suspended

theorem settled_iff : Settled contract managed start (revalidateLinkedFields contract managed start).1 ↔
    ∀ count node, Falls contract managed start count node → ∃ early < maxRounds, Falls contract managed start early node := by
  rw [settled_iff_closed, nodes_revalidate, Propagation.Spread.closed_iff]
  refine forall_congr' fun count => forall_congr' fun node => imp_congr_right fun falls => ?_
  exact or_iff_right (not_suspended (live_of_falls falls))

end Rounds

section Blame
variable {contract : Contract} {managed : List Text} {start tenant : Tenant}

def SuspendedOtherwise (start : Tenant) (node : Node) : Prop := Suspended start node ∧ ¬Lost start node

/-- A live lookup or rollup that does not hold by itself: it says so, whatever it reads. -/
def OwnProofLost (contract : Contract) (managed : List Text) (start : Tenant) (node : Node) : Prop :=
  ∃ entry field, Computed contract start node entry field ∧ isLive (start.status node.1 node.2).state = true ∧
    field.definition.spec.isLinked = true ∧ ownFailure contract managed start node.1 entry field ≠ none

/-- The first field that a live field reads of those suspended by the time it falls. -/
def Meets (contract : Contract) (managed : List Text) (start : Tenant) (node read : Node) : Prop :=
  ∃ entry field count, Computed contract start node entry field ∧ isLive (start.status node.1 node.2).state = true ∧
    IsLeast {fallen | Falls contract managed start fallen node} count ∧
    Propagation.FirstOf ((spreadOf contract managed start).MarkedBefore count node) (readNodes contract start node.1 entry field) read

/-- The field that a field meets, and the one that meets in turn, leads to one suspended otherwise. -/
def BlamesOther (contract : Contract) (managed : List Text) (start : Tenant) (node : Node) : Prop :=
  ∃ other, Relation.ReflTransGen (fun node read => Meets contract managed start node read ∧ ¬OwnProofLost contract managed start node) node other ∧
    SuspendedOtherwise start other

theorem Meets.unique {node one two : Node} (first : Meets contract managed start node one) (second : Meets contract managed start node two) :
    one = two := by
  obtain ⟨entry, field, count, computed, -, least, isFirst⟩ := first
  obtain ⟨_, _, later, same, -, otherLeast, isSecond⟩ := second
  obtain ⟨rfl, rfl⟩ := computed.unique same
  rw [otherLeast.unique least] at isSecond
  exact isFirst.unique isSecond

theorem live_of_meets {node read : Node} (meets : Meets contract managed start node read) : isLive (start.status node.1 node.2).state = true := by
  obtain ⟨-, -, -, -, live, -⟩ := meets
  exact live

theorem not_blamesOther {node : Node} (live : isLive (start.status node.1 node.2).state = true)
    (none : ∀ read, Meets contract managed start node read → OwnProofLost contract managed start node) : ¬BlamesOther contract managed start node := by
  rintro ⟨other, path, isOther⟩
  rcases Relation.ReflTransGen.cases_head path with rfl | ⟨read, ⟨meets, notLost⟩, -⟩
  · exact not_suspended live isOther.1
  · exact notLost (none read meets)

theorem blamesOther_iff {node read : Node} (meets : Meets contract managed start node read) (holds : ¬OwnProofLost contract managed start node) :
    BlamesOther contract managed start node ↔ BlamesOther contract managed start read := by
  constructor
  · rintro ⟨other, path, isOther⟩
    rcases Relation.ReflTransGen.cases_head path with rfl | ⟨next, ⟨meetsNext, -⟩, rest⟩
    · exact absurd isOther.1 (not_suspended (live_of_meets meets))
    · exact ⟨other, meetsNext.unique meets ▸ rest, isOther⟩
  · rintro ⟨other, path, isOther⟩
    exact ⟨other, path.head ⟨meets, holds⟩, isOther⟩

/-- Each suspended field carries the reason it has to blame. -/
def Caused (contract : Contract) (managed : List Text) (start tenant : Tenant) : Prop :=
  ∀ node, Suspended tenant node → (Lost tenant node ↔ ¬BlamesOther contract managed start node)

theorem caused_start : Caused contract managed start start := by
  intro node suspended
  constructor
  · rintro lost ⟨other, path, isOther⟩
    rcases Relation.ReflTransGen.cases_head path with rfl | ⟨read, ⟨meets, -⟩, -⟩
    · exact isOther.2 lost
    · exact not_suspended (live_of_meets meets) suspended
  · intro notOther
    by_contra notLost
    exact notOther ⟨node, .refl, suspended, notLost⟩

theorem inheritedSuspension_eq {node : Node} (suspended : Suspended tenant node) :
    inheritedSuspension (tenant.status node.1 node.2) = .authorizationProofLost ↔ Lost tenant node := by
  unfold inheritedSuspension Lost
  unfold Suspended at suspended
  generalize tenant.status node.1 node.2 = status at suspended
  obtain ⟨state, reason⟩ := status
  cases suspended
  by_cases isLost : reason = some .authorizationProofLost
  · simp [isLost]
  · simp [isLost]

theorem suspensionOf_eq_some {entity : Text} {entry : ExtensibleEntity} {field : ExtensionField} {code : SuspendedReason} {reason : Text}
    (found : suspensionOf contract managed tenant entity entry field = some (code, reason)) :
    code = .authorizationProofLost ∧ ownFailure contract managed tenant entity entry field ≠ none ∧
        (field.definition.spec.isLinked = true ∨ ∀ read ∈ readNodes contract tenant entity entry field, ¬Suspended tenant read) ∨
      (field.definition.spec.isLinked = true → ownFailure contract managed tenant entity entry field = none) ∧
        ∃ read, Propagation.FirstOf (Suspended tenant) (readNodes contract tenant entity entry field) read ∧
          code = inheritedSuspension (tenant.status read.1 read.2) := by
  have ofOwn : (ownFailure contract managed tenant entity entry field).map (fun reason => (SuspendedReason.authorizationProofLost, reason)) =
      some (code, reason) → code = .authorizationProofLost ∧ ownFailure contract managed tenant entity entry field ≠ none := by
    intro own
    obtain ⟨text, isOwn, same⟩ := Option.map_eq_some_iff.mp own
    cases same
    exact ⟨rfl, fun none => absurd (isOwn.symm.trans none) (by simp)⟩
  have ofRead : (suspendedRead contract tenant entity entry field).map (fun input => (inheritedSuspension input.1, input.2 ++ js " is suspended.")) =
      some (code, reason) → ∃ read, Propagation.FirstOf (Suspended tenant) (readNodes contract tenant entity entry field) read ∧
        code = inheritedSuspension (tenant.status read.1 read.2) := by
    intro inherited
    obtain ⟨⟨status, name⟩, isRead, same⟩ := Option.map_eq_some_iff.mp inherited
    cases same
    obtain ⟨read, isFirst, isStatus⟩ := suspendedRead_eq_some isRead
    exact ⟨read, isFirst, by rw [isStatus]⟩
  unfold suspensionOf at found
  split at found
  next linked =>
    rcases Option.or_eq_some_iff.mp found with own | ⟨none, inherited⟩
    · obtain ⟨isLost, fails⟩ := ofOwn own
      exact .inl ⟨isLost, fails, .inl linked⟩
    · exact .inr ⟨fun _ => Option.map_eq_none_iff.mp none, ofRead inherited⟩
  next formula =>
    rcases Option.or_eq_some_iff.mp found with inherited | ⟨none, own⟩
    · exact .inr ⟨fun linked => absurd linked formula, ofRead inherited⟩
    · obtain ⟨isLost, fails⟩ := ofOwn own
      refine .inl ⟨isLost, fails, .inr fun read isRead suspended => ?_⟩
      have found := suspendedRead_isSome isRead suspended
      rw [Option.map_eq_none_iff.mp none] at found
      cases found

/-- Where a round is: the entities that had their turn, and those that are left. -/
structure Turn (contract : Contract) (managed : List Text) (start tenant : Tenant) (count : Nat) (front : List Text)
    (rest : List (Text × ExtensibleEntity)) : Prop where
  order : contract.entityNames = front ++ rest.map Prod.fst
  members : ∀ extensible ∈ rest, extensible ∈ contract.entities
  since : Since start tenant
  nodes : suspendedNodes tenant = Propagation.Spread.reached (spreadOf contract managed start) count front
  caused : Caused contract managed start tenant

theorem caused_turn {count : Nat} {front : List Text} {entity : Text} {entry : ExtensibleEntity} {rest : List (Text × ExtensibleEntity)}
    (at' : Turn contract managed start tenant count front ((entity, entry) :: rest)) :
    Caused contract managed start (suspendAll tenant entity (failing contract managed tenant entity entry)) := by
  have member := at'.members _ List.mem_cons_self
  have agree := at'.since.agree
  have failure : ∀ field, ownFailure contract managed tenant entity entry field = ownFailure contract managed start entity entry field :=
    fun field => (agree.ownFailure managed entity entry field).symm
  have reading : ∀ field, readNodes contract tenant entity entry field = readNodes contract start entity entry field :=
    fun field => agree.readNodes.symm
  rintro ⟨group, id⟩ suspended
  rcases turn_status contract managed tenant entity entry (group, id) with
    same | ⟨ofEntity, field, code, reason, inFields, named, computed, live, found, becomes⟩
  · have was : Suspended tenant (group, id) := (congrArg Status.state same).symm.trans suspended
    unfold Lost
    rw [same]
    exact at'.caused (group, id) was
  replace ofEntity : group = entity := ofEntity
  subst ofEntity
  have isComputed : Computed contract start (group, id) entry field := ⟨member, at'.since.fields ▸ inFields, named, computed⟩
  have isNamed : field.fieldId = id := named
  have liveNow : isLive (tenant.status group id).state = true := by
    rw [← isNamed]
    exact live
  have wasLive : isLive (start.status group id).state = true := by
    rcases at'.since.status group id with same | ⟨wasLive, -⟩
    · exact same ▸ liveNow
    · exact wasLive
  -- The node falls in this round, and what it finds suspended is what was marked before its turn.
  have isOrder : (spreadOf contract managed start).order =
      front ++ (spreadOf contract managed start).group (group, id) :: rest.map Prod.fst := at'.order
  have unmarked : (group, id) ∉ Propagation.Spread.reached (spreadOf contract managed start) count front :=
    at'.nodes ▸ fun already => not_suspended liveNow already
  have marked : (group, id) ∈ (spreadOf contract managed start).turn
      (Propagation.Spread.reached (spreadOf contract managed start) count front) group := by
    rw [← at'.nodes, ← turn_eq managed at'.since member]
    exact suspended
  have least := Propagation.Spread.least_of_turn isOrder unmarked marked
  have marks : ∀ read, Suspended tenant read ↔ (spreadOf contract managed start).MarkedBefore count (group, id) read := by
    intro read
    rw [← Propagation.Spread.mem_reached_iff isOrder, ← at'.nodes]
    exact Iff.rfl
  have lostIff : Lost (suspendAll tenant group (failing contract managed tenant group entry)) (group, id) ↔ code = .authorizationProofLost := by
    unfold Lost
    rw [becomes]
    simp
  rw [lostIff]
  rcases suspensionOf_eq_some found with ⟨isLost, fails, alone⟩ | ⟨holds, read, isFirst, isCode⟩
  · refine iff_of_true isLost (not_blamesOther wasLive ?_)
    rintro read ⟨_, _, later, same, -, isLeast, isFirst⟩
    obtain ⟨rfl, rfl⟩ := isComputed.unique same
    rcases alone with linked | noneSuspended
    · exact ⟨entry, field, isComputed, wasLive, linked, failure field ▸ fails⟩
    · have isMarked := isFirst.holds_item
      rw [isLeast.unique least, ← marks] at isMarked
      exact absurd isMarked (noneSuspended read (reading field ▸ isFirst.mem))
  · have meets : Meets contract managed start (group, id) read :=
      ⟨entry, field, count, isComputed, wasLive, least, reading field ▸ (Propagation.FirstOf.congr marks).mp isFirst⟩
    have notOwn : ¬OwnProofLost contract managed start (group, id) := by
      rintro ⟨_, _, same, -, linked, fails⟩
      obtain ⟨rfl, rfl⟩ := isComputed.unique same
      exact fails (failure field ▸ holds linked)
    rw [blamesOther_iff meets notOwn, ← at'.caused read isFirst.holds_item, isCode]
    exact inheritedSuspension_eq isFirst.holds_item

theorem turn_next {count : Nat} {front : List Text} {extensible : Text × ExtensibleEntity} {rest : List (Text × ExtensibleEntity)}
    {progress : Tenant × List Suspension} (at' : Turn contract managed start progress.1 count front (extensible :: rest)) :
    Turn contract managed start (entityTurn contract managed progress extensible).1 count (front ++ [extensible.1]) rest where
  order := by rw [at'.order, List.append_assoc]; rfl
  members other inside := at'.members other (List.mem_cons_of_mem _ inside)
  since := at'.since.trans (since_suspendAll extensible.1 (failing contract managed progress.1 extensible.1 extensible.2) progress.1)
  nodes := by
    have turned := turn_eq managed at'.since (at'.members extensible List.mem_cons_self)
    have isOrder : (spreadOf contract managed start).order = front ++ extensible.1 :: rest.map Prod.fst := at'.order
    rw [at'.nodes, Propagation.Spread.turn_reached isOrder] at turned
    exact turned
  caused := caused_turn at'

theorem turns_end {count : Nat} : ∀ (rest : List (Text × ExtensibleEntity)) (front : List Text) (progress : Tenant × List Suspension),
    Turn contract managed start progress.1 count front rest →
    Turn contract managed start (rest.foldl (entityTurn contract managed) progress).1 count contract.entityNames []
  | [], front, progress, at' => by
    have isFront : contract.entityNames = front := at'.order.trans (List.append_nil front)
    exact isFront ▸ at'
  | extensible :: rest, front, progress, at' =>
    turns_end rest (front ++ [extensible.1]) (entityTurn contract managed progress extensible) (turn_next at')

theorem caused_rounds : ∀ (rounds : Nat) {count : Nat} {tenant : Tenant}, Turn contract managed start tenant count [] contract.entities →
    Caused contract managed start (revalidationRounds contract managed rounds tenant).1
  | 0, _, _, at' => at'.caused
  | rounds + 1, count, tenant, at' => by
    unfold revalidationRounds
    split
    next => exact at'.caused
    next =>
      have done : Turn contract managed start (revalidationRound contract managed tenant).1 count contract.entityNames [] :=
        turns_end contract.entities [] (tenant, []) at'
      have again : Turn contract managed start (revalidationRound contract managed tenant).1 (count + 1) [] contract.entities :=
        { order := rfl
          members := fun _ member => member
          since := done.since
          nodes := done.nodes.trans Propagation.Spread.reached_order
          caused := done.caused }
      exact caused_rounds rounds again

theorem caused_revalidate : Caused contract managed start (revalidateLinkedFields contract managed start).1 := by
  have first : Turn contract managed start start 0 [] contract.entities :=
    { order := rfl
      members := fun _ member => member
      since := Since.refl
      nodes := Propagation.Spread.rounds_reached (spreadOf contract managed start) 0
      caused := caused_start }
  exact caused_rounds maxRounds first

/-- A field is suspended once the rounds are over. -/
def Caught (contract : Contract) (managed : List Text) (start : Tenant) (node : Node) : Prop :=
  Suspended start node ∨ ∃ count < maxRounds, Falls contract managed start count node

/-- A lost proof is inherited link by link exactly when no field that blames another reason reads one that blames a lost proof. -/
theorem inherited_iff : Inherited contract (revalidateLinkedFields contract managed start).1 ↔
    ∀ node read, Reads contract start node read → Caught contract managed start node → Caught contract managed start read →
      BlamesOther contract managed start node → BlamesOther contract managed start read := by
  have since : Since start (revalidateLinkedFields contract managed start).1 := since_revalidate
  have caused : Caused contract managed start (revalidateLinkedFields contract managed start).1 := caused_revalidate
  have caught : ∀ node, Suspended (revalidateLinkedFields contract managed start).1 node ↔ Caught contract managed start node :=
    fun _ => suspended_revalidate
  generalize (revalidateLinkedFields contract managed start).1 = final at since caused caught
  have reading : ∀ node read, Reads contract final node read ↔ Reads contract start node read := by
    intro node read
    unfold Reads
    simp only [computed_since since, since.agree.readNodes]
  constructor
  · intro inherited node read reads isCaught readCaught blames
    by_contra notOther
    have suspended := (caught node).mpr isCaught
    have readLost : Lost final read := (caused read ((caught read).mpr readCaught)).mpr notOther
    have lost := inherited node read (.single ⟨(reading node read).mpr reads, suspended⟩) readLost
    exact (caused node suspended).mp lost blames
  · intro handed node read path lost
    induction path using Relation.ReflTransGen.head_induction_on with
    | refl => exact lost
    | head link _ ih =>
      obtain ⟨reads, suspended⟩ := link
      have readSuspended : Suspended final _ := congrArg Status.state ih
      refine (caused _ suspended).mpr fun blames => (caused _ readSuspended).mp ih ?_
      exact handed _ _ ((reading _ _).mp reads) ((caught _).mp suspended) ((caught _).mp readSuspended) blames

/-- A revalidation leaves nothing to suspend, and names a lost proof wherever one is inherited, exactly when no chain of
reads needs more rounds than it has and no field that blames another reason reads one that blames a lost proof. -/
theorem suspension_reaches (contract : Contract) (managed : List Text) (start : Tenant) :
    Settled contract managed start (revalidateLinkedFields contract managed start).1 ∧
        Inherited contract (revalidateLinkedFields contract managed start).1 ↔
      (∀ count node, Falls contract managed start count node → ∃ early < maxRounds, Falls contract managed start early node) ∧
        ∀ node read, Reads contract start node read → Caught contract managed start node → Caught contract managed start read →
          BlamesOther contract managed start node → BlamesOther contract managed start read :=
  and_congr settled_iff inherited_iff

end Blame

section Deep

/-- Every chain of computed fields ends, each field within the limit of its entity. -/
def Layered (contract : Contract) (start : Tenant) : Prop :=
  ∃ depth : Node → Nat, ∀ node entry field, Computed contract start node entry field →
    depth node ≤ entry.formulaDepth ∧ ∀ read ∈ readNodes contract start node.1 entry field, depth read < depth node

/-- The lookup of the deep chain, then its formulas, each over the one before. -/
def chainId (place : Nat) : Text := List.replicate (place + 1) (unit 'f')

def chainField (place : Nat) : ExtensionField where
  fieldId := chainId place
  key := chainId place
  definition :=
    { osfType := js "String", classification := none, collection := false, hasDefault := false
      spec := match place with
        | 0 => .lookup (.tenant (js "parent")) (.authored (js "title")) .text
        | before + 1 => .formula [⟨chainId before, .self⟩] .text }
  appliesWhen := none

def parentField : ExtensionField where
  fieldId := js "parent"
  key := js "parent"
  definition := { osfType := js "Task", classification := none, collection := false, hasDefault := false, spec := .stored }
  appliesWhen := none

def deepEntity : ExtensibleEntity where
  targets := [js "Task"]
  relations := []
  ownedSingleChildren := []
  formulaDepth := 17

/-- One entity whose records are readable for users, and whose fields may be seventeen deep. -/
def deepContract : Contract where
  entities := [(js "Task", deepEntity)]
  once := List.nodup_singleton _
  childRelations := fun _ => []
  readAccess := fun _ => some ⟨[js "user"], none, none, [], []⟩
  tables := fun _ => some ⟨[⟨js "title", js "title", none, none⟩], [⟨js "title", .formula .text, none⟩]⟩
  baseType := fun _ => some .string
  parsesTime := fun _ => true

def deepFields : List ExtensionField := parentField :: (List.range 17).map chainField

def deepTenant : Tenant where
  fields := fun entity => if entity = js "Task" then deepFields else []
  once := by
    intro entity
    show ((if entity = js "Task" then deepFields else []).map ExtensionField.fieldId).Nodup
    split
    · decide +kernel
    · exact List.nodup_nil
  status := fun _ _ => ⟨.ready, none⟩

def chainDepth (node : Node) : Nat := if node.2 = js "parent" then 0 else node.2.length

theorem layered_deep : Layered deepContract deepTenant := by
  have fields : ∀ field ∈ deepFields, field.definition.spec.isStored = false →
      chainDepth (js "Task", field.fieldId) ≤ deepEntity.formulaDepth ∧
        ∀ read ∈ readNodes deepContract deepTenant (js "Task") deepEntity field, chainDepth read < chainDepth (js "Task", field.fieldId) := by
    decide +kernel
  refine ⟨chainDepth, ?_⟩
  rintro ⟨entity, id⟩ entry field ⟨extensible, member, named, computed⟩
  cases List.mem_singleton.mp extensible
  have isNamed : field.fieldId = id := named
  exact isNamed ▸ fields field member computed

/-- Seventeen fields deep, as the limit of the entity has it, the last formula stays ready over a suspended one. -/
theorem deep_chain_survives : ¬∀ contract managed start, Layered contract start →
    Settled contract managed start (revalidateLinkedFields contract managed start).1 ∧
      Inherited contract (revalidateLinkedFields contract managed start).1 := by
  intro claimed
  have settled := (claimed deepContract [js "Task"] deepTenant layered_deep).1
  have since : Since deepTenant (revalidateLinkedFields deepContract [js "Task"] deepTenant).1 := since_revalidate
  have atStart : Computed deepContract deepTenant (js "Task", chainId 16) deepEntity (chainField 16) :=
    ⟨List.mem_singleton.mpr rfl, List.mem_cons_of_mem _ (List.mem_map.mpr ⟨16, by decide, rfl⟩), rfl, rfl⟩
  have live : isLive ((revalidateLinkedFields deepContract [js "Task"] deepTenant).1.status (js "Task") (chainId 16)).state = true := by
    decide +kernel
  have suspended : ((revalidateLinkedFields deepContract [js "Task"] deepTenant).1.status (js "Task") (chainId 15)).state = .suspended := by
    decide +kernel
  have isRead : (js "Task", chainId 15) ∈ readNodes deepContract deepTenant (js "Task") deepEntity (chainField 16) := by decide +kernel
  have reads := (settled.stable _ _ _ ((computed_since since).mpr atStart) live).2
  exact reads (js "Task", chainId 15) (since.agree.readNodes ▸ isRead) suspended

end Deep

end OpenShapeForge.Extensions.SuspensionReach
