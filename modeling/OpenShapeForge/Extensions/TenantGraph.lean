import OpenShapeForge.Extensions.LinkedResolution
import OpenShapeForge.Library.LongestChains

/-! The graph of a tenant's computed fields over every entity, and the check a change of one of
them has to pass (assertTenantGraph in apps/api/src/operations/entity/extensions/linked.ts). Of a
dependency the relation it travels along is left out: the check does not read it. -/

namespace OpenShapeForge.Extensions.TenantGraph
open Js Library Formula.Types FieldModel LinkedResolution

/-- A field of an entity: the two parts of a node's key, which a separator keeps apart. -/
abbrev Key := Text × Text

structure GraphNode where
  label : Text
  limit : Nat
  reads : List Key

section Reads
variable (contract : Contract) (tenant : Tenant)

/-- `tenantPathId(path) ?? path`. -/
def pathId : FieldPath → Text
  | .authored name => name
  | .tenant id => id

def linkedDependencies (entity : Text) : Resolved → List Key
  | .lookup resolved => [(entity, pathId resolved.via.path), (resolved.target, pathId resolved.field.path)]
  | .rollup resolved =>
    let read := match resolved.step with
      | some step => [step.link]
      | none => resolved.of.toList.map TargetField.path
    let onChild := (resolved.link :: read ++ resolved.whereFields.map TargetField.path).map fun path => (resolved.child, pathId path)
    match resolved.step with
    | some step => onChild ++ resolved.of.toList.map fun of => (step.target, pathId of.path)
    | none => onChild

def formulaDependencies (entity : Text) (entry : ExtensibleEntity) (reads : List FormulaFieldRef) : List Key :=
  reads.map fun read =>
    match read.scope with
    | .self => (entity, read.id)
    | .relation name => (((entry.ownedSingleChildren.find? fun child => child.1 = name).map Prod.snd).getD name, read.id)

def emptyDefinition : ExtensionDefinition := ⟨[], none, false, false, .stored⟩

def lookupTarget (entity : Text) (entry : ExtensibleEntity) : FieldPath → Except Text (Option Text)
  | .tenant id =>
    (extensionShape contract entry (((tenant.byId entity id).map ExtensionField.definition).getD emptyDefinition)).map ExtensionShape.reference
  | .authored key => .ok ((entry.relations.find? fun relation => relation.key = key).map Relation.entity)

def rollupChild (entry : ExtensibleEntity) : CollectionPath → Option Text
  | .reference child _ => some child
  | .relation key => (entry.relations.find? fun relation => relation.key = key).map Relation.entity

def storedStep (child : Text) : FieldPath → Except Text (Option Text)
  | .authored key => .ok (((stepRelations contract child).find? fun relation => relation.key = key).bind fun relation =>
      (foreignKeyColumn contract child relation.foreignKey).map fun _ => relation.entity)
  | .tenant id =>
    match contract.entity child, tenant.byId child id with
    | some entry, some field => (extensionShape contract entry field.definition).map ExtensionShape.reference
    | _, _ => .ok none

/-- The whole of a rollup's `of`, where its step leads nowhere. -/
def wholePath (of : OfPath) : Text :=
  match of.via with
  | none => pathId of.field
  | some via => pathId via ++ js "." ++ FieldPath.text of.field

/-- What `of` reads: on the child, and over the step. -/
def storedOf (child : Text) : Option OfPath → Except Text (List Key × List Key)
  | none => .ok ([], [])
  | some of =>
    match of.via with
    | none => .ok ([(child, wholePath of)], [])
    | some via => (storedStep contract tenant child via).map fun
        | some target => ([], [(target, pathId of.field)])
        | none => ([(child, wholePath of)], [])

def storedWherePaths : Option Condition → Except Text (List FieldPath)
  | none => .ok []
  | some condition => conditionPaths 0 condition

def storedDependencies (entity : Text) (entry : ExtensibleEntity) : Spec → Except Text (List Key)
  | .lookup via field _ =>
    (lookupTarget contract tenant entity entry via).map fun target =>
      (entity, pathId via) :: target.toList.map fun target => (target, pathId field)
  | .rollup collection _ of filter _ =>
    match rollupChild entry collection with
    | none => .ok []
    | some child =>
      (storedOf contract tenant child of).bind fun read =>
        (storedWherePaths filter).map fun paths => read.1 ++ paths.map (fun path => (child, pathId path)) ++ read.2
  | .stored | .formula .. => .ok []

def storedReads (entity : Text) (entry : ExtensibleEntity) : Spec → Except Text (List Key)
  | .formula reads _ => .ok (formulaDependencies entity entry reads)
  | spec => storedDependencies contract tenant entity entry spec

end Reads

section Check
variable (contract : Contract) (tenant : Tenant)

/-- The computed field that is saved, with what it will read. -/
structure Changed where
  entity : Text
  fieldId : Text
  key : Text
  dependsOn : List (Option Text × Text)

def Changed.node (changed : Changed) : Key := (changed.entity, changed.fieldId)

abbrev Nodes := OrderedMap Key GraphNode

def computedFields : List (Text × ExtensibleEntity × ExtensionField) :=
  contract.entities.flatMap fun entry =>
    ((tenant.fields entry.1).filter fun field => !field.definition.spec.isStored && tenant.state entry.1 field ≠ .deleted).map fun field =>
      (entry.1, entry.2, field)

def fieldKey (item : Text × ExtensibleEntity × ExtensionField) : Key := (item.1, item.2.2.fieldId)

def addNodes : List (Text × ExtensibleEntity × ExtensionField) → Nodes → Except Text Nodes
  | [], nodes => .ok nodes
  | item :: rest, nodes =>
    (storedReads contract tenant item.1 item.2.1 item.2.2.definition.spec).bind fun reads =>
      addNodes rest (nodes.set (fieldKey item) ⟨fieldLabel item.1 item.2.2, item.2.1.formulaDepth, reads⟩)

def storedGraph : Except Text Nodes := addNodes contract tenant (computedFields contract tenant) .empty

def changedNode (changed : Changed) (own : ExtensibleEntity) : GraphNode where
  label := changed.entity ++ js "." ++ changed.key
  limit := own.formulaDepth
  reads := changed.dependsOn.map fun read => (read.1.getD changed.entity, read.2)

def changedGraph (changed : Changed) (own : ExtensibleEntity) : Except Text Nodes :=
  (addNodes contract tenant ((computedFields contract tenant).filter fun item => fieldKey item ≠ changed.node) .empty).map fun nodes =>
    nodes.set changed.node (changedNode changed own)

inductive RefusalCode where
  | cycle | depthExceeded
deriving DecidableEq

/-- The one violation of a refused change. -/
structure GraphFailure where
  message : Text
  field : Text
  code : RefusalCode
  violation : Text

inductive GraphError where
  | refused (failure : GraphFailure)
  /-- A definition that the graph could not be read from. -/
  | unreadable (message : Text)

def refuse (changed : Changed) (message : Text) (code : RefusalCode) : GraphFailure where
  message := changed.key ++ js " cannot be saved: " ++ message ++ js "."
  field := js "definition"
  code := code
  violation := message

def readsOf (graph : Key → Option GraphNode) (key : Key) : Option (List Key) := (graph key).map GraphNode.reads

def limitOf (graph : Key → Option GraphNode) (key : Key) : Nat := ((graph key).map GraphNode.limit).getD 0

def labelOf (graph : Key → Option GraphNode) (key : Key) : Text := ((graph key).map GraphNode.label).getD []

def circular (graph : Key → Option GraphNode) (path : List Key) : Text :=
  js "circular reference " ++ (js " → ").intercalate (path.map (labelOf graph))

def failureOf (graph : Key → Option GraphNode) (changed : Changed) : LongestChains.Refusal Key → GraphFailure
  | .cycle path => refuse changed (circular graph path) .cycle
  | .tooDeep key depth =>
    let would := decimal depth ++ js " computed fields deep; the limit is " ++ decimal (limitOf graph key)
    refuse changed (if key = changed.node then js "it would be " ++ would else labelOf graph key ++ js " reads it and would be " ++ would) .depthExceeded

def assertTenantGraph (changed : Changed) : Option (Except GraphError Unit) :=
  match contract.entity changed.entity with
  | none => some (.error (.unreadable (js "The entity is not extensible.")))
  | some own =>
    match changedGraph contract tenant changed own with
    | .error message => some (.error (.unreadable message))
    | .ok nodes =>
      (LongestChains.deepest (LongestChains.visit (readsOf nodes.get?) (limitOf nodes.get?) (nodes.keys.length + 1) [])
        (changed.node :: nodes.keys) 0 .empty).map fun
          | .ok _ => .ok ()
          | .error refusal => .error (.refused (failureOf nodes.get? changed refusal))

end Check

end OpenShapeForge.Extensions.TenantGraph
