import OpenShapeForge.Formula.Types
import OpenShapeForge.Operations.FieldValues

/-! Tenant fields: their definitions, the compiled contract they live under, and who may
read what (apps/api/src/operations/entity/extensions: model.ts, read-access.ts, registry.ts). -/

namespace OpenShapeForge.Extensions.FieldModel
open Js Formula.Types Operations.FieldValues

inductive ExtensionState where
  | updating | ready | deprecated | suspended | deleted
deriving DecidableEq

inductive Sensitivity where
  | «public» | internal | confidential | pii | bsn
deriving DecidableEq

inductive SuspendedReason where
  | authorizationProofLost | dependencySuspended | formulaBackfillFailed
deriving DecidableEq

/-- A field an entity's own records carry, or one of its tenant's: by key as a caller writes
it, by id as it is stored. -/
inductive FieldPath where
  | authored (name : Text)
  | tenant (name : Text)
deriving DecidableEq

inductive RollupAggregate where
  | sum | count | countAll | min | max | avg | arrayUnique
deriving DecidableEq

def RollupAggregate.name : RollupAggregate → Text
  | sum => js "sum"
  | count => js "count"
  | countAll => js "countAll"
  | min => js "min"
  | max => js "max"
  | avg => js "avg"
  | arrayUnique => js "arrayUnique"

inductive RuleOperator where
  | equals | notEquals | «in» | notIn | isEmpty | isNotEmpty | contains | notContains
  | greaterThan | greaterThanOrEquals | lessThan | lessThanOrEquals
deriving DecidableEq

/-- A literal of a condition; a number and what is none of these as JSON writes them. -/
inductive Literal where
  | null
  | boolean (value : Bool)
  | number (json : Text)
  | text (value : Text)
  | list (items : List Literal)
  | other (json : Text)

inductive Condition where
  | rule (left : FieldPath) (operator : RuleOperator) (right : Literal)
  | group (any : Bool) (children : List Condition)

inductive CollectionPath where
  | relation (key : Text)
  | reference (entity : Text) (field : Text)
deriving DecidableEq

/-- The field a rollup reads, on the child or over one relation of it. -/
structure OfPath where
  via : Option FieldPath
  field : FieldPath
deriving DecidableEq

/-- What a field's value is computed from, if it is. -/
inductive Spec where
  | stored
  | formula (reads : List FormulaFieldRef) (resultType : FormulaType)
  | lookup (via field : FieldPath) (resultType : FormulaType)
  | rollup (collection : CollectionPath) (aggregate : RollupAggregate) (of : Option OfPath) (filter : Option Condition)
      (resultType : FormulaType)

def Spec.isStored : Spec → Bool
  | stored => true
  | _ => false

def Spec.isLinked : Spec → Bool
  | lookup .. | rollup .. => true
  | _ => false

structure ExtensionDefinition where
  osfType : Text
  classification : Option Sensitivity
  collection : Bool
  hasDefault : Bool
  spec : Spec

/-- One current definition version of one tenant field. -/
structure ExtensionField where
  fieldId : Text
  key : Text
  definition : ExtensionDefinition
  appliesWhen : Option Condition

/-- The part of a version that changes in place. -/
structure Status where
  state : ExtensionState
  suspendedReason : Option SuspendedReason
deriving DecidableEq

inductive RelationKind where
  | belongsTo | hasMany
deriving DecidableEq

inductive Ownership where
  | owned | reference
deriving DecidableEq

/-- An authored relation: a single reference, or an inverse collection. -/
structure Relation where
  key : Text
  kind : RelationKind
  entity : Text
  foreignKey : Text
  ownership : Option Ownership
  ownerAuthorizes : Bool

structure ReadAccess where
  roles : List Text
  principalClasses : Option (List Text)
  rowPolicy : Option Text
  fieldReadRoles : List (Text × List Text)
  internalFields : List Text

structure Column where
  name : Text
  field : Text
  classification : Option Sensitivity
  fieldPolicy : Option (List Text)

structure AuthoredField where
  id : Text
  type : FieldType
  outOfScope : Option Text

structure Table where
  columns : List Column
  authored : List AuthoredField

structure ExtensibleEntity where
  targets : List Text
  relations : List Relation
  ownedSingleChildren : List (Text × Text)
  formulaDepth : Nat

structure Contract where
  entities : List (Text × ExtensibleEntity)
  once : (entities.map Prod.fst).Nodup
  childRelations : Text → List Relation
  readAccess : Text → Option ReadAccess
  tables : Text → Option Table
  baseType : Text → Option BaseType
  /-- `Date.parse` of the text is a time. -/
  parsesTime : Text → Bool

namespace Contract

def entityNames (contract : Contract) : List Text := contract.entities.map Prod.fst

def entity (contract : Contract) (name : Text) : Option ExtensibleEntity :=
  (contract.entities.find? fun entry => entry.1 = name).map Prod.snd

end Contract

/-- The current field definitions of a tenant, in the order each entity shows them. -/
structure Tenant where
  fields : Text → List ExtensionField
  once : ∀ entity, ((fields entity).map ExtensionField.fieldId).Nodup
  status : Text → Text → Status

def Tenant.state (tenant : Tenant) (entity : Text) (field : ExtensionField) : ExtensionState := (tenant.status entity field.fieldId).state

def Tenant.byId (tenant : Tenant) (entity id : Text) : Option ExtensionField :=
  (tenant.fields entity).find? fun field => field.fieldId = id

def Tenant.byKey (tenant : Tenant) (entity key : Text) : Option ExtensionField :=
  (tenant.fields entity).find? fun field => field.key = key && tenant.state entity field ≠ .deleted

def isLive (state : ExtensionState) : Bool := state = .ready || state = .updating

def inheritedSuspension (input : Status) : SuspendedReason :=
  if input.suspendedReason = some .authorizationProofLost then .authorizationProofLost else .dependencySuspended

def isClassified (definition : ExtensionDefinition) : Bool :=
  match definition.classification with
  | some .confidential | some .pii | some .bsn => true
  | _ => false

/-- The part of a definition's shape that linked fields go by. -/
structure ExtensionShape where
  baseType : BaseType
  collection : Bool
  reference : Option Text
deriving DecidableEq

def extensionShape (contract : Contract) (entry : ExtensibleEntity) (definition : ExtensionDefinition) : Except Text ExtensionShape :=
  let reference := entry.targets.find? fun target => target = definition.osfType
  match reference, contract.baseType definition.osfType with
  | some target, _ => .ok { baseType := .string, collection := definition.collection, reference := some target }
  | none, some baseType => .ok { baseType, collection := definition.collection, reference := none }
  | none, none => .error (js "Unknown osfType " ++ definition.osfType)

def formulaTypeForBaseType : BaseType → Option FormulaType
  | .string => some .text
  | .integer | .number => some .number
  | .boolean => some .boolean
  | .date => some .date
  | .datetime => some .timestamp
  | .object => none

def tenantFieldType (contract : Contract) (entry : ExtensibleEntity) (definition : ExtensionDefinition) : Except Text FieldType :=
  match definition.spec with
  | .formula _ resultType | .lookup _ _ resultType | .rollup _ _ _ _ resultType => .ok (.formula resultType)
  | .stored =>
    (extensionShape contract entry definition).map fun shape =>
      if shape.reference.isSome || shape.collection then .other definition.osfType
      else ((formulaTypeForBaseType shape.baseType).map FieldType.formula).getD (.other definition.osfType)

/-- One thing a computed field reads, or a reference its value travels along. -/
structure ComputedInput where
  label : Text
  sensitivity : Option Sensitivity

def authoredSensitivity (contract : Contract) (entity field : Text) : Sensitivity :=
  if (contract.readAccess entity).any fun access => field ∈ access.internalFields then .internal else .«public»

/-- Why a computed field may not be saved under its classification: a public one shows nothing internal. -/
def sensitivityShortfall (definition : ExtensionDefinition) (inputs : List ComputedInput) : Option Text :=
  if definition.classification = some .«public» then
    (inputs.find? fun input => input.sensitivity = some .internal).map fun input =>
      js "it reads " ++ input.label ++ js ", which is internal, so it is internal at least."
  else none

def joined (items : List Text) : Text := (js ", ").intercalate items

def everyClass : List Text := [js "person", js "application", js "service", js "unknown"]

def ReadAccess.classes (access : ReadAccess) : List Text := access.principalClasses.getD everyClass

/-- Why `target` is authorized more narrowly than `source`. With `owned`, the readers of the
owner are the child's. -/
def narrowerReadAccess (source target : Text) (sourceAccess targetAccess : Option ReadAccess) (owned : Bool) : Option Text :=
  match sourceAccess, targetAccess with
  | some access, some reached =>
    let missing := access.roles.filter fun role => role ∉ reached.roles
    let outside := access.classes.filter fun kind => kind ∉ reached.classes
    if !owned && !missing.isEmpty then
      some (target ++ js " is readable for " ++ (if reached.roles.isEmpty then js "no role" else joined reached.roles) ++ js ", " ++ source ++
        js " also for " ++ joined missing ++ js "; " ++ (if missing.length = 1 then js "that role" else js "those roles") ++
        js " would see " ++ target ++ js " values " ++ (if missing.length = 1 then js "it" else js "they") ++ js " may not read.")
    else if !owned && !outside.isEmpty then
      some (target ++ js " is readable for fewer principal classes than " ++ source ++ js " (not for " ++ joined outside ++ js ").")
    else reached.rowPolicy.map fun policy =>
      js "the rows of " ++ target ++ js " are narrowed by " ++ policy ++ js ", so a reader of " ++ source ++ js " would see values of " ++
        target ++ js " records hidden from them."
  | some _, none => some (target ++ js " is outside the compiled authorization contract tenant fields may reach.")
  | none, _ => some (source ++ js " is outside the compiled authorization contract tenant fields may reach.")

end OpenShapeForge.Extensions.FieldModel
