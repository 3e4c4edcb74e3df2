import OpenShapeForge.Extensions.FieldModel
import OpenShapeForge.Js.Json

/-! What a lookup or a rollup names, resolved against the current definitions, and the proof
that its source is authorized no wider than what it reads
(apps/api/src/operations/entity/extensions/linked.ts). Of a rollup's SQL only the refusals are kept. -/

namespace OpenShapeForge.Extensions.LinkedResolution
open Js Formula.Types Operations.FieldValues FieldModel

def extensionsPrefix : Text := js "extensions."

def FieldPath.text : FieldPath → Text
  | .authored name => name
  | .tenant name => extensionsPrefix ++ name

/-- One field of a related entity a lookup returns or a rollup reads. -/
structure TargetField where
  entity : Text
  path : FieldPath
  type : FieldType
  label : Text
  field : Option ExtensionField

structure LookupVia where
  path : FieldPath
  tenant : Option ExtensionField

structure ResolvedLookup where
  via : LookupVia
  target : Text
  field : TargetField

/-- The single relation a rollup follows from a child to the record that holds the value. -/
structure RollupStep where
  link : FieldPath
  target : Text
  reference : Option ExtensionField

structure ResolvedRollup where
  relation : Option Relation
  reference : Option ExtensionField
  child : Text
  link : FieldPath
  step : Option RollupStep
  of : Option TargetField
  whereFields : List TargetField

inductive Resolved where
  | lookup (resolved : ResolvedLookup)
  | rollup (resolved : ResolvedRollup)

section Fields
variable (contract : Contract) (tenant : Tenant)

/-- By id as it is stored, by key as a caller writes it. -/
def findField (stored : Bool) (entity name : Text) : Option ExtensionField :=
  if stored then tenant.byId entity name else tenant.byKey entity name

def fieldLabel (entity : Text) (field : ExtensionField) : Text := entity ++ js "." ++ field.key

def resolveField (stored : Bool) (entity : Text) (path : FieldPath) (purpose : Text) : Except Text TargetField :=
  let unknown := purpose ++ js ": " ++ FieldPath.text path ++ js " is not a field of " ++ entity ++ js "."
  match path with
  | .tenant name =>
    match contract.entity entity, findField tenant stored entity name with
    | none, _ => .error (purpose ++ js ": " ++ entity ++ js " has no tenant fields; name one of its own fields.")
    | some _, none => .error unknown
    | some entry, some field =>
      if tenant.state entity field = .deleted then .error unknown
      else if tenant.state entity field = .deprecated then .error (purpose ++ js ": " ++ fieldLabel entity field ++ js " is deprecated.")
      else if isClassified field.definition then
        .error (purpose ++ js ": " ++ fieldLabel entity field ++ js " is classified, so its value cannot be shown on another record.")
      else (tenantFieldType contract entry field.definition).map fun type =>
        { entity, path := .tenant field.fieldId, type, label := fieldLabel entity field, field := some field }
  | .authored name =>
    let label := entity ++ js "." ++ name
    match contract.tables entity with
    | none => .error unknown
    | some table =>
      match table.columns.find? (fun column => column.field = name), table.authored.find? (fun field => field.id = name) with
      | none, _ => .error unknown
      | some column, authored =>
        if column.classification.isSome then
          .error (purpose ++ js ": " ++ label ++ js " is classified, so its value cannot be shown on another record.")
        else if column.fieldPolicy.any fun roles => !roles.isEmpty then
          .error (purpose ++ js ": " ++ label ++ js " has read roles of its own.")
        else match authored with
          | none => .error (purpose ++ js ": " ++ label ++
              js " is not a value a computed field can read (a reference, a document or structured data).")
          | some field =>
            match field.outOfScope with
            | some reason => .error (purpose ++ js ": " ++ label ++ js " cannot be read: " ++ reason ++ js ".")
            | none => .ok { entity, path, type := field.type, label, field := none }

/-- A relation a computed value travels along shows what it points at. -/
def assertRelationReadable (column : Option Column) (purpose label : Text) : Except Text Unit :=
  if column.any fun column => column.classification.isSome || column.fieldPolicy.isSome then
    .error (purpose ++ js ": " ++ label ++ js " is " ++
      (if column.any fun column => column.classification.isSome then js "classified" else js "protected by a field policy") ++
      js "; what it points at would show through the computed field.")
  else .ok ()

def foreignKeyColumn (entity foreignKey : Text) : Option Column :=
  (contract.tables entity).bind fun table => table.columns.find? fun column => column.name = foreignKey

def singleReference (entity : Text) (entry : ExtensibleEntity) (name : Text) (stored : Bool) (purpose kind : Text) :
    Except Text (ExtensionField × Text) :=
  let unknown := purpose ++ js ": " ++ extensionsPrefix ++ name ++ js " is not a field of " ++ entity ++ js "."
  match findField tenant stored entity name with
  | none => .error unknown
  | some field =>
    if tenant.state entity field = .deleted then .error unknown
    else if tenant.state entity field = .deprecated then .error (purpose ++ js ": " ++ field.key ++ js " is deprecated.")
    else (extensionShape contract entry field.definition).bind fun shape =>
      match field.definition.spec.isStored, shape.reference with
      | true, some target =>
        if shape.collection then
          .error (purpose ++ js ": " ++ field.key ++ js " holds more than one reference; a " ++ kind ++ js " follows a single one.")
        else if isClassified field.definition then
          .error (purpose ++ js ": " ++ field.key ++ js " is classified; what it points at would show through the " ++ kind ++ js ".")
        else .ok (field, target)
      | _, _ => .error (purpose ++ js ": " ++ field.key ++ js " is not a reference field.")

def scalarOf (type : FieldType) : Option FormulaType :=
  match type with
  | .formula type => some type
  | .other _ => none

def resolveVia (stored : Bool) (entity : Text) (entry : ExtensibleEntity) : FieldPath → Except Text (LookupVia × Text)
  | .tenant name =>
    (singleReference contract tenant entity entry name stored (js "lookup.via") (js "lookup")).map fun found =>
      ({ path := .tenant found.1.fieldId, tenant := some found.1 }, found.2)
  | .authored name =>
    match entry.relations.find? fun relation => relation.key = name && relation.kind = .belongsTo with
    | none => .error (js "lookup.via: " ++ name ++
        js " is neither a tenant reference field (extensions.<key>) nor a single relation of " ++ entity ++ js ".")
    | some relation =>
      (assertRelationReadable (foreignKeyColumn contract entity relation.foreignKey) (js "lookup.via") (entity ++ js "." ++ relation.key)).map
        fun _ => ({ path := .authored relation.key, tenant := none }, relation.entity)

def resolveLookup (stored : Bool) (entity : Text) (entry : ExtensibleEntity) (via field : FieldPath) : Except Text ResolvedLookup :=
  (resolveVia contract tenant stored entity entry via).bind fun found =>
    (resolveField contract tenant stored found.2 field (js "lookup.field")).bind fun read =>
      if (scalarOf read.type).isNone then
        .error (js "lookup.field: " ++ read.label ++ js " is a " ++ read.type.name ++
          js " field; a lookup returns one text, number, boolean, date or timestamp.")
      else .ok { via := found.1, target := found.2, field := read }

def stepRelations (child : Text) : List Relation :=
  match contract.entity child with
  | some entry => entry.relations.filter fun relation => relation.kind = .belongsTo
  | none => contract.childRelations child

def resolveStep (stored : Bool) (child : Text) : FieldPath → Except Text RollupStep
  | .authored name =>
    match (stepRelations contract child).find? fun relation => relation.key = name with
    | none => .error (js "rollup.of: " ++ name ++
        js " is neither a tenant reference field (extensions.<key>) nor a single relation of " ++ child ++ js ".")
    | some relation =>
      let column := foreignKeyColumn contract child relation.foreignKey
      (assertRelationReadable column (js "rollup.of") (child ++ js "." ++ relation.key)).bind fun _ =>
        match column with
        | none => .error (js "rollup.of: " ++ child ++ js "." ++ name ++ js " has no readable foreign key.")
        | some column => .ok { link := .authored column.field, target := relation.entity, reference := none }
  | .tenant name =>
    match contract.entity child with
    | none => .error (js "rollup.of: " ++ child ++ js " has no tenant fields; name a single relation of it.")
    | some entry =>
      (singleReference contract tenant child entry name stored (js "rollup.of") (js "rollup")).map fun found =>
        { link := .tenant found.1.fieldId, target := found.2, reference := some found.1 }

/-- The relation or the tenant reference a rollup's records name their parent by, and their entity. -/
def resolveCollection (stored : Bool) (entity : Text) (entry : ExtensibleEntity) :
    CollectionPath → Except Text (Option Relation × Option ExtensionField × Text × FieldPath)
  | .reference child name =>
    let unknown := js "rollup.collection: " ++ child ++ js "." ++ extensionsPrefix ++ name ++
      js " is not a tenant reference field of an extensible entity."
    match contract.entity child, findField tenant stored child name with
    | some childEntry, some field =>
      if tenant.state child field = .deleted then .error unknown
      else if tenant.state child field = .deprecated then .error (js "rollup.collection: " ++ fieldLabel child field ++ js " is deprecated.")
      else (extensionShape contract childEntry field.definition).bind fun shape =>
        if !field.definition.spec.isStored || shape.reference ≠ some entity || shape.collection then
          .error (js "rollup.collection: " ++ fieldLabel child field ++ js " is not a single reference to " ++ entity ++ js ".")
        else if isClassified field.definition then .error (js "rollup.collection: " ++ fieldLabel child field ++ js " is classified.")
        else .ok (none, some field, child, .tenant field.fieldId)
    | _, _ => .error unknown
  | .relation key =>
    match entry.relations.find? fun relation => relation.key = key && relation.kind = .hasMany with
    | none => .error (js "rollup.collection: " ++ key ++ js " is neither an inverse relation of " ++ entity ++ js " nor <Entity>.extensions.<key>.")
    | some relation =>
      match foreignKeyColumn contract relation.entity relation.foreignKey with
      | none => .error (js "rollup.collection: " ++ key ++ js " has no readable foreign key.")
      | some column =>
        (assertRelationReadable (some column) (js "rollup.collection") (relation.entity ++ js "." ++ column.field)).map fun _ =>
          (some relation, none, relation.entity, .authored column.field)

end Fields

section Conditions
variable (contract : Contract) (tenant : Tenant)

def isFieldName (name : Text) : Bool :=
  name.head?.any (fun c => unit 'a' ≤ c && c ≤ unit 'z') &&
    name.all fun c => (unit 'a' ≤ c && c ≤ unit 'z') || (unit 'A' ≤ c && c ≤ unit 'Z') || isDigit c

mutual

def conditionPaths (depth : Nat) : Condition → Except Text (List FieldPath)
  | .rule left _ _ =>
    if depth > 8 then .error (js "appliesWhen is not a supported condition.")
    else match left with
      | .tenant name => .ok [.tenant name]
      | .authored name =>
        if isFieldName name then .ok [.authored name] else .error (js "appliesWhen path " ++ name ++ js " is not a field.")
  | .group _ children =>
    if depth > 8 then .error (js "appliesWhen is not a supported condition.")
    else if children.isEmpty || children.length > 20 then .error (js "appliesWhen groups need one non-empty list of conditions.")
    else childPaths (depth + 1) children

def childPaths (depth : Nat) : List Condition → Except Text (List FieldPath)
  | [] => .ok []
  | child :: rest => (conditionPaths depth child).bind fun found => (childPaths depth rest).map (found ++ ·)

end

def Literal.json : Literal → Text
  | .null => js "null"
  | .boolean value => if value then js "true" else js "false"
  | .number json | .other json => json
  | .text value => quoteJson value
  | .list items => js "[" ++ items' items ++ js "]"
where
  items' : List Literal → Text
    | [] => []
    | [item] => json item
    | item :: rest => json item ++ js "," ++ items' rest

/-- A date that is written back as it was read: `Date.UTC` takes a year below 100 for one of the last century. -/
def isCalendarDate (text : Text) : Bool := isDateText text && !(text.take 2 = js "00")

def fits (type : FormulaType) (value : Literal) : Bool :=
  match type, value with
  | .number, .number _ | .boolean, .boolean _ | .text, .text _ => true
  | .date, .text value => isCalendarDate value
  | .timestamp, .text value => contract.parsesTime value
  | _, _ => false

def refusedRule (field : TargetField) (detail : Text) : Text :=
  js "rollup.where: " ++ field.label ++ js " is a " ++ field.type.name ++ js " field; " ++ detail ++
    js ", so a rollup cannot compute this condition."

def literalSql (field : TargetField) (type : FormulaType) (value : Literal) : Except Text Unit :=
  if fits contract type value then .ok () else .error (refusedRule field (Literal.json value ++ js " is no value of it"))

def literalsSql (field : TargetField) (type : FormulaType) : List Literal → Except Text Unit
  | [] => .ok ()
  | value :: rest => (literalSql contract field type value).bind fun _ => literalsSql field type rest

def Literal.isNull : Literal → Bool
  | .null => true
  | _ => false

def ruleSql (field : TargetField) (type : FormulaType) (operator : RuleOperator) (right : Literal) : Except Text Unit :=
  match operator with
  | .equals | .notEquals => if Literal.isNull right then .ok () else literalSql contract field type right
  | .«in» | .notIn =>
    let items := match right with
      | .list items => items
      | item => [item]
    if items.isEmpty then .error (refusedRule field (js "the list is empty"))
    else literalsSql contract field type (items.filter fun item => !Literal.isNull item)
  | .isEmpty | .isNotEmpty => .ok ()
  | .contains | .notContains =>
    if type ≠ .text then .error (refusedRule field (js "only text contains text")) else literalSql contract field type right
  | .greaterThan | .greaterThanOrEquals | .lessThan | .lessThanOrEquals =>
    if type = .boolean then .error (refusedRule field (js "it has no order")) else literalSql contract field type right

def fieldSql (field : TargetField) (purpose : Text) : Except Text FormulaType :=
  match scalarOf field.type with
  | none => .error (purpose ++ js ": " ++ field.label ++ js " is a " ++ field.type.name ++
      js " field; a rollup reads one text, number, boolean, date or timestamp per record.")
  | some type =>
    match field.field with
    | none => .ok type
    | some tenant =>
      if tenant.definition.hasDefault && tenant.appliesWhen.isSome then
        .error (purpose ++ js ": the default of " ++ field.label ++
          js " depends on appliesWhen, which the index does not hold, so a rollup cannot compute it.")
      else match contract.entity field.entity with
        | none => .ok type
        | some entry => (extensionShape contract entry tenant.definition).map fun _ => type

mutual

def conditionSql (fields : List (FieldPath × TargetField × FormulaType)) : Condition → Except Text Unit
  | .rule left operator right =>
    match fields.find? fun entry => entry.1 = left with
    | none => .error (js "rollup.where: " ++ FieldPath.text left ++ js " is not a field of the collection.")
    | some (_, field, type) => ruleSql contract field type operator right
  | .group _ children => childrenSql fields children

def childrenSql (fields : List (FieldPath × TargetField × FormulaType)) : List Condition → Except Text Unit
  | [] => .ok ()
  | child :: rest => (conditionSql fields child).bind fun _ => childrenSql fields rest

end

mutual

def mapConditionPaths (rename : Text → Text) : Condition → Condition
  | .rule (.tenant name) operator right => .rule (.tenant (rename name)) operator right
  | .rule (.authored name) operator right => .rule (.authored name) operator right
  | .group any children => .group any (mapChildPaths rename children)

def mapChildPaths (rename : Text → Text) : List Condition → List Condition
  | [] => []
  | child :: rest => mapConditionPaths rename child :: mapChildPaths rename rest

end

def resolveFields (stored : Bool) (entity purpose : Text) : List FieldPath → Except Text (List TargetField)
  | [] => .ok []
  | path :: rest =>
    (resolveField contract tenant stored entity path purpose).bind fun field =>
      (resolveFields stored entity purpose rest).map (field :: ·)

def fieldsSql (purpose : Text) : List TargetField → Except Text (List (FieldPath × TargetField × FormulaType))
  | [] => .ok []
  | field :: rest =>
    (fieldSql contract field purpose).bind fun type => (fieldsSql purpose rest).map ((field.path, field, type) :: ·)

end Conditions

section Rollups
variable (contract : Contract) (tenant : Tenant)

def needsNumber : RollupAggregate → Bool
  | .sum | .avg => true
  | _ => false

def isOrdered : FieldType → Bool
  | .formula .number | .formula .date | .formula .timestamp => true
  | _ => false

def aggregateRefusal (aggregate : RollupAggregate) (of : Option TargetField) : Option Text :=
  if needsNumber aggregate && !of.any fun field => field.type = .formula .number then
    some (js "rollup.of: " ++ aggregate.name ++ js " needs a number field" ++
      (match of with
        | some field => js "; " ++ field.label ++ js " is a " ++ field.type.name ++ js " field"
        | none => []) ++ js ".")
  else if (aggregate = .min || aggregate = .max) && !of.any fun field => isOrdered field.type then
    some (js "rollup.of: " ++ aggregate.name ++ js " needs a number, date or timestamp field.")
  else if aggregate = .arrayUnique && of.isNone then some (js "rollup.of: arrayUnique needs the field whose values it lists.")
  else match of with
    | some field =>
      if (scalarOf field.type).isNone then
        some (js "rollup.of: " ++ field.label ++ js " is a " ++ field.type.name ++ js " field; a rollup reads one value per record.")
      else none
    | none => none

def resolveOf (stored : Bool) (child : Text) : Option OfPath → Except Text (Option RollupStep × Option TargetField)
  | none => .ok (none, none)
  | some path =>
    match path.via with
    | none => (resolveField contract tenant stored child path.field (js "rollup.of")).map fun field => (none, some field)
    | some via =>
      (resolveStep contract tenant stored child via).bind fun step =>
        (resolveField contract tenant stored step.target path.field (js "rollup.of")).map fun field => (some step, some field)

def resolveWhere (stored : Bool) (child : Text) : Option Condition → Except Text (List TargetField)
  | none => .ok []
  | some condition =>
    (conditionPaths 0 condition).bind fun paths => resolveFields contract tenant stored child (js "rollup.where") paths

def storedWhere (stored : Bool) (child : Text) (condition : Condition) : Condition :=
  if stored then condition
  else mapConditionPaths (fun key => ((tenant.byKey child key).map ExtensionField.fieldId).getD key) condition

def rollupSql (stored : Bool) (child : Text) (of : Option TargetField) (filter : Option Condition) (whereFields : List TargetField) :
    Except Text Unit :=
  (match of with
    | some field => (fieldSql contract field (js "rollup.of")).map fun _ => ()
    | none => .ok ()).bind fun _ =>
  match filter with
  | none => .ok ()
  | some condition =>
    (fieldsSql contract (js "rollup.where") whereFields).bind fun fields =>
      conditionSql contract fields (storedWhere tenant stored child condition)

def resolveRollup (stored : Bool) (entity : Text) (entry : ExtensibleEntity) (collection : CollectionPath) (aggregate : RollupAggregate)
    (of : Option OfPath) (filter : Option Condition) : Except Text ResolvedRollup :=
  (resolveCollection contract tenant stored entity entry collection).bind fun (relation, reference, child, link) =>
  (resolveOf contract tenant stored child of).bind fun (step, read) =>
  match aggregateRefusal aggregate read with
  | some refusal => .error refusal
  | none =>
    (resolveWhere contract tenant stored child filter).bind fun whereFields =>
    (rollupSql contract tenant stored child read filter whereFields).map fun _ =>
      { relation, reference, child, link, step, of := read, whereFields }

/-- A lookup or rollup as it is stored, or as a caller writes it; other fields resolve to nothing. -/
def resolveSpec (stored : Bool) (entity : Text) (entry : ExtensibleEntity) : Spec → Except Text Resolved
  | .lookup via field _ => (resolveLookup contract tenant stored entity entry via field).map .lookup
  | .rollup collection aggregate of filter _ =>
    (resolveRollup contract tenant stored entity entry collection aggregate of filter).map .rollup
  | .stored | .formula .. => .error (js "Not a lookup or a rollup.")

/-- Why `target`, and `field` on it, is authorized more narrowly than `source`. -/
def narrower (managed : List Text) (source target : Text) (field : Option TargetField) (owned : Bool) : Option Text :=
  match narrowerReadAccess source target (contract.readAccess source) (contract.readAccess target) owned with
  | some reason => some reason
  | none =>
    if source ∈ managed then
      some (js "an authorization profile of this tenant manages the reads of " ++ source ++ js ", so a subject granted " ++ source ++
        js " by a profile alone could read " ++ target ++ js " values.")
    else
      let sourceRoles := ((contract.readAccess source).map ReadAccess.roles).getD []
      let missing := match field with
        | some ⟨_, .authored name, _, label, _⟩ =>
          ((contract.readAccess target).bind fun access => access.fieldReadRoles.find? fun entry => entry.1 = name).bind fun entry =>
            let missing := sourceRoles.filter fun role => role ∉ entry.2
            if missing.isEmpty then none
            else some (label ++ js " is readable for " ++ joined entry.2 ++ js ", " ++ source ++ js " also for " ++ joined missing ++
              js "; that role would see " ++ label ++ js ".")
        | _ => none
      match missing with
      | some reason => some reason
      | none =>
        if target ∈ managed then
          some (js "an authorization profile of this tenant manages the reads of " ++ target ++ js ", so a reader of " ++ source ++
            js " could see " ++ target ++ js " values the profile hides.")
        else none

/-- A collection whose children are authorized through their owner. -/
def isLent (resolved : ResolvedRollup) : Bool :=
  resolved.relation.any fun relation => relation.ownership = some .owned && relation.ownerAuthorizes

def proofOf (managed : List Text) (source : Text) : Resolved → Option Text
  | .lookup resolved => narrower contract managed source resolved.target (some resolved.field) false
  | .rollup resolved =>
    let owned := isLent resolved
    let onChild := (if resolved.step.isSome then none else resolved.of) :: resolved.whereFields.map some
    match onChild.findSome? fun field => narrower contract managed source resolved.child field owned with
    | some reason => some reason
    | none =>
      match narrower contract managed source resolved.child none owned, resolved.step with
      | some reason, _ => some reason
      | none, some step => narrower contract managed source step.target resolved.of false
      | none, none => none

def readInput (field : TargetField) : ComputedInput where
  label := field.label
  sensitivity := match field.field, field.path with
    | some tenant, _ => tenant.definition.classification
    | none, .authored name => some (authoredSensitivity contract field.entity name)
    | none, .tenant _ => none

def linkInput (entity : Text) (link : FieldPath) : Option ExtensionField → ComputedInput
  | some tenant => { label := fieldLabel entity tenant, sensitivity := tenant.definition.classification }
  | none =>
    { label := entity ++ js "." ++ FieldPath.text link
      sensitivity := some (authoredSensitivity contract entity (FieldPath.text link)) }

/-- What a lookup or rollup reads and the references its value travels along. -/
def linkedInputs (source : Text) : Resolved → List ComputedInput
  | .lookup resolved => [linkInput contract source resolved.via.path resolved.via.tenant, readInput contract resolved.field]
  | .rollup resolved =>
    linkInput contract resolved.child resolved.link resolved.reference ::
      (resolved.step.toList.map fun step => linkInput contract resolved.child step.link step.reference) ++
      (resolved.of.toList ++ resolved.whereFields).map (readInput contract)

def readFields : Resolved → List TargetField
  | .lookup resolved => [resolved.field]
  | .rollup resolved => resolved.of.toList ++ resolved.whereFields

def isSuspended (field : TargetField) : Bool :=
  field.field.any fun read => tenant.state field.entity read = .suspended

def suspendedInput (resolved : Resolved) : Option TargetField := (readFields resolved).find? (isSuspended tenant)

end Rollups

section Formulas
variable (contract : Contract) (tenant : Tenant)

def selfReads (entity : Text) (reads : List FormulaFieldRef) : List ExtensionField :=
  reads.filterMap fun read =>
    match read.scope with
    | .self => tenant.byId entity read.id
    | .relation _ => none

def formulaInput (entity : Text) (entry : ExtensibleEntity) (read : FormulaFieldRef) : ComputedInput :=
  match read.scope with
  | .self =>
    match tenant.byId entity read.id with
    | some field => { label := field.key, sensitivity := field.definition.classification }
    | none => { label := read.id, sensitivity := some (authoredSensitivity contract entity read.id) }
  | .relation name =>
    let child := ((entry.ownedSingleChildren.find? fun child => child.1 = name).map Prod.snd).getD name
    { label := name ++ js "." ++ read.id, sensitivity := some (authoredSensitivity contract child read.id) }

def formulaInputs (entity : Text) (entry : ExtensibleEntity) (reads : List FormulaFieldRef) : List ComputedInput :=
  reads.map (formulaInput contract tenant entity entry)

end Formulas

end OpenShapeForge.Extensions.LinkedResolution
