import OpenShapeForge.Js.Text

/-! The tenant in every foreign key that the compiler emits (packages/compiler/src/tenant-bound-references.ts). -/

namespace OpenShapeForge.Compiler.TenantBoundReferences
open Js

inductive OnDelete where
  | cascade | restrict | setNull
deriving DecidableEq

structure ReferenceDefinition where
  schema : Text
  table : Text
  column : Text
  localColumns : Option (List Text)
  targetColumns : Option (List Text)
  onDelete : Option OnDelete
deriving DecidableEq

structure ColumnDefinition where
  name : Text
  type : Text
  required : Bool
  primaryKey : Bool
  references : Option ReferenceDefinition
deriving DecidableEq

inductive TableConstraint where
  | primaryKey (columns : List Text)
  | unique (columns : List Text)
  | foreignKey (name : Text) (columns : List Text) (schema table : Text) (targetColumns : List Text) (onDelete : Option OnDelete)
  | check (expression : Text)
deriving DecidableEq

structure TableDefinition where
  schema : Text
  name : Text
  tenantScoped : Bool
  tenantIdentityColumn : Option Text
  columns : List ColumnDefinition
  constraints : List TableConstraint
deriving DecidableEq

/-- The tables of a `PlatformSchemaManifest`. -/
abbrev Manifest := List TableDefinition

def TENANT_COLUMN : Text := js "tenant_id"

def keyOf (schema name : Text) : Text := schema ++ js "." ++ name

def tableKey (table : TableDefinition) : Text := keyOf table.schema table.name

def columnKey (table : TableDefinition) (column : ColumnDefinition) : Text := tableKey table ++ js "." ++ column.name

def findColumn (table : TableDefinition) (name : Text) : Option ColumnDefinition :=
  table.columns.find? fun column => column.name = name

def tenantIdentityColumn (table : TableDefinition) : Option Text :=
  if table.tenantScoped then some TENANT_COLUMN
  else match table.tenantIdentityColumn.filter fun name => name ≠ [] with
    | some name => some name
    | none => if table.columns.any fun column => column.name = TENANT_COLUMN then some TENANT_COLUMN else none

def TENANT_IDENTITY_CHECK_EXPRESSION : Text := js "id = tenant_id"

/-- `expression.replace(/\s+/g, " ").trim()`: its words, one space apart. -/
def collapsed (expression : Text) : Text :=
  join (js " ") ((expression.splitOnP isWhitespace).filter fun word => word ≠ [])

def isIdentityCheck : TableConstraint → Bool
  | .check expression => collapsed expression = TENANT_IDENTITY_CHECK_EXPRESSION
  | _ => false

def hasTenantIdentityCheck (table : TableDefinition) : Bool := table.constraints.any isIdentityCheck

structure Spelling where
  columns : Text
  target : Text

def columnReferenceSpelling : Spelling := ⟨js "references.localColumns", js "references.targetColumns"⟩
def tableConstraintSpelling : Spelling := ⟨js "columns", js "references.columns"⟩

structure BoundReference where
  label : Text
  /-- The column the reference is declared on; the whole key for a table constraint. -/
  declaredColumn : Text
  localColumns : List Text
  targetColumns : List Text
  target : TableDefinition
  spelling : Spelling

def commas (names : List Text) : Text := join (js ", ") names

/-- Every referenced column exists and has the type of the column that it pairs with. -/
def assertPairs (table : TableDefinition) (label : Text) (target : TableDefinition) : List Text → List Text → Except Text Unit
  | column :: columns, name :: names =>
    match findColumn target name, findColumn table column with
    | none, _ => .error (label ++ js " references unknown column " ++ tableKey target ++ js "." ++ name ++ js ".")
    | some _, none => .error (label ++ js " names unknown local column " ++ column ++ js ".")
    | some found, some here =>
      if here.type ≠ found.type then
        .error (label ++ js " pairs " ++ tableKey table ++ js "." ++ here.name ++ js " (" ++ here.type ++ js ") with " ++ tableKey target ++
          js "." ++ name ++ js " (" ++ found.type ++ js "); the types must match.")
      else assertPairs table label target columns names
  | _, _ => .ok ()

def assertReferencePairs (table : TableDefinition) (label : Text) (localColumns targetColumns : List Text) (target : TableDefinition) :
    Except Text Unit :=
  if localColumns.length ≠ targetColumns.length ∨ localColumns.length = 0 then
    .error (label ++ js " pairs " ++ decimal localColumns.length ++ js " local column(s) with " ++ decimal targetColumns.length ++
      js " referenced column(s).")
  else assertPairs table label target localColumns targetColumns

def isRequiredUuid (column : Option ColumnDefinition) : Bool :=
  column.any fun column => decide (column.type = js "uuid") && (column.required || column.primaryKey)

def assertTenantIdentity (table : TableDefinition) (reference : BoundReference) : Except Text Unit :=
  let label := reference.label
  let targetKey := tableKey reference.target
  if isRequiredUuid (findColumn table reference.declaredColumn) = false then
    .error (label ++ js " is the row's tenant identity and must be a required UUID column; a nullable tenant leaves the foreign key unchecked.")
  else if reference.targetColumns ≠ [js "id"] then
    .error (label ++ js " is the row's tenant identity and may only reference " ++ targetKey ++ js ".id, not (" ++
      commas reference.targetColumns ++ js ").")
  else if hasTenantIdentityCheck reference.target then .ok ()
  else .error (label ++ js " is the row's tenant identity but " ++ targetKey ++ js " does not prove id = tenant_id; " ++
    js "only a tenant registry carrying CHECK (" ++ TENANT_IDENTITY_CHECK_EXPRESSION ++ js ") may be referenced by a tenant column alone.")

def localTenantColumn (localColumns targetColumns : List Text) : Option Text :=
  if TENANT_COLUMN ∈ targetColumns then localColumns[targetColumns.idxOf TENANT_COLUMN]? else none

def assertTenantPair (table : TableDefinition) (reference : BoundReference) : Except Text Unit :=
  let label := reference.label
  let targetKey := tableKey reference.target
  let spelling := reference.spelling
  match localTenantColumn reference.localColumns reference.targetColumns with
  | none =>
    let key := js "(" ++ commas reference.localColumns ++ js ")"
    let targetIdColumn := (reference.targetColumns.find? fun name => name ≠ TENANT_COLUMN).getD (js "id")
    let fix := js "set " ++ spelling.columns ++ js ": [" ++ (tenantIdentityColumn table).getD (js "<tenant column>") ++ js ", " ++
      reference.declaredColumn ++ js "] and " ++ spelling.target ++ js ": [" ++ TENANT_COLUMN ++ js ", " ++ targetIdColumn ++ js "]"
    if table.tenantScoped then
      .error (label ++ js " references tenant-scoped " ++ targetKey ++ js " by " ++ key ++ js " alone; " ++
        js "a tenant-scoped row must reuse its own tenant: " ++ fix ++ js ".")
    else
      .error (js "Global table " ++ tableKey table ++ js " may reference tenant-scoped " ++ targetKey ++ js " only through an explicit " ++
        js "tenant column pair, but " ++ reference.declaredColumn ++ js " references it by " ++ key ++ js " alone: " ++ fix ++ js ".")
  | some tenant =>
    if table.tenantScoped = true ∧ tenant ≠ TENANT_COLUMN then
      .error (label ++ js " binds " ++ targetKey ++ js "." ++ TENANT_COLUMN ++ js " to " ++ tenant ++ js "; " ++
        js "a tenant-scoped row must reuse its own " ++ TENANT_COLUMN ++ js " (" ++ spelling.columns ++ js ": [" ++ TENANT_COLUMN ++
        js ", " ++ reference.declaredColumn ++ js "]).")
    else if isRequiredUuid (findColumn table tenant) then .ok ()
    else .error (label ++ js " binds " ++ targetKey ++ js "." ++ TENANT_COLUMN ++ js " to " ++ tenant ++ js ", " ++
      js "which must be a required UUID column of " ++ tableKey table ++ js "; a nullable tenant leaves the foreign key unchecked.")

def assertBoundReference (table : TableDefinition) (reference : BoundReference) : Except Text Unit := do
  assertReferencePairs table reference.label reference.localColumns reference.targetColumns reference.target
  if reference.target.tenantScoped = false then .ok ()
  else if reference.localColumns.length = 1 ∧ some reference.declaredColumn = tenantIdentityColumn table then
    assertTenantIdentity table reference
  else assertTenantPair table reference

/-- The last table of a key, as a `Map` of them has it. -/
def resolve (manifest : Manifest) (label schema name : Text) : Except Text TableDefinition :=
  match manifest.reverse.find? fun table => tableKey table = keyOf schema name with
  | some target => .ok target
  | none => .error (label ++ js " references unknown table " ++ keyOf schema name ++ js ".")

def columnReference (table : TableDefinition) (column : ColumnDefinition) (reference : ReferenceDefinition) (target : TableDefinition) :
    BoundReference where
  label := columnKey table column
  declaredColumn := column.name
  localColumns := reference.localColumns.getD [column.name]
  targetColumns := reference.targetColumns.getD [reference.column]
  target := target
  spelling := columnReferenceSpelling

def assertColumnReference (manifest : Manifest) (table : TableDefinition) (column : ColumnDefinition) : Except Text Unit :=
  match column.references with
  | none => .ok ()
  | some reference =>
    let label := columnKey table column
    if reference.localColumns.isNone ≠ reference.targetColumns.isNone then
      .error (js "Invalid composite foreign key " ++ label ++ js ": localColumns and targetColumns go together.")
    else do
      let target ← resolve manifest label reference.schema reference.table
      if (findColumn target reference.column).isNone then
        .error (label ++ js " references unknown column " ++ tableKey target ++ js "." ++ reference.column ++ js ".")
      else assertBoundReference table (columnReference table column reference target)

def declaredColumn (table : TableDefinition) (columns : List Text) : Text :=
  (columns.find? fun name => some name ≠ tenantIdentityColumn table).getD (columns.head?.getD [])

def constraintReference (table : TableDefinition) (name : Text) (columns targetColumns : List Text) (target : TableDefinition) :
    BoundReference where
  label := js "Foreign key " ++ tableKey table ++ js "." ++ name
  declaredColumn := declaredColumn table columns
  localColumns := columns
  targetColumns := targetColumns
  target := target
  spelling := tableConstraintSpelling

def assertConstraintReference (manifest : Manifest) (table : TableDefinition) : TableConstraint → Except Text Unit
  | .foreignKey name columns schema target targetColumns _ => do
    let target ← resolve manifest (js "Foreign key " ++ tableKey table ++ js "." ++ name) schema target
    assertBoundReference table (constraintReference table name columns targetColumns target)
  | _ => .ok ()

def assertTenantBoundReferences (manifest : Manifest) : Except Text Unit :=
  manifest.forM fun table => do
    table.columns.forM (assertColumnReference manifest table)
    table.constraints.forM (assertConstraintReference manifest table)

/-- An `ON DELETE` clause: nothing, an action, or the columns that `SET NULL` names, where it names any. -/
inductive Clause where
  | none
  | cascade
  | restrict
  | setNull (columns : Option (List Text))
deriving DecidableEq

def quoteIdent (name : Text) : Text := unit '"' :: (name.flatMap fun c => if c = unit '"' then [c, c] else [c]) ++ [unit '"']

def Clause.sql : Clause → Text
  | .none => []
  | .cascade => js " ON DELETE CASCADE"
  | .restrict => js " ON DELETE RESTRICT"
  | .setNull Option.none => js " ON DELETE SET NULL"
  | .setNull (some columns) => js " ON DELETE SET NULL (" ++ commas (columns.map quoteIdent) ++ js ")"

def isNullable (table : TableDefinition) (name : Text) : Bool :=
  (findColumn table name).any fun column => !column.required && !column.primaryKey

def renderOnDeleteSql (table : TableDefinition) (label : Text) (localColumns : List Text) (action : Option OnDelete) : Except Text Clause :=
  match action with
  | none => .ok .none
  | some .cascade => .ok .cascade
  | some .restrict => .ok .restrict
  | some .setNull =>
    let nullable := localColumns.filter (isNullable table)
    let pointers := localColumns.filter fun name => some name ≠ tenantIdentityColumn table
    if pointers.length = 0 ∨ pointers.any (fun name => !nullable.contains name) = true then
      .error (label ++ js " is NOT NULL and cannot use ON DELETE SET NULL; make the column nullable or choose CASCADE or RESTRICT.")
    else if nullable.length = localColumns.length ∧ localColumns.length = 1 then .ok (.setNull Option.none)
    else .ok (.setNull (some nullable))

end OpenShapeForge.Compiler.TenantBoundReferences
