import OpenShapeForge.Library.Failing
import OpenShapeForge.Library.ForeignKeys
import OpenShapeForge.Compiler.TenantBoundReferences

/-! What an accepted manifest says of the rows: where a reference leads, and what a delete sets to null. -/

namespace OpenShapeForge.Compiler.TenantSafety
open Js Library.Failing Library.ForeignKeys TenantBoundReferences

variable {manifest : Manifest} {table : TableDefinition} {reference : BoundReference} {action : Option OnDelete}

section Declarations

inductive Declares (manifest : Manifest) (table : TableDefinition) : BoundReference → Option OnDelete → Prop
  | column {column : ColumnDefinition} {definition : ReferenceDefinition} {target : TableDefinition} : column ∈ table.columns →
      column.references = some definition → resolve manifest (columnKey table column) definition.schema definition.table = .ok target →
      Declares manifest table (columnReference table column definition target) definition.onDelete
  | constraint {name columns schema targetName targetColumns action} {target : TableDefinition} :
      .foreignKey name columns schema targetName targetColumns action ∈ table.constraints →
      resolve manifest (js "Foreign key " ++ tableKey table ++ js "." ++ name) schema targetName = .ok target →
      Declares manifest table (constraintReference table name columns targetColumns target) action

theorem resolve_mem {label schema name : Text} {target : TableDefinition} (found : resolve manifest label schema name = .ok target) :
    target ∈ manifest := by
  unfold resolve at found
  split at found
  next other isFound =>
    obtain rfl := Except.ok.inj found
    exact List.mem_reverse.mp (List.mem_of_find?_eq_some isFound)
  next => cases found

theorem Declares.target_mem (declares : Declares manifest table reference action) : reference.target ∈ manifest := by
  cases declares with
  | column _ _ found => exact resolve_mem found
  | constraint _ found => exact resolve_mem found

theorem accepted_bound (accepted : assertTenantBoundReferences manifest = .ok ()) (member : table ∈ manifest)
    (declares : Declares manifest table reference action) : assertBoundReference table reference = .ok () := by
  obtain ⟨⟨⟩, columns, constraints⟩ := attempt_bind_ok.mp (forM_ok accepted table member)
  cases declares with
  | @column column definition target inColumns isReference found =>
    have checked := forM_ok columns column inColumns
    unfold assertColumnReference at checked
    rw [isReference] at checked
    dsimp only at checked
    split at checked
    next => cases checked
    next =>
      rw [found] at checked
      change (if _ then Except.error _ else assertBoundReference table (columnReference table column definition target)) = .ok () at checked
      split at checked
      next => cases checked
      next => exact checked
  | constraint inConstraints found =>
    have checked := forM_ok constraints _ inConstraints
    unfold assertConstraintReference at checked
    dsimp only at checked
    rw [found] at checked
    exact checked

end Declarations

section Rows
variable {Value : Type}

abbrev Database (Value : Type) := Text → Set (Row Text Value)

/-- The constraints of a manifest; `holds` is what the database evaluates a check to. -/
structure Satisfies (holds : Text → Row Text Value → Prop) (manifest : Manifest) (db : Database Value) : Prop where
  required : ∀ table ∈ manifest, ∀ row ∈ db (tableKey table), ∀ column ∈ table.columns,
    column.required = true ∨ column.primaryKey = true → row column.name ≠ none
  keys : ∀ table ∈ manifest, ∀ row ∈ db (tableKey table), ∀ columns, TableConstraint.primaryKey columns ∈ table.constraints →
    ∀ name ∈ columns, row name ≠ none
  checks : ∀ table ∈ manifest, ∀ row ∈ db (tableKey table), ∀ expression, TableConstraint.check expression ∈ table.constraints →
    holds expression row
  references : ∀ table ∈ manifest, ∀ reference action, Declares manifest table reference action → ∀ row ∈ db (tableKey table),
    Enforced reference.localColumns reference.targetColumns (db (tableKey reference.target)) row

/-- `CHECK (id = tenant_id)` holds where the two are equal or one of them is null. -/
def ChecksIdentity (holds : Text → Row Text Value → Prop) : Prop := ∀ expression row,
  collapsed expression = TENANT_IDENTITY_CHECK_EXPRESSION → holds expression row → ∀ id tenant, row (js "id") = some id →
    row TENANT_COLUMN = some tenant → id = tenant

def TenantsAgree (holds : Text → Row Text Value → Prop) (manifest : Manifest) : Prop := ∀ db, Satisfies holds manifest db →
  ∀ table ∈ manifest, ∀ tenant, tenantIdentityColumn table = some tenant → ∀ reference action, Declares manifest table reference action →
    reference.target.tenantScoped = true → ∀ row ∈ db (tableKey table), Filled reference.localColumns row →
      (∃ other ∈ db (tableKey reference.target), Matches reference.localColumns reference.targetColumns row other) ∧
        ∀ other ∈ db (tableKey reference.target), Matches reference.localColumns reference.targetColumns row other →
          other TENANT_COLUMN = row tenant

def neverNull (table : TableDefinition) (name : Text) : Bool :=
  (findColumn table name).any fun column => column.required || column.primaryKey

/-- What stands in the place of the target's tenant is the row's own, where the check does not see to it. -/
structure OwnTenant (table : TableDefinition) (reference : BoundReference) : Prop where
  alone : reference.localColumns.length = 1 → some reference.declaredColumn = tenantIdentityColumn table →
    reference.localColumns = [reference.declaredColumn] ∧ neverNull reference.target TENANT_COLUMN = true
  paired : table.tenantScoped = false → ¬(reference.localColumns.length = 1 ∧ some reference.declaredColumn = tenantIdentityColumn table) →
    localTenantColumn reference.localColumns reference.targetColumns = tenantIdentityColumn table

def OwnTenants (manifest : Manifest) : Prop := ∀ table ∈ manifest, tenantIdentityColumn table ≠ none → ∀ reference action,
  Declares manifest table reference action → reference.target.tenantScoped = true → OwnTenant table reference

theorem assertTenantIdentity_ok (ok : assertTenantIdentity table reference = .ok ()) :
    reference.targetColumns = [js "id"] ∧ hasTenantIdentityCheck reference.target = true := by
  unfold assertTenantIdentity at ok
  dsimp only at ok
  split at ok
  next => cases ok
  next =>
    split at ok
    next => cases ok
    next isId =>
      split at ok
      next checked => exact ⟨not_not.mp isId, checked⟩
      next => cases ok

theorem assertTenantPair_ok (ok : assertTenantPair table reference = .ok ()) :
    ∃ tenant, localTenantColumn reference.localColumns reference.targetColumns = some tenant ∧
      (table.tenantScoped = true → tenant = TENANT_COLUMN) := by
  unfold assertTenantPair at ok
  dsimp only at ok
  split at ok
  next => split at ok <;> cases ok
  next tenant isTenant =>
    refine ⟨tenant, isTenant, ?_⟩
    split at ok
    next => cases ok
    next own =>
      intro ofTenant
      by_contra other
      exact own ⟨ofTenant, other⟩

theorem required_of_neverNull {holds : Text → Row Text Value → Prop} {db : Database Value} (satisfies : Satisfies holds manifest db)
    (member : table ∈ manifest) {row : Row Text Value} (inTable : row ∈ db (tableKey table)) {name : Text} (never : neverNull table name = true) :
    row name ≠ none := by
  unfold neverNull at never
  obtain ⟨column, isColumn, required⟩ := Option.any_eq_true _ _ |>.mp never
  have isName := List.find?_some isColumn
  rw [← of_decide_eq_true isName]
  exact satisfies.required table member row inTable column (List.mem_of_find?_eq_some isColumn) (Bool.or_eq_true_iff.mp required)

theorem tenants_agree {holds : Text → Row Text Value → Prop} (law : ChecksIdentity holds)
    (accepted : assertTenantBoundReferences manifest = .ok ()) (own : OwnTenants manifest) : TenantsAgree holds manifest := by
  intro db satisfies table member tenant isTenant reference action declares ofTenant row inTable filled
  have leads := satisfies.references table member reference action declares row inTable filled
  refine ⟨leads, ?_⟩
  intro other inTarget pairs
  have passes := accepted_bound accepted member declares
  obtain ⟨⟨⟩, -, passes⟩ := attempt_bind_ok.mp passes
  rw [ofTenant] at passes
  have identified : tenantIdentityColumn table ≠ none := by
    rw [isTenant]
    exact Option.some_ne_none _
  have condition := own table member identified reference action declares ofTenant
  change (if _ then Except.ok () else if _ then assertTenantIdentity table reference else assertTenantPair table reference) = .ok () at passes
  rw [if_neg Bool.noConfusion] at passes
  split at passes
  next alone =>
    obtain ⟨isId, checked⟩ := assertTenantIdentity_ok passes
    obtain ⟨isAlone, never⟩ := condition.alone alone.1 alone.2
    have isDeclared : reference.declaredColumn = tenant := Option.some.inj (alone.2.trans isTenant)
    rw [isAlone, isDeclared, isId] at pairs
    have sameId : row tenant = other (js "id") := (List.forall₂_cons.mp pairs).1
    rw [isAlone, isDeclared] at filled
    obtain ⟨id, holdsId⟩ := Option.ne_none_iff_exists'.mp (filled tenant List.mem_cons_self)
    obtain ⟨home, holdsHome⟩ := Option.ne_none_iff_exists'.mp (required_of_neverNull satisfies declares.target_mem inTarget never)
    obtain ⟨constraint, inConstraints, isCheck⟩ := List.any_eq_true.mp checked
    cases constraint with
    | check expression =>
      have holdsCheck := satisfies.checks reference.target declares.target_mem other inTarget expression inConstraints
      have same := law expression other (of_decide_eq_true isCheck) holdsCheck id home (sameId.symm.trans holdsId) holdsHome
      rw [holdsHome, holdsId, same]
    | _ => cases isCheck
  next apart =>
    obtain ⟨column, isColumn, scopedOwn⟩ := assertTenantPair_ok passes
    have isOwn : column = tenant := by
      cases isScoped : table.tenantScoped with
      | true =>
        unfold tenantIdentityColumn at isTenant
        rw [isScoped] at isTenant
        exact (scopedOwn isScoped).trans (Option.some.inj isTenant)
      | false =>
        have paired := condition.paired isScoped apart
        exact Option.some.inj ((isColumn.symm.trans paired).trans isTenant)
    rw [isOwn] at isColumn
    unfold localTenantColumn at isColumn
    split at isColumn
    next inTargets =>
      have isTarget : reference.targetColumns[reference.targetColumns.idxOf TENANT_COLUMN]? = some TENANT_COLUMN :=
        List.getElem?_idxOf inTargets
      exact (matches_at pairs isColumn isTarget).symm
    next => cases isColumn

end Rows

section Deletes
variable {columns : List Text} {label : Text} {clause : Clause}

def nulled (columns : List Text) : Clause → List Text
  | .setNull named => named.getD columns
  | _ => []

/-- Required, of the primary key or the row's tenant. -/
def IsProtected (table : TableDefinition) (name : Text) : Prop :=
  (∃ column, findColumn table name = some column ∧ (column.required = true ∨ column.primaryKey = true)) ∨
    (∃ key, TableConstraint.primaryKey key ∈ table.constraints ∧ name ∈ key) ∨ tenantIdentityColumn table = some name

def DeletesKeep (manifest : Manifest) : Prop := ∀ table ∈ manifest, ∀ reference action, Declares manifest table reference action →
  ∀ label clause, renderOnDeleteSql table label reference.localColumns action = .ok clause →
    ∀ name, IsProtected table name → name ∉ nulled reference.localColumns clause

/-- There is a pointer beside the tenant, and every pointer may be null. -/
def Clearable (table : TableDefinition) (columns : List Text) : Prop :=
  (∃ name ∈ columns, some name ≠ tenantIdentityColumn table) ∧
    ∀ name ∈ columns, some name ≠ tenantIdentityColumn table → isNullable table name = true

def ClearsPointers (manifest : Manifest) : Prop := ∀ table ∈ manifest, ∀ reference, Declares manifest table reference (some .setNull) →
  Clearable table reference.localColumns → ∀ name ∈ reference.localColumns, isNullable table name = true →
    tenantIdentityColumn table ≠ some name ∧ ∀ key, TableConstraint.primaryKey key ∈ table.constraints → name ∉ key

/-- What `renderOnDeleteSql` refuses to clear. -/
def Unclearable (table : TableDefinition) (columns : List Text) : Prop :=
  (columns.filter fun name => some name ≠ tenantIdentityColumn table).length = 0 ∨
    ((columns.filter fun name => some name ≠ tenantIdentityColumn table).any
      fun name => !(columns.filter (isNullable table)).contains name) = true

theorem clearable_iff : Clearable table columns ↔ ¬Unclearable table columns := by
  unfold Clearable Unclearable
  rw [not_or]
  apply and_congr
  · rw [List.length_eq_zero_iff, List.filter_eq_nil_iff]
    simp
  · rw [List.any_eq_true]
    simp only [List.mem_filter, decide_eq_true_eq, List.contains_iff_mem, Bool.not_eq_true', Bool.eq_false_iff, ne_eq]
    constructor
    · intro each unclear
      obtain ⟨name, ⟨member, pointer⟩, absent⟩ := unclear
      exact absent ⟨member, each name member pointer⟩
    · intro clear name member pointer
      by_contra kept
      exact clear ⟨name, ⟨member, pointer⟩, fun both => kept both.2⟩

theorem rendered_setNull (rendered : renderOnDeleteSql table label columns (some .setNull) = .ok clause) :
    Clearable table columns ∧ nulled columns clause = columns.filter (isNullable table) := by
  rw [clearable_iff]
  unfold renderOnDeleteSql at rendered
  dsimp only at rendered
  split at rendered
  next => cases rendered
  next clear =>
    refine ⟨clear, ?_⟩
    split at rendered
    next alone =>
      obtain rfl := Except.ok.inj rendered
      have all := List.filter_sublist.eq_of_length alone.1
      exact all.symm
    next =>
      obtain rfl := Except.ok.inj rendered
      rfl

theorem renders_clearable (clearable : Clearable table columns) (label : Text) :
    ∃ clause, renderOnDeleteSql table label columns (some .setNull) = .ok clause := by
  rw [clearable_iff] at clearable
  unfold renderOnDeleteSql
  dsimp only
  split
  next refused => exact absurd refused clearable
  next =>
    split
    next => exact ⟨_, rfl⟩
    next => exact ⟨_, rfl⟩

theorem not_nullable {name : Text} (column : ∃ column, findColumn table name = some column ∧ (column.required = true ∨ column.primaryKey = true)) :
    isNullable table name = false := by
  obtain ⟨column, isColumn, required⟩ := column
  unfold isNullable
  rw [isColumn]
  rcases required with required | primary
  · simp [required]
  · simp [primary]

theorem deletes_keep : DeletesKeep manifest ↔ ClearsPointers manifest := by
  constructor
  · intro keeps table member reference declares clearable name inKey nullable
    obtain ⟨clause, rendered⟩ := renders_clearable clearable []
    have isNulled : name ∈ nulled reference.localColumns clause := by
      rw [(rendered_setNull rendered).2]
      exact List.mem_filter.mpr ⟨inKey, nullable⟩
    have kept := fun isProtected => keeps table member reference _ declares [] clause rendered name isProtected isNulled
    exact ⟨fun tenant => kept (.inr (.inr tenant)), fun key inConstraints inside => kept (.inr (.inl ⟨key, inConstraints, inside⟩))⟩
  · intro clears table member reference action declares label clause rendered name isProtected isNulled
    cases action with
    | none =>
      obtain rfl := Except.ok.inj rendered
      exact List.not_mem_nil isNulled
    | some action =>
      cases action with
      | cascade =>
        obtain rfl := Except.ok.inj rendered
        exact List.not_mem_nil isNulled
      | restrict =>
        obtain rfl := Except.ok.inj rendered
        exact List.not_mem_nil isNulled
      | setNull =>
        obtain ⟨clearable, isList⟩ := rendered_setNull rendered
        rw [isList] at isNulled
        obtain ⟨inKey, nullable⟩ := List.mem_filter.mp isNulled
        obtain ⟨notTenant, notKey⟩ := clears table member reference declares clearable name inKey nullable
        rcases isProtected with column | ⟨key, inConstraints, inside⟩ | tenant
        · rw [not_nullable column] at nullable
          cases nullable
        · exact notKey key inConstraints inside
        · exact notTenant tenant

end Deletes

section Manifests
variable {Value : Type}

/-- In an accepted manifest references stay within a tenant where each names its own, and deletes keep what is protected exactly where no
column that a clause clears is the tenant or of a declared key. -/
theorem references_bound {holds : Text → Row Text Value → Prop} (law : ChecksIdentity holds)
    (accepted : assertTenantBoundReferences manifest = .ok ()) :
    (OwnTenants manifest → TenantsAgree holds manifest) ∧ (ClearsPointers manifest ↔ DeletesKeep manifest) :=
  ⟨tenants_agree law accepted, deletes_keep.symm⟩

def uuid (name : String) (required : Bool) : ColumnDefinition := ⟨js name, js "uuid", required, false, none⟩

def persons : TableDefinition := ⟨js "auth", js "persons", true, none, [uuid "tenant_id" true, uuid "id" true], []⟩

def sessions (tenant : String) : TableDefinition where
  schema := js "auth"
  name := js "sessions"
  tenantScoped := false
  tenantIdentityColumn := none
  columns := [uuid "tenant_id" true, uuid "home_id" true, { uuid "person_id" false with
    references := some ⟨js "auth", js "persons", js "id", some [js tenant, js "person_id"], some [js "tenant_id", js "id"], some .setNull⟩ }]
  constraints := []

def sessionPerson (tenant : String) : BoundReference :=
  columnReference (sessions tenant) { uuid "person_id" false with
    references := some ⟨js "auth", js "persons", js "id", some [js tenant, js "person_id"], some [js "tenant_id", js "id"], some .setNull⟩ }
    ⟨js "auth", js "persons", js "id", some [js tenant, js "person_id"], some [js "tenant_id", js "id"], some .setNull⟩ persons

theorem resolve_persons (tenant : String) (label : Text) :
    resolve [persons, sessions tenant] label (js "auth") (js "persons") = .ok persons := rfl

theorem sessions_declares {tenant : String} {table : TableDefinition} (member : table ∈ [persons, sessions tenant])
    (declares : Declares [persons, sessions tenant] table reference action) :
    table = sessions tenant ∧ reference = sessionPerson tenant ∧ action = some .setNull := by
  simp only [List.mem_cons, List.not_mem_nil, or_false] at member
  rcases member with rfl | rfl
  · cases declares with
    | column inColumns isReference found =>
      simp only [persons, List.mem_cons, List.not_mem_nil, or_false] at inColumns
      rcases inColumns with rfl | rfl
      · cases isReference
      · cases isReference
    | constraint inConstraints _ => cases inConstraints
  · cases declares with
    | column inColumns isReference found =>
      simp only [sessions, List.mem_cons, List.not_mem_nil, or_false] at inColumns
      rcases inColumns with rfl | rfl | rfl
      · cases isReference
      · cases isReference
      · cases isReference
        obtain rfl := Except.ok.inj ((resolve_persons tenant _).symm.trans found)
        exact ⟨rfl, rfl, rfl⟩
    | constraint inConstraints _ => cases inConstraints

def onlyIdentity (expression : Text) (row : Row Text Nat) : Prop := collapsed expression = TENANT_IDENTITY_CHECK_EXPRESSION →
  ∀ id tenant, row (js "id") = some id → row TENANT_COLUMN = some tenant → id = tenant

theorem onlyIdentity_law : ChecksIdentity onlyIdentity := fun _ _ same holds => holds same

theorem references_bound_sessions : TenantsAgree onlyIdentity [persons, sessions "tenant_id"] ∧ DeletesKeep [persons, sessions "tenant_id"] := by
  have accepted : assertTenantBoundReferences [persons, sessions "tenant_id"] = .ok () := by decide
  obtain ⟨agree, keep⟩ := references_bound onlyIdentity_law accepted
  constructor
  · apply agree
    intro table member _ reference action declares _
    obtain ⟨rfl, rfl, -⟩ := sessions_declares member declares
    exact ⟨fun alone => absurd alone (by decide), fun _ _ => by decide⟩
  · apply keep.mp
    intro table member reference declares _ name inKey nullable
    obtain ⟨rfl, rfl, -⟩ := sessions_declares member declares
    refine ⟨?_, fun key never => absurd never List.not_mem_nil⟩
    intro isTenant
    have isName : js "tenant_id" = name := Option.some.inj isTenant
    rw [← isName] at nullable
    exact absurd nullable (by decide)

def cellsOf (cells : List (Text × Nat)) : Row Text Nat := fun name => (cells.find? fun cell => cell.1 = name).map Prod.snd

def personRow : Row Text Nat := cellsOf [(js "tenant_id", 2), (js "id", 7)]
def sessionRow : Row Text Nat := cellsOf [(js "tenant_id", 1), (js "home_id", 2), (js "person_id", 7)]

def crossing : Database Nat := fun key => { row | (key = tableKey persons ∧ row = personRow) ∨ (key = tableKey (sessions "home_id") ∧ row = sessionRow) }

theorem crossing_rows {table : TableDefinition} (member : table ∈ [persons, sessions "home_id"]) {row : Row Text Nat}
    (inTable : row ∈ crossing (tableKey table)) :
    (table = persons ∧ row = personRow) ∨ (table = sessions "home_id" ∧ row = sessionRow) := by
  simp only [List.mem_cons, List.not_mem_nil, or_false] at member
  rcases member with rfl | rfl
  · rcases inTable with ⟨-, same⟩ | ⟨never, -⟩
    · exact .inl ⟨rfl, same⟩
    · exact absurd never (by decide)
  · rcases inTable with ⟨never, -⟩ | ⟨-, same⟩
    · exact absurd never (by decide)
    · exact .inr ⟨rfl, same⟩

theorem crossing_satisfies : Satisfies onlyIdentity [persons, sessions "home_id"] crossing where
  required := by
    intro table member row inTable
    rcases crossing_rows member inTable with ⟨rfl, rfl⟩ | ⟨rfl, rfl⟩
    · decide
    · decide
  keys := by
    intro table member row inTable columns inConstraints
    rcases crossing_rows member inTable with ⟨rfl, -⟩ | ⟨rfl, -⟩
    · cases inConstraints
    · cases inConstraints
  checks := by
    intro table member row inTable expression inConstraints
    rcases crossing_rows member inTable with ⟨rfl, -⟩ | ⟨rfl, -⟩
    · cases inConstraints
    · cases inConstraints
  references := by
    intro table member reference action declares row inTable _
    obtain ⟨rfl, rfl, -⟩ := sessions_declares member declares
    rcases crossing_rows member inTable with ⟨never, -⟩ | ⟨-, rfl⟩
    · exact absurd never (by decide)
    · exact ⟨personRow, .inl ⟨rfl, rfl⟩, .cons rfl (.cons rfl .nil)⟩

/-- The check takes another column of a global table for its tenant. -/
theorem crosses_tenants : ¬∀ manifest : Manifest, assertTenantBoundReferences manifest = .ok () →
    TenantsAgree onlyIdentity manifest ∧ DeletesKeep manifest := by
  intro claim
  have agree := (claim [persons, sessions "home_id"] (by decide)).1
  have member : sessions "home_id" ∈ [persons, sessions "home_id"] := List.mem_cons_of_mem _ List.mem_cons_self
  have declares : Declares [persons, sessions "home_id"] (sessions "home_id") (sessionPerson "home_id") (some .setNull) :=
    .column (List.mem_cons_of_mem _ (List.mem_cons_of_mem _ List.mem_cons_self)) rfl (resolve_persons "home_id" _)
  have filled : Filled (sessionPerson "home_id").localColumns sessionRow := by
    unfold Filled
    decide
  have pairs : Matches (sessionPerson "home_id").localColumns (sessionPerson "home_id").targetColumns sessionRow personRow :=
    .cons rfl (.cons rfl .nil)
  have same := (agree crossing crossing_satisfies _ member (js "tenant_id") rfl _ _ declares rfl sessionRow (.inr ⟨rfl, rfl⟩) filled).2
    personRow (.inl ⟨rfl, rfl⟩) pairs
  exact absurd same (by decide)

end Manifests

end OpenShapeForge.Compiler.TenantSafety
