import OpenShapeForge.Formula.GraphQueries
import OpenShapeForge.Formula.ReadsOnly
import OpenShapeForge.Js.Dates
import OpenShapeForge.Js.Math
import OpenShapeForge.Library.Recompute

/-! The formulas of a record and their stored results (apps/api/src/operations/entity/extensions/formulas.ts,
packages/formula/src/dependencies.ts): evaluated in the order of their graph, all of them or those alone that a
change affects. -/

namespace OpenShapeForge.Extensions.FormulaValues
open Js Library
open Formula.Types Formula.Graph Formula.GraphCorrect Formula.GraphQueries Formula.Evaluate Formula.ReadsOnly
open Formula.Evaluator (evalPath evalFunction)
open Digraph (Edge)

section Model
variable {N : Type}

structure ComputedFormula (N : Type) where
  fieldId : Text
  ast : Ast N
  resultType : FormulaType

/-- The formulas of an entity, and what the rest of its definitions says of them. No relation is named as a
formula is, so that a path that begins with a formula's id is that id. -/
structure ExtensionFieldSet (N : Type) where
  entity : Text
  formulas : List (ComputedFormula N)
  /-- The entities of the owned single children, by relation. -/
  relations : OrderedMap Text Text
  environment : FormulaEnvironment
  unique : (formulas.map ComputedFormula.fieldId).Nodup
  plain : ∀ field ∈ formulas, unit '.' ∉ field.fieldId
  paths : ∀ field ∈ formulas, ∀ path ∈ field.ast.paths, ∀ other ∈ formulas, (segments path).head? = some other.fieldId → path = other.fieldId

def dependencyNode (entity : Text) (relations : OrderedMap Text Text) (ref : FormulaFieldRef) : DependencyNode where
  entity := match ref.scope with
    | .self => entity
    | .relation name => (relations.get? name).getD name
  field := ref.id

def dependencyNodes (entity : Text) (refs : List FormulaFieldRef) (relations : OrderedMap Text Text) : List DependencyNode :=
  refs.map (dependencyNode entity relations)

def ExtensionFieldSet.definitions (set : ExtensionFieldSet N) : List DependencyDefinition :=
  set.formulas.map fun field => ⟨⟨set.entity, field.fieldId⟩, dependencyNodes set.entity (dependencies field.ast) set.relations⟩

/-- `byId.get`. -/
def ExtensionFieldSet.formula? (set : ExtensionFieldSet N) (fieldId : Text) : Option (ComputedFormula N) :=
  set.formulas.reverse.find? fun field => field.fieldId = fieldId

def ExtensionFieldSet.fields (set : ExtensionFieldSet N) (nodes : List DependencyNode) : List (ComputedFormula N) :=
  (nodes.filter fun node => node.entity = set.entity).filterMap fun node => set.formula? node.field

def ExtensionFieldSet.order (set : ExtensionFieldSet N) : List (ComputedFormula N) := set.fields (buildDependencyGraph set.definitions).order

def ExtensionFieldSet.affectedBy (set : ExtensionFieldSet N) (changed : List DependencyNode) : List (ComputedFormula N) :=
  set.fields ((buildDependencyGraph set.definitions).affectedBy changed)

/-- The stored values of a record's tenant fields, and the errors in their notes. -/
structure Source (N : Type) where
  values : OrderedMap Text (Value N)
  errors : OrderedMap Text FormulaErrorCode

/-- What a formula reads beside the stored values: the authored fields, the defaults as a reader sees them, the owned
children, and the record itself. None of them is named as a formula is. -/
structure FormulaInput (set : ExtensionFieldSet N) where
  fieldValues : List (Text × Value N)
  defaulted : List (Text × Value N)
  children : List (Text × Value N)
  id : Value N
  createdAt : Value N
  apart : ∀ field ∈ set.formulas, field.fieldId ∉ (fieldValues ++ defaulted ++ children).map Prod.fst ++ [js "id", js "createdAt"]
  related : ∀ field ∈ set.formulas, ∀ path ∈ field.ast.paths, unit '.' ∈ path → ∀ relation ∈ (segments path).head?, relation ∈ children.map Prod.fst

def assign (values : OrderedMap Text (Value N)) (members : List (Text × Value N)) : OrderedMap Text (Value N) :=
  members.foldl (fun values member => values.set member.1 member.2) values

variable {set : ExtensionFieldSet N}

def FormulaInput.late (input : FormulaInput set) : List (Text × Value N) :=
  input.defaulted ++ input.children ++ [(js "id", input.id), (js "createdAt", input.createdAt)]

def formulaRecord (input : FormulaInput set) (source : Source N) : OrderedMap Text (Value N) :=
  assign (assign .empty (input.fieldValues ++ source.values.entries)) input.late

def storeResult (source : Source N) (fieldId : Text) : Outcome (Value N) → Source N
  | .ok .null => ⟨source.values.delete fieldId, source.errors.delete fieldId⟩
  | .ok value => ⟨source.values.set fieldId value, source.errors.delete fieldId⟩
  | .error code => ⟨source.values.set fieldId .null, source.errors.set fieldId code⟩

variable [JsNumber N] [JsMath N] [JsDates N] [Unicode] (realm : Realm N)

/-- The stored values, and the record that the formulas read. -/
abbrev Computing (N : Type) := Source N × OrderedMap Text (Value N)

def computeField (set : ExtensionFieldSet N) (state : Computing N) (field : ComputedFormula N) : Computing N :=
  let source := storeResult state.1 field.fieldId (evaluate realm field.ast state.2.entries ⟨some set.environment, some field.resultType⟩)
  (source, state.2.set field.fieldId ((source.values.get? field.fieldId).getD .null))

/-- With `only`, the formulas of those ids. -/
def evaluateFormulas (set : ExtensionFieldSet N) (input : FormulaInput set) (source : Source N) (only : Option (List Text)) : Source N :=
  ((set.order.filter fun field => only.all fun ids => field.fieldId ∈ ids).foldl (computeField realm set) (source, formulaRecord input source)).1

end Model

section Records
variable {N : Type} {set : ExtensionFieldSet N} {input : FormulaInput set} {source : Source N}

theorem get?_assign (members : List (Text × Value N)) (key : Text) : ∀ values : OrderedMap Text (Value N),
    (assign values members).get? key = ((assign .empty members).get? key).or (values.get? key) := by
  have written : ∀ (values : OrderedMap Text (Value N)) (member : Text × Value N),
      (values.set member.1 member.2).get? key = ((OrderedMap.empty.set member.1 member.2).get? key).or (values.get? key) := by
    intro values member
    by_cases same : key = member.1
    · rw [same, OrderedMap.get?_set_self, OrderedMap.get?_set_self]
      rfl
    · rw [OrderedMap.get?_set_of_ne _ _ same, OrderedMap.get?_set_of_ne _ _ same]
      rfl
  induction members with
  | nil => exact fun values => rfl
  | cons member rest ih =>
    intro values
    show (assign (values.set member.1 member.2) rest).get? key = ((assign (OrderedMap.empty.set member.1 member.2) rest).get? key).or _
    rw [ih, ih (OrderedMap.empty.set member.1 member.2), written, Option.or_assoc]

theorem assign_absent {members : List (Text × Value N)} {key : Text} (absent : key ∉ members.map Prod.fst) (values : OrderedMap Text (Value N)) :
    (assign values members).get? key = values.get? key := by
  induction members generalizing values with
  | nil => rfl
  | cons member rest ih =>
    obtain ⟨different, others⟩ := not_or.mp fun isIn => absent (List.mem_cons.mpr isIn)
    show (assign (values.set member.1 member.2) rest).get? key = _
    rw [ih others, OrderedMap.get?_set_of_ne _ _ different]

theorem get?_formulaRecord (key : Text) : (formulaRecord input source).get? key =
    ((assign .empty input.late).get? key).or ((source.values.get? key).or ((assign .empty input.fieldValues).get? key)) := by
  have stored : assign .empty source.values.entries = source.values := OrderedMap.ofList_entries source.values
  unfold formulaRecord
  rw [get?_assign]
  congr 1
  show (List.foldl _ _ _ : OrderedMap Text (Value N)).get? key = _
  rw [List.foldl_append]
  show (assign (assign .empty input.fieldValues) source.values.entries).get? key = _
  rw [get?_assign, stored]

theorem get?_storeResult {fieldId other : Text} (different : other ≠ fieldId) (result : Outcome (Value N)) :
    (storeResult source fieldId result).values.get? other = source.values.get? other ∧
      (storeResult source fieldId result).errors.get? other = source.errors.get? other := by
  unfold storeResult
  split
  next => exact ⟨OrderedMap.get?_delete_of_ne _ different, OrderedMap.get?_delete_of_ne _ different⟩
  next => exact ⟨OrderedMap.get?_set_of_ne _ _ different, OrderedMap.get?_delete_of_ne _ different⟩
  next => exact ⟨OrderedMap.get?_set_of_ne _ _ different, OrderedMap.get?_set_of_ne _ _ different⟩

def cell (source : Source N) (fieldId : Text) : Option (Value N) × Option FormulaErrorCode := (source.values.get? fieldId, source.errors.get? fieldId)

theorem cell_storeResult_of_ne {fieldId other : Text} (different : other ≠ fieldId) (result : Outcome (Value N)) :
    cell (storeResult source fieldId result) other = cell source other :=
  Prod.ext (get?_storeResult different result).1 (get?_storeResult different result).2

theorem cell_storeResult (first second : Source N) (fieldId : Text) (result : Outcome (Value N)) :
    cell (storeResult first fieldId result) fieldId = cell (storeResult second fieldId result) fieldId := by
  unfold storeResult cell
  split <;> simp only [OrderedMap.get?_delete_self, OrderedMap.get?_set_self]

theorem record_result (input : FormulaInput set) (source : Source N) {field : ComputedFormula N} (member : field ∈ set.formulas) :
    (formulaRecord input source).get? field.fieldId = source.values.get? field.fieldId := by
  have apart := input.apart field member
  simp only [List.map_append, List.mem_append, not_or] at apart
  have late : field.fieldId ∉ input.late.map Prod.fst := by
    simp only [FormulaInput.late, List.map_append, List.mem_append, not_or]
    exact ⟨⟨apart.1.1.2, apart.1.2⟩, apart.2⟩
  have nothing : (OrderedMap.empty : OrderedMap Text (Value N)).get? field.fieldId = none := rfl
  rw [get?_formulaRecord, assign_absent late, assign_absent apart.1.1.1, nothing, Option.none_or, Option.or_none]

theorem record_beside (input : FormulaInput set) (source : Source N) {fieldId key : Text} (different : key ≠ fieldId) (outcome : Outcome (Value N)) :
    (formulaRecord input (storeResult source fieldId outcome)).get? key = (formulaRecord input source).get? key := by
  rw [get?_formulaRecord, get?_formulaRecord, (get?_storeResult different outcome).1]

theorem late_present (input : FormulaInput set) (source : Source N) {key : Text} (isLate : key ∈ input.late.map Prod.fst) :
    (formulaRecord input source).get? key = (assign .empty input.late).get? key := by
  have present : ∀ (members : List (Text × Value N)) (values : OrderedMap Text (Value N)), key ∈ members.map Prod.fst → ((assign values members).get? key).isSome = true := by
    intro members
    induction members with
    | nil => exact fun _ absent => absurd absent List.not_mem_nil
    | cons member rest ih =>
      intro values isKey
      by_cases later : key ∈ rest.map Prod.fst
      · exact ih _ later
      · show ((assign (values.set member.1 member.2) rest).get? key).isSome = true
        rw [assign_absent later, (List.mem_cons.mp isKey).resolve_right later, OrderedMap.get?_set_self]
        rfl
  obtain ⟨value, found⟩ := Option.isSome_iff_exists.mp (present input.late .empty isLate)
  rw [get?_formulaRecord, found]
  rfl

section Changes
variable {before after : FormulaInput set} {stored : Source N} {changed : List DependencyNode}

/-- An update of a record and the nodes that affectedFormulas finds changed by it: every authored or stored field that
is written with another value, but for the results of the formulas. -/
structure Covers (before : FormulaInput set) (stored : Source N) (after : FormulaInput set) (source : Source N) (changed : List DependencyNode) : Prop where
  results : ∀ field ∈ set.formulas, cell source field.fieldId = cell stored field.fieldId
  fields : ∀ name, ⟨set.entity, name⟩ ∉ changed → (∀ field ∈ set.formulas, name ≠ field.fieldId) → source.values.get? name = stored.values.get? name ∧
    (assign .empty after.fieldValues).get? name = (assign .empty before.fieldValues).get? name
  /-- The children and the record are the same, and each default applies where it did. -/
  late : after.late = before.late

theorem Covers.own (covers : Covers before stored after source changed) {key : Text} (isOwn : key ∈ [js "id", js "createdAt"]) :
    (formulaRecord after source).get? key = (formulaRecord before stored).get? key := by
  have isLate : ∀ input : FormulaInput set, key ∈ input.late.map Prod.fst := by
    intro input
    unfold FormulaInput.late
    rw [List.map_append]
    exact List.mem_append_right _ isOwn
  rw [late_present _ _ (isLate after), late_present _ _ (isLate before), covers.late]

end Changes

/-- The record in use holds what the source does, but for the nulls of results that are not stored. -/
structure Tracks (input : FormulaInput set) (source : Source N) (record : OrderedMap Text (Value N)) : Prop where
  results : ∀ field ∈ set.formulas, (record.get? field.fieldId).getD .null = (source.values.get? field.fieldId).getD .null
  others : ∀ key, (∀ field ∈ set.formulas, key ≠ field.fieldId) → record.get? key = (formulaRecord input source).get? key

theorem Tracks.store {input : FormulaInput set} {source : Source N} {record : OrderedMap Text (Value N)} (tracks : Tracks input source record)
    {field : ComputedFormula N} (member : field ∈ set.formulas) (outcome : Outcome (Value N)) :
    Tracks input (storeResult source field.fieldId outcome)
      (record.set field.fieldId (((storeResult source field.fieldId outcome).values.get? field.fieldId).getD .null)) where
  results other isFormula := by
    by_cases same : other.fieldId = field.fieldId
    · rw [same, OrderedMap.get?_set_self, Option.getD_some]
    · rw [OrderedMap.get?_set_of_ne _ _ same, tracks.results other isFormula, (get?_storeResult same outcome).1]
  others key notFormula := by
    have different := notFormula field member
    rw [OrderedMap.get?_set_of_ne _ _ different, tracks.others key notFormula, record_beside _ _ different]

end Records

section Order
variable {N : Type} {set : ExtensionFieldSet N}

theorem formula?_some {fieldId : Text} {field : ComputedFormula N} (found : set.formula? fieldId = some field) :
    field ∈ set.formulas ∧ field.fieldId = fieldId :=
  ⟨List.mem_reverse.mp (List.mem_of_find?_eq_some found), by simpa using List.find?_some found⟩

theorem formula?_self {field : ComputedFormula N} (member : field ∈ set.formulas) :
    set.formula? field.fieldId = some field := by
  cases found : set.formula? field.fieldId with
  | none => exact absurd (decide_eq_true rfl) (List.find?_eq_none.mp found field (List.mem_reverse.mpr member))
  | some other =>
    obtain ⟨isFormula, same⟩ := formula?_some found
    rw [List.inj_on_of_nodup_map set.unique isFormula member same]

theorem mem_fields {nodes : List DependencyNode} {field : ComputedFormula N} :
    field ∈ set.fields nodes ↔ field ∈ set.formulas ∧ ⟨set.entity, field.fieldId⟩ ∈ nodes := by
  unfold ExtensionFieldSet.fields
  simp only [List.mem_filterMap, List.mem_filter, decide_eq_true_eq]
  constructor
  · rintro ⟨⟨entity, name⟩, ⟨member, isEntity⟩, found⟩
    obtain ⟨isFormula, same⟩ := formula?_some found
    cases isEntity
    cases same
    exact ⟨isFormula, member⟩
  · exact fun ⟨isFormula, member⟩ => ⟨_, ⟨member, rfl⟩, formula?_self isFormula⟩

theorem lastReads_formula {field : ComputedFormula N} (member : field ∈ set.formulas) :
    lastReads set.definitions ⟨set.entity, field.fieldId⟩ = dependencyNodes set.entity (dependencies field.ast) set.relations := by
  unfold lastReads ExtensionFieldSet.definitions
  rw [← List.map_reverse, List.find?_map]
  have found := formula?_self member
  unfold ExtensionFieldSet.formula? at found
  have same : ((fun definition : DependencyDefinition => decide (definition.node = ⟨set.entity, field.fieldId⟩)) ∘ fun field : ComputedFormula N =>
      (⟨⟨set.entity, field.fieldId⟩, dependencyNodes set.entity (dependencies field.ast) set.relations⟩ : DependencyDefinition)) =
      fun other => decide (other.fieldId = field.fieldId) := by
    funext other
    simp
  rw [same, found]
  rfl

theorem order_pairwise (set : ExtensionFieldSet N) :
    (set.order.Pairwise fun first second => first.fieldId ≠ second.fieldId ∧
      ⟨set.entity, second.fieldId⟩ ∉ lastReads set.definitions ⟨set.entity, first.fieldId⟩) ∧
    ∀ field ∈ set.order, ⟨set.entity, field.fieldId⟩ ∉ lastReads set.definitions ⟨set.entity, field.fieldId⟩ := by
  have once : (buildDependencyGraph set.definitions).order.Nodup := by
    rw [order_eq]
    exact (ordered_spec set.definitions).1.map (Function.LeftInverse.injective key_nodeOfKey)
  constructor
  · unfold ExtensionFieldSet.order ExtensionFieldSet.fields
    rw [List.pairwise_filterMap, List.pairwise_filter]
    refine List.Pairwise.imp_of_mem (fun {one other} inOrder later both => ?_) (once.and (pairwise_idxOf once))
    intro isOne isOther first isFirst second isSecond
    have first_eq : one = ⟨set.entity, first.fieldId⟩ := by
      rw [(formula?_some isFirst).2, ← of_decide_eq_true isOne]
    have second_eq : other = ⟨set.entity, second.fieldId⟩ := by
      rw [(formula?_some isSecond).2, ← of_decide_eq_true isOther]
    rw [← first_eq, ← second_eq]
    refine ⟨fun same => both.1 ?_, fun reads => ?_⟩
    · rw [first_eq, second_eq, same]
    · exact absurd (order_reads_first set.definitions inOrder later reads) (Nat.not_lt.mpr both.2)
  · intro field member reads
    have inOrder := (mem_fields.mp member).2
    exact lt_irrefl _ (order_reads_first set.definitions inOrder inOrder reads)

end Order

section Nodes
variable {N : Type} (set : ExtensionFieldSet N)

/-- A formula reads the record, and fields by its paths. -/
def Reads (node name : Option Text) : Prop :=
  name = none ∨ ∃ field ∈ set.formulas, node = some field.fieldId ∧ ∃ path ∈ field.ast.paths, name = some path

def ids : List (Option Text) := set.order.map fun field => some field.fieldId

def affectedIds (set : ExtensionFieldSet N) (changed : List DependencyNode) : List Text := (set.affectedBy changed).map ComputedFormula.fieldId

variable {set}

theorem segments_plain {path : Text} (plain : unit '.' ∉ path) : segments path = [path] := List.splitOn_eq_singleton plain

theorem mem_ids {node : Option Text} (member : node ∈ ids set) : ∃ field ∈ set.formulas, node = some field.fieldId ∧ field ∈ set.order := by
  obtain ⟨field, inOrder, rfl⟩ := List.mem_map.mp member
  exact ⟨field, (mem_fields.mp inOrder).1, rfl, inOrder⟩

theorem watched_head {path : Text} (watched : Recompute.Watched (ids set) (Reads set) (some path)) {field : ComputedFormula N} (member : field ∈ set.formulas)
    (head : (segments path).head? = some field.fieldId) : path = field.fieldId := by
  rcases watched with computed | ⟨node, -, reads⟩
  · obtain ⟨other, isFormula, same, -⟩ := mem_ids computed
    cases same
    rw [segments_plain (set.plain other isFormula)] at head
    exact Option.some.inj head
  · rcases reads with none' | ⟨reader, isReader, -, other, isPath, same⟩
    · cases none'
    · cases same
      exact set.paths reader isReader path isPath field member head

theorem path_node {field : ComputedFormula N} (member : field ∈ set.formulas) {path : Text} (isPath : path ∈ field.ast.paths) :
    dependencyNode set.entity set.relations (refOfPath path) ∈ lastReads set.definitions ⟨set.entity, field.fieldId⟩ := by
  rw [lastReads_formula member]
  exact List.mem_map_of_mem (List.mem_map_of_mem ((mem_distinct _ _).mpr isPath))

theorem plain_node {path : Text} (plain : unit '.' ∉ path) : dependencyNode set.entity set.relations (refOfPath path) = ⟨set.entity, path⟩ := by
  unfold refOfPath
  rw [List.idxOf?_eq_none_iff.mpr plain]
  rfl

theorem reads_node {field other : ComputedFormula N} (member : field ∈ set.formulas) (isFormula : other ∈ set.formulas)
    (reads : Reads set (some field.fieldId) (some other.fieldId)) : ⟨set.entity, other.fieldId⟩ ∈ lastReads set.definitions ⟨set.entity, field.fieldId⟩ := by
  rcases reads with none' | ⟨reader, isReader, same, path, isPath, isOther⟩
  · cases none'
  · have isField : field = reader := List.inj_on_of_nodup_map set.unique member isReader (Option.some.inj same)
    have isName : other.fieldId = path := Option.some.inj isOther
    rw [← plain_node (set.plain other isFormula), isName, isField]
    exact path_node isReader isPath

/-- What has to be computed again: a formula that is affected, or another field that changed. -/
def stale (set : ExtensionFieldSet N) (changed : List DependencyNode) : Option Text → Bool
  | some path => if (set.formula? path).isSome then path ∈ affectedIds set changed else dependencyNode set.entity set.relations (refOfPath path) ∈ changed
  | none => false

theorem stale_formula {field : ComputedFormula N} (member : field ∈ set.formulas) : stale set changed (some field.fieldId) = decide (field.fieldId ∈ affectedIds set changed) := by
  unfold stale
  dsimp only
  rw [formula?_self member]
  rfl

theorem stale_follows (node : Option Text) (computed : node ∈ ids set) (read : Option Text) (reads : Reads set node read)
    (isStale : stale set changed read = true) : stale set changed node = true := by
  obtain ⟨field, member, rfl, inOrder⟩ := mem_ids computed
  rcases reads with rfl | ⟨reader, isReader, same, path, isPath, rfl⟩
  · cases isStale
  · obtain rfl : field = reader := List.inj_on_of_nodup_map set.unique member isReader (Option.some.inj same)
    have edge := path_node member isPath
    rw [stale_formula member, decide_eq_true_eq]
    have affected : (⟨set.entity, field.fieldId⟩ : DependencyNode) ∈ (buildDependencyGraph set.definitions).affectedBy changed := by
      refine ((affectedBy_sublist set.definitions changed).2 _).mpr ⟨(mem_fields.mp inOrder).2, ?_⟩
      unfold stale at isStale
      dsimp only at isStale
      split at isStale
      next isFormula =>
        obtain ⟨other, found⟩ := Option.isSome_iff_exists.mp isFormula
        obtain ⟨isOther, rfl⟩ := formula?_some found
        obtain ⟨again, isAffected, sameId⟩ := List.mem_map.mp (of_decide_eq_true isStale)
        obtain ⟨start, isStart, chain⟩ := (((affectedBy_sublist set.definitions changed).2 _).mp (mem_fields.mp isAffected).2).2
        rw [sameId] at chain
        rw [plain_node (set.plain other isOther)] at edge
        exact ⟨start, isStart, .head edge chain⟩
      next => exact ⟨_, of_decide_eq_true isStale, .single edge⟩
    exact List.mem_map_of_mem (mem_fields.mpr ⟨member, affected⟩)

end Nodes

section Reading
variable {N : Type} [JsNumber N] {realm : Realm N} {set : ExtensionFieldSet N}

/-- What the host adds to an object goes by the key alone, and it adds nothing that is named as a formula is. -/
structure PlainHost (realm : Realm N) (set : ExtensionFieldSet N) : Prop where
  prototype : ∀ members others key, realm.inherited (.object members) key = realm.inherited (.object others) key
  unknown : ∀ field ∈ set.formulas, ∀ members, realm.inherited (.object members) field.fieldId = .undefined

variable [JsMath N] [JsDates N] {types : FieldTypes} {values others : OrderedMap Text (Value N)}

omit [JsMath N] [JsDates N] in
theorem evalPath_congr (host : PlainHost realm set) {path : Text}
    (same : ∀ key, (segments path).head? = some key → values.get? key = others.get? key) :
    evalPath realm path values.entries = evalPath realm path others.entries := by
  unfold Formula.Evaluator.evalPath Canonical.Condition.evalPath Canonical.Condition.walk
  cases isPath : segments path with
  | nil => exact absurd isPath (List.splitOn_ne_nil _ _)
  | cons key rest =>
    have found := same key (by rw [isPath]; rfl)
    have start : Canonical.Condition.step realm (.object values.entries) key = Canonical.Condition.step realm (.object others.entries) key := by
      show (values.get? key).getD _ = (others.get? key).getD _
      rw [found, host.prototype values.entries others.entries]
    rw [List.foldl_cons, List.foldl_cons, start]

theorem readField_congr (host : PlainHost realm set) {path : Text}
    (same : ∀ key, (segments path).head? = some key → values.get? key = others.get? key) :
    readField realm path values.entries types = readField realm path others.entries types := by
  unfold readField
  rw [evalPath_congr host same]

theorem readField_result (host : PlainHost realm set) {field : ComputedFormula N} (member : field ∈ set.formulas) :
    readField realm field.fieldId values.entries types = readAs (types field.fieldId) ((values.get? field.fieldId).getD .null) := by
  have read : evalPath realm field.fieldId values.entries = (values.get? field.fieldId).getD .undefined := by
    unfold Formula.Evaluator.evalPath Canonical.Condition.evalPath Canonical.Condition.walk
    rw [segments_plain (set.plain field member)]
    show Canonical.Condition.moveDate ((values.get? field.fieldId).getD _) none = _
    rw [host.unknown field member]
    cases (values.get? field.fieldId).getD .undefined <;> rfl
  unfold readField
  rw [read]
  cases values.get? field.fieldId with
  | none => simp only [Option.getD_none, readAs]
  | some value => rfl

end Reading

section Steps
variable {N : Type} [JsNumber N] [JsMath N] [JsDates N] [Unicode] (realm : Realm N) (set : ExtensionFieldSet N)

abbrev State (set : ExtensionFieldSet N) := FormulaInput set × Source N

/-- What a formula comes by: a field as it is read and stored, or the functions of the record. -/
inductive Look (N : Type) where
  | field (read : Outcome (Value N)) (stored : Option (Value N) × Option FormulaErrorCode)
  | record (functions : Formula.Types.RecordFunction → Value N)

def look (state : State set) : Option Text → Look N
  | some path => .field (readField realm path (formulaRecord state.1 state.2).entries (fieldTypes set.environment))
      (if (set.formula? path).isSome then cell state.2 path else (none, none))
  | none => .record fun name => evalFunction realm name (formulaRecord state.1 state.2).entries

variable {set} in
def result (field : ComputedFormula N) (input : FormulaInput set) (source : Source N) : Outcome (Value N) :=
  evaluate realm field.ast (formulaRecord input source).entries ⟨some set.environment, some field.resultType⟩

def step (node : Option Text) (state : State set) : State set :=
  match node.bind set.formula? with
  | some field => (state.1, storeResult state.2 field.fieldId (result realm field state.1 state.2))
  | none => state

variable {realm set}

theorem step_formula {field : ComputedFormula N} (member : field ∈ set.formulas) (state : State set) :
    step realm set (some field.fieldId) state = (state.1, storeResult state.2 field.fieldId (result realm field state.1 state.2)) := by
  unfold step
  rw [Option.bind_some, formula?_self member]

omit [JsMath N] [JsDates N] [Unicode] in
theorem sameRecord_of_keys (host : PlainHost realm set) {values others : OrderedMap Text (Value N)}
    (same : ∀ key ∈ [js "id", js "createdAt"], values.get? key = others.get? key) : SameRecord realm values.entries others.entries := by
  have get : ∀ key ∈ [js "id", js "createdAt"], (Value.object values.entries).get realm key = (Value.object others.entries).get realm key := by
    intro key member
    show (values.get? key).getD _ = (others.get? key).getD _
    rw [same key member, host.prototype values.entries others.entries]
  intro name
  cases name with
  | recordId => exact get _ List.mem_cons_self
  | createdTime => exact congrArg Canonical.Condition.toDate (get _ (List.mem_cons_of_mem _ List.mem_cons_self))

omit [Unicode] in
theorem look_result (host : PlainHost realm set) {field : ComputedFormula N} (member : field ∈ set.formulas) {first second : State set}
    (stored : cell first.2 field.fieldId = cell second.2 field.fieldId) : look realm set first (some field.fieldId) = look realm set second (some field.fieldId) := by
  have values : first.2.values.get? field.fieldId = second.2.values.get? field.fieldId := congrArg Prod.fst stored
  unfold look
  dsimp only
  rw [readField_result host member, readField_result host member, record_result _ _ member, record_result _ _ member, values, stored]

theorem computes (host : PlainHost realm set) : Recompute.Computes (ids set) (Reads set) (look realm set) (step realm set) where
  beside node computed name watched different state := by
    obtain ⟨field, member, rfl, -⟩ := mem_ids computed
    rw [step_formula member]
    cases name with
    | none =>
      refine congrArg Look.record (funext (sameRecord_of_keys host fun key isOwn => record_beside _ _ (fun same => ?_) _))
      exact state.1.apart field member (List.mem_append_right _ (same ▸ isOwn))
    | some path =>
      have other : path ≠ field.fieldId := fun same => different (congrArg some same)
      have read : readField realm path (formulaRecord state.1 (storeResult state.2 field.fieldId (result realm field state.1 state.2))).entries
          (fieldTypes set.environment) = readField realm path (formulaRecord state.1 state.2).entries (fieldTypes set.environment) :=
        readField_congr host fun key isHead => record_beside _ _ (fun same => other (watched_head watched member (by rw [isHead, same]))) _
      unfold look
      dsimp only
      rw [read, cell_storeResult_of_ne other]
  alike node computed state other agree := by
    obtain ⟨field, member, rfl, -⟩ := mem_ids computed
    have functions : SameRecord realm (formulaRecord state.1 state.2).entries (formulaRecord other.1 other.2).entries :=
      congrFun (Look.record.inj (agree none (.inl rfl)))
    have fields : ReadAlike realm (fieldTypes set.environment) (formulaRecord state.1 state.2).entries (formulaRecord other.1 other.2).entries field.ast.paths :=
      fun path isPath => (Look.field.inj (agree (some path) (.inr ⟨field, member, rfl, path, isPath, rfl⟩))).1
    have same : result realm field state.1 state.2 = result realm field other.1 other.2 := evaluate_alike functions fields
    rw [step_formula member, step_formula member, same]
    exact look_result host member (cell_storeResult state.2 other.2 field.fieldId (result realm field other.1 other.2))

theorem Tracks.result_eq (host : PlainHost realm set) {input : FormulaInput set} {source : Source N} {record : OrderedMap Text (Value N)}
    (tracks : Tracks input source record) {field : ComputedFormula N} (member : field ∈ set.formulas) :
    evaluate realm field.ast record.entries ⟨some set.environment, some field.resultType⟩ = result realm field input source := by
  refine evaluate_alike (sameRecord_of_keys host fun key isOwn => tracks.others key fun other isFormula same => ?_) fun path isPath => ?_
  · exact input.apart other isFormula (List.mem_append_right _ (same ▸ isOwn))
  · by_cases computed : ∃ other ∈ set.formulas, (segments path).head? = some other.fieldId
    · obtain ⟨other, isFormula, head⟩ := computed
      rw [set.paths field member path isPath other isFormula head, readField_result host isFormula, readField_result host isFormula,
        tracks.results other isFormula, record_result _ _ isFormula]
    · exact readField_congr host fun key isHead => tracks.others key fun other isFormula same => computed ⟨other, isFormula, same ▸ isHead⟩

theorem evaluate_run (host : PlainHost realm set) (input : FormulaInput set) : ∀ (fields : List (ComputedFormula N)), fields ⊆ set.formulas →
    ∀ source record, Tracks input source record → (fields.foldl (computeField realm set) (source, record)).1 =
      (Recompute.run (step realm set) (fields.map fun field => some field.fieldId) (input, source)).2
  | [], _, source, record, _ => rfl
  | field :: rest, within, source, record, tracks => by
    obtain ⟨member, restWithin⟩ := List.cons_subset.mp within
    have later := evaluate_run host input rest restWithin _ _ (tracks.store member (result realm field input source))
    have first : computeField realm set (source, record) field = (storeResult source field.fieldId (result realm field input source),
        record.set field.fieldId (((storeResult source field.fieldId (result realm field input source)).values.get? field.fieldId).getD .null)) := by
      unfold computeField
      dsimp only
      rw [tracks.result_eq host member]
    have stepped := @step_formula N _ _ _ _ realm set field member (input, source)
    rw [List.foldl_cons, first, later]
    show _ = (Recompute.run _ _ (step realm set (some field.fieldId) (input, source))).2
    rw [stepped]

theorem evaluateFormulas_run (host : PlainHost realm set) (input : FormulaInput set) (source : Source N) (only : Option (List Text)) :
    evaluateFormulas realm set input source only = (Recompute.run (step realm set)
      ((set.order.filter fun field => only.all fun ids => field.fieldId ∈ ids).map fun field => some field.fieldId) (input, source)).2 := by
  refine evaluate_run host input _ (fun field member => (mem_fields.mp (List.mem_filter.mp member).1).1) source _ ⟨fun field member => ?_, fun _ _ => rfl⟩
  rw [record_result _ _ member]

end Steps

section Results
variable {N : Type} [JsNumber N] [JsMath N] [JsDates N] [Unicode] (realm : Realm N) {set : ExtensionFieldSet N}

/-- Every formula that is in the order has the result stored that it gives now. -/
def UpToDate (input : FormulaInput set) (source : Source N) : Prop := ∀ field ∈ set.order,
  cell (storeResult source field.fieldId (result realm field input source)) field.fieldId = cell source field.fieldId

/-- A record that is created, and updated time after time. -/
inductive Written : FormulaInput set → Source N → Prop
  | created (input : FormulaInput set) (source : Source N) : Written input (evaluateFormulas realm set input source none)
  | updated {before after : FormulaInput set} {stored source : Source N} {changed : List DependencyNode} : Written before stored →
    Covers before stored after source changed → Written after (evaluateFormulas realm set after source (some (affectedIds set changed)))

variable {realm} {input before after : FormulaInput set} {source stored : Source N} {changed : List DependencyNode}

omit [Unicode] in
theorem look_inj {field : ComputedFormula N} (member : field ∈ set.formulas) {first second : State set}
    (same : look realm set first (some field.fieldId) = look realm set second (some field.fieldId)) : cell first.2 field.fieldId = cell second.2 field.fieldId := by
  have stored := (Look.field.inj same).2
  rwa [formula?_self member] at stored

theorem settled_iff (host : PlainHost realm set) : Recompute.Settled (ids set) (look realm set) (step realm set) (input, source) ↔ UpToDate realm input source := by
  have stepped := fun {field : ComputedFormula N} (member : field ∈ set.formulas) => @step_formula N _ _ _ _ realm set field member (input, source)
  constructor
  · intro settled field inOrder
    have member := (mem_fields.mp inOrder).1
    have same := settled _ (List.mem_map_of_mem inOrder)
    rw [stepped member] at same
    exact look_inj member same
  · intro upToDate node computed
    obtain ⟨field, member, rfl, inOrder⟩ := mem_ids computed
    rw [stepped member]
    exact look_result host member (upToDate field inOrder)

theorem step_input (node : Option Text) (state : State set) : (step realm set node state).1 = state.1 := by
  unfold step
  split <;> rfl

theorem run_input : ∀ (nodes : List (Option Text)) (state : State set), (Recompute.run (step realm set) nodes state).1 = state.1
  | [], _ => rfl
  | node :: rest, state => (run_input rest (step realm set node state)).trans (step_input node state)

theorem run_cell_beside {fieldId : Text} : ∀ (nodes : List (Option Text)) (state : State set), some fieldId ∉ nodes →
    cell (Recompute.run (step realm set) nodes state).2 fieldId = cell state.2 fieldId
  | [], _, _ => rfl
  | node :: rest, state, absent => by
    have later := run_cell_beside rest (step realm set node state) (List.not_mem_of_not_mem_cons absent)
    refine later.trans ?_
    unfold step
    split
    next field found =>
      obtain ⟨name, isName, isField⟩ := Option.bind_eq_some_iff.mp found
      have different : fieldId ≠ field.fieldId := fun same =>
        List.ne_of_not_mem_cons absent (by rw [isName, same, (formula?_some isField).2])
      exact cell_storeResult_of_ne different _
    next => rfl

theorem evaluated_upToDate (host : PlainHost realm set) (input : FormulaInput set) (source : Source N) :
    UpToDate realm input (evaluateFormulas realm set input source none) := by
  obtain ⟨apart, alone⟩ := order_pairwise set
  have settled := (computes host : Recompute.Computes _ (Reads set) _ _).run_settles
    (List.pairwise_map.mpr (apart.imp fun both same => both.1 (Option.some.inj same)))
    (List.pairwise_map.mpr (apart.imp_of_mem fun isFirst isSecond both reads =>
      both.2 (reads_node (mem_fields.mp isFirst).1 (mem_fields.mp isSecond).1 reads)))
    (fun node computed reads => by
      obtain ⟨field, member, rfl, inOrder⟩ := mem_ids computed
      exact alone field inOrder (reads_node member member reads))
    (input, source)
  have everything : (set.order.filter fun field => (none : Option (List Text)).all fun ids => field.fieldId ∈ ids) = set.order :=
    List.filter_eq_self.mpr fun _ _ => rfl
  rw [evaluateFormulas_run host, everything]
  apply (settled_iff host).mp
  have same : (input, (Recompute.run (step realm set) (ids set) (input, source)).2) = Recompute.run (step realm set) (ids set) (input, source) :=
    Prod.ext (run_input (ids set) (input, source)).symm rfl
  exact same ▸ settled

omit [Unicode] in
/-- What no node of a change stands for is read as before. -/
theorem Covers.read (host : PlainHost realm set) (covers : Covers before stored after source changed) {field : ComputedFormula N} (member : field ∈ set.formulas)
    {path : Text} (isPath : path ∈ field.ast.paths) (unchanged : dependencyNode set.entity set.relations (refOfPath path) ∉ changed)
    (notFormula : set.formula? path = none) : readField realm path (formulaRecord after source).entries (fieldTypes set.environment) =
      readField realm path (formulaRecord before stored).entries (fieldTypes set.environment) := by
  refine readField_congr host fun key isHead => ?_
  by_cases dotted : unit '.' ∈ path
  · have isLate : ∀ input : FormulaInput set, key ∈ input.late.map Prod.fst := by
      intro input
      unfold FormulaInput.late
      rw [List.map_append, List.map_append]
      exact List.mem_append_left _ (List.mem_append_right _ (input.related field member path isPath dotted key isHead))
    rw [late_present _ _ (isLate after), late_present _ _ (isLate before), covers.late]
  · rw [segments_plain dotted] at isHead
    obtain rfl : path = key := Option.some.inj isHead
    rw [plain_node dotted] at unchanged
    have same := covers.fields path unchanged fun other isFormula isOther => by
      rw [isOther, formula?_self isFormula] at notFormula
      cases notFormula
    rw [get?_formulaRecord, get?_formulaRecord, covers.late, same.1, same.2]

/-- Where a change is covered, evaluating the formulas that it affects stores what evaluating all of them would. -/
theorem affected_suffice (host : PlainHost realm set) (upToDate : UpToDate realm before stored) (covers : Covers before stored after source changed)
    (fieldId : Text) : cell (evaluateFormulas realm set after source (some (affectedIds set changed))) fieldId =
      cell (evaluateFormulas realm set after source none) fieldId := by
  have settled := (settled_iff host).mpr upToDate
  have kept : ∀ name, Recompute.Watched (ids set) (Reads set) name → stale set changed name = false →
      look realm set (after, source) name = look realm set (before, stored) name := by
    intro name watched fresh
    cases name with
    | none =>
      exact congrArg Look.record (funext (sameRecord_of_keys host fun key isOwn => covers.own isOwn))
    | some path =>
      cases found : set.formula? path with
      | some field =>
        obtain ⟨member, rfl⟩ := formula?_some found
        exact look_result host member (covers.results field member)
      | none =>
        rcases watched with computed | ⟨node, -, none' | ⟨reader, isReader, -, other, isPath, same⟩⟩
        · obtain ⟨field, member, same, -⟩ := mem_ids computed
          rw [Option.some.inj same, formula?_self member] at found
          cases found
        · cases none'
        · obtain rfl : path = other := Option.some.inj same
          unfold stale at fresh
          simp only [found, Option.isSome_none, Bool.false_eq_true, if_false, decide_eq_false_iff_not] at fresh
          unfold look
          dsimp only
          rw [covers.read host isReader isPath fresh found, found]
          rfl
  have sufficient := (computes host : Recompute.Computes _ (Reads set) _ _).run_stale settled kept stale_follows
  have part : (ids set).filter (stale set changed) =
      (set.order.filter fun field => (some (affectedIds set changed)).all fun ids => field.fieldId ∈ ids).map fun field => some field.fieldId := by
    unfold ids
    rw [List.filter_map]
    congr 1
    exact List.filter_congr fun field inOrder => stale_formula (mem_fields.mp inOrder).1
  have whole : (set.order.filter fun field => (none : Option (List Text)).all fun ids => field.fieldId ∈ ids) = set.order :=
    List.filter_eq_self.mpr fun _ _ => rfl
  rw [evaluateFormulas_run host, evaluateFormulas_run host, ← part, whole]
  by_cases computed : some fieldId ∈ ids set
  · obtain ⟨field, member, same, -⟩ := mem_ids computed
    obtain rfl : fieldId = field.fieldId := Option.some.inj same
    exact look_inj member (sufficient _ (.inl computed))
  · -- no formula of the order, and nothing is stored of it
    exact (run_cell_beside _ _ fun isPart => computed (List.mem_of_mem_filter isPart)).trans (run_cell_beside (ids set) _ computed).symm

theorem upToDate_congr (host : PlainHost realm set) {other : Source N} (same : ∀ fieldId, cell source fieldId = cell other fieldId)
    (upToDate : UpToDate realm input other) : UpToDate realm input source := by
  intro field inOrder
  have record : ∀ key, (formulaRecord input source).get? key = (formulaRecord input other).get? key := by
    intro key
    have values : source.values.get? key = other.values.get? key := congrArg Prod.fst (same key)
    rw [get?_formulaRecord, get?_formulaRecord, values]
  have alike : result realm field input source = result realm field input other :=
    evaluate_alike (sameRecord_of_keys host fun key _ => record key) fun path _ => readField_congr host fun key _ => record key
  rw [alike, same, cell_storeResult source other, upToDate field inOrder]

theorem written_upToDate (host : PlainHost realm set) (written : Written realm input source) : UpToDate realm input source := by
  induction written with
  | created input source => exact evaluated_upToDate host input source
  | updated written covers upToDate => exact upToDate_congr host (affected_suffice host upToDate covers) (evaluated_upToDate host _ _)

/-- However often a record is written, the formulas that each change affects leave it as all of them would: every
stored result is the one that its formula gives now. -/
theorem updates_as_recomputed (host : PlainHost realm set) (written : Written realm before stored) (covers : Covers before stored after source changed) :
    UpToDate realm after (evaluateFormulas realm set after source (some (affectedIds set changed))) ∧
      ∀ fieldId, cell (evaluateFormulas realm set after source (some (affectedIds set changed))) fieldId =
        cell (evaluateFormulas realm set after source none) fieldId :=
  ⟨written_upToDate host (.updated written covers), affected_suffice host (written_upToDate host written) covers⟩

end Results

section Orders
attribute [local instance] asciiTables

/-- An order, and a formula over its price. -/
def orders : ExtensionFieldSet Whole where
  entity := js "order"
  formulas := [⟨js "f-total", .formula .add [.path (js "price"), .path (js "price")], .number⟩]
  relations := .empty
  environment := []
  unique := List.nodup_singleton _
  plain := by decide
  paths := by decide

def priced (price : Whole) : FormulaInput orders where
  fieldValues := [(js "price", .number price)]
  defaulted := []
  children := []
  id := .text (js "o-1")
  createdAt := .null
  apart := by
    show ∀ field ∈ orders.formulas, field.fieldId ∉ [js "price"] ++ [js "id", js "createdAt"]
    decide
  related := by decide

/-- The price of an order goes from 2 to 3. -/
theorem updates_as_recomputed_price : UpToDate bareRealm (priced (.finite 3)) (evaluateFormulas bareRealm orders (priced (.finite 3))
      (evaluateFormulas bareRealm orders (priced (.finite 2)) ⟨.empty, .empty⟩ none) (some (affectedIds orders [⟨js "order", js "price"⟩]))) ∧
    ∀ fieldId, cell (evaluateFormulas bareRealm orders (priced (.finite 3))
      (evaluateFormulas bareRealm orders (priced (.finite 2)) ⟨.empty, .empty⟩ none) (some (affectedIds orders [⟨js "order", js "price"⟩]))) fieldId =
      cell (evaluateFormulas bareRealm orders (priced (.finite 3)) (evaluateFormulas bareRealm orders (priced (.finite 2)) ⟨.empty, .empty⟩ none) none) fieldId := by
  refine updates_as_recomputed ⟨fun _ _ _ => rfl, fun _ _ _ => rfl⟩ (.created (priced (.finite 2)) ⟨.empty, .empty⟩) ⟨fun _ _ => rfl, ?_, rfl⟩
  intro name unchanged notFormula
  have different : name ≠ js "price" := fun same => unchanged (List.mem_singleton.mpr (by rw [same]; rfl))
  have missing : ∀ price, (assign .empty (priced price).fieldValues).get? name = none := by
    intro price
    show (OrderedMap.empty.set (js "price") (Value.number price)).get? name = none
    exact OrderedMap.get?_set_of_ne _ _ different
  exact ⟨rfl, (missing _).trans (missing _).symm⟩

end Orders

end OpenShapeForge.Extensions.FormulaValues
