import Mathlib.Logic.Function.Basic
import OpenShapeForge.Extensions.TenantGraph
import OpenShapeForge.Library.Failing

/-! The check of a tenant's graph refuses exactly the changes that close a cycle or make a chain
longer than a field's entity allows, and a definition that is saved reads what it was checked with. -/

namespace OpenShapeForge.Extensions.TenantGraph
open Js Library Formula.Types FieldModel LinkedResolution Relation
open LongestChains (Chain Longest Acyclic Within IsCycle)
open Failing (attempt_bind_ok attempt_map_ok)

section Replacing
variable {contract : Contract} {tenant : Tenant} {changed : Changed} {own : ExtensibleEntity} {stored : Nodes}

def replaced (stored : Nodes) (changed : Changed) (own : ExtensibleEntity) : Key → Option GraphNode :=
  Function.update stored.get? changed.node (some (changedNode changed own))

theorem addNodes_filter (key : Key) : ∀ {items : List (Text × ExtensibleEntity × ExtensionField)} {all some_nodes final : Nodes},
    addNodes contract tenant items all = .ok final → (∀ other, other ≠ key → some_nodes.get? other = all.get? other) →
    ∃ left, addNodes contract tenant (items.filter fun item => fieldKey item ≠ key) some_nodes = .ok left ∧
      ∀ other, other ≠ key → left.get? other = final.get? other
  | [], all, some_nodes, final, ends, alike => by
    cases ends
    exact ⟨some_nodes, rfl, alike⟩
  | item :: rest, all, some_nodes, final, ends, alike => by
    unfold addNodes at ends
    cases isReads : storedReads contract tenant item.1 item.2.1 item.2.2.definition.spec with
    | error message =>
      rw [isReads] at ends
      cases ends
    | ok reads =>
      rw [isReads] at ends
      by_cases isKey : fieldKey item = key
      · rw [List.filter_cons_of_neg (by simpa using isKey)]
        refine addNodes_filter key ends fun other different => ?_
        rw [OrderedMap.get?_set_of_ne _ _ (isKey ▸ different)]
        exact alike other different
      · rw [List.filter_cons_of_pos (by simpa using isKey)]
        unfold addNodes
        rw [isReads]
        refine addNodes_filter key ends fun other different => ?_
        by_cases same : other = fieldKey item
        · rw [same, OrderedMap.get?_set_self, OrderedMap.get?_set_self]
        · rw [OrderedMap.get?_set_of_ne _ _ same, OrderedMap.get?_set_of_ne _ _ same]
          exact alike other different

theorem changedGraph_replaced (isStored : storedGraph contract tenant = .ok stored) :
    ∃ nodes, changedGraph contract tenant changed own = .ok nodes ∧ nodes.get? = replaced stored changed own := by
  have begins : ∀ other, other ≠ changed.node → (OrderedMap.empty : Nodes).get? other = (OrderedMap.empty : Nodes).get? other := fun _ _ => rfl
  obtain ⟨left, isLeft, alike⟩ := addNodes_filter changed.node isStored begins
  refine ⟨left.set changed.node (changedNode changed own), ?_, ?_⟩
  · unfold changedGraph
    rw [isLeft]
    rfl
  · funext key
    unfold replaced
    by_cases same : key = changed.node
    · rw [same, OrderedMap.get?_set_self, Function.update_self]
    · rw [OrderedMap.get?_set_of_ne _ _ same, Function.update_of_ne same]
      exact alike key same

end Replacing

section Cycles
variable {V : Type} {before after : V → Option (List V)} {changed : V}

theorem path_through (same : ∀ vertex, vertex ≠ changed → after vertex = before vertex) {source target : V}
    (path : TransGen (LongestChains.Reads after) source target) :
    TransGen (LongestChains.Reads before) source target ∨
      ReflTransGen (LongestChains.Reads after) source changed ∧ ReflTransGen (LongestChains.Reads after) changed target := by
  have step_through : ∀ {source target : V}, LongestChains.Reads after source target →
      LongestChains.Reads before source target ∨ source = changed ∨ target = changed := by
    rintro source target ⟨⟨targets, isSource, isTarget⟩, others, isVertex⟩
    by_cases atSource : source = changed
    · exact .inr (.inl atSource)
    · by_cases atTarget : target = changed
      · exact .inr (.inr atTarget)
      · exact .inl ⟨⟨targets, same source atSource ▸ isSource, isTarget⟩, others, same target atTarget ▸ isVertex⟩
  induction path with
  | single step =>
    rcases step_through step with old | rfl | rfl
    · exact .inl (.single old)
    · exact .inr ⟨.refl, .single step⟩
    · exact .inr ⟨.single step, .refl⟩
  | tail path step ih =>
    rcases ih with old | ⟨toChanged, fromChanged⟩
    · rcases step_through step with oldStep | rfl | rfl
      · exact .inl (old.tail oldStep)
      · exact .inr ⟨path.to_reflTransGen, .single step⟩
      · exact .inr ⟨path.to_reflTransGen.tail step, .refl⟩
    · exact .inr ⟨toChanged, fromChanged.tail step⟩

theorem cycle_through (same : ∀ vertex, vertex ≠ changed → after vertex = before vertex) (acyclic : Acyclic before) {vertex : V}
    (cycle : TransGen (LongestChains.Reads after) vertex vertex) : TransGen (LongestChains.Reads after) changed changed := by
  rcases path_through same cycle with old | ⟨toChanged, fromChanged⟩
  · exact absurd old (acyclic vertex)
  · exact (TransGen.trans_right fromChanged cycle).trans_left toChanged

theorem chain_before (same : ∀ vertex, vertex ≠ changed → after vertex = before vertex) : ∀ {vertex : V} {count : Nat},
    Chain after vertex count → ¬ ReflTransGen (LongestChains.Reads after) vertex changed → Chain before vertex count := by
  intro vertex count chain
  induction chain with
  | zero vertex => exact fun _ => .zero vertex
  | here isSource =>
    intro apart
    refine .here ((same _ fun isChanged => apart ?_) ▸ isSource)
    exact isChanged ▸ .refl
  | @onward vertex target targets count isSource isTarget chain ih =>
    intro apart
    have unchanged : vertex ≠ changed := fun isChanged => apart (isChanged ▸ .refl)
    refine .onward (same vertex unchanged ▸ isSource) isTarget ?_
    by_cases isNode : ∃ others, after target = some others
    · exact ih fun leads => apart (.head ⟨⟨targets, isSource, isTarget⟩, isNode⟩ leads)
    · cases chain with
      | zero => exact .zero target
      | here isVertex | onward isVertex => exact absurd ⟨_, isVertex⟩ isNode

end Cycles

section Exact
variable {contract : Contract} {tenant : Tenant} {changed : Changed} {own : ExtensibleEntity} {stored : Nodes}

theorem deep_acyclic {key : Key} {depth : Nat} (acyclic : Acyclic (readsOf stored.get?)) (within : Within (readsOf stored.get?) (limitOf stored.get?))
    (longest : Longest (readsOf (replaced stored changed own)) key depth) (isNode : ∃ targets, readsOf (replaced stored changed own) key = some targets)
    (deep : limitOf (replaced stored changed own) key < depth) : Acyclic (readsOf (replaced stored changed own)) := by
  intro vertex cycle
  have same : ∀ other, other ≠ changed.node → readsOf (replaced stored changed own) other = readsOf stored.get? other := by
    intro other different
    unfold readsOf replaced
    rw [Function.update_of_ne different]
  have around := cycle_through same acyclic cycle
  -- what led to the cycle would have chains of every length
  have apart : ¬ ReflTransGen (LongestChains.Reads (readsOf (replaced stored changed own))) key changed.node := by
    intro leads
    have endless : Chain (readsOf (replaced stored changed own)) key (depth + 1) :=
      ((Chain.of_cycle around (depth + 1)).of_path (TransGen.trans_right leads around)).shorter
    exact absurd (longest.2 _ endless) (Nat.not_succ_le_self depth)
  have unchanged : key ≠ changed.node := fun isChanged => apart (isChanged ▸ .refl)
  obtain ⟨targets, isTargets⟩ := isNode
  have low := within key targets (same key unchanged ▸ isTargets) depth (chain_before same longest.1 apart)
  have sameLimit : limitOf (replaced stored changed own) key = limitOf stored.get? key := by
    unfold limitOf replaced
    rw [Function.update_of_ne unchanged]
  omega

/-- The verdict on a graph: accepted, or refused for one of the two reasons with what it found. -/
def Verdict (graph : Key → Option GraphNode) (changed : Changed) : Except GraphError Unit → Prop
  | .ok _ => Within (readsOf graph) (limitOf graph)
  | .error (.refused failure) =>
    (∃ path, IsCycle (readsOf graph) path ∧ failure = refuse changed (circular graph path) .cycle) ∨
      Acyclic (readsOf graph) ∧ ∃ key depth, (graph key).isSome ∧ Longest (readsOf graph) key depth ∧ limitOf graph key < depth ∧
        failure = failureOf graph changed (.tooDeep key depth)
  | .error (.unreadable _) => False

theorem assertTenantGraph_verdict (isStored : storedGraph contract tenant = .ok stored) (isOwn : contract.entity changed.entity = some own)
    (acyclic : Acyclic (readsOf stored.get?)) (within : Within (readsOf stored.get?) (limitOf stored.get?)) :
    ∃ outcome, assertTenantGraph contract tenant changed = some outcome ∧ Verdict (replaced stored changed own) changed outcome := by
  obtain ⟨nodes, isNodes, isReplaced⟩ := @changedGraph_replaced contract tenant changed own stored isStored
  have covers : ∀ key, (readsOf nodes.get? key).isSome → key ∈ nodes.keys := by
    intro key isNode
    obtain ⟨targets, isTargets⟩ := Option.isSome_iff_exists.mp isNode
    obtain ⟨node, isValue, -⟩ := Option.map_eq_some_iff.mp isTargets
    exact (nodes.mem_keys_iff_get? key).mpr ⟨node, isValue⟩
  obtain ⟨found, ends, right⟩ := LongestChains.deepest_exact (limitOf nodes.get?) covers fun key isNode =>
    List.mem_cons_of_mem changed.node (covers key isNode)
  unfold assertTenantGraph
  rw [isOwn]
  dsimp only
  rw [isNodes]
  dsimp only
  rw [ends]
  refine ⟨_, rfl, ?_⟩
  rw [isReplaced] at right
  cases found with
  | ok result => exact right
  | error refusal =>
    rw [isReplaced]
    cases refusal with
    | cycle path => exact .inl ⟨path, right, rfl⟩
    | tooDeep key depth =>
      obtain ⟨isNode, longest, deep⟩ := right
      obtain ⟨targets, isTargets⟩ := isNode
      obtain ⟨node, isValue, -⟩ := Option.map_eq_some_iff.mp isTargets
      exact .inr ⟨deep_acyclic acyclic within longest ⟨targets, isTargets⟩ deep, key, depth, Option.isSome_iff_exists.mpr ⟨node, isValue⟩, longest, deep, rfl⟩

end Exact

section Stored
variable {contract : Contract} {tenant : Tenant} {entity : Text} {entry : ExtensibleEntity}

def stepPath (step : Option RollupStep) (via : FieldPath) : FieldPath :=
  ((step.bind RollupStep.reference).map fun field => FieldPath.tenant field.fieldId).getD via

def storedCollection (reference : Option ExtensionField) : CollectionPath → CollectionPath
  | .relation key => .relation key
  | .reference child name => .reference child ((reference.map ExtensionField.fieldId).getD name)

/-- A lookup or rollup as it is saved, its fields by id. -/
def storedSpec (tenant : Tenant) : Spec → Resolved → Spec
  | .lookup _ _ resultType, .lookup resolved => .lookup resolved.via.path resolved.field.path resultType
  | .rollup collection aggregate of filter resultType, .rollup resolved =>
    .rollup (storedCollection resolved.reference collection) aggregate
      (of.bind fun of => resolved.of.map fun read => ⟨of.via.map (stepPath resolved.step), read.path⟩)
      (filter.map (storedWhere tenant false resolved.child)) resultType
  | spec, _ => spec

theorem find?_named {α : Type} {items : List α} {name : α → Text} (distinct : (items.map name).Nodup) {item : α} (member : item ∈ items) :
    (items.find? fun other => name other = name item) = some item := by
  cases found : items.find? fun other => name other = name item with
  | none => exact absurd (List.find?_eq_none.mp found item member) (by simp)
  | some other =>
    have same : name other = name item := by simpa using List.find?_some found
    exact congrArg some (List.inj_on_of_nodup_map distinct (List.mem_of_find?_eq_some found) member same)

theorem byId_of_findField {name : Text} {field : ExtensionField} (found : findField tenant false entity name = some field) :
    tenant.byId entity field.fieldId = some field :=
  find?_named (tenant.once entity) (List.mem_of_find?_eq_some found)

theorem singleReference_ok {name purpose kind : Text} {found : ExtensionField × Text}
    (single : singleReference contract tenant entity entry name false purpose kind = .ok found) :
    tenant.byId entity found.1.fieldId = some found.1 ∧ found.1.definition.spec.isStored = true ∧
      (extensionShape contract entry found.1.definition).map ExtensionShape.reference = .ok (some found.2) := by
  unfold singleReference at single
  split at single
  next => cases single
  next field isField =>
    split at single
    next => cases single
    next =>
      split at single
      next => cases single
      next =>
        obtain ⟨shape, isShape, single⟩ := attempt_bind_ok.mp single
        split at single
        next target isStored isReference =>
          split at single
          next => cases single
          next =>
            split at single
            next => cases single
            next =>
              cases single
              exact ⟨byId_of_findField isField, isStored, attempt_map_ok.mpr ⟨shape, isShape, isReference⟩⟩
        next => cases single

theorem resolveVia_stored (keys : (entry.relations.map Relation.key).Nodup) : ∀ {via : FieldPath} {found : LookupVia × Text},
    resolveVia contract tenant false entity entry via = .ok found → lookupTarget contract tenant entity entry found.1.path = .ok (some found.2)
  | .tenant name, found, resolves => by
    obtain ⟨single, isSingle, rfl⟩ := attempt_map_ok.mp resolves
    obtain ⟨byId, -, shape⟩ := singleReference_ok isSingle
    unfold lookupTarget
    dsimp only
    rw [byId]
    exact shape
  | .authored name, found, resolves => by
    unfold resolveVia at resolves
    dsimp only at resolves
    split at resolves
    next => cases resolves
    next relation isRelation =>
      obtain ⟨readable, -, rfl⟩ := attempt_map_ok.mp resolves
      unfold lookupTarget
      dsimp only
      rw [find?_named keys (List.mem_of_find?_eq_some isRelation)]
      rfl

/-- What a field is resolved to by the key a caller writes. -/
def storedPath (tenant : Tenant) (entity : Text) : FieldPath → FieldPath
  | .authored name => .authored name
  | .tenant key => .tenant (((tenant.byKey entity key).map ExtensionField.fieldId).getD key)

theorem resolveField_path : ∀ {path : FieldPath} {purpose : Text} {read : TargetField},
    resolveField contract tenant false entity path purpose = .ok read → read.path = storedPath tenant entity path
  | .tenant key, purpose, read, resolves => by
    unfold resolveField at resolves
    dsimp only at resolves
    split at resolves
    next => cases resolves
    next => cases resolves
    next entry field isEntry isField =>
      split at resolves
      next => cases resolves
      next =>
        split at resolves
        next => cases resolves
        next =>
          split at resolves
          next => cases resolves
          next =>
            obtain ⟨type, -, rfl⟩ := attempt_map_ok.mp resolves
            have byKey : tenant.byKey entity key = some field := isField
            unfold storedPath
            dsimp only
            rw [byKey]
            rfl
  | .authored name, purpose, read, resolves => by
    unfold resolveField at resolves
    dsimp only at resolves
    split at resolves
    next => cases resolves
    next table isTable =>
      split at resolves
      next => cases resolves
      next column authored isColumn isAuthored =>
        split at resolves
        next => cases resolves
        next =>
          split at resolves
          next => cases resolves
          next =>
            split at resolves
            next => cases resolves
            next field isField =>
              split at resolves
              next => cases resolves
              next =>
                cases resolves
                rfl

theorem resolveFields_paths {purpose : Text} : ∀ {paths : List FieldPath} {reads : List TargetField},
    resolveFields contract tenant false entity purpose paths = .ok reads → reads.map TargetField.path = paths.map (storedPath tenant entity)
  | [], reads, resolves => by
    cases resolves
    rfl
  | path :: rest, reads, resolves => by
    obtain ⟨read, isRead, resolves⟩ := attempt_bind_ok.mp resolves
    obtain ⟨later, isLater, rfl⟩ := attempt_map_ok.mp resolves
    rw [List.map_cons, List.map_cons, resolveField_path isRead, resolveFields_paths isLater]

theorem mapChildPaths_length (rename : Text → Text) : ∀ children : List Condition, (mapChildPaths rename children).length = children.length
  | [] => by
    unfold mapChildPaths
    rfl
  | child :: rest => by
    unfold mapChildPaths
    rw [List.length_cons, List.length_cons, mapChildPaths_length rename rest]

def idOfKey (tenant : Tenant) (entity key : Text) : Text := ((tenant.byKey entity key).map ExtensionField.fieldId).getD key

mutual

theorem conditionPaths_stored (tenant : Tenant) (entity : Text) : ∀ (condition : Condition) (depth : Nat) (paths : List FieldPath),
    conditionPaths depth condition = .ok paths →
    conditionPaths depth (mapConditionPaths (idOfKey tenant entity) condition) = .ok (paths.map (storedPath tenant entity))
  | .rule (.tenant key) operator right, depth, paths, named => by
    unfold conditionPaths at named
    unfold mapConditionPaths conditionPaths
    split at named
    next => cases named
    next shallow =>
      cases named
      rw [if_neg shallow]
      rfl
  | .rule (.authored name) operator right, depth, paths, named => by
    unfold conditionPaths at named
    unfold mapConditionPaths conditionPaths
    split at named
    next => cases named
    next shallow =>
      rw [if_neg shallow]
      dsimp only at named ⊢
      split at named
      next isName =>
        cases named
        rw [if_pos isName]
        rfl
      next => cases named
  | .group any children, depth, paths, named => by
    unfold conditionPaths at named
    unfold mapConditionPaths conditionPaths
    split at named
    next => cases named
    next shallow =>
      rw [if_neg shallow]
      split at named
      next => cases named
      next sized =>
        have same : (mapChildPaths (idOfKey tenant entity) children).isEmpty = children.isEmpty := by
          cases children with
          | nil => unfold mapChildPaths; rfl
          | cons => unfold mapChildPaths; rfl
        rw [same, mapChildPaths_length, if_neg sized]
        exact childPaths_stored tenant entity children (depth + 1) paths named

theorem childPaths_stored (tenant : Tenant) (entity : Text) : ∀ (children : List Condition) (depth : Nat) (paths : List FieldPath),
    childPaths depth children = .ok paths →
    childPaths depth (mapChildPaths (idOfKey tenant entity) children) = .ok (paths.map (storedPath tenant entity))
  | [], depth, paths, named => by
    unfold childPaths at named
    cases named
    unfold mapChildPaths childPaths
    rfl
  | child :: rest, depth, paths, named => by
    unfold childPaths at named
    obtain ⟨first, isFirst, named⟩ := attempt_bind_ok.mp named
    obtain ⟨later, isLater, rfl⟩ := attempt_map_ok.mp named
    unfold mapChildPaths childPaths
    refine attempt_bind_ok.mpr ⟨_, conditionPaths_stored tenant entity child depth first isFirst, ?_⟩
    rw [childPaths_stored tenant entity rest depth later isLater, List.map_append]
    rfl

end

/-- A field that holds a reference or an authored column: none that is computed. -/
def Plain (contract : Contract) (tenant : Tenant) (entity : Text) (link : FieldPath) : Prop :=
  (∃ field, link = .tenant field.fieldId ∧ tenant.byId entity field.fieldId = some field ∧ field.definition.spec.isStored = true) ∨
    ∃ table column, contract.tables entity = some table ∧ column ∈ table.columns ∧ link = .authored column.field

theorem plain_of_column {foreignKey : Text} {column : Column} (isColumn : foreignKeyColumn contract entity foreignKey = some column) :
    Plain contract tenant entity (.authored column.field) := by
  obtain ⟨table, isTable, found⟩ := Option.bind_eq_some_iff.mp isColumn
  exact .inr ⟨table, column, isTable, List.mem_of_find?_eq_some found, rfl⟩

theorem resolveCollection_stored (keys : (entry.relations.map Relation.key).Nodup) : ∀ {collection : CollectionPath}
    {found : Option Relation × Option ExtensionField × Text × FieldPath}, resolveCollection contract tenant false entity entry collection = .ok found →
    rollupChild entry (storedCollection found.2.1 collection) = some found.2.2.1 ∧ Plain contract tenant found.2.2.1 found.2.2.2
  | .reference child name, found, resolves => by
    unfold resolveCollection at resolves
    dsimp only at resolves
    split at resolves
    next childEntry field isEntry isField =>
      split at resolves
      next => cases resolves
      next =>
        split at resolves
        next => cases resolves
        next =>
          obtain ⟨shape, isShape, resolves⟩ := attempt_bind_ok.mp resolves
          split at resolves
          next => cases resolves
          next single =>
            split at resolves
            next => cases resolves
            next =>
              cases resolves
              have isStored : field.definition.spec.isStored = true := by
                simp only [Bool.or_eq_true, Bool.not_eq_true', not_or, Bool.not_eq_false] at single
                exact single.1.1
              exact ⟨rfl, .inl ⟨field, rfl, byId_of_findField isField, isStored⟩⟩
    next => cases resolves
  | .relation key, found, resolves => by
    unfold resolveCollection at resolves
    dsimp only at resolves
    split at resolves
    next => cases resolves
    next relation isRelation =>
      split at resolves
      next => cases resolves
      next column isColumn =>
        obtain ⟨readable, -, rfl⟩ := attempt_map_ok.mp resolves
        have isKey : relation.key = key := by
          have both := List.find?_some isRelation
          rw [Bool.and_eq_true] at both
          exact of_decide_eq_true both.1
        refine ⟨?_, plain_of_column isColumn⟩
        unfold storedCollection rollupChild
        dsimp only
        rw [← isKey, find?_named keys (List.mem_of_find?_eq_some isRelation)]
        rfl

theorem resolveStep_stored {child : Text} : ∀ {via : FieldPath} {step : RollupStep}, resolveStep contract tenant false child via = .ok step →
    storedStep contract tenant child (stepPath (some step) via) = .ok (some step.target) ∧ Plain contract tenant child step.link
  | .authored name, step, resolves => by
    unfold resolveStep at resolves
    dsimp only at resolves
    split at resolves
    next => cases resolves
    next relation isRelation =>
      obtain ⟨readable, -, resolves⟩ := attempt_bind_ok.mp resolves
      split at resolves
      next => cases resolves
      next column isColumn =>
        cases resolves
        refine ⟨?_, plain_of_column isColumn⟩
        unfold stepPath storedStep
        dsimp only [Option.bind_some, Option.map_none, Option.getD_none]
        rw [isRelation, Option.bind_some, isColumn]
        rfl
  | .tenant name, step, resolves => by
    unfold resolveStep at resolves
    dsimp only at resolves
    split at resolves
    next => cases resolves
    next childEntry isEntry =>
      obtain ⟨single, isSingle, rfl⟩ := attempt_map_ok.mp resolves
      obtain ⟨byId, isStored, shape⟩ := singleReference_ok isSingle
      refine ⟨?_, .inl ⟨single.1, rfl, byId, isStored⟩⟩
      unfold stepPath storedStep
      dsimp only [Option.bind_some, Option.map_some, Option.getD_some]
      rw [isEntry, byId]
      exact shape

/-- What a rollup's `of` reads: on the child, and over the step. -/
def ofKeys (child : Text) (step : Option RollupStep) (of : Option TargetField) : List Key × List Key :=
  match step with
  | some step => ([], of.toList.map fun of => (step.target, pathId of.path))
  | none => (of.toList.map fun of => (child, pathId of.path), [])

theorem resolveOf_stored {child : Text} : ∀ {of : Option OfPath} {found : Option RollupStep × Option TargetField},
    resolveOf contract tenant false child of = .ok found →
    storedOf contract tenant child (of.bind fun of => found.2.map fun read => ⟨of.via.map (stepPath found.1), read.path⟩) =
        .ok (ofKeys child found.1 found.2) ∧
      ∀ step ∈ found.1, Plain contract tenant child step.link
  | none, found, resolves => by
    cases resolves
    exact ⟨rfl, fun step never => by cases never⟩
  | some ⟨none, field⟩, found, resolves => by
    obtain ⟨read, isRead, rfl⟩ := attempt_map_ok.mp resolves
    exact ⟨rfl, fun step never => by cases never⟩
  | some ⟨some via, field⟩, found, resolves => by
    obtain ⟨step, isStep, resolves⟩ := attempt_bind_ok.mp resolves
    obtain ⟨read, isRead, rfl⟩ := attempt_map_ok.mp resolves
    obtain ⟨isStored, plain⟩ := resolveStep_stored isStep
    refine ⟨?_, fun other isOther => ?_⟩
    · unfold storedOf
      dsimp only [Option.bind_some, Option.map_some]
      rw [isStored]
      rfl
    · cases isOther
      exact plain

theorem resolveWhere_stored {child : Text} : ∀ {filter : Option Condition} {reads : List TargetField},
    resolveWhere contract tenant false child filter = .ok reads →
    storedWherePaths (filter.map (storedWhere tenant false child)) = .ok (reads.map TargetField.path)
  | none, reads, resolves => by
    cases resolves
    rfl
  | some condition, reads, resolves => by
    obtain ⟨paths, isPaths, resolves⟩ := attempt_bind_ok.mp resolves
    rw [resolveFields_paths resolves]
    exact conditionPaths_stored tenant child condition 0 paths isPaths

/-- What is saved reads what it was checked with, but for the plain fields a rollup's records are found by. -/
theorem storedDependencies_resolved (keys : (entry.relations.map Relation.key).Nodup) : ∀ {spec : Spec} {resolved : Resolved},
    resolveSpec contract tenant false entity entry spec = .ok resolved → ∃ reads,
      storedDependencies contract tenant entity entry (storedSpec tenant spec resolved) = .ok reads ∧
        ∀ key : Key, (∀ link, Plain contract tenant key.1 link → key.2 ≠ pathId link) → (key ∈ linkedDependencies entity resolved ↔ key ∈ reads)
  | .lookup via field resultType, resolved, resolves => by
    obtain ⟨lookup, isLookup, rfl⟩ := attempt_map_ok.mp resolves
    obtain ⟨found, isFound, isLookup⟩ := attempt_bind_ok.mp isLookup
    obtain ⟨read, isRead, isLookup⟩ := attempt_bind_ok.mp isLookup
    split at isLookup
    next => cases isLookup
    next =>
      cases isLookup
      exact ⟨_, attempt_map_ok.mpr ⟨_, resolveVia_stored keys isFound, rfl⟩, fun key _ => Iff.rfl⟩
  | .rollup collection aggregate of filter resultType, resolved, resolves => by
    obtain ⟨rollup, isRollup, rfl⟩ := attempt_map_ok.mp resolves
    unfold resolveRollup at isRollup
    obtain ⟨⟨relation, reference, child, link⟩, isCollection, isRollup⟩ := attempt_bind_ok.mp isRollup
    obtain ⟨⟨step, read⟩, isOf, isRollup⟩ := attempt_bind_ok.mp isRollup
    dsimp only at isRollup
    split at isRollup
    next => cases isRollup
    next =>
      obtain ⟨whereFields, isWhere, isRollup⟩ := attempt_bind_ok.mp isRollup
      obtain ⟨accepted, -, rfl⟩ := attempt_map_ok.mp isRollup
      obtain ⟨isChild, plainLink⟩ := resolveCollection_stored keys isCollection
      obtain ⟨ofStored, plainStep⟩ := resolveOf_stored isOf
      have whereStored := resolveWhere_stored isWhere
      dsimp only at isChild ofStored plainLink plainStep
      refine ⟨(ofKeys child step read).1 ++ (whereFields.map TargetField.path).map (fun path => (child, pathId path)) ++ (ofKeys child step read).2,
        ?_, fun key computed => ?_⟩
      · unfold storedSpec storedDependencies
        dsimp only
        rw [isChild]
        dsimp only
        exact attempt_bind_ok.mpr ⟨_, ofStored, attempt_map_ok.mpr ⟨_, whereStored, rfl⟩⟩
      · have noLink : ∀ {path : FieldPath}, Plain contract tenant child path → key ≠ (child, pathId path) := by
          rintro path plain rfl
          exact computed path plain rfl
        unfold linkedDependencies ofKeys
        cases step with
        | none => simp [noLink plainLink]
        | some step => simp [noLink plainLink, noLink (plainStep step rfl)]
  | .stored, _, resolves | .formula .., _, resolves => by cases resolves

end Stored

section Claims
variable {contract : Contract} {tenant : Tenant} {changed : Changed} {own : ExtensibleEntity} {stored : Nodes}

/-- The ids of tenant fields are no names of authored ones, the relations of an entity have keys
of their own, and a field that is computed never was a stored one. -/
structure Kept (contract : Contract) (tenant : Tenant) (changed : Changed) : Prop where
  ids : ∀ entity table, contract.tables entity = some table → ∀ column ∈ table.columns, ∀ field ∈ tenant.fields entity, field.fieldId ≠ column.field
  ownId : ∀ table, contract.tables changed.entity = some table → ∀ column ∈ table.columns, changed.fieldId ≠ column.field
  keys : ∀ entry ∈ contract.entities, (entry.2.relations.map Relation.key).Nodup
  computed : ∀ field ∈ tenant.fields changed.entity, field.fieldId = changed.fieldId → field.definition.spec.isStored = false

theorem addNodes_from : ∀ {items : List (Text × ExtensibleEntity × ExtensionField)} {nodes final : Nodes}, addNodes contract tenant items nodes = .ok final →
    ∀ {key : Key} {node : GraphNode}, final.get? key = some node → nodes.get? key = some node ∨ ∃ item ∈ items, fieldKey item = key
  | [], nodes, final, ends, key, node, isNode => by
    cases ends
    exact .inl isNode
  | item :: rest, nodes, final, ends, key, node, isNode => by
    unfold addNodes at ends
    obtain ⟨reads, -, ends⟩ := attempt_bind_ok.mp ends
    by_cases same : key = fieldKey item
    · exact .inr ⟨item, List.mem_cons_self, same.symm⟩
    · rcases addNodes_from ends isNode with before | ⟨other, member, isKey⟩
      · rw [OrderedMap.get?_set_of_ne _ _ same] at before
        exact .inl before
      · exact .inr ⟨other, List.mem_cons_of_mem _ member, isKey⟩

theorem computed_not_plain (kept : Kept contract tenant changed) (isStored : storedGraph contract tenant = .ok stored) {key : Key}
    (isNode : (replaced stored changed own key).isSome) : ∀ link, Plain contract tenant key.1 link → key.2 ≠ pathId link := by
  have fields : (∃ field ∈ tenant.fields key.1, field.fieldId = key.2 ∧ field.definition.spec.isStored = false) ∨ key = changed.node := by
    by_cases same : key = changed.node
    · exact .inr same
    · obtain ⟨node, isValue⟩ := Option.isSome_iff_exists.mp isNode
      unfold replaced at isValue
      rw [Function.update_of_ne same] at isValue
      rcases addNodes_from isStored isValue with never | ⟨item, member, rfl⟩
      · cases never
      · obtain ⟨extensible, -, member⟩ := List.mem_flatMap.mp member
        obtain ⟨field, isField, rfl⟩ := List.mem_map.mp member
        obtain ⟨listed, live⟩ := List.mem_filter.mp isField
        rw [Bool.and_eq_true] at live
        exact .inl ⟨field, listed, rfl, by simpa using live.1⟩
  rintro link (⟨field, rfl, byId, plain⟩ | ⟨table, column, isTable, isColumn, rfl⟩) sameId
  · have listed : field ∈ tenant.fields key.1 := List.mem_of_find?_eq_some byId
    have computed : field.definition.spec.isStored = false := by
      rcases fields with ⟨other, isOther, isId, computed⟩ | isChanged
      · have same : other = field := List.inj_on_of_nodup_map (tenant.once key.1) isOther listed (isId.trans sameId)
        exact same ▸ computed
      · rw [isChanged] at listed sameId
        exact kept.computed field listed sameId.symm
    exact Bool.noConfusion (plain.symm.trans computed)
  · rcases fields with ⟨other, isOther, isId, -⟩ | isChanged
    · exact kept.ids key.1 table isTable column isColumn other isOther (isId.trans sameId)
    · rw [isChanged] at isTable sameId
      exact kept.ownId table isTable column isColumn sameId

/-- A change is refused for a cycle exactly where what the field will read closes one, and for
depth exactly where a chain grows beyond a limit; and a definition is checked with the computed
fields that it reads once it is stored. -/
theorem tenantGraph_exact (kept : Kept contract tenant changed) (isStored : storedGraph contract tenant = .ok stored)
    (isOwn : contract.entity changed.entity = some own) (acyclic : Acyclic (readsOf stored.get?))
    (within : Within (readsOf stored.get?) (limitOf stored.get?)) :
    (∃ outcome, assertTenantGraph contract tenant changed = some outcome ∧
      ((∃ failure, outcome = .error (.refused failure) ∧ failure.code = .cycle) ↔ ¬ Acyclic (readsOf (replaced stored changed own))) ∧
      (∀ failure, outcome = .error (.refused failure) → failure.code = .cycle → ∃ path, IsCycle (readsOf (replaced stored changed own)) path ∧
        failure = refuse changed (circular (replaced stored changed own) path) .cycle) ∧
      (Acyclic (readsOf (replaced stored changed own)) →
        ((∃ failure, outcome = .error (.refused failure) ∧ failure.code = .depthExceeded) ↔
          ∃ key node count, replaced stored changed own key = some node ∧ Chain (readsOf (replaced stored changed own)) key count ∧ node.limit < count)) ∧
      (outcome = .ok () ↔ Acyclic (readsOf (replaced stored changed own)) ∧
        Within (readsOf (replaced stored changed own)) (limitOf (replaced stored changed own)))) ∧
    ∀ entity entry spec resolved, (entity, entry) ∈ contract.entities → resolveSpec contract tenant false entity entry spec = .ok resolved →
      ∃ reads, storedDependencies contract tenant entity entry (storedSpec tenant spec resolved) = .ok reads ∧
        ∀ key, (replaced stored changed own key).isSome → (key ∈ linkedDependencies entity resolved ↔ key ∈ reads) := by
  constructor
  · obtain ⟨outcome, ends, verdict⟩ := assertTenantGraph_verdict isStored isOwn acyclic within
    have limits : ∀ {key : Key} {node : GraphNode}, replaced stored changed own key = some node → limitOf (replaced stored changed own) key = node.limit := by
      intro key node isNode
      unfold limitOf
      rw [isNode]
      rfl
    have reads : ∀ {key : Key} {node : GraphNode}, replaced stored changed own key = some node →
        readsOf (replaced stored changed own) key = some node.reads := by
      intro key node isNode
      unfold readsOf
      rw [isNode]
      rfl
    refine ⟨outcome, ends, ?_⟩
    cases outcome with
    | ok =>
      have graph_within : Within (readsOf (replaced stored changed own)) (limitOf (replaced stored changed own)) := verdict
      refine ⟨⟨?_, fun cyclic => absurd graph_within.acyclic cyclic⟩, ?_, fun _ => ⟨?_, ?_⟩, fun _ => ⟨graph_within.acyclic, graph_within⟩, fun _ => rfl⟩
      · rintro ⟨failure, never, -⟩
        cases never
      · intro failure never
        cases never
      · rintro ⟨failure, never, -⟩
        cases never
      · rintro ⟨key, node, count, isNode, chain, deep⟩
        have low := graph_within key node.reads (reads isNode) count chain
        rw [limits isNode] at low
        omega
    | error reason =>
      cases reason with
      | unreadable message => cases verdict
      | refused failure =>
        rcases verdict with ⟨path, cycle, rfl⟩ | ⟨graph_acyclic, key, depth, isSome, longest, deep, rfl⟩
        · obtain ⟨vertex, around⟩ := cycle.path
          have cyclic : ¬ Acyclic (readsOf (replaced stored changed own)) := fun acyclic => acyclic vertex around
          refine ⟨⟨fun _ => cyclic, fun _ => ⟨_, rfl, rfl⟩⟩, ?_, fun acyclic => absurd acyclic cyclic, ?_, fun both => absurd both.1 cyclic⟩
          · intro failure same _
            cases same
            exact ⟨path, cycle, rfl⟩
          · intro never
            cases never
        · obtain ⟨node, isNode⟩ := Option.isSome_iff_exists.mp isSome
          refine ⟨⟨?_, fun cyclic => absurd graph_acyclic cyclic⟩, ?_, fun _ => ⟨fun _ => ?_, fun _ => ⟨_, rfl, rfl⟩⟩, ?_, fun both => ?_⟩
          · rintro ⟨failure, same, never⟩
            cases same
            cases never
          · intro failure same never
            cases same
            cases never
          · exact ⟨key, node, depth, isNode, longest.1, limits isNode ▸ deep⟩
          · intro never
            cases never
          · have low := both.2 key node.reads (reads isNode) depth longest.1
            omega
  · intro entity entry spec resolved listed resolves
    obtain ⟨reads, isReads, same⟩ := storedDependencies_resolved (kept.keys (entity, entry) listed) resolves
    exact ⟨reads, isReads, fun key isNode => same key (computed_not_plain kept isStored isNode)⟩

def orders : ExtensibleEntity := ⟨[], [], [], 2⟩

def ordersContract : Contract where
  entities := [(js "Order", orders)]
  once := List.nodup_singleton _
  childRelations _ := []
  readAccess _ := none
  tables _ := none
  baseType _ := none
  parsesTime _ := false

def totalField : ExtensionField := ⟨js "1", js "total", ⟨js "number", none, false, false, .formula [] .number⟩, none⟩

def ordersTenant : Tenant where
  fields entity := if entity = js "Order" then [totalField] else []
  once entity := by
    split
    next => exact List.nodup_singleton _
    next => exact List.nodup_nil
  status _ _ := ⟨.ready, none⟩

def ordersGraph : Nodes := OrderedMap.set .empty (js "Order", js "1") ⟨js "Order.total", 2, []⟩

def doubled : Changed := ⟨js "Order", js "2", js "doubled", [(none, js "1")]⟩

theorem tenantGraph_exact_doubled : ∃ outcome, assertTenantGraph ordersContract ordersTenant doubled = some outcome ∧
    (outcome = .ok () ↔ Acyclic (readsOf (replaced ordersGraph doubled orders)) ∧
      Within (readsOf (replaced ordersGraph doubled orders)) (limitOf (replaced ordersGraph doubled orders))) := by
  have kept : Kept ordersContract ordersTenant doubled := by
    refine ⟨fun _ _ never => (by cases never), fun _ never => (by cases never), fun entry member => ?_, ?_⟩
    · rw [List.mem_singleton.mp member]
      exact List.nodup_nil
    · decide
  have within : Within (readsOf ordersGraph.get?) (limitOf ordersGraph.get?) := by
    intro key targets isVertex count chain
    have isReads : ∀ other targets, readsOf ordersGraph.get? other = some targets → other = (js "Order", js "1") ∧ targets = [] := by
      intro other targets found
      obtain ⟨node, isNode, rfl⟩ := Option.map_eq_some_iff.mp found
      have entry := OrderedMap.mem_of_get? isNode
      cases List.mem_singleton.mp entry
      exact ⟨rfl, rfl⟩
    obtain ⟨rfl, rfl⟩ := isReads key targets isVertex
    have limit : limitOf ordersGraph.get? (js "Order", js "1") = 2 := rfl
    rw [limit]
    cases chain with
    | zero => exact Nat.zero_le _
    | here => exact Nat.le_succ 1
    | onward isVertex' isTarget =>
      rw [(isReads _ _ isVertex').2] at isTarget
      exact absurd isTarget List.not_mem_nil
  obtain ⟨⟨outcome, ends, -, -, -, accepted⟩, -⟩ := @tenantGraph_exact ordersContract ordersTenant doubled orders ordersGraph kept rfl rfl within.acyclic within
  exact ⟨outcome, ends, accepted⟩

end Claims

end OpenShapeForge.Extensions.TenantGraph
