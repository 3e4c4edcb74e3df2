import OpenShapeForge.Formula.GraphOrder
import Mathlib.Data.List.Induction
import Mathlib.Data.List.Sort
import Mathlib.Data.List.Perm.Subperm

/-! What `buildDependencyGraph` returns, read off its input alone: the cycles are the
strongly connected components that contain one, and the order respects every read. -/

namespace OpenShapeForge.Formula.GraphCorrect
open Js Library Digraph Graph GraphComponents GraphOrder

def inputNodes (definitions : List DependencyDefinition) : List DependencyNode :=
  (distinct (definitions.map (·.node)).reverse).reverse

def lastReads (definitions : List DependencyDefinition) (node : DependencyNode) : List DependencyNode :=
  ((definitions.reverse.find? (·.node = node)).map (·.dependsOn)).getD []

def definedReads (definitions : List DependencyDefinition) (node : DependencyNode) : List DependencyNode :=
  (lastReads definitions node).filter (· ∈ inputNodes definitions)

def nodeOfKey (key : NodeKey) : DependencyNode := ⟨key.1, key.2⟩

@[simp] theorem nodeOfKey_key (node : DependencyNode) : nodeOfKey (dependencyNodeKey node) = node := rfl

@[simp] theorem key_nodeOfKey (key : NodeKey) : dependencyNodeKey (nodeOfKey key) = key := rfl

theorem key_injective : Function.Injective dependencyNodeKey := Function.LeftInverse.injective nodeOfKey_key

section Define

theorem define_append (definitions : List DependencyDefinition) (definition : DependencyDefinition) :
    define (definitions ++ [definition]) =
      ((define definitions).delete (dependencyNodeKey definition.node)).set (dependencyNodeKey definition.node)
        definition := by
  simp [define]

theorem inputNodes_append (definitions : List DependencyDefinition) (definition : DependencyDefinition) :
    inputNodes (definitions ++ [definition]) =
      (inputNodes definitions).filter (· ≠ definition.node) ++ [definition.node] := by
  simp [inputNodes, distinct, List.filter_reverse]

theorem keys_define (definitions : List DependencyDefinition) :
    (define definitions).keys = (inputNodes definitions).map dependencyNodeKey := by
  induction definitions using List.reverseRecOn with
  | nil => rfl
  | append_singleton definitions definition ih =>
    rw [define_append, inputNodes_append, OrderedMap.keys_set, OrderedMap.keys_delete, if_neg (by simp), ih,
      List.map_append, List.filter_map]
    congr 2
    apply List.filter_congr
    intro node _
    simp [key_injective.eq_iff]

theorem get?_define (definitions : List DependencyDefinition) (node : DependencyNode) :
    (define definitions).get? (dependencyNodeKey node) = definitions.reverse.find? (·.node = node) := by
  induction definitions using List.reverseRecOn with
  | nil => rfl
  | append_singleton definitions definition ih =>
    rw [define_append, List.reverse_append, List.reverse_singleton, List.singleton_append]
    by_cases same : definition.node = node
    · rw [same, OrderedMap.get?_set_self, List.find?_cons_of_pos (by simpa using same)]
    · have different : dependencyNodeKey node ≠ dependencyNodeKey definition.node :=
        fun eq => same (key_injective eq).symm
      rw [OrderedMap.get?_set_of_ne _ _ different, OrderedMap.get?_delete_of_ne _ different, ih,
        List.find?_cons_of_neg (by simpa using same)]

theorem inputNodes_nodup (definitions : List DependencyDefinition) : (inputNodes definitions).Nodup :=
  List.nodup_reverse.mpr (distinct_nodup _)

end Define

section Tabulate

def record (tables : Tables) (entry : NodeKey × DependencyDefinition) : Tables :=
  { nodes := addNodes (tables.nodes.set entry.1 entry.2.node) entry.2.dependsOn
    edges := tables.edges.set entry.1 (readsOf entry.2)
    dependents := addDependents tables.dependents entry.1 (readsOf entry.2) }

theorem tabulate_eq (defined : OrderedMap NodeKey DependencyDefinition) :
    tabulate defined = defined.entries.foldl record ⟨.empty, .empty, .empty⟩ := rfl

def Named (nodes : OrderedMap NodeKey DependencyNode) : Prop :=
  ∀ key node, nodes.get? key = some node → node = nodeOfKey key

theorem Named.set {nodes : OrderedMap NodeKey DependencyNode} (named : Named nodes) (node : DependencyNode) :
    Named (nodes.set (dependencyNodeKey node) node) := by
  intro key other found
  by_cases same : key = dependencyNodeKey node
  · rw [same, OrderedMap.get?_set_self] at found
    rw [← Option.some.inj found, same, nodeOfKey_key]
  · rw [OrderedMap.get?_set_of_ne _ _ same] at found
    exact named key other found

theorem Named.addNodes {nodes : OrderedMap NodeKey DependencyNode} (named : Named nodes) (reads : List DependencyNode) :
    Named (addNodes nodes reads) ∧ ∀ key ∈ nodes.keys, key ∈ (addNodes nodes reads).keys := by
  unfold Graph.addNodes
  induction reads generalizing nodes with
  | nil => exact ⟨named, fun _ member => member⟩
  | cons read reads ih =>
    rw [List.foldl_cons]
    by_cases present : nodes.has (dependencyNodeKey read) = true
    · rw [if_pos present]
      exact ih named
    · rw [if_neg present]
      obtain ⟨later, kept⟩ := ih (named.set read)
      exact ⟨later, fun key member => kept key (by simp [member])⟩

theorem record_named {tables : Tables} {entry : NodeKey × DependencyDefinition} (named : Named tables.nodes)
    (keyed : entry.1 = dependencyNodeKey entry.2.node) :
    Named (record tables entry).nodes ∧ (∀ key ∈ tables.nodes.keys, key ∈ (record tables entry).nodes.keys) ∧
      entry.1 ∈ (record tables entry).nodes.keys := by
  unfold record
  rw [keyed]
  obtain ⟨later, kept⟩ := (named.set entry.2.node).addNodes entry.2.dependsOn
  exact ⟨later, fun key member => kept key (by simp [member]), kept _ (by simp)⟩

theorem foldl_record_nodes (entries : List (NodeKey × DependencyDefinition))
    (keyed : ∀ entry ∈ entries, entry.1 = dependencyNodeKey entry.2.node) (tables : Tables) (named : Named tables.nodes) :
    Named (entries.foldl record tables).nodes ∧
      ∀ key, key ∈ tables.nodes.keys ∨ key ∈ entries.map Prod.fst → key ∈ (entries.foldl record tables).nodes.keys := by
  induction entries generalizing tables with
  | nil => exact ⟨named, by simp⟩
  | cons entry entries ih =>
    obtain ⟨one, kept, here⟩ := record_named named (keyed entry List.mem_cons_self)
    obtain ⟨later, all⟩ := ih (fun other member => keyed other (List.mem_cons_of_mem _ member)) _ one
    refine ⟨later, fun key member => all key ?_⟩
    rw [List.map_cons, List.mem_cons] at member
    rcases member with old | same | rest
    · exact .inl (kept key old)
    · exact .inl (same ▸ here)
    · exact .inr rest

theorem foldl_record_edges (entries : List (NodeKey × DependencyDefinition)) (nodup : (entries.map Prod.fst).Nodup)
    (tables : Tables) (key : NodeKey) :
    (entries.foldl record tables).edges.get? key =
      match entries.find? (·.1 = key) with
      | some entry => some (readsOf entry.2)
      | none => tables.edges.get? key := by
  induction entries generalizing tables with
  | nil => rfl
  | cons entry entries ih =>
    rw [List.map_cons, List.nodup_cons] at nodup
    rw [List.foldl_cons, ih nodup.2]
    by_cases same : entry.1 = key
    · have absent : entries.find? (·.1 = key) = none := by
        rw [List.find?_eq_none]
        intro other member hit
        exact nodup.1 (List.mem_map.mpr ⟨other, member, (of_decide_eq_true hit).trans same.symm⟩)
      rw [absent, List.find?_cons_of_pos (by simpa using same)]
      simp only [record, same, OrderedMap.get?_set_self]
    · rw [List.find?_cons_of_neg (by simpa using same)]
      simp only [record, OrderedMap.get?_set_of_ne _ _ (Ne.symm same)]

variable (definitions : List DependencyDefinition)

theorem define_keyed : ∀ entry ∈ (define definitions).entries, entry.1 = dependencyNodeKey entry.2.node := by
  intro entry member
  have found := (define definitions).get?_of_mem (show (entry.1, entry.2) ∈ (define definitions).entries from member)
  rw [← key_nodeOfKey entry.1, get?_define] at found
  have hit := List.find?_some found
  rw [of_decide_eq_true hit, key_nodeOfKey]

theorem edgesOf_define (node : DependencyNode) :
    edgesOf (tabulate (define definitions)) (dependencyNodeKey node) =
      distinct ((lastReads definitions node).map dependencyNodeKey) := by
  have lookup := get?_define definitions node
  unfold OrderedMap.get? at lookup
  rw [edgesOf, tabulate_eq, foldl_record_edges _ (define definitions).nodup, lastReads, ← lookup]
  cases (define definitions).entries.find? (·.1 = dependencyNodeKey node) with
  | none => rfl
  | some entry => rfl

theorem get?_nodes {key : NodeKey} (isDefined : key ∈ (define definitions).keys) :
    (tabulate (define definitions)).nodes.get? key = some (nodeOfKey key) := by
  obtain ⟨named, all⟩ := foldl_record_nodes (define definitions).entries (define_keyed definitions)
    ⟨.empty, .empty, .empty⟩ (by intro key node found; cases found)
  obtain ⟨node, found⟩ := ((tabulate (define definitions)).nodes.mem_keys_iff_get? key).mp (all key (.inr isDefined))
  rw [found, named key node found]

theorem nodesOf_eq (keys : List NodeKey) (within : ∀ key ∈ keys, key ∈ (define definitions).keys) :
    nodesOf (tabulate (define definitions)) keys = keys.map nodeOfKey := by
  unfold nodesOf
  rw [List.filterMap_congr (g := fun key => some (nodeOfKey key))
    (fun key member => get?_nodes definitions (within key member)), List.filterMap_eq_map']

end Tabulate

section Transfer
variable (definitions : List DependencyDefinition)

def keyReads (key : NodeKey) : List NodeKey :=
  followed (edgesOf (tabulate (define definitions))) (define definitions).has key

theorem has_define (key : NodeKey) : (define definitions).has key = true ↔ nodeOfKey key ∈ inputNodes definitions := by
  rw [OrderedMap.has_iff, keys_define, List.mem_map]
  constructor
  · intro hit
    obtain ⟨node, member, same⟩ := hit
    exact same ▸ member
  · exact fun member => ⟨nodeOfKey key, member, rfl⟩

theorem mem_keyReads (source target : NodeKey) :
    target ∈ keyReads definitions source ↔ nodeOfKey target ∈ definedReads definitions (nodeOfKey source) := by
  have edges := edgesOf_define definitions (nodeOfKey source)
  rw [key_nodeOfKey] at edges
  rw [keyReads, mem_followed, edges, mem_distinct, has_define, definedReads, List.mem_filter, decide_eq_true_eq,
    ← key_nodeOfKey target, List.mem_map_of_injective key_injective, key_nodeOfKey]

theorem edge_nodes (a b : NodeKey) (edge : Edge (keyReads definitions) a b) :
    Edge (definedReads definitions) (nodeOfKey a) (nodeOfKey b) := (mem_keyReads definitions a b).mp edge

theorem edge_keys (a b : DependencyNode) (edge : Edge (definedReads definitions) a b) :
    Edge (keyReads definitions) (dependencyNodeKey a) (dependencyNodeKey b) :=
  (mem_keyReads definitions (dependencyNodeKey a) (dependencyNodeKey b)).mpr edge

theorem reaches_keys (source target : NodeKey) :
    Reaches (keyReads definitions) source target ↔
      Reaches (definedReads definitions) (nodeOfKey source) (nodeOfKey target) := by
  constructor
  · exact fun walk => Relation.ReflTransGen.lift nodeOfKey (edge_nodes definitions) _ _ walk
  · exact fun walk => Relation.ReflTransGen.lift dependencyNodeKey (edge_keys definitions) _ _ walk

theorem mutual_keys (source target : NodeKey) :
    Mutual (keyReads definitions) source target ↔
      Mutual (definedReads definitions) (nodeOfKey source) (nodeOfKey target) :=
  and_congr (reaches_keys definitions source target) (reaches_keys definitions target source)

theorem onCycle_keys (key : NodeKey) :
    OnCycle (keyReads definitions) key ↔ OnCycle (definedReads definitions) (nodeOfKey key) := by
  constructor
  · exact fun walk => Relation.TransGen.lift nodeOfKey (edge_nodes definitions) _ _ walk
  · exact fun walk => Relation.TransGen.lift dependencyNodeKey (edge_keys definitions) _ _ walk

end Transfer

section Places
variable {κ : Type*} [DecidableEq κ]

instance placed_total (place : κ → Nat) : Std.Total fun a b => place a ≤ place b := ⟨fun a b => Nat.le_total (place a) (place b)⟩

instance placed_trans (place : κ → Nat) : IsTrans κ fun a b => place a ≤ place b := ⟨fun _ _ _ => Nat.le_trans⟩

theorem pairwise_idxOf {order : List κ} (nodup : order.Nodup) :
    order.Pairwise fun a b => order.idxOf a ≤ order.idxOf b := by
  rw [List.pairwise_iff_getElem]
  intro i j first second lt
  rw [nodup.idxOf_getElem, nodup.idxOf_getElem]
  exact lt.le

theorem sortBy_sublist {order keys : List κ} (orderNodup : order.Nodup) (nodup : keys.Nodup)
    (within : ∀ key ∈ keys, key ∈ order) : (sortBy order keys).Sublist order := by
  have kept : (order.filter (· ∈ keys)).Pairwise fun a b => order.idxOf a ≤ order.idxOf b :=
    (pairwise_idxOf orderNodup).filter _
  have sorted : (sortBy order keys).Pairwise fun a b => order.idxOf a ≤ order.idxOf b :=
    List.pairwise_insertionSort _ keys
  have perm : (sortBy order keys).Perm (order.filter (· ∈ keys)) := by
    apply (List.perm_insertionSort _ keys).trans
    rw [List.perm_ext_iff_of_nodup nodup (orderNodup.filter _)]
    intro key
    rw [List.mem_filter, decide_eq_true_eq]
    exact ⟨fun member => ⟨within key member, member⟩, And.right⟩
  have same : sortBy order keys = order.filter (· ∈ keys) := by
    apply perm.eq_of_pairwise _ sorted kept
    intro a b memberA memberB le ge
    have inOrder : a ∈ order := within a ((List.mem_insertionSort _).mp memberA)
    exact (List.idxOf_inj inOrder).mp (Nat.le_antisymm le ge)
  rw [same]
  exact List.filter_sublist

theorem mem_sortBy {order keys : List κ} {key : κ} : key ∈ sortBy order keys ↔ key ∈ keys := List.mem_insertionSort _

end Places

section Result
variable (definitions : List DependencyDefinition)

theorem has_keys (key : NodeKey) : (define definitions).has key = true ↔ key ∈ (define definitions).keys := by simp

/-- The components the search over the definitions closes. -/
def components : List (List NodeKey) :=
  (connectAll (edgesOf (tabulate (define definitions))) (define definitions).has (define definitions).keys).components

theorem component_spec {component : List NodeKey} (member : component ∈ components definitions) :
    component.Nodup ∧ component ≠ [] ∧ (∀ key ∈ component, key ∈ (define definitions).keys) ∧
      ∀ key ∈ component, ∀ other, other ∈ component ↔ Mutual (keyReads definitions) key other := by
  obtain ⟨wf, -⟩ := connectAll_wf (edgesOf (tabulate (define definitions))) _ (has_keys definitions)
  refine ⟨(List.nodup_flatten.mp wf.components_nodup).1 component member, wf.nonempty component member, ?_, ?_⟩
  · intro key inside
    exact (mem_components_iff _ _ (has_keys definitions) key).mp (List.mem_flatten.mpr ⟨component, member, inside⟩)
  · exact wf.component component member

theorem isCyclic_iff {component : List NodeKey} (member : component ∈ components definitions) {key : NodeKey}
    (inside : key ∈ component) :
    isCyclic (edgesOf (tabulate (define definitions))) component = true ↔ OnCycle (keyReads definitions) key := by
  obtain ⟨nodup, -, isDefined, isComponent⟩ := component_spec definitions member
  rw [onCycle_iff]
  match component, inside with
  | [only], inside =>
    obtain rfl := List.mem_singleton.mp inside
    have selfRead : key ∈ keyReads definitions key ↔ key ∈ edgesOf (tabulate (define definitions)) key := by
      rw [keyReads, mem_followed]
      exact and_iff_left ((has_keys definitions key).mpr (isDefined key inside))
    simp only [isCyclic, decide_eq_true_eq, selfRead]
    constructor
    · exact .inl
    · intro cycle
      rcases cycle with loop | ⟨other, different, same⟩
      · exact loop
      · exact absurd (List.mem_singleton.mp ((isComponent key inside other).mpr same)) different
  | first :: second :: rest, inside =>
    have two : isCyclic (edgesOf (tabulate (define definitions))) (first :: second :: rest) = true := by
      simp [isCyclic]
    simp only [two, true_iff]
    have distinctHeads : first ≠ second := by
      intro same
      exact (List.nodup_cons.mp nodup).1 (same ▸ List.mem_cons_self)
    by_cases here : key = first
    · exact .inr ⟨second, fun eq => distinctHeads (here ▸ eq.symm), (isComponent key inside second).mp (by simp)⟩
    · exact .inr ⟨first, fun eq => here eq.symm, (isComponent key inside first).mp (by simp)⟩

theorem mem_cyclicComponents {group : List NodeKey} :
    group ∈ cyclicComponents (define definitions) (tabulate (define definitions)) ↔
      ∃ component ∈ components definitions,
        isCyclic (edgesOf (tabulate (define definitions))) component = true ∧
          sortBy (define definitions).keys component = group := by
  simp only [cyclicComponents, components, List.mem_map, List.mem_filter, and_assoc]

theorem mem_cyclic (key : NodeKey) :
    key ∈ (cyclicComponents (define definitions) (tabulate (define definitions))).flatten ↔
      key ∈ (define definitions).keys ∧ OnCycle (keyReads definitions) key := by
  rw [List.mem_flatten]
  constructor
  · intro hit
    obtain ⟨group, inGroups, inside⟩ := hit
    obtain ⟨component, member, cyclic, rfl⟩ := (mem_cyclicComponents definitions).mp inGroups
    have inComponent := mem_sortBy.mp inside
    exact ⟨(component_spec definitions member).2.2.1 key inComponent,
      (isCyclic_iff definitions member inComponent).mp cyclic⟩
  · intro hit
    obtain ⟨component, member, inside⟩ :=
      List.mem_flatten.mp ((mem_components_iff (edgesOf (tabulate (define definitions))) _
        (has_keys definitions) key).mpr hit.1)
    exact ⟨_, (mem_cyclicComponents definitions).mpr
      ⟨component, member, (isCyclic_iff definitions member inside).mpr hit.2, rfl⟩, mem_sortBy.mpr inside⟩

theorem cyclicComponents_nodup :
    (cyclicComponents (define definitions) (tabulate (define definitions))).flatten.Nodup := by
  obtain ⟨wf, -⟩ := connectAll_wf (edgesOf (tabulate (define definitions))) _ (has_keys definitions)
  obtain ⟨each, disjoint⟩ := List.nodup_flatten.mp wf.components_nodup
  rw [List.nodup_flatten]
  constructor
  · intro group inGroups
    obtain ⟨component, member, -, rfl⟩ := (mem_cyclicComponents definitions).mp inGroups
    exact (List.perm_insertionSort _ component).nodup_iff.mpr (each component member)
  · rw [cyclicComponents, List.pairwise_map]
    apply (disjoint.filter _).imp
    intro a b apart key inA inB
    exact apart (mem_sortBy.mp inA) (mem_sortBy.mp inB)

def allowedKey (key : NodeKey) : Bool :=
  (define definitions).has key &&
    decide (key ∉ (cyclicComponents (define definitions) (tabulate (define definitions))).flatten)

theorem allowedKey_iff (key : NodeKey) :
    allowedKey definitions key = true ↔ key ∈ (define definitions).keys ∧ ¬OnCycle (keyReads definitions) key := by
  rw [allowedKey, Bool.and_eq_true, has_keys, decide_eq_true_eq, mem_cyclic]
  tauto

theorem ordered_spec :
    (buildDependencyGraph definitions).ordered.Nodup ∧
      (∀ key, key ∈ (buildDependencyGraph definitions).ordered ↔ allowedKey definitions key = true) ∧
      ReadsFirst (followed (edgesOf (tabulate (define definitions))) (allowedKey definitions))
        (buildDependencyGraph definitions).ordered := by
  apply visitAll_spec (define definitions).keys
  · exact fun key isAllowed => ((allowedKey_iff definitions key).mp isAllowed).1
  · intro key isAllowed cycle
    apply ((allowedKey_iff definitions key).mp isAllowed).2
    apply Relation.TransGen.mono _ _ _ cycle
    intro source target step
    obtain ⟨edge, targetAllowed⟩ := mem_followed.mp step
    exact mem_followed.mpr ⟨edge, (has_keys definitions target).mpr ((allowedKey_iff definitions target).mp targetAllowed).1⟩

theorem order_eq :
    (buildDependencyGraph definitions).order = (buildDependencyGraph definitions).ordered.map nodeOfKey := by
  apply nodesOf_eq
  intro key member
  exact ((allowedKey_iff definitions key).mp ((ordered_spec definitions).2.1 key |>.mp member)).1

theorem mem_order (node : DependencyNode) :
    node ∈ (buildDependencyGraph definitions).order ↔
      node ∈ inputNodes definitions ∧ ¬OnCycle (definedReads definitions) node := by
  have here := (ordered_spec definitions).2.1 (dependencyNodeKey node)
  rw [allowedKey_iff, onCycle_keys, ← has_keys, has_define, nodeOfKey_key] at here
  rw [order_eq, ← nodeOfKey_key node, List.mem_map_of_injective (Function.LeftInverse.injective key_nodeOfKey)]
  exact here

theorem cycles_perm :
    (buildDependencyGraph definitions).cycles.Perm
      ((cyclicComponents (define definitions) (tabulate (define definitions))).map (List.map nodeOfKey)) := by
  have same : (cyclicComponents (define definitions) (tabulate (define definitions))).map
      (nodesOf (tabulate (define definitions))) =
      (cyclicComponents (define definitions) (tabulate (define definitions))).map (List.map nodeOfKey) := by
    apply List.map_congr_left
    intro group inGroups
    apply nodesOf_eq
    intro key inside
    exact ((mem_cyclic definitions key).mp (List.mem_flatten.mpr ⟨group, inGroups, inside⟩)).1
  rw [← same]
  exact List.perm_insertionSort _ _

theorem sublist_unique {κ : Type*} [DecidableEq κ] {order first second : List κ} (nodup : order.Nodup)
    (one : first.Sublist order) (two : second.Sublist order) (same : ∀ x, x ∈ first ↔ x ∈ second) :
    first = second := by
  have perm : first.Perm second :=
    (List.perm_ext_iff_of_nodup (nodup.sublist one) (nodup.sublist two)).mpr same
  apply perm.eq_of_pairwise _ ((pairwise_idxOf nodup).sublist one) ((pairwise_idxOf nodup).sublist two)
  intro a b memberA _ le ge
  exact (List.idxOf_inj (one.subset memberA)).mp (Nat.le_antisymm le ge)

theorem input_keys : (define definitions).keys.map nodeOfKey = inputNodes definitions := by
  rw [keys_define, List.map_map]
  exact List.map_id _

theorem reported_group {component : List NodeKey} (member : component ∈ components definitions) {key : NodeKey}
    (inside : key ∈ component) :
    (∀ other, other ∈ (sortBy (define definitions).keys component).map nodeOfKey ↔
      Mutual (definedReads definitions) (nodeOfKey key) other) ∧
      ((sortBy (define definitions).keys component).map nodeOfKey).Sublist (inputNodes definitions) := by
  obtain ⟨nodup, -, isDefined, isComponent⟩ := component_spec definitions member
  constructor
  · intro other
    rw [← nodeOfKey_key other, List.mem_map_of_injective (Function.LeftInverse.injective key_nodeOfKey), mem_sortBy,
      isComponent key inside, mutual_keys]
  · rw [← input_keys]
    exact (sortBy_sublist (define definitions).keys_nodup nodup isDefined).map _

theorem mem_cycles (group : List DependencyNode) :
    group ∈ (buildDependencyGraph definitions).cycles ↔
      ∃ node ∈ inputNodes definitions, OnCycle (definedReads definitions) node ∧
        (∀ other, other ∈ group ↔ Mutual (definedReads definitions) node other) ∧
        group.Sublist (inputNodes definitions) := by
  rw [(cycles_perm definitions).mem_iff, List.mem_map]
  constructor
  · intro hit
    obtain ⟨keys, inGroups, rfl⟩ := hit
    obtain ⟨component, member, cyclic, rfl⟩ := (mem_cyclicComponents definitions).mp inGroups
    obtain ⟨-, nonempty, isDefined, -⟩ := component_spec definitions member
    obtain ⟨key, inside⟩ := List.exists_mem_of_ne_nil component nonempty
    refine ⟨nodeOfKey key, ?_, ?_, reported_group definitions member inside⟩
    · exact (has_define definitions key).mp ((has_keys definitions key).mpr (isDefined key inside))
    · exact (onCycle_keys definitions key).mp ((isCyclic_iff definitions member inside).mp cyclic)
  · intro hit
    obtain ⟨node, isDefined, cycle, members, sublist⟩ := hit
    have keyDefined := (has_keys definitions (dependencyNodeKey node)).mp ((has_define definitions _).mpr isDefined)
    obtain ⟨component, member, inside⟩ :=
      List.mem_flatten.mp ((mem_components_iff (edgesOf (tabulate (define definitions))) _
        (has_keys definitions) _).mpr keyDefined)
    have cyclic := (isCyclic_iff definitions member inside).mpr ((onCycle_keys definitions _).mpr cycle)
    obtain ⟨same, within⟩ := reported_group definitions member inside
    refine ⟨_, (mem_cyclicComponents definitions).mpr ⟨component, member, cyclic, rfl⟩, ?_⟩
    apply sublist_unique (inputNodes_nodup definitions) within sublist
    intro other
    rw [same, members]
    rfl

theorem cycles_nodup : (buildDependencyGraph definitions).cycles.flatten.Nodup := by
  rw [((cycles_perm definitions).flatten).nodup_iff, ← List.map_flatten]
  exact (cyclicComponents_nodup definitions).map (Function.LeftInverse.injective key_nodeOfKey)

theorem mem_cycles_flatten (node : DependencyNode) :
    node ∈ (buildDependencyGraph definitions).cycles.flatten ↔
      node ∈ inputNodes definitions ∧ OnCycle (definedReads definitions) node := by
  rw [((cycles_perm definitions).flatten).mem_iff, ← List.map_flatten, ← nodeOfKey_key node,
    List.mem_map_of_injective (Function.LeftInverse.injective key_nodeOfKey), mem_cyclic, onCycle_keys, ← has_keys,
    has_define]

theorem order_cycles_perm :
    ((buildDependencyGraph definitions).order ++ (buildDependencyGraph definitions).cycles.flatten).Perm
      (inputNodes definitions) := by
  have orderNodup : (buildDependencyGraph definitions).order.Nodup := by
    rw [order_eq]
    exact (ordered_spec definitions).1.map (Function.LeftInverse.injective key_nodeOfKey)
  have apart : (buildDependencyGraph definitions).order.Disjoint (buildDependencyGraph definitions).cycles.flatten :=
    fun node inOrder inCycles =>
      ((mem_order definitions node).mp inOrder).2 ((mem_cycles_flatten definitions node).mp inCycles).2
  rw [List.perm_ext_iff_of_nodup (orderNodup.append (cycles_nodup definitions) apart) (inputNodes_nodup definitions)]
  intro node
  rw [List.mem_append, mem_order, mem_cycles_flatten]
  tauto

theorem order_reads_first {node read : DependencyNode} (inOrder : node ∈ (buildDependencyGraph definitions).order)
    (readOrder : read ∈ (buildDependencyGraph definitions).order) (reads : read ∈ lastReads definitions node) :
    (buildDependencyGraph definitions).order.idxOf read < (buildDependencyGraph definitions).order.idxOf node := by
  obtain ⟨nodup, members, first⟩ := ordered_spec definitions
  rw [order_eq, ← nodeOfKey_key node, List.mem_map_of_injective (Function.LeftInverse.injective key_nodeOfKey)] at inOrder
  rw [order_eq, ← nodeOfKey_key read, List.mem_map_of_injective (Function.LeftInverse.injective key_nodeOfKey)] at readOrder
  obtain ⟨front, back, split⟩ := List.append_of_mem inOrder
  have edge : dependencyNodeKey read ∈ followed (edgesOf (tabulate (define definitions))) (allowedKey definitions)
      (dependencyNodeKey node) := by
    rw [mem_followed, edgesOf_define, mem_distinct]
    exact ⟨List.mem_map_of_mem reads, (members _).mp readOrder⟩
  have inFront := first front (dependencyNodeKey node) back split _ edge
  have notFront : dependencyNodeKey node ∉ front := by
    intro again
    rw [split] at nodup
    exact List.disjoint_of_nodup_append nodup again List.mem_cons_self
  have readFront : read ∈ front.map nodeOfKey := List.mem_map.mpr ⟨_, inFront, rfl⟩
  have nodeFront : node ∉ front.map nodeOfKey := by
    intro again
    obtain ⟨key, member, same⟩ := List.mem_map.mp again
    exact notFront (by rw [← same, key_nodeOfKey]; exact member)
  rw [order_eq, split, List.map_append, List.map_cons, nodeOfKey_key, List.idxOf_append_of_mem readFront,
    List.idxOf_append_of_notMem nodeFront, List.idxOf_cons_self, Nat.add_zero]
  exact List.idxOf_lt_length_of_mem readFront

end Result

/-- The dependency graph is right for every list of definitions: order and cycles hold
each defined node once, the cycles are the components that contain one with their
members in input order, and the order puts every node behind what it reads. -/
theorem buildDependencyGraph_correct (definitions : List DependencyDefinition) :
    let graph := buildDependencyGraph definitions
    (inputNodes definitions).Nodup ∧ (graph.order ++ graph.cycles.flatten).Perm (inputNodes definitions) ∧
      (∀ group, group ∈ graph.cycles ↔ ∃ node ∈ inputNodes definitions, OnCycle (definedReads definitions) node ∧
        (∀ other, other ∈ group ↔ Mutual (definedReads definitions) node other) ∧
        group.Sublist (inputNodes definitions)) ∧
      ∀ node ∈ graph.order, ∀ read ∈ graph.order, read ∈ lastReads definitions node →
        graph.order.idxOf read < graph.order.idxOf node :=
  ⟨inputNodes_nodup definitions, order_cycles_perm definitions, mem_cycles definitions,
    fun _ inOrder _ readOrder reads => order_reads_first definitions inOrder readOrder reads⟩

end OpenShapeForge.Formula.GraphCorrect
