import Mathlib.Algebra.Order.Ring.Defs
import OpenShapeForge.Js.TextOrder
import OpenShapeForge.Library.Grouping
import OpenShapeForge.Library.Layering
import OpenShapeForge.Workflow.LayoutGraph

/-! The layout that needs no layout engine: rows by layers, in each row the nodes one after the
other (packages/workflow-layout/src/graph.ts, geometry.ts). -/

namespace OpenShapeForge.Workflow
open Js Library Relation

section Sorting
variable {K : Type}

def normalizeHandleId (handleId : Option Text) : Option Text :=
  (handleId.map trim).filter fun handle => !handle.isEmpty

def resolveElkSourceHandleId (node : Option (WorkflowLayoutNode K)) (sourceHandle : Option Text) : Text :=
  let availableHandles := (node.map WorkflowLayoutNode.outputHandles).getD []
  let normalizedSourceHandle := normalizeHandleId sourceHandle
  match normalizedSourceHandle.filter fun handle => handle ∈ availableHandles with
  | some handle => handle
  | none => if js "default" ∈ availableHandles then js "default" else (availableHandles.head? <|> normalizedSourceHandle).getD (js "default")

def nodeOrder (nodes : List (WorkflowLayoutNode K)) : OrderedMap Text Nat :=
  .ofList (nodes.zipIdx.map fun entry => (entry.1.id, entry.2))

def nodeById (nodes : List (WorkflowLayoutNode K)) : OrderedMap Text (WorkflowLayoutNode K) :=
  .ofList (nodes.map fun node => (node.id, node))

def handleOrder (nodes : List (WorkflowLayoutNode K)) : OrderedMap Text (OrderedMap Text Nat) :=
  .ofList (nodes.map fun node => (node.id, .ofList node.outputHandles.zipIdx))

def handlePlace (nodes : List (WorkflowLayoutNode K)) (source : Text) (edge : WorkflowLayoutEdge) : Nat :=
  (((handleOrder nodes).get? source).bind fun handles =>
    handles.get? (resolveElkSourceHandleId ((nodeById nodes).get? edge.source) edge.sourceHandle)).getD 0

def sourcePlace (nodes : List (WorkflowLayoutNode K)) (edge : WorkflowLayoutEdge) : Nat := ((nodeOrder nodes).get? edge.source).getD 0

def compareEdges (nodes : List (WorkflowLayoutNode K)) (left right : WorkflowLayoutEdge) : Ordering :=
  if sourcePlace nodes left ≠ sourcePlace nodes right then compare (sourcePlace nodes left) (sourcePlace nodes right)
  else if handlePlace nodes left.source left ≠ handlePlace nodes left.source right then
    compare (handlePlace nodes left.source left) (handlePlace nodes left.source right)
  else if textLess left.id right.id then .lt else if textLess right.id left.id then .gt else .eq

def sortEdges (nodes : List (WorkflowLayoutNode K)) (edges : List WorkflowLayoutEdge) : List WorkflowLayoutEdge :=
  edges.insertionSort fun left right => compareEdges nodes left right ≠ .gt

end Sorting

section Layers
variable {K : Type}

/-- The targets of a node's edges; `get` of a node that is not listed finds none. -/
def targets (nodes : List (WorkflowLayoutNode K)) (edges : List WorkflowLayoutEdge) (nodeId : Text) : List Text :=
  if nodeId ∈ nodeIds nodes then ((sortEdges nodes edges).filter fun edge => edge.source = nodeId).map WorkflowLayoutEdge.target else []

def indegree (edges : List WorkflowLayoutEdge) (nodeId : Text) : Int := ((edges.map WorkflowLayoutEdge.target).count nodeId : Nat)

def startQueue (nodes : List (WorkflowLayoutNode K)) (edges : List WorkflowLayoutEdge) : List Text :=
  let queue := (nodes.filter fun node => indegree edges node.id = 0).map WorkflowLayoutNode.id
  if queue.isEmpty then (nodes.head?.map WorkflowLayoutNode.id).toList else queue

def startState (nodes : List (WorkflowLayoutNode K)) (edges : List WorkflowLayoutEdge) : Layering.State Text where
  layers := (startQueue nodes edges).foldl (fun layers nodeId => layers.set nodeId 0) .empty
  indegree := indegree edges
  queue := startQueue nodes edges

/-- What the queue did not reach is put into layers of its own, below the others. -/
def placeUnreached : List (WorkflowLayoutNode K) → Int → OrderedMap Text Int → OrderedMap Text Int
  | [], _, layers => layers
  | node :: rest, maxAssignedLayer, layers =>
    if layers.has node.id then placeUnreached rest maxAssignedLayer layers
    else placeUnreached rest (maxAssignedLayer + 1) (layers.set node.id (maxAssignedLayer + 1))

/-- The layers when the rows are formed. An empty id that is taken ends the loop. -/
def layerByNodeId (nodes : List (WorkflowLayoutNode K)) (edges : List WorkflowLayoutEdge) : Option (OrderedMap Text Int) :=
  (Layering.drain (targets nodes edges) (fun nodeId => nodeId.isEmpty) (nodes.length + 1) (startState nodes edges)).map fun state =>
    placeUnreached nodes ((state.layers.entries.map Prod.snd).foldl max (-1)) state.layers

end Layers

section Placing
variable {K : Type} [CommRing K] [LinearOrder K]

/-- A node with the position it is given. -/
structure Placed (K : Type) where
  node : WorkflowLayoutNode K
  x : K
  y : K
  deriving DecidableEq

def padding : K := 32

def horizontalGap : K := 72

def verticalGap : K := 120

def getNodeWidth (node : WorkflowLayoutNode K) : K := node.width.getD 260

def getNodeHeight (node : WorkflowLayoutNode K) : K := node.height.getD 96

/-- `Math.max(…)` and `Math.min(…)` of numbers there are. -/
def extremum (choose : K → K → K) : List K → K
  | [] => 0
  | first :: rest => rest.foldl choose first

def placeRow (y : K) (row : List (WorkflowLayoutNode K)) : List (Placed K) :=
  row.zipIdx.map fun entry => ⟨entry.1, padding + entry.2 * (getNodeWidth entry.1 + horizontalGap), y⟩

def placeRows : K → List (List (WorkflowLayoutNode K)) → List (Placed K)
  | _, [] => []
  | primaryOffset, row :: rows =>
    placeRow primaryOffset row ++ placeRows (primaryOffset + (extremum max (row.map getNodeHeight) + verticalGap)) rows

def normalizeNodePositions (nodes : List (Placed K)) : List (Placed K) :=
  let minX := extremum min (nodes.map Placed.x)
  let minY := extremum min (nodes.map Placed.y)
  nodes.map fun placed => { placed with x := placed.x - minX + padding, y := placed.y - minY + padding }

def layerRows (nodes : List (WorkflowLayoutNode K)) (layers : OrderedMap Text Int) : List (List (WorkflowLayoutNode K)) :=
  let nodesByLayer := collect (fun node => (layers.get? node.id).getD 0) nodes .empty
  (nodesByLayer.entries.insertionSort fun left right => left.1 ≤ right.1).map Prod.snd

def applyDeterministicFallbackLayout (nodes : List (WorkflowLayoutNode K)) (edges : List WorkflowLayoutEdge) : Option (List (Placed K)) :=
  (layerByNodeId nodes edges).map fun layers => normalizeNodePositions (placeRows padding (layerRows nodes layers))

/-- `rectsOverlap` of the rectangles of two nodes, with no gap. -/
def rectsOverlap (left right : Placed K) : Bool :=
  left.x < right.x + getNodeWidth right.node && right.x < left.x + getNodeWidth left.node &&
    left.y < right.y + getNodeHeight right.node && right.y < left.y + getNodeHeight left.node

end Placing

section EdgeOrder
variable {K : Type} {nodes : List (WorkflowLayoutNode K)} {edges other : List WorkflowLayoutEdge}

def edgeKey (nodes : List (WorkflowLayoutNode K)) (edge : WorkflowLayoutEdge) : Nat × Nat × Text :=
  (sourcePlace nodes edge, handlePlace nodes edge.source edge, edge.id)

def keyBefore (left right : Nat × Nat × Text) : Prop :=
  left.1 < right.1 ∨ left.1 = right.1 ∧ (left.2.1 < right.2.1 ∨ left.2.1 = right.2.1 ∧ textLess right.2.2 left.2.2 = false)

instance keyBefore.decidable : DecidableRel keyBefore := fun left right => by
  unfold keyBefore
  infer_instance

theorem keyBefore_total (left right : Nat × Nat × Text) : keyBefore left right ∨ keyBefore right left := by
  unfold keyBefore
  by_cases less : textLess right.2.2 left.2.2 = true
  · have notMore := textLess_asymm less
    rw [notMore, less]
    simp only [and_true, and_false, or_false, reduceCtorEq]
    omega
  · rw [Bool.eq_false_iff.mpr less]
    simp only [and_true]
    omega

theorem keyBefore_trans {one two three : Nat × Nat × Text} (first : keyBefore one two) (second : keyBefore two three) : keyBefore one three := by
  unfold keyBefore at *
  rcases first with lower | ⟨same, lower | ⟨also, notMore⟩⟩
  · omega
  · omega
  · rcases second with higher | ⟨same', higher | ⟨also', notMore'⟩⟩
    · omega
    · omega
    · exact .inr ⟨same.trans same', .inr ⟨also.trans also', textLess_false_trans notMore notMore'⟩⟩

theorem keyBefore_antisymm {left right : Nat × Nat × Text} (first : keyBefore left right) (second : keyBefore right left) : left = right := by
  obtain ⟨source, handle, id⟩ := left
  obtain ⟨source', handle', id'⟩ := right
  unfold keyBefore at *
  dsimp only at first second
  rcases first with lower | ⟨rfl, lower | ⟨rfl, notMore⟩⟩
  · omega
  · omega
  · have notLess : textLess id id' = false := by simpa using second
    rw [eq_of_textLess_false notLess notMore]

theorem nodeOrder_entries (distinct : (nodeIds nodes).Nodup) : (nodeOrder nodes).entries = nodes.zipIdx.map fun entry => (entry.1.id, entry.2) := by
  refine OrderedMap.foldl_set_entries _ .empty ?_
  have ids : (nodes.zipIdx.map fun entry => (entry.1.id, entry.2)).map Prod.fst = nodeIds nodes := by
    rw [List.map_map, nodeIds]
    conv_rhs => rw [← List.zipIdx_map_fst 0 nodes, List.map_map]
    rfl
  change ((nodes.zipIdx.map fun entry => (entry.1.id, entry.2)).map Prod.fst).Nodup
  rw [ids]
  exact distinct

theorem sourcePlace_inj (distinct : (nodeIds nodes).Nodup) {left right : WorkflowLayoutEdge} (isLeft : left.source ∈ nodeIds nodes)
    (isRight : right.source ∈ nodeIds nodes) (same : sourcePlace nodes left = sourcePlace nodes right) : left.source = right.source := by
  have place : ∀ {edge : WorkflowLayoutEdge}, edge.source ∈ nodeIds nodes → ∃ node, nodes[sourcePlace nodes edge]? = some node ∧ node.id = edge.source := by
    intro edge listed
    obtain ⟨node, member, isId⟩ := List.mem_map.mp listed
    obtain ⟨index, isIndex⟩ := List.mem_iff_getElem?.mp member
    have entry : (edge.source, index) ∈ (nodeOrder nodes).entries := by
      rw [nodeOrder_entries distinct]
      exact List.mem_map.mpr ⟨(node, index), List.mem_zipIdx_iff_getElem?.mpr isIndex, by rw [isId]⟩
    unfold sourcePlace
    rw [(nodeOrder nodes).get?_of_mem entry]
    exact ⟨node, isIndex, isId⟩
  obtain ⟨one, isOne, oneId⟩ := place isLeft
  obtain ⟨two, isTwo, twoId⟩ := place isRight
  rw [same] at isOne
  rw [← oneId, ← twoId, Option.some.inj (isOne.symm.trans isTwo)]

theorem compareEdges_key (distinct : (nodeIds nodes).Nodup) {left right : WorkflowLayoutEdge} (isLeft : left.source ∈ nodeIds nodes)
    (isRight : right.source ∈ nodeIds nodes) :
    (compareEdges nodes left right ≠ .gt ↔ keyBefore (edgeKey nodes left) (edgeKey nodes right)) ∧
      (compareEdges nodes left right = .eq ↔ edgeKey nodes left = edgeKey nodes right) := by
  unfold compareEdges keyBefore edgeKey
  dsimp only
  split
  next different =>
    have other : ∀ {P : Prop}, ¬ (sourcePlace nodes left = sourcePlace nodes right ∧ P) := fun both => different both.1
    rw [Prod.mk.injEq, ne_eq, compare_gt_iff_gt, compare_eq_iff_eq, not_lt]
    exact ⟨⟨fun low => .inl (lt_of_le_of_ne low different), fun low => (low.resolve_right other).le⟩, iff_of_false different other⟩
  next notDifferent =>
    have same := not_not.mp notDifferent
    have isSource := sourcePlace_inj distinct isLeft isRight same
    rw [isSource, same]
    simp only [lt_irrefl, true_and, false_or, Prod.mk.injEq]
    split
    next different =>
      have other : ∀ {P : Prop}, ¬ (handlePlace nodes right.source left = handlePlace nodes right.source right ∧ P) := fun both => different both.1
      rw [ne_eq, compare_gt_iff_gt, compare_eq_iff_eq, not_lt]
      exact ⟨⟨fun low => .inl (lt_of_le_of_ne low different), fun low => (low.resolve_right other).le⟩, iff_of_false different other⟩
    next alike =>
      rw [not_not.mp alike]
      simp only [lt_irrefl, true_and, false_or]
      split
      next less =>
        have unequal : left.id ≠ right.id := by
          intro equal
          rw [equal] at less
          exact Bool.noConfusion (less.symm.trans (textLess_asymm less))
        exact ⟨iff_of_true (by decide) (textLess_asymm less), iff_of_false (by decide) unequal⟩
      next notLess =>
        split
        next more =>
          have unequal : left.id ≠ right.id := fun equal => notLess (equal ▸ more)
          exact ⟨iff_of_false (by decide) fun notMore => Bool.noConfusion (notMore.symm.trans more), iff_of_false (by decide) unequal⟩
        next notMore =>
          have equal := eq_of_textLess_false (Bool.eq_false_iff.mpr notLess) (Bool.eq_false_iff.mpr notMore)
          exact ⟨iff_of_true (by decide) (Bool.eq_false_iff.mpr notMore), iff_of_true rfl equal⟩

/-- Edges that the sort cannot tell apart lead to one target. -/
def TiesAgree (nodes : List (WorkflowLayoutNode K)) (edges : List WorkflowLayoutEdge) : Prop :=
  ∀ left ∈ edges, ∀ right ∈ edges, compareEdges nodes left right = .eq → left.target = right.target

def Between (nodes : List (WorkflowLayoutNode K)) (edges : List WorkflowLayoutEdge) : Prop :=
  ∀ edge ∈ edges, edge.source ∈ nodeIds nodes ∧ edge.target ∈ nodeIds nodes

theorem sortEdges_keys (distinct : (nodeIds nodes).Nodup) (between : Between nodes edges) :
    (sortEdges nodes edges).map (edgeKey nodes) = (edges.map (edgeKey nodes)).insertionSort keyBefore :=
  List.map_insertionSort _ _ (edgeKey nodes) edges fun left isLeft right isRight =>
    (compareEdges_key distinct (between left isLeft).1 (between right isRight).1).1

theorem keySort_eq {first second : List (Nat × Nat × Text)} (same : first.Perm second) :
    first.insertionSort keyBefore = second.insertionSort keyBefore := by
  have total : Std.Total keyBefore := ⟨keyBefore_total⟩
  have trans : IsTrans _ keyBefore := ⟨fun _ _ _ => keyBefore_trans⟩
  have perm : (first.insertionSort keyBefore).Perm (second.insertionSort keyBefore) :=
    ((List.perm_insertionSort _ _).trans same).trans (List.perm_insertionSort _ _).symm
  exact perm.eq_of_pairwise (fun _ _ _ _ => keyBefore_antisymm) (List.pairwise_insertionSort keyBefore first)
    (List.pairwise_insertionSort keyBefore second)

theorem pairs_eq_of_keys : ∀ {first second : List WorkflowLayoutEdge}, first.map (edgeKey nodes) = second.map (edgeKey nodes) →
    (∀ left ∈ first, ∀ right ∈ second, edgeKey nodes left = edgeKey nodes right → left.source = right.source ∧ left.target = right.target) →
    first.map (fun edge => (edge.source, edge.target)) = second.map fun edge => (edge.source, edge.target)
  | [], [], _, _ => rfl
  | [], _ :: _, same, _ => by cases same
  | _ :: _, [], same, _ => by cases same
  | left :: first, right :: second, same, agree => by
    obtain ⟨isKey, later⟩ := List.cons.inj same
    obtain ⟨isSource, isTarget⟩ := agree left List.mem_cons_self right List.mem_cons_self isKey
    have rest := pairs_eq_of_keys later fun one isOne two isTwo => agree one (List.mem_cons_of_mem _ isOne) two (List.mem_cons_of_mem _ isTwo)
    rw [List.map_cons, List.map_cons, isSource, isTarget, rest]

theorem targets_pairs (nodes : List (WorkflowLayoutNode K)) (edges : List WorkflowLayoutEdge) (nodeId : Text) :
    targets nodes edges nodeId = if nodeId ∈ nodeIds nodes then
      (((sortEdges nodes edges).map fun edge => (edge.source, edge.target)).filter fun pair => pair.1 = nodeId).map Prod.snd else [] := by
  unfold targets
  rw [List.filter_map, List.map_map]
  rfl

theorem targets_perm (distinct : (nodeIds nodes).Nodup) (between : Between nodes edges) (ties : TiesAgree nodes edges) (same : other.Perm edges) :
    targets nodes other = targets nodes edges := by
  have between' : Between nodes other := fun edge member => between edge (same.mem_iff.mp member)
  have keys : (sortEdges nodes other).map (edgeKey nodes) = (sortEdges nodes edges).map (edgeKey nodes) := by
    rw [sortEdges_keys distinct between', sortEdges_keys distinct between]
    exact keySort_eq (same.map _)
  have listed : ∀ edge, edge ∈ sortEdges nodes edges ↔ edge ∈ edges := fun edge => (List.perm_insertionSort _ _).mem_iff
  have listed' : ∀ edge, edge ∈ sortEdges nodes other ↔ edge ∈ edges := fun edge => (List.perm_insertionSort _ _).mem_iff.trans same.mem_iff
  have pairs := pairs_eq_of_keys keys fun left isLeft right isRight isKey => by
    have inLeft := (listed' left).mp isLeft
    have inRight := (listed right).mp isRight
    have isSource := sourcePlace_inj distinct (between left inLeft).1 (between right inRight).1 (Prod.mk.inj isKey).1
    have tied := (compareEdges_key distinct (between left inLeft).1 (between right inRight).1).2.mpr isKey
    exact ⟨isSource, ties left inLeft right inRight tied⟩
  funext nodeId
  rw [targets_pairs, targets_pairs, pairs]

theorem mem_targets {source target : Text} : target ∈ targets nodes edges source ↔
    source ∈ nodeIds nodes ∧ ∃ edge ∈ edges, edge.source = source ∧ edge.target = target := by
  unfold targets
  split
  next listed =>
    simp only [List.mem_map, List.mem_filter, decide_eq_true_eq, sortEdges, List.mem_insertionSort, and_assoc]
    exact (and_iff_right listed).symm
  next unlisted => exact iff_of_false List.not_mem_nil fun both => unlisted both.1

end EdgeOrder

section Layered
variable {K : Type} {nodes : List (WorkflowLayoutNode K)} {edges other : List WorkflowLayoutEdge}

def Acyclic (edges : List WorkflowLayoutEdge) : Prop := ∀ node, ¬ TransGen (Linked edges fun _ => True) node node

theorem targets_closed (between : Between nodes edges) : ∀ source, ∀ target ∈ targets nodes edges source, target ∈ nodeIds nodes := by
  intro source target member
  obtain ⟨-, edge, isEdge, -, rfl⟩ := mem_targets.mp member
  exact (between edge isEdge).2

theorem targets_acyclic (acyclic : Acyclic edges) : ∀ node, ¬ TransGen (fun source target => target ∈ targets nodes edges source) node node := by
  intro node cycle
  refine acyclic node (TransGen.mono (fun source target member => ?_) _ _ cycle)
  obtain ⟨-, edge, isEdge, isSource, isTarget⟩ := mem_targets.mp member
  exact ⟨edge, isEdge, trivial, isSource, isTarget⟩

theorem indegree_targets (distinct : (nodeIds nodes).Nodup) (between : Between nodes edges) (nodeId : Text) :
    indegree edges nodeId = ((nodeIds nodes).flatMap (targets nodes edges)).count nodeId := by
  have sorted : (sortEdges nodes edges).Perm edges := List.perm_insertionSort _ _
  have gathered : (grouped (nodeIds nodes) WorkflowLayoutEdge.source (sortEdges nodes edges)).Perm (sortEdges nodes edges) :=
    grouped_perm _ distinct fun edge member => (between edge (sorted.mem_iff.mp member)).1
  have flat : (nodeIds nodes).flatMap (targets nodes edges) =
      (grouped (nodeIds nodes) WorkflowLayoutEdge.source (sortEdges nodes edges)).map WorkflowLayoutEdge.target := by
    unfold grouped
    rw [List.map_flatMap]
    exact List.flatMap_congr fun nodeId listed => if_pos listed
  rw [flat, ((gathered.trans sorted).map _).count_eq]
  rfl

theorem free_ids (nodes : List (WorkflowLayoutNode K)) (edges : List WorkflowLayoutEdge) :
    ((nodes.filter fun node => indegree edges node.id = 0).map WorkflowLayoutNode.id) =
      (nodeIds nodes).filter fun nodeId => indegree edges nodeId = 0 := by
  unfold nodeIds
  rw [List.filter_map]
  rfl

theorem startQueue_waiting (distinct : (nodeIds nodes).Nodup) :
    (startQueue nodes edges).length + Layering.waiting (nodeIds nodes) (startState nodes edges) ≤ nodes.length + 1 := by
  have parted : (((nodeIds nodes).filter fun nodeId => indegree edges nodeId = 0) ++
      (nodeIds nodes).filter fun nodeId => 0 < indegree edges nodeId).Nodup := by
    refine List.Nodup.append (distinct.filter _) (distinct.filter _) fun nodeId isZero isMore => ?_
    have zero := of_decide_eq_true (List.mem_filter.mp isZero).2
    have more := of_decide_eq_true (List.mem_filter.mp isMore).2
    omega
  have bound := (parted.subperm (List.append_subset.mpr ⟨List.filter_subset_self _, List.filter_subset_self _⟩)).length_le
  have few : (startQueue nodes edges).length ≤ ((nodeIds nodes).filter fun nodeId => indegree edges nodeId = 0).length + 1 := by
    unfold startQueue
    dsimp only
    rw [free_ids]
    split
    next =>
      have one : ((nodes.head?.map WorkflowLayoutNode.id).toList).length ≤ 1 := Option.length_toList_le
      omega
    next => exact Nat.le_succ _
  have same : Layering.waiting (nodeIds nodes) (startState nodes edges) = ((nodeIds nodes).filter fun nodeId => 0 < indegree edges nodeId).length := rfl
  have size : (nodeIds nodes).length = nodes.length := List.length_map _
  rw [List.length_append, size] at bound
  omega

theorem layerByNodeId_ends (distinct : (nodeIds nodes).Nodup) (between : Between nodes edges) :
    ∃ layers, layerByNodeId nodes edges = some layers := by
  obtain ⟨final, ends⟩ := Layering.drain_ends distinct (targets_closed between) (fun nodeId => nodeId.isEmpty) (nodes.length + 1)
    (startState nodes edges) (startQueue_waiting distinct)
  exact ⟨_, Option.map_eq_some_iff.mpr ⟨final, ends, rfl⟩⟩

theorem startState_perm (same : other.Perm edges) : startState nodes other = startState nodes edges := by
  have counts : indegree other = indegree edges := by
    funext nodeId
    exact congrArg Nat.cast ((same.map _).count_eq nodeId)
  unfold startState startQueue
  rw [counts]

theorem layerByNodeId_perm (distinct : (nodeIds nodes).Nodup) (between : Between nodes edges) (ties : TiesAgree nodes edges)
    (same : other.Perm edges) : layerByNodeId nodes other = layerByNodeId nodes edges := by
  unfold layerByNodeId
  rw [targets_perm distinct between ties same, startState_perm same]

theorem zeros_layered : ∀ (ids : List Text) (layers : OrderedMap Text Int), (∀ nodeId, (layers.get? nodeId).getD 0 = 0) →
    (∀ nodeId, ((ids.foldl (fun layers nodeId => layers.set nodeId 0) layers).get? nodeId).getD 0 = 0) ∧
      ∀ nodeId, nodeId ∈ ids ∨ nodeId ∈ layers.keys → nodeId ∈ (ids.foldl (fun layers nodeId => layers.set nodeId 0) layers).keys
  | [], layers, zero => ⟨zero, fun nodeId member => member.resolve_left List.not_mem_nil⟩
  | first :: rest, layers, zero => by
    obtain ⟨later, keys⟩ := zeros_layered rest (layers.set first 0) (by
      intro nodeId
      by_cases same : nodeId = first
      · rw [same, OrderedMap.get?_set_self, Option.getD_some]
      · rw [OrderedMap.get?_set_of_ne _ _ same]
        exact zero nodeId)
    refine ⟨later, fun nodeId member => keys nodeId ?_⟩
    rw [OrderedMap.mem_keys_set]
    rcases member with isId | isKey
    · rcases List.mem_cons.mp isId with rfl | isLater
      · exact .inr (.inl rfl)
      · exact .inl isLater
    · exact .inr (.inr isKey)

theorem startState_sound (distinct : (nodeIds nodes).Nodup) (between : Between nodes edges) (acyclic : Acyclic edges) :
    Layering.Sound (nodeIds nodes) (targets nodes edges) [] (startState nodes edges) := by
  have zeros : startQueue nodes edges = (nodeIds nodes).filter fun nodeId => indegree edges nodeId = 0 := by
    unfold startQueue
    dsimp only
    rw [free_ids]
    split
    next isEmpty =>
      have none_free := List.filter_eq_nil_iff.mp (List.isEmpty_iff.mp isEmpty)
      by_cases nothing : nodes = []
      · subst nothing
        rfl
      · have some_node : nodeIds nodes ≠ [] := fun never => nothing (List.map_eq_nil_iff.mp never)
        obtain ⟨node, cycle⟩ := @Sweeps.exists_cycle Text (fun target source => target ∈ targets nodes edges source) _ some_node (by
          intro target listed
          have positive : indegree edges target ≠ 0 := fun zero => none_free target listed (decide_eq_true zero)
          rw [indegree_targets distinct between] at positive
          exact List.mem_flatMap.mp (List.count_pos_iff.mp (by omega)))
        exact absurd (transGen_swap.mp cycle) (targets_acyclic acyclic node)
    next => rfl
  obtain ⟨isZero, isKey⟩ := zeros_layered (startQueue nodes edges) .empty fun _ => rfl
  have layer_zero : ∀ nodeId, (startState nodes edges).layer nodeId = 0 := isZero
  have queue_eq : (startState nodes edges).queue = startQueue nodes edges := rfl
  constructor
  case once =>
    rw [List.nil_append, queue_eq, zeros]
    exact distinct.filter _
  case counted =>
    intro nodeId
    rw [Layering.untaken_nil]
    refine (indegree_targets distinct between nodeId).trans (congrArg Nat.cast (List.countP_congr fun target _ => ?_))
    exact (@beq_iff_eq Text List.instBEq _ _ _).trans (@beq_iff_eq Text instBEqOfDecidableEq instLawfulBEq _ _).symm
  case settled =>
    intro nodeId
    rw [List.nil_append, queue_eq, zeros, List.mem_filter, decide_eq_true_eq]
    rfl
  case placed => exact fun nodeId member => isKey nodeId (.inl member)
  case nonneg => exact fun nodeId => le_of_eq (layer_zero nodeId).symm
  case below => exact fun source never => absurd never List.not_mem_nil
  case tight => exact fun target => .inl (layer_zero target)

theorem placeUnreached_of_reached : ∀ (rest : List (WorkflowLayoutNode K)) (bottom : Int) (layers : OrderedMap Text Int),
    (∀ node ∈ rest, node.id ∈ layers.keys) → placeUnreached rest bottom layers = layers
  | [], _, _, _ => rfl
  | node :: rest, bottom, layers, reached => by
    have isKey := (layers.has_iff node.id).mpr (reached node List.mem_cons_self)
    unfold placeUnreached
    rw [if_pos isKey]
    exact placeUnreached_of_reached rest bottom layers fun later member => reached later (List.mem_cons_of_mem _ member)

theorem layerByNodeId_acyclic (distinct : (nodeIds nodes).Nodup) (between : Between nodes edges) (acyclic : Acyclic edges)
    (named : [] ∉ nodeIds nodes) : ∃ state taken, layerByNodeId nodes edges = some state.layers ∧
      Layering.Sound (nodeIds nodes) (targets nodes edges) taken state ∧ ∀ nodeId, nodeId ∈ taken ↔ nodeId ∈ nodeIds nodes := by
  obtain ⟨final, ends⟩ := Layering.drain_ends distinct (targets_closed between) (fun nodeId => nodeId.isEmpty) (nodes.length + 1)
    (startState nodes edges) (startQueue_waiting distinct)
  have onward : ∀ nodeId ∈ nodeIds nodes, List.isEmpty nodeId = false := by
    intro nodeId listed
    cases nodeId with
    | nil => exact absurd listed named
    | cons => rfl
  obtain ⟨taken, sound, isEmpty⟩ := (startState_sound distinct between acyclic).drain distinct (targets_closed between) onward ends
  have all := sound.all_taken (targets_acyclic acyclic) isEmpty
  have isTaken : ∀ nodeId, nodeId ∈ taken ↔ nodeId ∈ nodeIds nodes :=
    fun nodeId => ⟨fun member => ((sound.settled nodeId).mp (List.mem_append_left _ member)).1, all nodeId⟩
  refine ⟨final, taken, ?_, sound, isTaken⟩
  unfold layerByNodeId
  rw [ends, Option.map_some, placeUnreached_of_reached]
  intro node member
  exact sound.placed node.id (List.mem_append_left _ (all _ (List.mem_map_of_mem member)))

theorem layerByNodeId_acyclic_perm (distinct : (nodeIds nodes).Nodup) (between : Between nodes edges) (acyclic : Acyclic edges)
    (named : [] ∉ nodeIds nodes) (same : other.Perm edges) : ∃ layers layers', layerByNodeId nodes edges = some layers ∧
      layerByNodeId nodes other = some layers' ∧ ∀ nodeId, (layers'.get? nodeId).getD 0 = (layers.get? nodeId).getD 0 := by
  have between' : Between nodes other := fun edge member => between edge (same.mem_iff.mp member)
  have acyclic' : Acyclic other := by
    intro node cycle
    refine acyclic node (TransGen.mono ?_ _ _ cycle)
    rintro source target ⟨edge, isEdge, linked⟩
    exact ⟨edge, same.mem_iff.mp isEdge, linked⟩
  obtain ⟨state, taken, isLayers, sound, isTaken⟩ := layerByNodeId_acyclic distinct between acyclic named
  obtain ⟨state', taken', isLayers', sound', isTaken'⟩ := layerByNodeId_acyclic distinct between' acyclic' named
  refine ⟨state.layers, state'.layers, isLayers, isLayers', sound'.layer_eq (fun source target => ?_) (fun nodeId => ?_) sound⟩
  · simp only [mem_targets, same.mem_iff]
  · rw [isTaken, isTaken']

/-- Every edge of an acyclic graph leads to a later layer, and no layer is later than the edges ask for. -/
theorem layerByNodeId_least (distinct : (nodeIds nodes).Nodup) (between : Between nodes edges) (acyclic : Acyclic edges) (named : [] ∉ nodeIds nodes) :
    ∃ layers, layerByNodeId nodes edges = some layers ∧ (∀ edge ∈ edges, (layers.get? edge.source).getD 0 < (layers.get? edge.target).getD 0) ∧
      ∀ depth : Text → Int, (∀ nodeId, 0 ≤ depth nodeId) → (∀ edge ∈ edges, depth edge.source < depth edge.target) →
        ∀ nodeId, (layers.get? nodeId).getD 0 ≤ depth nodeId := by
  obtain ⟨state, taken, isLayers, sound, isTaken⟩ := layerByNodeId_acyclic distinct between acyclic named
  refine ⟨state.layers, isLayers, fun edge isEdge => ?_, fun depth nonneg deeper => sound.least nonneg fun source _ target isOut => ?_⟩
  · have listed := (between edge isEdge).1
    exact sound.below edge.source ((isTaken _).mpr listed) edge.target (mem_targets.mpr ⟨listed, edge, isEdge, rfl, rfl⟩)
  · obtain ⟨-, edge, isEdge, rfl, rfl⟩ := mem_targets.mp isOut
    exact deeper edge isEdge

/-- A workflow of two steps. -/
theorem layerByNodeId_least_steps : ∃ layers : OrderedMap Text Int,
    layerByNodeId [plainNode (js "a"), plainNode (js "b")] [plainEdge (js "1") (js "a") (js "b")] = some layers ∧
      (layers.get? (js "a")).getD 0 < (layers.get? (js "b")).getD 0 := by
  have acyclic : Acyclic [plainEdge (js "1") (js "a") (js "b")] := by
    intro node cycle
    have climbs := cycle.lift (p := fun first second : Nat => first < second) (fun nodeId => if nodeId = js "b" then 1 else 0) fun source target link => by
      obtain ⟨edge, isEdge, -, rfl, rfl⟩ := link
      rw [List.mem_singleton.mp isEdge]
      decide
    rw [transGen_eq_self] at climbs
    exact lt_irrefl _ climbs
  obtain ⟨layers, isLayers, later, -⟩ := @layerByNodeId_least _ [plainNode (js "a"), plainNode (js "b")] _ (by decide) (by unfold Between; decide) acyclic (by decide)
  exact ⟨layers, isLayers, later _ List.mem_cons_self⟩

end Layered
end OpenShapeForge.Workflow
