import OpenShapeForge.Js.Text
import OpenShapeForge.Library.DepthFirst

/-! The nodes and edges a workflow layout draws, and the edges that it takes for back edges
(packages/workflow-layout/src/graph.ts). -/

namespace OpenShapeForge.Workflow
open Js Library Relation

structure WorkflowLayoutNode (K : Type) where
  id : Text
  width : Option K
  height : Option K
  outputHandles : List Text
  deriving DecidableEq

structure WorkflowLayoutEdge where
  id : Text
  source : Text
  target : Text
  sourceHandle : Option Text
  deriving DecidableEq

section Model
variable {K : Type}

def nodeIds (nodes : List (WorkflowLayoutNode K)) : List Text := nodes.map WorkflowLayoutNode.id

/-- What `outgoing` holds for a node; of a node that is not listed, nothing. -/
def outgoing (nodes : List (WorkflowLayoutNode K)) (edges : List WorkflowLayoutEdge) (nodeId : Text) : List (Text × Text) :=
  if nodeId ∈ nodeIds nodes then (edges.filter fun edge => edge.source = nodeId).map fun edge => (edge.id, edge.target) else []

/-- The returned ids, in the order they are found in; the search goes no deeper than there are nodes to meet. -/
def detectBackEdgeIds (nodes : List (WorkflowLayoutNode K)) (edges : List WorkflowLayoutEdge) : Option (List Text) :=
  let depth := nodes.length + edges.length
  (DepthFirst.searchAll (outgoing nodes edges) depth (nodeIds nodes) DepthFirst.start).map DepthFirst.Search.back

end Model

section BackEdges
variable {K : Type} {nodes : List (WorkflowLayoutNode K)} {edges : List WorkflowLayoutEdge}

def Linked (edges : List WorkflowLayoutEdge) (kind : WorkflowLayoutEdge → Prop) (source target : Text) : Prop :=
  ∃ edge ∈ edges, kind edge ∧ edge.source = source ∧ edge.target = target

theorem mem_outgoing {edgeId source target : Text} : (edgeId, target) ∈ outgoing nodes edges source ↔
    source ∈ nodeIds nodes ∧ ∃ edge ∈ edges, edge.id = edgeId ∧ edge.source = source ∧ edge.target = target := by
  unfold outgoing
  split
  next listed =>
    rw [List.mem_map]
    constructor
    · rintro ⟨edge, member, same⟩
      obtain ⟨isEdge, isSource⟩ := List.mem_filter.mp member
      cases same
      exact ⟨listed, edge, isEdge, rfl, of_decide_eq_true isSource, rfl⟩
    · rintro ⟨-, edge, isEdge, rfl, isSource, rfl⟩
      exact ⟨edge, List.mem_filter.mpr ⟨isEdge, decide_eq_true isSource⟩, rfl⟩
  next unlisted => exact iff_of_false List.not_mem_nil fun both => unlisted both.1

theorem detectBackEdgeIds_ends (nodes : List (WorkflowLayoutNode K)) (edges : List WorkflowLayoutEdge) :
    ∃ back, detectBackEdgeIds nodes edges = some back := by
  have closed : ∀ node, ∀ edge ∈ outgoing nodes edges node, edge.2 ∈ nodeIds nodes ++ edges.map WorkflowLayoutEdge.target := by
    rintro node ⟨edgeId, target⟩ member
    obtain ⟨-, edge, isEdge, -, -, rfl⟩ := mem_outgoing.mp member
    exact List.mem_append_right _ (List.mem_map_of_mem isEdge)
  have bound : DepthFirst.unmet (nodeIds nodes ++ edges.map WorkflowLayoutEdge.target) (DepthFirst.start : DepthFirst.Search Text Text) ≤ nodes.length + edges.length := by
    refine (List.length_filter_le _ _).trans_eq ?_
    rw [List.length_append, nodeIds, List.length_map, List.length_map]
  obtain ⟨left, searches⟩ := DepthFirst.searchAll_ends closed (List.subset_append_left _ _) bound
  exact ⟨left.back, Option.map_eq_some_iff.mpr ⟨left, searches, rfl⟩⟩

/-- Without the edges that are returned no cycle is left along edges from listed nodes, and
every returned edge closes one of which no other edge is returned. -/
theorem detectBackEdgeIds_exact (distinct : (edges.map WorkflowLayoutEdge.id).Nodup) :
    ∃ back, detectBackEdgeIds nodes edges = some back ∧
      (∀ node, ¬ TransGen (Linked edges fun edge => edge.id ∉ back ∧ edge.source ∈ nodeIds nodes) node node) ∧
      ∀ edgeId ∈ back, ∃ edge ∈ edges, edge.id = edgeId ∧
        ReflTransGen (Linked edges fun other => other.id ∉ back) edge.target edge.source := by
  obtain ⟨back, detects⟩ := detectBackEdgeIds_ends nodes edges
  obtain ⟨left, searches, rfl⟩ := Option.map_eq_some_iff.mp detects
  obtain ⟨order, nodup, all, settled, returned⟩ := DepthFirst.searchAll_order searches
  have same_edge : ∀ {one two : WorkflowLayoutEdge}, one ∈ edges → two ∈ edges → one.id = two.id → one = two :=
    fun isOne isTwo same => List.inj_on_of_nodup_map distinct isOne isTwo same
  refine ⟨left.back, detects, ?_, ?_⟩
  · intro node cycle
    refine Before.irrefl nodup (Before.of_path nodup ?_ cycle)
    rintro one two ⟨edge, isEdge, ⟨kept, listed⟩, rfl, rfl⟩
    have isOut : (edge.id, edge.target) ∈ outgoing nodes edges edge.source := mem_outgoing.mpr ⟨listed, edge, isEdge, rfl, rfl, rfl⟩
    exact (settled edge.source (all _ listed) edge.id edge.target isOut).resolve_right kept
  · intro edgeId isBack
    obtain ⟨source, target, isOut, -, path⟩ := returned edgeId isBack
    obtain ⟨-, edge, isEdge, isId, rfl, rfl⟩ := mem_outgoing.mp isOut
    refine ⟨edge, isEdge, isId, ReflTransGen.mono ?_ _ _ path⟩
    rintro one two ⟨otherId, isOther, onward⟩
    obtain ⟨-, other, isEdge', isId', rfl, rfl⟩ := mem_outgoing.mp isOther
    refine ⟨other, isEdge', fun alsoBack => ?_, rfl, rfl⟩
    -- an edge that is returned leads to its own source or up the order, and this one leads down
    obtain ⟨source', target', isOut', upward, -⟩ := returned other.id alsoBack
    obtain ⟨-, again, isAgain, sameId, rfl, rfl⟩ := mem_outgoing.mp isOut'
    rw [same_edge isAgain isEdge' sameId] at upward
    rcases upward with loop | before
    · rw [loop] at onward
      exact Before.irrefl nodup onward
    · exact onward.asymm nodup before

def plainNode (id : Text) : WorkflowLayoutNode Nat := ⟨id, none, none, []⟩

def plainEdge (id source target : Text) : WorkflowLayoutEdge := ⟨id, source, target, none⟩

theorem detectBackEdgeIds_exact_loop : ∃ back,
    detectBackEdgeIds [plainNode (js "a"), plainNode (js "b")] [plainEdge (js "1") (js "a") (js "b"), plainEdge (js "2") (js "b") (js "a")] =
      some back ∧ ∀ node, ¬ TransGen (Linked [plainEdge (js "1") (js "a") (js "b"), plainEdge (js "2") (js "b") (js "a")] fun edge =>
        edge.id ∉ back ∧ edge.source ∈ nodeIds [plainNode (js "a"), plainNode (js "b")]) node node := by
  have ids : ([plainEdge (js "1") (js "a") (js "b"), plainEdge (js "2") (js "b") (js "a")].map WorkflowLayoutEdge.id).Nodup := by
    decide
  obtain ⟨back, detects, acyclic, -⟩ := @detectBackEdgeIds_exact Nat [plainNode (js "a"), plainNode (js "b")] _ ids
  exact ⟨back, detects, acyclic⟩

/-- A cycle through a node that is not listed stays. -/
theorem dangling_cycle_stays : ¬ ∀ (nodes : List (WorkflowLayoutNode Nat)) (edges : List WorkflowLayoutEdge),
    (edges.map WorkflowLayoutEdge.id).Nodup → ∃ back, detectBackEdgeIds nodes edges = some back ∧
      ∀ node, ¬ TransGen (Linked edges fun edge => edge.id ∉ back) node node := by
  intro claimed
  obtain ⟨back, detects, acyclic⟩ := claimed [plainNode (js "v")]
    [plainEdge (js "1") (js "u") (js "v"), plainEdge (js "2") (js "v") (js "u")] (by decide)
  have nothing : detectBackEdgeIds [plainNode (js "v")]
      [plainEdge (js "1") (js "u") (js "v"), plainEdge (js "2") (js "v") (js "u")] = some [] := by decide
  cases Option.some.inj (nothing.symm.trans detects)
  refine acyclic (js "v") (.tail (.single ⟨plainEdge (js "2") (js "v") (js "u"), ?_, List.not_mem_nil, rfl, rfl⟩)
    ⟨plainEdge (js "1") (js "u") (js "v"), ?_, List.not_mem_nil, rfl, rfl⟩)
  · exact List.mem_cons_of_mem _ List.mem_cons_self
  · exact List.mem_cons_self

end BackEdges

end OpenShapeForge.Workflow
