import Mathlib.Algebra.Order.Ring.Int
import Mathlib.Tactic.Linarith
import OpenShapeForge.Workflow.FallbackLayout

/-! When the fallback layout is a drawing of its graph. A row spaces its nodes by the width of
each node alone, so that a wide node reaches into the place of a narrow one behind it. -/

namespace OpenShapeForge.Workflow
open Js Library Relation

section Rows
variable {K : Type} [CommRing K] [LinearOrder K] [IsStrictOrderedRing K] {nodes : List (WorkflowLayoutNode K)}

def layerOf (layers : OrderedMap Text Int) (node : WorkflowLayoutNode K) : Int := (layers.get? node.id).getD 0

def rowStart (entry : WorkflowLayoutNode K × Nat) : K := entry.2 * (getNodeWidth entry.1 + horizontalGap)

def rowEnd (entry : WorkflowLayoutNode K × Nat) : K := rowStart entry + getNodeWidth entry.1

def RowClear (row : List (WorkflowLayoutNode K)) : Prop :=
  row.zipIdx.Pairwise fun left right => rowEnd left ≤ rowStart right ∨ rowEnd right ≤ rowStart left

def Sized (nodes : List (WorkflowLayoutNode K)) : Prop := ∀ node ∈ nodes, 0 < getNodeWidth node ∧ 0 < getNodeHeight node

omit [IsStrictOrderedRing K] in
theorem extremum_max (values : List K) : ∀ value ∈ values, value ≤ extremum max values := by
  intro value member
  cases values with
  | nil => exact absurd member List.not_mem_nil
  | cons first rest =>
    have grows : ∀ (rest : List K) (first : K), first ≤ rest.foldl max first ∧ ∀ value ∈ rest, value ≤ rest.foldl max first := by
      intro rest
      induction rest with
      | nil => exact fun first => ⟨le_refl first, fun value never => absurd never List.not_mem_nil⟩
      | cons second rest ih =>
        intro first
        obtain ⟨low, each⟩ := ih (max first second)
        refine ⟨(le_max_left first second).trans low, fun value member => ?_⟩
        rcases List.mem_cons.mp member with rfl | later
        · exact (le_max_right first value).trans low
        · exact each value later
    rcases List.mem_cons.mp member with rfl | later
    · exact (grows rest value).1
    · exact (grows rest first).2 value later

omit [LinearOrder K] [IsStrictOrderedRing K] in
theorem mem_placeRow {y : K} {row : List (WorkflowLayoutNode K)} {placed : Placed K} (member : placed ∈ placeRow y row) :
    placed.y = y ∧ placed.node ∈ row := by
  obtain ⟨entry, isEntry, rfl⟩ := List.mem_map.mp member
  exact ⟨rfl, List.fst_mem_of_mem_zipIdx isEntry⟩

theorem placeRow_clear {y : K} {row : List (WorkflowLayoutNode K)} (sized : Sized row) :
    ((placeRow y row).Pairwise fun left right => rectsOverlap left right = false) ↔ RowClear row := by
  unfold placeRow RowClear
  rw [List.pairwise_map]
  refine List.Pairwise.iff_of_mem fun {left right} isLeft isRight => ?_
  have leftHeight := (sized left.1 (List.fst_mem_of_mem_zipIdx isLeft)).2
  have rightHeight := (sized right.1 (List.fst_mem_of_mem_zipIdx isRight)).2
  unfold rectsOverlap rowEnd rowStart
  simp only [Bool.and_eq_false_iff, decide_eq_false_iff_not, not_lt]
  constructor
  · rintro (((apart | apart) | never) | never)
    · exact .inr (by linarith)
    · exact .inl (by linarith)
    · exact absurd never (by linarith)
    · exact absurd never (by linarith)
  · rintro (apart | apart)
    · exact .inl (.inl (.inr (by linarith)))
    · exact .inl (.inl (.inl (by linarith)))

omit [IsStrictOrderedRing K] in
theorem placeRows_nodes : ∀ (rows : List (List (WorkflowLayoutNode K))) (offset : K), (placeRows offset rows).map Placed.node = rows.flatten
  | [], _ => rfl
  | row :: rows, offset => by
    have isRow : (placeRow offset row).map Placed.node = row := by
      unfold placeRow
      rw [List.map_map]
      exact List.zipIdx_map_fst 0 row
    rw [placeRows, List.map_append, isRow, placeRows_nodes rows, List.flatten_cons]

theorem row_above {offset : K} {row : List (WorkflowLayoutNode K)} {placed : Placed K} (member : placed ∈ placeRow offset row) :
    placed.y + getNodeHeight placed.node < offset + (extremum max (row.map getNodeHeight) + verticalGap) := by
  obtain ⟨isY, isNode⟩ := mem_placeRow member
  have tall := extremum_max (row.map getNodeHeight) _ (List.mem_map_of_mem isNode)
  have gap : (0 : K) < verticalGap := by
    unfold verticalGap
    norm_num
  linarith

theorem placeRows_low : ∀ {rows : List (List (WorkflowLayoutNode K))} {offset : K}, (∀ row ∈ rows, row ≠ [] ∧ Sized row) →
    ∀ placed ∈ placeRows offset rows, offset ≤ placed.y
  | [], _, _, _, never => absurd never List.not_mem_nil
  | row :: rows, offset, sized, placed, member => by
    unfold placeRows at member
    rcases List.mem_append.mp member with here | later
    · exact (mem_placeRow here).1.ge
    · have low := placeRows_low (fun other isOther => sized other (List.mem_cons_of_mem _ isOther)) placed later
      obtain ⟨some_node, each⟩ := sized row List.mem_cons_self
      obtain ⟨node, isNode⟩ := List.exists_mem_of_ne_nil row some_node
      have tall := extremum_max (row.map getNodeHeight) _ (List.mem_map_of_mem isNode)
      have positive := (each node isNode).2
      have gap : (0 : K) < verticalGap := by
        unfold verticalGap
        norm_num
      linarith

theorem placeRows_clear : ∀ {rows : List (List (WorkflowLayoutNode K))} {offset : K}, (∀ row ∈ rows, row ≠ [] ∧ Sized row) →
    (((placeRows offset rows).Pairwise fun left right => rectsOverlap left right = false) ↔ ∀ row ∈ rows, RowClear row)
  | [], _, _ => by
    unfold placeRows
    exact iff_of_true .nil fun row never => absurd never List.not_mem_nil
  | row :: rows, offset, sized => by
    have later : ∀ other ∈ rows, other ≠ [] ∧ Sized other := fun other isOther => sized other (List.mem_cons_of_mem _ isOther)
    have apart : ∀ left ∈ placeRow offset row, ∀ right ∈ placeRows (offset + (extremum max (row.map getNodeHeight) + verticalGap)) rows,
        rectsOverlap left right = false := by
      intro left isLeft right isRight
      have above := row_above isLeft
      have low := placeRows_low later right isRight
      unfold rectsOverlap
      simp only [Bool.and_eq_false_iff, decide_eq_false_iff_not, not_lt]
      exact .inr (above.le.trans low)
    unfold placeRows
    rw [List.pairwise_append, placeRow_clear (sized row List.mem_cons_self).2, placeRows_clear later, List.forall_mem_cons]
    exact and_congr_right fun _ => and_iff_left apart

theorem placeRows_descend {layer : WorkflowLayoutNode K → Int} : ∀ {keys : List Int} {offset : K}, keys.Pairwise (· < ·) →
    (∀ key ∈ keys, (nodes.filter fun node => layer node = key) ≠ []) → Sized nodes →
    ∀ upper ∈ placeRows offset (keys.map fun key => nodes.filter fun node => layer node = key),
      ∀ lower ∈ placeRows offset (keys.map fun key => nodes.filter fun node => layer node = key),
        layer upper.node < layer lower.node → upper.y < lower.y
  | [], _, _, _, _, _, never, _, _ => absurd never List.not_mem_nil
  | key :: keys, offset, sorted, some_node, sized, upper, isUpper, lower, isLower => by
    intro less
    have isLayer : ∀ {y : K} {placed : Placed K} {key : Int}, placed ∈ placeRow y (nodes.filter fun node => layer node = key) → layer placed.node = key :=
      fun member => of_decide_eq_true (List.mem_filter.mp (mem_placeRow member).2).2
    have later_layer : ∀ {y : K} {placed : Placed K}, placed ∈ placeRows y (keys.map fun key => nodes.filter fun node => layer node = key) →
        key < layer placed.node := by
      intro y placed member
      have isNode : placed.node ∈ (keys.map fun key => nodes.filter fun node => layer node = key).flatten := by
        rw [← placeRows_nodes _ y]
        exact List.mem_map_of_mem member
      obtain ⟨row, isRow, inRow⟩ := List.mem_flatten.mp isNode
      obtain ⟨other, isOther, rfl⟩ := List.mem_map.mp isRow
      rw [of_decide_eq_true (List.mem_filter.mp inRow).2]
      exact (List.pairwise_cons.mp sorted).1 other isOther
    have rows_sized : ∀ row ∈ keys.map (fun key => nodes.filter fun node => layer node = key), row ≠ [] ∧ Sized row := by
      intro row isRow
      obtain ⟨other, isOther, rfl⟩ := List.mem_map.mp isRow
      exact ⟨some_node other (List.mem_cons_of_mem _ isOther), fun node member => sized node (List.mem_filter.mp member).1⟩
    rw [List.map_cons, placeRows] at isUpper isLower
    rcases List.mem_append.mp isUpper with upperHere | upperLater
    · rcases List.mem_append.mp isLower with lowerHere | lowerLater
      · rw [isLayer upperHere, isLayer lowerHere] at less
        exact absurd less (lt_irrefl key)
      · have above := row_above upperHere
        have low := placeRows_low rows_sized lower lowerLater
        have height := (sized upper.node (List.mem_filter.mp (mem_placeRow upperHere).2).1).2
        linarith
    · rcases List.mem_append.mp isLower with lowerHere | lowerLater
      · rw [isLayer lowerHere] at less
        exact absurd (less.trans (later_layer upperLater)) (lt_irrefl _)
      · exact placeRows_descend (List.pairwise_cons.mp sorted).2 (fun other isOther => some_node other (List.mem_cons_of_mem _ isOther)) sized
          upper upperLater lower lowerLater less

omit [CommRing K] [LinearOrder K] [IsStrictOrderedRing K] in
theorem layerRows_eq (nodes : List (WorkflowLayoutNode K)) (layers : OrderedMap Text Int) : ∃ keys : List Int, keys.Pairwise (· < ·) ∧
    (∀ key, key ∈ keys ↔ key ∈ nodes.map (layerOf layers)) ∧
      layerRows nodes layers = keys.map fun key => nodes.filter fun node => layerOf layers node = key := by
  let byLayer := collect (layerOf layers) nodes .empty
  let sorted := byLayer.entries.insertionSort fun left right => left.1 ≤ right.1
  have perm : sorted.Perm byLayer.entries := List.perm_insertionSort _ _
  refine ⟨sorted.map Prod.fst, ?_, fun key => ?_, ?_⟩
  · have total : Std.Total fun left right : Int × List (WorkflowLayoutNode K) => left.1 ≤ right.1 := ⟨fun left right => le_total left.1 right.1⟩
    have trans : IsTrans (Int × List (WorkflowLayoutNode K)) fun left right => left.1 ≤ right.1 := ⟨fun _ _ _ => le_trans⟩
    have low : (sorted.map Prod.fst).Pairwise (· ≤ ·) := List.pairwise_map.mpr (List.pairwise_insertionSort _ _)
    have nodup : (sorted.map Prod.fst).Nodup := (perm.map Prod.fst).nodup_iff.mpr byLayer.nodup
    exact (low.and nodup).imp fun both => lt_of_le_of_ne both.1 both.2
  · rw [(perm.map Prod.fst).mem_iff]
    exact (mem_collect_keys (layerOf layers) nodes .empty key).trans (or_iff_right List.not_mem_nil)
  · change sorted.map Prod.snd = _
    rw [List.map_map]
    refine List.map_congr_left fun entry member => ?_
    have isEntry : (entry.1, entry.2) ∈ byLayer.entries := perm.mem_iff.mp member
    have isRow := collect_get? (layerOf layers) nodes .empty entry.1
    rw [byLayer.get?_of_mem isEntry] at isRow
    exact isRow

end Rows

section Drawing
variable {K : Type} [CommRing K] [LinearOrder K] [IsStrictOrderedRing K] {nodes : List (WorkflowLayoutNode K)} {edges : List WorkflowLayoutEdge}

def RowsClear (nodes : List (WorkflowLayoutNode K)) (layers : OrderedMap Text Int) : Prop := ∀ row ∈ layerRows nodes layers, RowClear row

/-- The layout gives every node one place, the same for every order of the edges; no two nodes
overlap, and without a cycle every edge leads to a lower row. -/
def Drawing (nodes : List (WorkflowLayoutNode K)) (edges : List WorkflowLayoutEdge) : Prop :=
  ∃ laidOut, applyDeterministicFallbackLayout nodes edges = some laidOut ∧
    (laidOut.map Placed.node).Perm nodes ∧
    (∀ other, other.Perm edges → applyDeterministicFallbackLayout nodes other = some laidOut) ∧
    (laidOut.Pairwise fun left right => rectsOverlap left right = false) ∧
    (Acyclic edges → ∀ edge ∈ edges, ∀ upper ∈ laidOut, ∀ lower ∈ laidOut, upper.node.id = edge.source → lower.node.id = edge.target →
      upper.y < lower.y)

def layout (nodes : List (WorkflowLayoutNode K)) (layers : OrderedMap Text Int) : List (Placed K) :=
  normalizeNodePositions (placeRows padding (layerRows nodes layers))

omit [IsStrictOrderedRing K] in
theorem normalize_shift (laidOut : List (Placed K)) : ∃ dx dy : K,
    normalizeNodePositions laidOut = laidOut.map fun placed => { placed with x := placed.x + dx, y := placed.y + dy } := by
  refine ⟨padding - extremum min (laidOut.map Placed.x), padding - extremum min (laidOut.map Placed.y), List.map_congr_left fun placed _ => ?_⟩
  rw [add_sub_left_comm, add_comm padding, add_sub_left_comm, add_comm padding]

theorem rectsOverlap_shift (left right : Placed K) (dx dy : K) :
    rectsOverlap { left with x := left.x + dx, y := left.y + dy } { right with x := right.x + dx, y := right.y + dy } = rectsOverlap left right := by
  unfold rectsOverlap
  dsimp only
  rw [add_right_comm right.x, add_right_comm left.x, add_right_comm right.y, add_right_comm left.y]
  simp only [add_lt_add_iff_right]

omit [IsStrictOrderedRing K] in
theorem layout_nodes (nodes : List (WorkflowLayoutNode K)) (layers : OrderedMap Text Int) : ((layout nodes layers).map Placed.node).Perm nodes := by
  obtain ⟨dx, dy, isShift⟩ := normalize_shift (placeRows padding (layerRows nodes layers))
  obtain ⟨keys, sorted, isKey, isRows⟩ := layerRows_eq nodes layers
  have flat : (layerRows nodes layers).flatten = grouped keys (layerOf layers) nodes := by
    rw [isRows, grouped, List.flatMap_def]
  have kept : (layout nodes layers).map Placed.node = (placeRows padding (layerRows nodes layers)).map Placed.node := by
    unfold layout
    rw [isShift, List.map_map]
    rfl
  rw [kept, placeRows_nodes, flat]
  exact grouped_perm _ (sorted.imp ne_of_lt) fun node member => (isKey _).mpr (List.mem_map_of_mem member)

omit [IsStrictOrderedRing K] in
theorem rows_sized (sized : Sized nodes) (layers : OrderedMap Text Int) : ∀ row ∈ layerRows nodes layers, row ≠ [] ∧ Sized row := by
  obtain ⟨keys, -, isKey, isRows⟩ := layerRows_eq nodes layers
  intro row member
  rw [isRows] at member
  obtain ⟨key, listed, rfl⟩ := List.mem_map.mp member
  obtain ⟨node, isNode, isLayer⟩ := List.mem_map.mp ((isKey key).mp listed)
  refine ⟨List.ne_nil_of_mem (List.mem_filter.mpr ⟨isNode, decide_eq_true isLayer⟩), fun other inRow => ?_⟩
  exact sized other (List.mem_filter.mp inRow).1

theorem layout_clear (sized : Sized nodes) (layers : OrderedMap Text Int) :
    ((layout nodes layers).Pairwise fun left right => rectsOverlap left right = false) ↔ RowsClear nodes layers := by
  obtain ⟨dx, dy, isShift⟩ := normalize_shift (placeRows padding (layerRows nodes layers))
  unfold layout
  rw [isShift, List.pairwise_map]
  simp only [rectsOverlap_shift]
  exact placeRows_clear (rows_sized sized layers)

theorem layout_descends (sized : Sized nodes) (layers : OrderedMap Text Int) : ∀ upper ∈ layout nodes layers, ∀ lower ∈ layout nodes layers,
    layerOf layers upper.node < layerOf layers lower.node → upper.y < lower.y := by
  obtain ⟨dx, dy, isShift⟩ := normalize_shift (placeRows padding (layerRows nodes layers))
  obtain ⟨keys, sorted, isKey, isRows⟩ := layerRows_eq nodes layers
  have some_node : ∀ key ∈ keys, (nodes.filter fun node => layerOf layers node = key) ≠ [] := by
    intro key listed
    refine (rows_sized sized layers _ ?_).1
    rw [isRows]
    exact List.mem_map_of_mem listed
  unfold layout
  rw [isShift]
  intro upper isUpper lower isLower less
  obtain ⟨one, isOne, rfl⟩ := List.mem_map.mp isUpper
  obtain ⟨two, isTwo, rfl⟩ := List.mem_map.mp isLower
  rw [isRows] at isOne isTwo
  have above := placeRows_descend sorted some_node sized one isOne two isTwo less
  dsimp only
  linarith

omit [IsStrictOrderedRing K] in
theorem layout_congr {layers layers' : OrderedMap Text Int} (same : ∀ nodeId, (layers'.get? nodeId).getD 0 = (layers.get? nodeId).getD 0) :
    layout nodes layers' = layout nodes layers := by
  have layer_eq : (fun node : WorkflowLayoutNode K => (layers'.get? node.id).getD 0) = fun node => (layers.get? node.id).getD 0 :=
    funext fun node => same node.id
  unfold layout layerRows
  rw [layer_eq]

/-- No empty id stops the queue of a graph without a cycle, and no tie gives the order of the edges a say. -/
def Settled (nodes : List (WorkflowLayoutNode K)) (edges : List WorkflowLayoutEdge) : Prop :=
  (Acyclic edges → [] ∉ nodeIds nodes) ∧ (TiesAgree nodes edges ∨ Acyclic edges)

/-- The layout is a drawing where its rows have room for their widths. -/
theorem drawing_iff (distinct : (nodeIds nodes).Nodup) (sized : Sized nodes) (between : Between nodes edges) :
    ∃ layers, layerByNodeId nodes edges = some layers ∧ (Drawing nodes edges → RowsClear nodes layers) ∧
      (Settled nodes edges → RowsClear nodes layers → Drawing nodes edges) := by
  obtain ⟨layers, isLayers⟩ := layerByNodeId_ends distinct between
  have isLayout : applyDeterministicFallbackLayout nodes edges = some (layout nodes layers) := by
    unfold applyDeterministicFallbackLayout
    rw [isLayers]
    rfl
  refine ⟨layers, isLayers, ?_, ?_⟩
  · rintro ⟨laidOut, isLaid, -, -, clear, -⟩
    obtain rfl := Option.some.inj (isLayout.symm.trans isLaid)
    exact (layout_clear sized layers).mp clear
  · rintro ⟨named, steady⟩ rowsClear
    refine ⟨layout nodes layers, isLayout, layout_nodes nodes layers, fun other same => ?_, (layout_clear sized layers).mpr rowsClear, ?_⟩
    · rcases steady with ties | acyclic
      · unfold applyDeterministicFallbackLayout
        rw [layerByNodeId_perm distinct between ties same]
        exact isLayout
      · obtain ⟨one, two, isOne, isTwo, alike⟩ := layerByNodeId_acyclic_perm distinct between acyclic (named acyclic) same
        cases Option.some.inj (isLayers.symm.trans isOne)
        unfold applyDeterministicFallbackLayout
        rw [isTwo]
        exact congrArg some (layout_congr alike)
    · intro acyclic edge isEdge upper isUpper lower isLower isSource isTarget
      obtain ⟨state, taken, isState, sound, isTaken⟩ := layerByNodeId_acyclic distinct between acyclic (named acyclic)
      cases Option.some.inj (isLayers.symm.trans isState)
      have listed := between edge isEdge
      have isOut : edge.target ∈ targets nodes edges edge.source := mem_targets.mpr ⟨listed.1, edge, isEdge, rfl, rfl⟩
      have below := sound.below edge.source ((isTaken edge.source).mpr listed.1) edge.target isOut
      refine layout_descends sized state.layers upper isUpper lower isLower ?_
      unfold layerOf
      rw [isSource, isTarget]
      exact Int.lt_of_add_one_le below

def sizedNode (id : Text) (width height : Int) : WorkflowLayoutNode Int := ⟨id, some width, some height, []⟩

theorem drawing_iff_chain : Drawing [sizedNode (js "a") 500 96, sizedNode (js "b") 260 96] [plainEdge (js "1") (js "a") (js "b")] := by
  obtain ⟨layers, isLayers, -, draws⟩ := @drawing_iff Int _ _ _ [sizedNode (js "a") 500 96, sizedNode (js "b") 260 96]
    [plainEdge (js "1") (js "a") (js "b")] (by decide) (by unfold Sized; decide) (by unfold Between; decide)
  have ties : TiesAgree [sizedNode (js "a") 500 96, sizedNode (js "b") 260 96] [plainEdge (js "1") (js "a") (js "b")] := by
    unfold TiesAgree
    decide
  have isRows : (layerByNodeId [sizedNode (js "a") 500 96, sizedNode (js "b") 260 96] [plainEdge (js "1") (js "a") (js "b")]).map
      (layerRows [sizedNode (js "a") 500 96, sizedNode (js "b") 260 96]) = some [[sizedNode (js "a") 500 96], [sizedNode (js "b") 260 96]] := by
    decide +kernel
  refine draws ⟨fun _ => by decide, .inl ties⟩ fun row member => ?_
  rw [isLayers] at isRows
  rw [Option.some.inj isRows] at member
  rcases List.mem_cons.mp member with rfl | later
  · exact List.pairwise_singleton _ _
  · rw [List.mem_singleton.mp later]
    exact List.pairwise_singleton _ _

/-- A narrow node after a wide one in a row is put under it. -/
theorem wide_then_narrow : ¬ ∀ (nodes : List (WorkflowLayoutNode Int)) (edges : List WorkflowLayoutEdge), (nodeIds nodes).Nodup → Sized nodes →
    Between nodes edges → Drawing nodes edges := by
  intro claimed
  obtain ⟨laidOut, isLaid, -, -, clear, -⟩ := claimed [sizedNode (js "a") 500 96, sizedNode (js "b") 260 96] [] (by decide)
    (by unfold Sized; decide) (by unfold Between; decide)
  have isLayout : applyDeterministicFallbackLayout [sizedNode (js "a") 500 96, sizedNode (js "b") 260 96] [] =
      some [⟨sizedNode (js "a") 500 96, 32, 32⟩, ⟨sizedNode (js "b") 260 96, 364, 32⟩] := by
    decide +kernel
  cases Option.some.inj (isLayout.symm.trans isLaid)
  revert clear
  decide

end Drawing

end OpenShapeForge.Workflow
