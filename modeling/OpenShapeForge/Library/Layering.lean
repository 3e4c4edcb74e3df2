import Mathlib.Data.List.Count
import Mathlib.Data.Int.Order.Basic
import OpenShapeForge.Library.OrderedMap
import OpenShapeForge.Library.Sweeps

/-! Layers of a graph found with a queue: a vertex that is taken puts its targets below itself
and counts down their in-degrees, and one whose in-degree reaches zero joins the queue. -/

namespace OpenShapeForge.Library.Layering
open Relation

structure State (V : Type) [DecidableEq V] where
  layers : OrderedMap V Int
  indegree : V → Int
  queue : List V

section Algorithm
variable {V : Type} [DecidableEq V]

def State.layer (state : State V) (vertex : V) : Int := (state.layers.get? vertex).getD 0

def relax (layer : Int) (state : State V) (target : V) : State V :=
  let indegree := Function.update state.indegree target (state.indegree target - 1)
  { layers := state.layers.set target (max (state.layer target) (layer + 1))
    indegree
    queue := if indegree target = 0 then state.queue ++ [target] else state.queue }

variable (outgoing : V → List V)

def fire (vertex : V) (state : State V) : State V := (outgoing vertex).foldl (relax (state.layer vertex)) state

/-- Takes vertices until the queue is empty or one stops the run. -/
def drain (stops : V → Bool) : Nat → State V → Option (State V)
  | 0, state => if state.queue.isEmpty then some state else none
  | steps + 1, state =>
    match state.queue with
    | [] => some state
    | vertex :: queue =>
      if stops vertex then some { state with queue } else drain stops steps (fire outgoing vertex { state with queue })

end Algorithm

section Relaxing
variable {V : Type} [DecidableEq V] {outgoing : V → List V}

theorem layer_set (map : OrderedMap V Int) (indegree : V → Int) (queue : List V) (target : V) (value : Int) (vertex : V) :
    State.layer ⟨map.set target value, indegree, queue⟩ vertex = if vertex = target then value else State.layer ⟨map, indegree, queue⟩ vertex := by
  unfold State.layer
  dsimp only
  split
  next same => rw [same, OrderedMap.get?_set_self, Option.getD_some]
  next different => rw [OrderedMap.get?_set_of_ne _ _ different]

theorem relax_all (layer : Int) : ∀ (targets : List V) (state : State V), ∃ pushed,
    (targets.foldl (relax layer) state).queue = state.queue ++ pushed ∧ pushed.Nodup ∧
      (∀ vertex, vertex ∈ pushed ↔ 0 < state.indegree vertex ∧ state.indegree vertex ≤ targets.count vertex) ∧
      (∀ vertex, (targets.foldl (relax layer) state).indegree vertex = state.indegree vertex - targets.count vertex) ∧
      (∀ vertex, vertex ∈ (targets.foldl (relax layer) state).layers.keys ↔ vertex ∈ targets ∨ vertex ∈ state.layers.keys) ∧
      ∀ vertex, (targets.foldl (relax layer) state).layer vertex =
        if vertex ∈ targets then max (state.layer vertex) (layer + 1) else state.layer vertex
  | [], state => by
    refine ⟨[], (List.append_nil _).symm, List.nodup_nil, fun vertex => ?_, fun vertex => ?_, fun vertex => ?_, fun vertex => ?_⟩
    · rw [List.count_nil]
      exact iff_of_false List.not_mem_nil fun both => absurd both.1 (Int.not_lt.mpr both.2)
    · rw [List.count_nil]
      exact (Int.sub_zero _).symm
    · exact (or_iff_right List.not_mem_nil).symm
    · rw [if_neg List.not_mem_nil]
      rfl
  | target :: rest, state => by
    obtain ⟨pushed, isQueue, nodup, isPushed, isIndegree, isKey, isLayer⟩ := relax_all layer rest (relax layer state target)
    have counts : ∀ vertex, ((target :: rest).count vertex : Int) = rest.count vertex + if vertex = target then 1 else 0 := by
      intro vertex
      rw [List.count_cons]
      by_cases same : vertex = target
      · simp [same]
      · have other : target ≠ vertex := fun eq => same eq.symm
        simp [same, other]
    have lowered : ∀ vertex, (relax layer state target).indegree vertex = state.indegree vertex - if vertex = target then 1 else 0 := by
      intro vertex
      unfold relax
      by_cases same : vertex = target
      · simp [same]
      · simp [same]
    refine ⟨(if state.indegree target = 1 then [target] else []) ++ pushed, ?_, ?_, fun vertex => ?_, fun vertex => ?_, fun vertex => ?_, fun vertex => ?_⟩
    · rw [List.foldl_cons, isQueue, ← List.append_assoc]
      congr 1
      unfold relax
      dsimp only
      rw [Function.update_self]
      by_cases last : state.indegree target = 1
      · rw [if_pos last, if_pos (by omega)]
      · rw [if_neg last, if_neg (by omega), List.append_nil]
    · by_cases last : state.indegree target = 1
      · rw [if_pos last]
        refine List.nodup_cons.mpr ⟨fun member => ?_, nodup⟩
        have positive := ((isPushed target).mp member).1
        rw [lowered, if_pos rfl] at positive
        omega
      · rwa [if_neg last]
    · rw [List.mem_append, isPushed, lowered, counts]
      by_cases same : vertex = target
      · subst same
        by_cases last : state.indegree vertex = 1
        · simp [last]
        · simp only [last, if_false, List.not_mem_nil, false_or, if_true]
          omega
      · have absent : vertex ∉ (if state.indegree target = 1 then [target] else []) := by
          split
          next => exact fun member => same (List.mem_singleton.mp member)
          next => exact List.not_mem_nil
        simp only [absent, false_or, if_neg same]
        omega
    · rw [List.foldl_cons, isIndegree, lowered, counts]
      omega
    · have isSet : vertex ∈ (relax layer state target).layers.keys ↔ vertex = target ∨ vertex ∈ state.layers.keys := OrderedMap.mem_keys_set _ _ _ _
      rw [List.foldl_cons, isKey, isSet, List.mem_cons]
      tauto
    · have isRelaxed : (relax layer state target).layer vertex = if vertex = target then max (state.layer target) (layer + 1) else state.layer vertex :=
        layer_set _ _ _ _ _ _
      rw [List.foldl_cons, isLayer, isRelaxed]
      by_cases same : vertex = target
      · subst same
        simp
      · simp [same]

def waiting (vertices : List V) (state : State V) : Nat := (vertices.filter fun vertex => 0 < state.indegree vertex).length

theorem fire_waiting {vertices : List V} (unique : vertices.Nodup) (closed : ∀ source, ∀ target ∈ outgoing source, target ∈ vertices) (vertex : V)
    (state : State V) :
    (fire outgoing vertex state).queue.length + waiting vertices (fire outgoing vertex state) ≤ state.queue.length + waiting vertices state := by
  obtain ⟨pushed, isQueue, nodup, isPushed, isIndegree, -, -⟩ := relax_all (state.layer vertex) (outgoing vertex) state
  unfold fire waiting
  simp only [isQueue, isIndegree, List.length_append]
  -- what is pushed waited, and waits no more
  have within : pushed ++ (vertices.filter fun other => 0 < state.indegree other - (outgoing vertex).count other) ⊆
      vertices.filter fun other => 0 < state.indegree other := by
    intro other member
    rcases List.mem_append.mp member with isNew | left
    · have both := (isPushed other).mp isNew
      have some_out : 0 < (outgoing vertex).count other := by omega
      exact List.mem_filter.mpr ⟨closed vertex other (List.count_pos_iff.mp some_out), decide_eq_true both.1⟩
    · obtain ⟨listed, still⟩ := List.mem_filter.mp left
      have positive := of_decide_eq_true still
      exact List.mem_filter.mpr ⟨listed, decide_eq_true (by omega)⟩
  have once : (pushed ++ (vertices.filter fun other => 0 < state.indegree other - (outgoing vertex).count other)).Nodup := by
    refine List.Nodup.append nodup (unique.filter _) fun other isNew left => ?_
    have both := (isPushed other).mp isNew
    have positive := of_decide_eq_true (List.mem_filter.mp left).2
    omega
  have bound := (once.subperm within).length_le
  rw [List.length_append] at bound
  omega

theorem drain_ends {vertices : List V} (unique : vertices.Nodup) (closed : ∀ source, ∀ target ∈ outgoing source, target ∈ vertices)
    (stops : V → Bool) : ∀ (steps : Nat) (state : State V), state.queue.length + waiting vertices state ≤ steps →
    ∃ final, drain outgoing stops steps state = some final
  | 0, state, bound => by
    have none_left : state.queue = [] := List.length_eq_zero_iff.mp (by omega)
    unfold drain
    rw [none_left]
    exact ⟨state, rfl⟩
  | steps + 1, state, bound => by
    unfold drain
    split
    next => exact ⟨state, rfl⟩
    next vertex queue isQueue =>
      split
      next => exact ⟨_, rfl⟩
      next =>
        have falls := fire_waiting unique closed vertex { state with queue }
        have length := congrArg List.length isQueue
        rw [List.length_cons] at length
        have same : waiting vertices { state with queue } = waiting vertices state := rfl
        exact drain_ends unique closed stops steps _ (by dsimp only at falls; omega)

/-- What holds of a run that started with every vertex of in-degree zero queued, once these vertices were taken. -/
structure Sound (vertices : List V) (outgoing : V → List V) (taken : List V) (state : State V) : Prop where
  once : (taken ++ state.queue).Nodup
  counted : ∀ vertex, state.indegree vertex = ((vertices.filter fun source => source ∉ taken).flatMap outgoing).count vertex
  settled : ∀ vertex, vertex ∈ taken ++ state.queue ↔ vertex ∈ vertices ∧ state.indegree vertex = 0
  placed : ∀ vertex ∈ taken ++ state.queue, vertex ∈ state.layers.keys
  nonneg : ∀ vertex, 0 ≤ state.layer vertex
  below : ∀ source ∈ taken, ∀ target ∈ outgoing source, state.layer source + 1 ≤ state.layer target
  tight : ∀ target, state.layer target = 0 ∨ ∃ source ∈ taken, target ∈ outgoing source ∧ state.layer target = state.layer source + 1

theorem untaken_nil (vertices : List V) : (vertices.filter fun source => source ∉ ([] : List V)) = vertices :=
  List.filter_eq_self.mpr fun _ _ => decide_eq_true List.not_mem_nil

variable (outgoing) in
theorem untaken_count {vertices taken : List V} {vertex : V} (unique : vertices.Nodup) (listed : vertex ∈ vertices) (fresh : vertex ∉ taken) (other : V) :
    (((vertices.filter fun source => source ∉ taken).flatMap outgoing).count other : Int) =
      (outgoing vertex).count other + ((vertices.filter fun source => source ∉ taken ++ [vertex]).flatMap outgoing).count other := by
  have isLeft : vertex ∈ vertices.filter fun source => source ∉ taken := List.mem_filter.mpr ⟨listed, decide_eq_true fresh⟩
  have erased : (vertices.filter fun source => source ∉ taken).erase vertex = vertices.filter fun source => source ∉ taken ++ [vertex] := by
    rw [(unique.filter _).erase_eq_filter, List.filter_filter]
    refine List.filter_congr fun source _ => ?_
    by_cases same : source = vertex
    · simp [same]
    · simp [same]
  have perm := (List.perm_cons_erase isLeft).flatMap_right outgoing
  rw [erased, List.flatMap_cons] at perm
  rw [perm.count_eq, List.count_append, Int.natCast_add]

theorem Sound.step {vertices taken rest : List V} {vertex : V} {state : State V} (unique : vertices.Nodup)
    (closed : ∀ source, ∀ target ∈ outgoing source, target ∈ vertices) (isQueue : state.queue = vertex :: rest)
    (sound : Sound vertices outgoing taken state) :
    Sound vertices outgoing (taken ++ [vertex]) (fire outgoing vertex { state with queue := rest }) := by
  obtain ⟨pushed, queue_eq, nodup, isPushed, isIndegree, isKey, isLayer⟩ := relax_all (state.layer vertex) (outgoing vertex) { state with queue := rest }
  change (fire outgoing vertex { state with queue := rest }).queue = rest ++ pushed at queue_eq
  change ∀ other, other ∈ pushed ↔ 0 < state.indegree other ∧ state.indegree other ≤ (outgoing vertex).count other at isPushed
  change ∀ other, (fire outgoing vertex { state with queue := rest }).indegree other = state.indegree other - (outgoing vertex).count other at isIndegree
  change ∀ other, (fire outgoing vertex { state with queue := rest }).layer other =
    (if other ∈ outgoing vertex then max (state.layer other) (state.layer vertex + 1) else state.layer other) at isLayer
  have isNow : ∀ other, other ∈ taken ++ vertex :: rest ↔ other ∈ vertices ∧ state.indegree other = 0 := isQueue ▸ sound.settled
  have listed : vertex ∈ vertices := ((isNow vertex).mp (List.mem_append_right _ List.mem_cons_self)).1
  have fresh : vertex ∉ taken := by
    have apart := sound.once
    rw [isQueue] at apart
    exact fun member => (List.nodup_append.mp apart).2.2 vertex member vertex List.mem_cons_self rfl
  have split_off := untaken_count outgoing unique listed fresh
  have enough : ∀ other, ((outgoing vertex).count other : Int) ≤ state.indegree other := by
    intro other
    rw [sound.counted, split_off]
    omega
  have unmoved : ∀ source, state.indegree source = 0 → source ∉ outgoing vertex := by
    intro source isZero member
    have some_edge : 0 < (outgoing vertex).count source := List.count_pos_iff.mpr member
    have bound := enough source
    omega
  have keeps : ∀ source ∈ taken ++ [vertex], (fire outgoing vertex { state with queue := rest }).layer source = state.layer source := by
    intro source member
    have isOld : source ∈ taken ++ vertex :: rest := by
      rcases List.mem_append.mp member with was | isVertex
      · exact List.mem_append_left _ was
      · exact List.mem_append_right _ (List.mem_singleton.mp isVertex ▸ List.mem_cons_self)
    exact (isLayer source).trans (if_neg (unmoved source ((isNow source).mp isOld).2))
  have rises : ∀ target, state.layer target ≤ (fire outgoing vertex { state with queue := rest }).layer target := by
    intro target
    refine le_of_le_of_eq ?_ (isLayer target).symm
    split
    next => exact le_max_left _ _
    next => exact le_refl _
  constructor
  case once =>
    have apart := sound.once
    rw [isQueue] at apart
    rw [queue_eq, List.append_assoc, List.singleton_append, ← List.cons_append, ← List.append_assoc]
    refine List.Nodup.append apart nodup fun other isOld isNew => ?_
    have zero := ((isNow other).mp isOld).2
    have positive := ((isPushed other).mp isNew).1
    omega
  case counted =>
    intro other
    refine (isIndegree other).trans ?_
    have before := sound.counted other
    rw [split_off] at before
    omega
  case settled =>
    intro other
    rw [queue_eq, isIndegree, List.append_assoc, List.singleton_append, ← List.cons_append, ← List.append_assoc, List.mem_append, isNow, isPushed]
    have bound := enough other
    constructor
    · rintro (⟨isVertex, zero⟩ | ⟨positive, counted⟩)
      · exact ⟨isVertex, by omega⟩
      · have some_edge : 0 < (outgoing vertex).count other := by omega
        exact ⟨closed vertex other (List.count_pos_iff.mp some_edge), by omega⟩
    · rintro ⟨isVertex, zero⟩
      by_cases isZero : state.indegree other = 0
      · exact .inl ⟨isVertex, isZero⟩
      · exact .inr ⟨by omega, by omega⟩
  case placed =>
    intro other member
    refine (isKey other).mpr ?_
    rw [queue_eq, List.append_assoc, List.singleton_append, ← List.cons_append, ← List.append_assoc] at member
    rcases List.mem_append.mp member with was | isNew
    · exact .inr (sound.placed other (isQueue ▸ was))
    · have both := (isPushed other).mp isNew
      exact .inl (List.count_pos_iff.mp (by omega))
  case nonneg => exact fun target => (sound.nonneg target).trans (rises target)
  case below =>
    intro source member target isOut
    rw [keeps source member]
    rcases List.mem_append.mp member with was | isVertex
    · exact (sound.below source was target isOut).trans (rises target)
    · obtain rfl := List.mem_singleton.mp isVertex
      refine le_of_le_of_eq (le_max_right (state.layer target) _) ?_
      exact (isLayer target).trans (if_pos isOut) |>.symm
  case tight =>
    intro target
    have fromOld : state.layer target = 0 ∨ ∃ source ∈ taken ++ [vertex], target ∈ outgoing source ∧
        state.layer target = (fire outgoing vertex { state with queue := rest }).layer source + 1 := by
      refine (sound.tight target).imp_right ?_
      rintro ⟨source, was, isOut, isBelow⟩
      have member := List.mem_append_left [vertex] was
      exact ⟨source, member, isOut, (keeps source member).symm ▸ isBelow⟩
    by_cases isOut : target ∈ outgoing vertex
    · have moved : (fire outgoing vertex { state with queue := rest }).layer target = max (state.layer target) (state.layer vertex + 1) :=
        (isLayer target).trans (if_pos isOut)
      rcases max_choice (state.layer target) (state.layer vertex + 1) with same | lower
      · rw [moved, same]
        exact fromOld
      · have member : vertex ∈ taken ++ [vertex] := List.mem_append_right _ (List.mem_singleton_self vertex)
        exact .inr ⟨vertex, member, isOut, by rw [moved, lower, keeps vertex member]⟩
    · rw [show (fire outgoing vertex { state with queue := rest }).layer target = state.layer target from (isLayer target).trans (if_neg isOut)]
      exact fromOld

theorem Sound.drain {vertices : List V} {stops : V → Bool} (unique : vertices.Nodup) (closed : ∀ source, ∀ target ∈ outgoing source, target ∈ vertices)
    (onward : ∀ vertex ∈ vertices, stops vertex = false) : ∀ {steps : Nat} {taken : List V} {state final : State V},
    Sound vertices outgoing taken state → Layering.drain outgoing stops steps state = some final →
    ∃ all, Sound vertices outgoing all final ∧ final.queue = []
  | 0, taken, state, final, sound, ends => by
    unfold Layering.drain at ends
    split at ends
    next isEmpty =>
      cases ends
      exact ⟨taken, sound, List.isEmpty_iff.mp isEmpty⟩
    next => cases ends
  | steps + 1, taken, state, final, sound, ends => by
    unfold Layering.drain at ends
    split at ends
    next isEmpty =>
      cases ends
      exact ⟨taken, sound, isEmpty⟩
    next vertex rest isQueue =>
      have isNext : vertex ∈ taken ++ state.queue := List.mem_append_right _ (isQueue ▸ List.mem_cons_self)
      have goes := onward vertex ((sound.settled vertex).mp isNext).1
      rw [if_neg (Bool.eq_false_iff.mp goes)] at ends
      exact (sound.step unique closed isQueue).drain unique closed onward ends

theorem Sound.all_taken {vertices taken : List V} {state : State V} (acyclic : ∀ vertex, ¬ TransGen (fun source target => target ∈ outgoing source) vertex vertex)
    (sound : Sound vertices outgoing taken state) (isEmpty : state.queue = []) : ∀ vertex ∈ vertices, vertex ∈ taken := by
  by_contra some_left
  have left : (vertices.filter fun vertex => vertex ∉ taken) ≠ [] := by
    intro nothing
    refine some_left fun vertex member => ?_
    by_contra missing
    exact List.filter_eq_nil_iff.mp nothing vertex member (decide_eq_true missing)
  obtain ⟨vertex, cycle⟩ := @Sweeps.exists_cycle V (fun target source => target ∈ outgoing source) _ left (by
    intro target member
    obtain ⟨listed, isLeft⟩ := List.mem_filter.mp member
    -- its in-degree is not used up, so that an edge from a vertex that is left leads to it
    have positive : state.indegree target ≠ 0 := by
      intro zero
      have isTaken := (sound.settled target).mpr ⟨listed, zero⟩
      rw [isEmpty, List.append_nil] at isTaken
      exact of_decide_eq_true isLeft isTaken
    have some_edge : target ∈ (vertices.filter fun source => source ∉ taken).flatMap outgoing := by
      have counted := sound.counted target
      exact List.count_pos_iff.mp (by omega)
    exact List.mem_flatMap.mp some_edge)
  exact acyclic vertex (transGen_swap.mp cycle)

section Unique
variable {vertices vertices' taken taken' : List V} {outgoing' : V → List V} {state state' : State V}

/-- No depth that goes down along the edges is smaller than the layer. -/
theorem Sound.least (sound : Sound vertices outgoing taken state) {depth : V → Int} (nonneg : ∀ vertex, 0 ≤ depth vertex)
    (onward : ∀ source ∈ taken, ∀ target ∈ outgoing source, depth source + 1 ≤ depth target) (vertex : V) : state.layer vertex ≤ depth vertex := by
  obtain ⟨bound, low⟩ : ∃ bound : Nat, state.layer vertex ≤ bound := ⟨_, Int.self_le_toNat _⟩
  induction bound generalizing vertex with
  | zero => exact low.trans (nonneg vertex)
  | succ bound ih =>
    rcases sound.tight vertex with zero | ⟨source, isTaken, isOut, isBelow⟩
    · exact zero ▸ nonneg vertex
    · have source_low := ih source (by omega)
      have below := onward source isTaken vertex isOut
      omega

theorem Sound.layer_eq (alike : ∀ source target, target ∈ outgoing source ↔ target ∈ outgoing' source) (members : ∀ vertex, vertex ∈ taken ↔ vertex ∈ taken')
    (sound : Sound vertices outgoing taken state) (sound' : Sound vertices' outgoing' taken' state') (vertex : V) :
    state.layer vertex = state'.layer vertex := by
  apply le_antisymm
  · exact sound.least sound'.nonneg (fun source isTaken target isOut => sound'.below source ((members source).mp isTaken) target ((alike source target).mp isOut)) vertex
  · exact sound'.least sound.nonneg (fun source isTaken target isOut => sound.below source ((members source).mpr isTaken) target ((alike source target).mpr isOut)) vertex

end Unique

end Relaxing

end OpenShapeForge.Library.Layering
