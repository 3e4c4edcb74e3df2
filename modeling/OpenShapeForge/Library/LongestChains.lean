import Mathlib.Data.List.Chain
import Mathlib.Logic.Relation
import OpenShapeForge.Library.OrderedMap

/-! The longest chain from each vertex of a graph, found depth first with a memory of the chains
that are known, where a cycle or a chain beyond its vertex's limit ends the search. -/

namespace OpenShapeForge.Library.LongestChains
open Relation

variable {V : Type}

/-- Why the search ends early: the cycle it ran into, or a vertex and the length of its longest chain. -/
inductive Refusal (V : Type) where
  | cycle (path : List V)
  | tooDeep (vertex : V) (depth : Nat)

section Algorithm
variable [DecidableEq V]

abbrev Found (V : Type) [DecidableEq V] (α : Type) := Option (Except (Refusal V) (α × OrderedMap V Nat))

def deepest (visit : V → OrderedMap V Nat → Found V Nat) : List V → Nat → OrderedMap V Nat → Found V Nat
  | [], best, memo => some (.ok (best, memo))
  | vertex :: rest, best, memo =>
    (visit vertex memo).bind fun
      | .ok (depth, memo) => deepest visit rest (max best depth) memo
      | .error refusal => some (.error refusal)

/-- The vertices that a vertex reads; of what is no vertex, none. -/
def visit (reads : V → Option (List V)) (limit : V → Nat) : Nat → List V → V → OrderedMap V Nat → Found V Nat
  | 0, _, _, _ => none
  | fuel + 1, visiting, vertex, memo =>
    match memo.get? vertex, reads vertex with
    | some known, _ => some (.ok (known, memo))
    | none, none => some (.ok (0, memo))
    | none, some targets =>
      if vertex ∈ visiting then some (.error (.cycle (visiting.drop (visiting.idxOf vertex) ++ [vertex])))
      else
        (deepest (visit reads limit fuel (visiting ++ [vertex])) targets 0 memo).map fun
          | .ok (below, memo) =>
            if limit vertex < 1 + below then .error (.tooDeep vertex (1 + below)) else .ok (1 + below, memo.set vertex (1 + below))
          | .error refusal => .error refusal

end Algorithm

section Chains

inductive Chain (reads : V → Option (List V)) : V → Nat → Prop where
  | zero (vertex : V) : Chain reads vertex 0
  | here {vertex : V} {targets : List V} (isVertex : reads vertex = some targets) : Chain reads vertex 1
  | onward {vertex target : V} {targets : List V} {count : Nat} (isVertex : reads vertex = some targets) (isTarget : target ∈ targets)
      (chain : Chain reads target count) : Chain reads vertex (count + 1)

def Longest (reads : V → Option (List V)) (vertex : V) (depth : Nat) : Prop :=
  Chain reads vertex depth ∧ ∀ count, Chain reads vertex count → count ≤ depth

def Reads (reads : V → Option (List V)) (source target : V) : Prop :=
  (∃ targets, reads source = some targets ∧ target ∈ targets) ∧ ∃ targets, reads target = some targets

def Acyclic (reads : V → Option (List V)) : Prop := ∀ vertex, ¬ TransGen (Reads reads) vertex vertex

def Within (reads : V → Option (List V)) (limit : V → Nat) : Prop :=
  ∀ vertex targets, reads vertex = some targets → ∀ count, Chain reads vertex count → count ≤ limit vertex

def IsCycle (reads : V → Option (List V)) (path : List V) : Prop :=
  ∃ vertex middle, path = vertex :: (middle ++ [vertex]) ∧ path.IsChain (Reads reads)

variable {reads : V → Option (List V)} {limit : V → Nat} {vertex source target : V}

theorem Chain.shorter {count : Nat} (chain : Chain reads vertex (count + 1)) : Chain reads vertex count := by
  generalize isLength : count + 1 = length at chain
  induction chain generalizing count with
  | zero => omega
  | here _ =>
    obtain rfl : count = 0 := by omega
    exact .zero _
  | onward isVertex isTarget _ ih =>
    obtain rfl := Nat.succ.inj isLength
    cases count with
    | zero => exact .zero _
    | succ count => exact .onward isVertex isTarget (ih rfl)

theorem Chain.of_path {count : Nat} (path : TransGen (Reads reads) source target) (chain : Chain reads target count) :
    Chain reads source (count + 1) := by
  induction path using TransGen.head_induction_on with
  | single step =>
    obtain ⟨⟨targets, isVertex, isTarget⟩, -⟩ := step
    exact .onward isVertex isTarget chain
  | head step _ ih =>
    obtain ⟨⟨targets, isVertex, isTarget⟩, -⟩ := step
    exact .onward isVertex isTarget ih.shorter

theorem Chain.of_cycle (cycle : TransGen (Reads reads) vertex vertex) : ∀ count, Chain reads vertex count
  | 0 => .zero vertex
  | count + 1 => (Chain.of_cycle cycle count).of_path cycle

theorem Within.acyclic (within : Within reads limit) : Acyclic reads := by
  intro vertex cycle
  obtain ⟨-, -, -, targets, isVertex⟩ := TransGen.tail'_iff.mp cycle
  exact absurd (within vertex targets isVertex _ (Chain.of_cycle cycle (limit vertex + 1))) (Nat.not_succ_le_self _)

theorem IsCycle.path {path : List V} (cycle : IsCycle reads path) : ∃ vertex, TransGen (Reads reads) vertex vertex := by
  obtain ⟨vertex, middle, rfl, chain⟩ := cycle
  have onward : ∀ (middle : List V) (first : V), (first :: (middle ++ [vertex])).IsChain (Reads reads) → TransGen (Reads reads) first vertex := by
    intro middle
    induction middle with
    | nil => exact fun first chain => .single (List.isChain_cons_cons.mp chain).1
    | cons second rest ih => exact fun first chain => .head (List.isChain_cons_cons.mp chain).1 (ih second (List.isChain_cons_cons.mp chain).2)
  exact ⟨vertex, onward middle vertex chain⟩

end Chains

section Search
variable [DecidableEq V] {reads : V → Option (List V)} {limit : V → Nat}

def Known (reads : V → Option (List V)) (limit : V → Nat) (memo : OrderedMap V Nat) : Prop :=
  ∀ vertex depth, memo.get? vertex = some depth → Longest reads vertex depth ∧ depth ≤ limit vertex

def Justified (reads : V → Option (List V)) (limit : V → Nat) : Refusal V → Prop
  | .cycle path => IsCycle reads path
  | .tooDeep vertex depth => (∃ targets, reads vertex = some targets) ∧ Longest reads vertex depth ∧ limit vertex < depth

/-- What a visit may come to. -/
def Right (reads : V → Option (List V)) (limit : V → Nat) (vertex : V) : Except (Refusal V) (Nat × OrderedMap V Nat) → Prop
  | .ok (depth, memo) => Known reads limit memo ∧ Longest reads vertex depth ∧ ((reads vertex).isSome → depth ≤ limit vertex)
  | .error refusal => Justified reads limit refusal

theorem Known.set {memo : OrderedMap V Nat} {vertex : V} {depth : Nat} (known : Known reads limit memo) (longest : Longest reads vertex depth)
    (within : depth ≤ limit vertex) : Known reads limit (memo.set vertex depth) := by
  intro other found isFound
  by_cases same : other = vertex
  · rw [same, OrderedMap.get?_set_self] at isFound
    cases isFound
    rw [same]
    exact ⟨longest, within⟩
  · rw [OrderedMap.get?_set_of_ne _ _ same] at isFound
    exact known other found isFound

theorem deepest_right {visits : V → OrderedMap V Nat → Found V Nat} : ∀ {targets : List V} {best : Nat} {memo : OrderedMap V Nat}
    {outcome : Except (Refusal V) (Nat × OrderedMap V Nat)},
    (∀ target ∈ targets, ∀ memo outcome, Known reads limit memo → visits target memo = some outcome → Right reads limit target outcome) →
    Known reads limit memo → deepest visits targets best memo = some outcome →
    match outcome with
    | .ok (depth, memo) => Known reads limit memo ∧ best ≤ depth ∧ (∀ target ∈ targets, ∀ count, Chain reads target count → count ≤ depth) ∧
        (depth = best ∨ ∃ target ∈ targets, Chain reads target depth) ∧
        ∀ target ∈ targets, (reads target).isSome → ∀ count, Chain reads target count → count ≤ limit target
    | .error refusal => Justified reads limit refusal
  | [], best, memo, outcome, _, known, ends => by
    cases ends
    exact ⟨known, le_refl best, fun target never => absurd never List.not_mem_nil, .inl rfl, fun target never => absurd never List.not_mem_nil⟩
  | target :: rest, best, memo, outcome, each, known, ends => by
    obtain ⟨visited, isVisit, continues⟩ := Option.bind_eq_some_iff.mp ends
    have right := each target List.mem_cons_self memo visited known isVisit
    cases visited with
    | error refusal =>
      cases continues
      exact right
    | ok result =>
      obtain ⟨depth, memo'⟩ := result
      obtain ⟨known', ⟨isChain, isLongest⟩, within⟩ := right
      have later := deepest_right (fun other member => each other (List.mem_cons_of_mem _ member)) known' continues
      cases outcome with
      | error refusal => exact later
      | ok final =>
        obtain ⟨known'', low, all, reached, each_within⟩ := later
        refine ⟨known'', (le_max_left best depth).trans low, fun other member count chain => ?_, ?_, fun other member isVertex count chain => ?_⟩
        · rcases List.mem_cons.mp member with rfl | isRest
          · exact (isLongest count chain).trans ((le_max_right best depth).trans low)
          · exact all other isRest count chain
        · rcases reached with isMax | ⟨other, isRest, chain⟩
          · rcases Nat.le_total depth best with low | low
            · exact .inl (isMax.trans (Nat.max_eq_left low))
            · exact .inr ⟨target, List.mem_cons_self, (isMax.trans (Nat.max_eq_right low)).symm ▸ isChain⟩
          · exact .inr ⟨other, List.mem_cons_of_mem _ isRest, chain⟩
        · rcases List.mem_cons.mp member with rfl | isRest
          · exact (isLongest count chain).trans (within isVertex)
          · exact each_within other isRest isVertex count chain

omit [DecidableEq V] in
theorem Longest.of_reads {vertex : V} {targets : List V} {below : Nat} (isVertex : reads vertex = some targets)
    (all : ∀ target ∈ targets, ∀ count, Chain reads target count → count ≤ below)
    (reached : below = 0 ∨ ∃ target ∈ targets, Chain reads target below) : Longest reads vertex (1 + below) := by
  constructor
  · rcases reached with rfl | ⟨target, isTarget, chain⟩
    · exact .here isVertex
    · rw [Nat.add_comm]
      exact .onward isVertex isTarget chain
  · intro count chain
    cases chain with
    | zero => exact Nat.zero_le _
    | here _ => exact Nat.le_add_right 1 below
    | onward isVertex' isTarget chain =>
      cases Option.some.inj (isVertex.symm.trans isVertex')
      have low := all _ isTarget _ chain
      omega

theorem cycle_of_visiting {visiting : List V} {vertex : V} (member : vertex ∈ visiting) (chain : (visiting ++ [vertex]).IsChain (Reads reads)) :
    IsCycle reads (visiting.drop (visiting.idxOf vertex) ++ [vertex]) := by
  obtain ⟨front, back, rfl, absent⟩ := List.eq_append_cons_of_mem member
  have from_there : (front ++ vertex :: back).drop ((front ++ vertex :: back).idxOf vertex) = vertex :: back := by
    rw [List.idxOf_append_of_notMem absent, List.idxOf_cons_self, Nat.add_zero, List.drop_left]
  rw [from_there]
  rw [List.append_assoc] at chain
  exact ⟨vertex, back, rfl, chain.right_of_append⟩

theorem visit_right : ∀ {fuel : Nat} {visiting : List V} {vertex : V} {memo : OrderedMap V Nat} {outcome : Except (Refusal V) (Nat × OrderedMap V Nat)},
    Known reads limit memo → ((reads vertex).isSome → (visiting ++ [vertex]).IsChain (Reads reads)) →
    visit reads limit fuel visiting vertex memo = some outcome → Right reads limit vertex outcome
  | 0, _, _, _, _, _, _, never => by cases never
  | fuel + 1, visiting, vertex, memo, outcome, known, chain, ends => by
    unfold visit at ends
    split at ends
    next depth isKnown =>
      cases ends
      exact ⟨known, (known vertex depth isKnown).1, fun _ => (known vertex depth isKnown).2⟩
    next isUnknown noVertex =>
      cases ends
      refine ⟨known, ⟨.zero vertex, fun count chain => ?_⟩, fun isVertex => ?_⟩
      · cases chain with
        | zero => exact le_refl 0
        | here isVertex | onward isVertex => exact absurd (noVertex.symm.trans isVertex) (Option.some_ne_none _).symm
      · rw [noVertex] at isVertex
        cases isVertex
    next targets isUnknown isVertex =>
      have isSome : (reads vertex).isSome = true := Option.isSome_iff_exists.mpr ⟨targets, isVertex⟩
      split at ends
      next isOpen =>
        cases ends
        exact cycle_of_visiting isOpen (chain isSome)
      next notOpen =>
        obtain ⟨below, isBelow, isOutcome⟩ := Option.map_eq_some_iff.mp ends
        have reached := deepest_right (fun target isTarget memo outcome known visited => by
          refine visit_right known (fun isVertex' => ?_) visited
          refine List.isChain_append.mpr ⟨chain isSome, List.isChain_singleton _, fun last isLast next isNext => ?_⟩
          obtain rfl : last = vertex := by simpa using isLast.symm
          obtain rfl : next = target := by simpa using isNext.symm
          exact ⟨⟨targets, isVertex, isTarget⟩, Option.isSome_iff_exists.mp isVertex'⟩) known isBelow
        cases below with
        | error refusal =>
          cases isOutcome
          exact reached
        | ok result =>
          obtain ⟨below, memo'⟩ := result
          obtain ⟨known', -, all, deep, -⟩ := reached
          have longest := Longest.of_reads isVertex all deep
          dsimp only at isOutcome
          split at isOutcome
          next beyond =>
            cases isOutcome
            exact ⟨⟨targets, isVertex⟩, longest, beyond⟩
          next within =>
            cases isOutcome
            exact ⟨known'.set longest (Nat.le_of_not_lt within), longest, fun _ => Nat.le_of_not_lt within⟩

theorem deepest_ends {visits : V → OrderedMap V Nat → Found V Nat} : ∀ {targets : List V}, (∀ target ∈ targets, ∀ memo, ∃ outcome, visits target memo = some outcome) →
    ∀ best memo, ∃ outcome, deepest visits targets best memo = some outcome
  | [], _, _, _ => ⟨_, rfl⟩
  | target :: rest, each, best, memo => by
    obtain ⟨visited, isVisit⟩ := each target List.mem_cons_self memo
    unfold deepest
    rw [isVisit]
    cases visited with
    | error refusal => exact ⟨_, rfl⟩
    | ok result => exact deepest_ends (fun other member => each other (List.mem_cons_of_mem _ member)) _ _

theorem visit_ends {vertices : List V} (covers : ∀ vertex, (reads vertex).isSome → vertex ∈ vertices) : ∀ {fuel : Nat} {visiting : List V},
    visiting.Nodup → visiting ⊆ vertices → vertices.length < fuel + visiting.length →
    ∀ vertex memo, ∃ outcome, visit reads limit fuel visiting vertex memo = some outcome
  | 0, visiting, nodup, within, bound, _, _ => by
    have few := (nodup.subperm within).length_le
    omega
  | fuel + 1, visiting, nodup, within, bound, vertex, memo => by
    unfold visit
    split
    next => exact ⟨_, rfl⟩
    next => exact ⟨_, rfl⟩
    next targets _ isVertex =>
      split
      next => exact ⟨_, rfl⟩
      next notOpen =>
        have listed := covers vertex (Option.isSome_iff_exists.mpr ⟨targets, isVertex⟩)
        have nodup' : (visiting ++ [vertex]).Nodup := by
          rw [← List.concat_eq_append]
          exact nodup.concat notOpen
        have within' : visiting ++ [vertex] ⊆ vertices := List.append_subset.mpr ⟨within, List.cons_subset.mpr ⟨listed, List.nil_subset _⟩⟩
        have bound' : vertices.length < fuel + (visiting ++ [vertex]).length := by
          rw [List.length_append, List.length_singleton]
          omega
        obtain ⟨below, isBelow⟩ := deepest_ends (fun target _ memo => visit_ends covers nodup' within' bound' target memo) 0 memo
        rw [isBelow]
        exact ⟨_, rfl⟩

variable (limit) in
theorem deepest_exact {vertices roots : List V} (covers : ∀ vertex, (reads vertex).isSome → vertex ∈ vertices)
    (all : ∀ vertex, (reads vertex).isSome → vertex ∈ roots) : ∃ outcome,
    deepest (visit reads limit (vertices.length + 1) []) roots 0 .empty = some outcome ∧
      match outcome with
      | .ok _ => Within reads limit
      | .error refusal => Justified reads limit refusal := by
  have ends : ∀ vertex memo, ∃ outcome, visit reads limit (vertices.length + 1) [] vertex memo = some outcome :=
    visit_ends covers List.nodup_nil (List.nil_subset _) (by rw [List.length_nil]; omega)
  obtain ⟨outcome, isOutcome⟩ := deepest_ends (fun vertex (_ : vertex ∈ roots) => ends vertex) 0 .empty
  have empty : Known reads limit .empty := fun _ _ never => by cases never
  have right := deepest_right (fun root _ memo outcome known visited => visit_right known (fun _ => List.isChain_singleton root) visited) empty isOutcome
  refine ⟨outcome, isOutcome, ?_⟩
  cases outcome with
  | error refusal => exact right
  | ok result =>
    obtain ⟨-, -, -, -, within⟩ := right
    intro vertex targets isVertex
    have isSome : (reads vertex).isSome = true := Option.isSome_iff_exists.mpr ⟨targets, isVertex⟩
    exact within vertex (all vertex isSome) isSome

end Search

end OpenShapeForge.Library.LongestChains
