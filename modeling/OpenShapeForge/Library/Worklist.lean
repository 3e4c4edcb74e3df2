import OpenShapeForge.Library.Digraph
import Mathlib.Algebra.Order.BigOperators.Group.List
import Mathlib.Algebra.Order.Ring.Nat

/-! A closure over a growing list that marks what it has seen by a key: it ends, and it
expands all that is reachable exactly where the key tells the reachable nodes apart. -/

namespace OpenShapeForge.Library.Worklist
open Digraph

inductive Stopped where
  | outOfSteps
  | refused
deriving DecidableEq

variable {ν κ : Type*} [DecidableEq κ] (key : ν → κ) (members : ν → Option (List ν))

/-- The nodes expanded so far and those still to look at. A node without a list of
members stops the closure. -/
def expand : Nat → List ν → List ν → Except Stopped (List ν)
  | _, visited, [] => .ok visited
  | 0, _, _ :: _ => .error .outOfSteps
  | steps + 1, visited, node :: pending =>
    if key node ∈ visited.map key then expand steps visited pending
    else match members node with
      | none => .error .refused
      | some next => expand steps (visited ++ [node]) (pending ++ next)

def direct (node : ν) : List ν := (members node).getD []

def Reached (roots : List ν) (node : ν) : Prop := ∃ root ∈ roots, Reaches (direct members) root node

/-- The members still to come of the nodes that are not expanded yet. -/
def debt (nodes visited : List ν) : Nat :=
  ((nodes.filter fun node => key node ∉ visited.map key).map fun node => (direct members node).length).sum

variable {key members} {steps : Nat} {visited pending roots nodes final : List ν}

/-- What a closure that ends has done. -/
structure Expanded (key : ν → κ) (members : ν → Option (List ν)) (visited pending final : List ν) : Prop where
  grown : ∀ node ∈ visited, node ∈ final
  seen : ∀ node ∈ pending, key node ∈ final.map key
  reached : ∀ node ∈ final, node ∈ visited ∨ Reached members pending node
  once : (visited.map key).Nodup → (final.map key).Nodup
  closed : ∀ node ∈ final, node ∈ visited ∨ ∃ next, members node = some next ∧ ∀ other ∈ next, key other ∈ final.map key

omit [DecidableEq κ] in
theorem Reached.later {node first : ν} (reached : Reached members pending node) : Reached members (first :: pending) node := by
  obtain ⟨root, member, walk⟩ := reached
  exact ⟨root, List.mem_cons_of_mem _ member, walk⟩

omit [DecidableEq κ] in
theorem Reached.through {node first : ν} {next : List ν} (listed : members first = some next)
    (reached : Reached members (pending ++ next) node) : Reached members (first :: pending) node := by
  obtain ⟨root, member, walk⟩ := reached
  rcases List.mem_append.mp member with waiting | fresh
  · exact ⟨root, List.mem_cons_of_mem _ waiting, walk⟩
  · have edge : Edge (direct members) first root := by
      unfold Edge direct
      rwa [listed]
    exact ⟨first, List.mem_cons_self, .head edge walk⟩

theorem expand_ok (ended : expand key members steps visited pending = .ok final) : Expanded key members visited pending final := by
  induction steps generalizing visited pending with
  | zero =>
    cases pending with
    | nil =>
      cases ended
      exact ⟨fun _ member => member, fun _ none => absurd none List.not_mem_nil, fun _ => .inl, id, fun _ => .inl⟩
    | cons => cases ended
  | succ steps ih =>
    cases pending with
    | nil =>
      cases ended
      exact ⟨fun _ member => member, fun _ none => absurd none List.not_mem_nil, fun _ => .inl, id, fun _ => .inl⟩
    | cons node pending =>
      unfold expand at ended
      split at ended
      next known =>
        have rest := ih ended
        refine ⟨rest.grown, fun other waits => ?_, fun other member => ?_, rest.once, rest.closed⟩
        · rcases List.mem_cons.mp waits with rfl | later
          · obtain ⟨twin, isTwin, same⟩ := List.mem_map.mp known
            exact List.mem_map.mpr ⟨twin, rest.grown twin isTwin, same⟩
          · exact rest.seen other later
        · exact (rest.reached other member).imp_right .later
      next fresh =>
        cases listed : members node with
        | none =>
          rw [listed] at ended
          cases ended
        | some next =>
          rw [listed] at ended
          have rest := ih ended
          have expanded : node ∈ final := rest.grown node (by simp)
          refine ⟨fun other member => rest.grown other (by simp [member]), fun other waits => ?_, fun other member => ?_,
            fun nodup => rest.once ?_, fun other member => ?_⟩
          · rcases List.mem_cons.mp waits with rfl | later
            · exact List.mem_map_of_mem expanded
            · exact rest.seen other (List.mem_append_left _ later)
          · rcases rest.reached other member with before | reached
            · rcases List.mem_append.mp before with old | new
              · exact .inl old
              · rw [List.mem_singleton.mp new]
                exact .inr ⟨node, List.mem_cons_self, .refl⟩
            · exact .inr (reached.through listed)
          · rw [List.map_append, List.map_singleton]
            exact List.Nodup.append nodup (List.nodup_singleton _) (by simpa using fresh)
          · rcases rest.closed other member with before | closed
            · rcases List.mem_append.mp before with old | new
              · exact .inl old
              · rw [List.mem_singleton.mp new]
                exact .inr ⟨next, listed, fun child isChild => rest.seen child (List.mem_append_right _ isChild)⟩
            · exact .inr closed

theorem expand_refused (stopped : expand key members steps visited pending = .error .refused) :
    ∃ node, Reached members pending node ∧ members node = none := by
  induction steps generalizing visited pending with
  | zero => cases pending <;> cases stopped
  | succ steps ih =>
    cases pending with
    | nil => cases stopped
    | cons node pending =>
      unfold expand at stopped
      split at stopped
      next =>
        obtain ⟨other, reached, unlisted⟩ := ih stopped
        exact ⟨other, reached.later, unlisted⟩
      next =>
        cases listed : members node with
        | none => exact ⟨node, ⟨node, List.mem_cons_self, .refl⟩, listed⟩
        | some next =>
          rw [listed] at stopped
          obtain ⟨other, reached, unlisted⟩ := ih stopped
          exact ⟨other, reached.through listed, unlisted⟩

omit [DecidableEq κ] in
theorem sum_filter_le (nodes : List ν) (weight : ν → Nat) {before after : ν → Bool} {node : ν} (fewer : ∀ other, after other → before other)
    (counted : before node = true) (gone : after node = false) (listed : node ∈ nodes) :
    ((nodes.filter after).map weight).sum + weight node ≤ ((nodes.filter before).map weight).sum := by
  have smaller : ∀ others : List ν, ((others.filter after).map weight).sum ≤ ((others.filter before).map weight).sum := by
    intro others
    exact List.Sublist.sum_le_sum ((List.monotone_filter_right others fewer).map weight) fun _ _ => Nat.zero_le _
  induction nodes with
  | nil => cases listed
  | cons first rest ih =>
    by_cases same : first = node
    · subst same
      simp only [List.filter_cons, gone, counted, Bool.false_eq_true, ↓reduceIte, List.map_cons, List.sum_cons]
      have := smaller rest
      omega
    · have later := ih ((List.mem_cons.mp listed).resolve_left fun isFirst => same isFirst.symm)
      by_cases kept : after first = true
      · simp only [List.filter_cons, kept, fewer first kept, ↓reduceIte, List.map_cons, List.sum_cons]
        omega
      · have skips : ((rest.filter before).map weight).sum ≤ (((first :: rest).filter before).map weight).sum :=
          List.Sublist.sum_le_sum (((List.sublist_cons_self first rest).filter before).map weight) fun _ _ => Nat.zero_le _
        rw [List.filter_cons_of_neg kept]
        omega

theorem debt_expanded {node : ν} (listed : node ∈ nodes) (fresh : key node ∉ visited.map key) :
    debt key members nodes (visited ++ [node]) + (direct members node).length ≤ debt key members nodes visited := by
  refine sum_filter_le nodes (fun node => (direct members node).length) (fun other isAfter => ?_) (by simpa using fresh) (by simp) listed
  simp only [List.map_append, List.map_singleton, List.mem_append, List.mem_singleton, not_or, decide_eq_true_eq] at isAfter
  exact decide_eq_true isAfter.1

theorem expand_ends (closed : Closed (direct members) {node | node ∈ nodes}) (listed : ∀ node ∈ pending, node ∈ nodes)
    (enough : pending.length + debt key members nodes visited ≤ steps) :
    expand key members steps visited pending ≠ .error .outOfSteps := by
  induction steps generalizing visited pending with
  | zero =>
    cases pending with
    | nil => exact nofun
    | cons => exact absurd enough (by simp)
  | succ steps ih =>
    cases pending with
    | nil => exact nofun
    | cons node pending =>
      rw [List.length_cons] at enough
      have inside := listed node List.mem_cons_self
      have others : ∀ other ∈ pending, other ∈ nodes := fun other member => listed other (List.mem_cons_of_mem _ member)
      unfold expand
      split
      next => exact ih others (by omega)
      next fresh =>
        cases isListed : members node with
        | none => exact nofun
        | some next =>
          have isDirect : direct members node = next := by rw [direct, isListed, Option.getD_some]
          have paid : _ + (direct members node).length ≤ _ := debt_expanded inside fresh
          rw [isDirect] at paid
          refine ih (fun other member => ?_) (by rw [List.length_append]; omega)
          rcases List.mem_append.mp member with waiting | child
          · exact others other waiting
          · exact closed node inside other (isDirect ▸ child)

theorem expand_exact (closed : Closed (direct members) {node | node ∈ nodes}) (listed : ∀ node ∈ roots, node ∈ nodes)
    (enough : roots.length + debt key members nodes [] ≤ steps) :
    (∃ final, expand key members steps [] roots = .ok final ∧ ∀ node, node ∈ final ↔ Reached members roots node) ↔
      (∀ one two, Reached members roots one → Reached members roots two → key one = key two → one = two) ∧
        ∀ node, Reached members roots node → (members node).isSome = true := by
  constructor
  · rintro ⟨final, ended, all⟩
    have done := expand_ok ended
    refine ⟨fun one two isOne isTwo same => ?_, fun node reached => ?_⟩
    · exact List.inj_on_of_nodup_map (done.once List.nodup_nil) ((all one).mpr isOne) ((all two).mpr isTwo) same
    · obtain ⟨next, isListed, -⟩ := (done.closed node ((all node).mpr reached)).resolve_left List.not_mem_nil
      rw [isListed, Option.isSome_some]
  · rintro ⟨apart, answered⟩
    cases ended : expand key members steps [] roots with
    | error stopped =>
      cases stopped with
      | outOfSteps => exact absurd ended (expand_ends closed listed enough)
      | refused =>
        obtain ⟨node, reached, unlisted⟩ := expand_refused ended
        have isSome := answered node reached
        rw [unlisted] at isSome
        cases isSome
    | ok final =>
      have done := expand_ok ended
      have sound : ∀ node ∈ final, Reached members roots node :=
        fun node member => (done.reached node member).resolve_left List.not_mem_nil
      have named : ∀ node, Reached members roots node → key node ∈ final.map key → node ∈ final := by
        intro node reached isKey
        obtain ⟨twin, member, same⟩ := List.mem_map.mp isKey
        exact apart twin node (sound twin member) reached same ▸ member
      refine ⟨final, rfl, fun node => ⟨sound node, ?_⟩⟩
      rintro ⟨root, isRoot, walk⟩
      induction walk with
      | refl => exact named root ⟨root, isRoot, .refl⟩ (done.seen root isRoot)
      | tail first edge ih =>
        obtain ⟨next, isListed, all⟩ := (done.closed _ ih).resolve_left List.not_mem_nil
        refine named _ ⟨root, isRoot, first.tail edge⟩ (all _ ?_)
        rwa [Edge, direct, isListed] at edge

end OpenShapeForge.Library.Worklist
