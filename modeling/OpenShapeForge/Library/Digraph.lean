import Mathlib.Logic.Relation
import Mathlib.Data.List.Nodup

/-! Reachability, strongly connected components and cycles of a directed graph
given by a successor list. Nothing here assumes that the graph is finite. -/

namespace OpenShapeForge.Digraph

variable {κ : Type*}

/-- `y` is one of the successors of `x`. -/
def Edge (succ : κ → List κ) (x y : κ) : Prop := y ∈ succ x

abbrev Reaches (succ : κ → List κ) : κ → κ → Prop := Relation.ReflTransGen (Edge succ)

/-- Two nodes of one strongly connected component. -/
def Mutual (succ : κ → List κ) (x y : κ) : Prop := Reaches succ x y ∧ Reaches succ y x

/-- A node some non-empty walk leads back to. -/
def OnCycle (succ : κ → List κ) (x : κ) : Prop := Relation.TransGen (Edge succ) x x

def Closed (succ : κ → List κ) (nodes : Set κ) : Prop := ∀ x ∈ nodes, ∀ y ∈ succ x, y ∈ nodes

section
variable {succ : κ → List κ}

theorem Closed.reaches {nodes : Set κ} (closed : Closed succ nodes) {x y : κ} (inside : x ∈ nodes)
    (walk : Reaches succ x y) : y ∈ nodes := by
  induction walk with
  | refl => exact inside
  | tail _ edge ih => exact closed _ ih _ edge

theorem onCycle_iff (x : κ) : OnCycle succ x ↔ x ∈ succ x ∨ ∃ y, y ≠ x ∧ Mutual succ x y := by
  constructor
  · intro cycle
    obtain ⟨y, first, rest⟩ := Relation.TransGen.head'_iff.mp cycle
    by_cases same : y = x
    · exact .inl (same ▸ first)
    · exact .inr ⟨y, same, .single first, rest⟩
  · rintro (loop | ⟨y, different, there, back⟩)
    · exact .single loop
    · rcases Relation.ReflTransGen.cases_head there with same | ⟨z, first, rest⟩
      · exact absurd same.symm different
      · exact Relation.TransGen.head' first (rest.trans back)

end

end OpenShapeForge.Digraph
