import OpenShapeForge.Formula.PlainTree

/-! How a function's listing bounds the arguments of its calls: those that the checker lets
through are as many as the function's lowering is written for. -/

namespace OpenShapeForge.Formula.CheckCalls
open Js Types Tokens SyntaxTree Functions Check PlainTree Canonical.Comparison

section Reports
variable {α β : Type}

theorem errors_bind {first : Report α} (failed : first.errors ≠ []) (next : α → Report β) :
    (first >>= next).errors ≠ [] := by
  intro silent
  exact failed (List.append_eq_nil_iff.mp silent).1

end Reports

theorem switchParts_mem {α : Type} : ∀ args : List α,
    (∀ pair ∈ (switchParts args).1, pair.1 ∈ args ∧ pair.2 ∈ args) ∧ ∀ fallback ∈ (switchParts args).2, fallback ∈ args
  | [] => ⟨fun _ member => absurd member List.not_mem_nil, fun _ none => by cases none⟩
  | [single] => ⟨fun _ member => absurd member List.not_mem_nil, fun _ same => by cases same; exact List.mem_cons_self⟩
  | pattern :: result :: rest => by
    rcases switchParts_mem rest with ⟨pairs, fallback⟩
    refine ⟨fun pair member => ?_, fun other member => List.mem_cons_of_mem _ (List.mem_cons_of_mem _ (fallback other member))⟩
    rcases List.mem_cons.mp member with isFirst | later
    · rw [isFirst]
      exact ⟨List.mem_cons_self, List.mem_cons_of_mem _ List.mem_cons_self⟩
    · exact ⟨List.mem_cons_of_mem _ (List.mem_cons_of_mem _ (pairs pair later).1),
        List.mem_cons_of_mem _ (List.mem_cons_of_mem _ (pairs pair later).2)⟩

section Lowering
variable {N : Type} [JsNumber N] [Unicode]

omit [Unicode] in
theorem report_failed (code : FormulaDiagnosticCode) (message : Text) (span : Span) (params : List (Text × Param)) :
    (report code message span params).errors ≠ [] := List.cons_ne_nil _ _

/-- The numbers of arguments each way of lowering is used with. -/
def Arity : Lowering → Nat → Prop
  | .conditional, count | .dateDiff, count => 2 ≤ count ∧ count ≤ 3
  | .switch, count => 3 ≤ count
  | .dateAdd, count => count = 3
  | .datetimeFormat, count => 1 ≤ count ∧ count ≤ 2
  | .datePart _, count => count = 1
  | _, _ => True

end Lowering

section Table

def boundsFit (function : FormulaFunction) : Bool :=
  match function.lowering with
  | .conditional | .dateDiff => decide (2 ≤ function.minArgs) && function.maxArgs.any fun most => decide (most ≤ 3)
  | .switch => decide (3 ≤ function.minArgs)
  | .dateAdd => decide (3 ≤ function.minArgs) && function.maxArgs.any fun most => decide (most ≤ 3)
  | .datetimeFormat => decide (1 ≤ function.minArgs) && function.maxArgs.any fun most => decide (most ≤ 2)
  | .datePart _ => decide (1 ≤ function.minArgs) && function.maxArgs.any fun most => decide (most ≤ 1)
  | _ => true

theorem all_boundsFit : ∀ function ∈ formulaFunctions, boundsFit function = true := by decide

theorem counted {function : FormulaFunction} {least most count : Nat}
    (fit : (decide (least ≤ function.minArgs) && function.maxArgs.any fun bound => decide (bound ≤ most)) = true)
    (takes : takesCount function count = true) : least ≤ count ∧ count ≤ most := by
  rcases Bool.and_eq_true_iff.mp takes with ⟨low, high⟩
  rcases Bool.and_eq_true_iff.mp fit with ⟨lowFit, highFit⟩
  refine ⟨Nat.le_trans (of_decide_eq_true lowFit) (of_decide_eq_true low), ?_⟩
  cases bound : function.maxArgs with
  | none =>
    rw [bound] at highFit
    cases highFit
  | some bound =>
    simp_all [exceeds]
    omega

theorem arity_of_takesCount {function : FormulaFunction} (listed : function ∈ formulaFunctions) {count : Nat}
    (takes : takesCount function count = true) : Arity function.lowering count := by
  have fit := all_boundsFit function listed
  unfold boundsFit at fit
  cases lowering : function.lowering <;> rw [lowering] at fit
  case conditional => exact counted fit takes
  case dateDiff => exact counted fit takes
  case switch => exact Nat.le_trans (of_decide_eq_true fit) (of_decide_eq_true (Bool.and_eq_true_iff.mp takes).1)
  case dateAdd =>
    rcases counted fit takes with ⟨low, high⟩
    exact Nat.le_antisymm high low
  case datetimeFormat => exact counted fit takes
  case datePart =>
    rcases counted fit takes with ⟨low, high⟩
    exact Nat.le_antisymm high low
  all_goals trivial

end Table

end OpenShapeForge.Formula.CheckCalls
