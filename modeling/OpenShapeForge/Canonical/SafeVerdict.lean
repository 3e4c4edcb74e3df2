import OpenShapeForge.Canonical.Safe
import OpenShapeForge.Library.ThreeValued

/-! What the closed-world evaluation decides, without the reasons it keeps on
the way: three-valued logic over the verdicts of the rules. -/

namespace OpenShapeForge.Canonical.SafeVerdict
open Js Comparison Condition Safe Library.ThreeValued

variable {N : Type} [JsNumber N] (realm : Realm N) (elsewhere : Expr N → Members N → Value N)

def groupVerdict (mode : Mode) (verdicts : List Verdict) : Verdict :=
  if mode = .any then anyOf verdicts else allOf verdicts

def ruleVerdict (operator : Option OperatorName) (left right : Expr N) (payload : Members N) : Verdict :=
  let leftValue := evaluateExpression realm elsewhere payload left
  let rightValue := evaluateExpression realm elsewhere payload right
  if safeOperandPresent left payload && safeOperandPresent right payload && isResolvedOperandValue leftValue &&
      isResolvedOperandValue rightValue && (operandDefect (operator.bind operandShape) leftValue rightValue).isNone then
    some (applyOperator realm operator leftValue rightValue)
  else none

mutual
def verdict (payload : Members N) : Expr N → Verdict
  | .node head conditions all any left right =>
    if inferKind head conditions all any = some .group then
      groupVerdict (groupMode head.mode any)
        (((slotVerdicts payload conditions).or ((slotVerdicts payload all).or (slotVerdicts payload any))).getD [])
    else ruleVerdict realm elsewhere head.operator left right payload
  | _ => ruleVerdict realm elsewhere none .undefined .undefined payload

def slotVerdicts (payload : Members N) : Slot (Expr N) → Option (List Verdict)
  | .list children => some (verdicts payload children)
  | _ => none

def verdicts (payload : Members N) : List (Expr N) → List Verdict
  | [] => []
  | child :: rest => verdict payload child :: verdicts payload rest
end

theorem evalSafeRule_verdict (operator : Option OperatorName) (left right : Expr N) (payload : Members N)
    (state : Unknown) : (evalSafeRule realm elsewhere operator left right payload state).1 =
      ruleVerdict realm elsewhere operator left right payload := by
  simp only [evalSafeRule, ruleVerdict, markUnknown]
  cases safeOperandPresent left payload <;> cases safeOperandPresent right payload <;>
    cases isResolvedOperandValue (evaluateExpression realm elsewhere payload left) <;>
    cases isResolvedOperandValue (evaluateExpression realm elsewhere payload right) <;>
    cases operandDefect (operator.bind operandShape) (evaluateExpression realm elsewhere payload left)
      (evaluateExpression realm elsewhere payload right) <;> simp

theorem groupVerdict_settled (mode : Mode) (before after : List Verdict) :
    groupVerdict mode (before ++ some (decide (mode = .any)) :: after) = some (decide (mode = .any)) := by
  unfold groupVerdict
  by_cases isAny : mode = .any
  · simp only [isAny, if_true, decide_true, anyOf_true]
    simp
  · simp only [isAny, if_false, decide_false, allOf_false]
    simp

theorem groupVerdict_skip (mode : Mode) (before after : List Verdict) :
    groupVerdict mode (before ++ some (!decide (mode = .any)) :: after) = groupVerdict mode (before ++ after) := by
  unfold groupVerdict
  by_cases isAny : mode = .any <;> simp [isAny, anyOf, allOf]

theorem groupVerdict_unknown (mode : Mode) (after : List Verdict) :
    groupVerdict mode (none :: none :: after) = groupVerdict mode (none :: after) := by
  simp [groupVerdict, anyOf, allOf]

/-- The undecided children seen before, as far as a group can tell. -/
def seenUnknown (unknown : Bool) : List Verdict := if unknown then [none] else []

theorem groupVerdict_seenUnknown (mode : Mode) (unknown : Bool) :
    groupVerdict mode (seenUnknown unknown) = if unknown then none else some (decide (mode ≠ .any)) := by
  unfold groupVerdict seenUnknown
  by_cases isAny : mode = .any <;> cases unknown <;> simp [isAny, anyOf, allOf]

theorem seenUnknown_none (mode : Mode) (unknown : Bool) (after : List Verdict) :
    groupVerdict mode (seenUnknown unknown ++ none :: after) = groupVerdict mode (seenUnknown true ++ after) := by
  cases unknown with
  | false => rfl
  | true => exact groupVerdict_unknown mode after

theorem orElse_verdict {mode : Mode} {chosen other : Option (Option Bool × Unknown)}
    {verdicts others : Option (List Verdict)} (first : chosen.map Prod.fst = verdicts.map (groupVerdict mode))
    (second : other.map Prod.fst = others.map (groupVerdict mode)) :
    (chosen.or other).map Prod.fst = (verdicts.or others).map (groupVerdict mode) := by
  cases chosen <;> cases verdicts <;> simp_all

theorem getD_verdict {mode : Mode} {chosen : Option (Option Bool × Unknown)} {verdicts : Option (List Verdict)}
    (state : Unknown) (same : chosen.map Prod.fst = verdicts.map (groupVerdict mode)) :
    (chosen.getD (some (mode ≠ .any), state)).1 = groupVerdict mode (verdicts.getD []) := by
  cases chosen <;> cases verdicts <;> simp_all
  exact (groupVerdict_seenUnknown mode false).symm ▸ by simp

mutual
theorem evalSafeBoolean_verdict (payload : Members N) (state : Unknown) :
    ∀ expr, (evalSafeBoolean realm elsewhere payload state expr).1 = verdict realm elsewhere payload expr
  | .node head conditions all any left right => by
    unfold evalSafeBoolean verdict
    split
    · apply getD_verdict
      exact orElse_verdict (slot_verdict payload _ state conditions)
        (orElse_verdict (slot_verdict payload _ state all) (slot_verdict payload _ state any))
    · exact evalSafeRule_verdict ..
  | .undefined => evalSafeRule_verdict ..
  | .null => evalSafeRule_verdict ..
  | .list => evalSafeRule_verdict ..

theorem slot_verdict (payload : Members N) (mode : Mode) (state : Unknown) :
    ∀ slot, (evalSafeSlot realm elsewhere payload mode state slot).map Prod.fst =
      (slotVerdicts realm elsewhere payload slot).map (groupVerdict mode)
  | .list children => by
    simp only [evalSafeSlot, slotVerdicts, Option.map_some]
    rw [children_verdict payload mode false state children]
    rfl
  | .absent => rfl
  | .undefined => rfl
  | .null => rfl

theorem children_verdict (payload : Members N) (mode : Mode) (unknown : Bool) (state : Unknown) :
    ∀ children, (evalSafeChildren realm elsewhere payload mode unknown state children).1 =
      groupVerdict mode (seenUnknown unknown ++ verdicts realm elsewhere payload children)
  | [] => by
    rw [evalSafeChildren, verdicts, List.append_nil, groupVerdict_seenUnknown]
  | child :: rest => by
    have first := evalSafeBoolean_verdict payload state child
    rw [verdicts, evalSafeChildren, ← first]
    rcases evalSafeBoolean realm elsewhere payload state child with ⟨answer, later⟩
    cases answer with
    | none =>
      rw [seenUnknown_none]
      exact children_verdict payload mode true later rest
    | some answer =>
      by_cases settles : answer = decide (mode = .any)
      · rw [settles, groupVerdict_settled]
        by_cases isAny : mode = .any <;> simp [isAny]
      · have leaves : answer = !decide (mode = .any) := by
          cases answer <;> cases isAny : decide (mode = .any) <;> simp_all
        rw [leaves, groupVerdict_skip, ← children_verdict payload mode unknown later rest]
        by_cases isAny : mode = .any <;> simp [isAny]
end

end OpenShapeForge.Canonical.SafeVerdict
