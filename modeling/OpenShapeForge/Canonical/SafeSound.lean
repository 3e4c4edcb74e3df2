import OpenShapeForge.Canonical.SafeVerdict
import OpenShapeForge.Js.Whole

/-! On accepted conditions the closed-world evaluator refines the open-world one. -/

namespace OpenShapeForge.Canonical.SafeSound
open Js Comparison Condition Safe SafeVerdict Library.ThreeValued

variable {N : Type} [JsNumber N] {limits : Limits} {depth nodes counted : Nat}

theorem validated_node {head : Head N} {conditions all any : Slot (Expr N)} {left right : Expr N}
    (accepted : validateSafeBoolean limits depth nodes (.node head conditions all any left right) = .ok counted) :
    (inferKind head conditions all any = some .group ∧ ∃ first second third,
      validateSafeSlot limits (depth + 1) first conditions = .ok second ∧
      validateSafeSlot limits (depth + 1) second all = .ok third ∧
      validateSafeSlot limits (depth + 1) third any = .ok counted) ∨
    (inferKind head conditions all any = some .rule ∧ ∃ first,
      validateSafeRule head.operator left right limits first = .ok counted) := by
  rw [validateSafeBoolean] at accepted
  split at accepted
  · cases accepted
  · rcases budget : countNode N limits nodes with reason | first
    · rw [budget] at accepted
      cases accepted
    · simp only [budget, bind, Except.bind] at accepted
      split at accepted
      case h_1 isGroup =>
        left
        rcases shape : validateGroupShape head conditions all any with reason | _
        · rw [shape] at accepted
          cases accepted
        · simp only [shape] at accepted
          rcases fromConditions : validateSafeSlot limits (depth + 1) first conditions with reason | second
          · rw [fromConditions] at accepted
            cases accepted
          · simp only [fromConditions] at accepted
            rcases fromAll : validateSafeSlot limits (depth + 1) second all with reason | third
            · rw [fromAll] at accepted
              cases accepted
            · simp only [fromAll] at accepted
              exact ⟨isGroup, first, second, third, fromConditions, fromAll, accepted⟩
      case h_2 isRule => exact .inr ⟨isRule, first, accepted⟩
      case h_3 => cases accepted

theorem validated_cons {child : Expr N} {rest : List (Expr N)}
    (accepted : validateSafeChildren limits depth nodes (child :: rest) = .ok counted) :
    ∃ between, validateSafeBoolean limits depth nodes child = .ok between ∧
      validateSafeChildren limits depth between rest = .ok counted := by
  rw [validateSafeChildren] at accepted
  rcases first : validateSafeBoolean limits depth nodes child with reason | between
  · rw [first] at accepted
    cases accepted
  · rw [first] at accepted
    exact ⟨between, rfl, accepted⟩

variable (realm : Realm N) (elsewhere : Expr N → Members N → Value N)

theorem ruleVerdict_agrees (operator : Option OperatorName) (left right : Expr N) (payload : Members N) :
    Agrees (ruleVerdict realm elsewhere operator left right payload)
      (applyOperator realm operator (evaluateExpression realm elsewhere payload left)
        (evaluateExpression realm elsewhere payload right)) := by
  intro answer decided
  rw [ruleVerdict] at decided
  split at decided
  · exact Option.some.inj decided
  · cases decided

theorem groupVerdict_agrees (mode : Mode) {verdicts : List Verdict} {answers : List Bool}
    (related : List.Forall₂ Agrees verdicts answers) :
    Agrees (groupVerdict mode verdicts) (evalGroup mode answers) := by
  cases mode with
  | any => exact anyOf_agrees related
  | all => exact allOf_agrees related
  | other name => exact allOf_agrees related

/-- The lists the two evaluators read a group's children from. -/
abbrev SlotsAgree (verdicts : Option (List Verdict)) (answers : Option (List Bool)) : Prop :=
  Option.Rel (List.Forall₂ Agrees) verdicts answers

theorem SlotsAgree.or {first second : Option (List Verdict)} {answers others : Option (List Bool)}
    (one : SlotsAgree first answers) (two : SlotsAgree second others) :
    SlotsAgree (first.or second) (answers.or others) := by
  cases one with
  | some related => exact .some related
  | none => exact two

theorem SlotsAgree.getD {verdicts : Option (List Verdict)} {answers : Option (List Bool)}
    (agree : SlotsAgree verdicts answers) : List.Forall₂ Agrees (verdicts.getD []) (answers.getD []) := by
  cases agree with
  | some related => exact related
  | none => exact .nil

mutual
theorem verdict_agrees (payload : Members N) : ∀ (expr : Expr N) (depth nodes counted : Nat),
    validateSafeBoolean limits depth nodes expr = .ok counted →
      Agrees (verdict realm elsewhere payload expr) (evaluateExpression realm elsewhere payload expr).isTrue
  | .node head conditions all any left right, depth, nodes, counted => by
    intro accepted
    unfold verdict evaluateExpression
    rcases validated_node accepted with ⟨isGroup, first, second, third, fromConditions, fromAll, fromAny⟩ | ⟨isRule, -⟩
    · rw [isGroup, if_pos rfl]
      have chosen := (slotVerdicts_agree payload conditions _ _ _ fromConditions).or
        ((slotVerdicts_agree payload all _ _ _ fromAll).or (slotVerdicts_agree payload any _ _ _ fromAny))
      have agrees := groupVerdict_agrees (groupMode head.mode any) chosen.getD
      intro answer decided
      rw [← agrees answer decided]
      cases evalGroup (groupMode head.mode any) _ <;> rfl
    · rw [isRule, if_neg (by simp)]
      intro answer decided
      rw [← ruleVerdict_agrees realm elsewhere head.operator left right payload answer decided]
      cases applyOperator realm head.operator _ _ <;> rfl
  | .undefined, _, _, _ => by
    intro accepted
    cases accepted
  | .null, _, _, _ => by
    intro accepted
    cases accepted
  | .list, _, _, _ => by
    intro accepted
    cases accepted

theorem slotVerdicts_agree (payload : Members N) : ∀ (slot : Slot (Expr N)) (depth nodes counted : Nat),
    validateSafeSlot limits depth nodes slot = .ok counted →
      SlotsAgree (slotVerdicts realm elsewhere payload slot) (slotResults realm elsewhere payload slot)
  | .list children, depth, nodes, counted => by
    intro accepted
    rw [slotVerdicts, slotResults]
    exact .some (verdicts_agree payload children depth nodes counted accepted)
  | .absent, _, _, _ => fun _ => .none
  | .undefined, _, _, _ => fun _ => .none
  | .null, _, _, _ => fun _ => .none

theorem verdicts_agree (payload : Members N) : ∀ (children : List (Expr N)) (depth nodes counted : Nat),
    validateSafeChildren limits depth nodes children = .ok counted →
      List.Forall₂ Agrees (verdicts realm elsewhere payload children) (results realm elsewhere payload children)
  | [], _, _, _ => fun _ => .nil
  | child :: rest, depth, nodes, counted => by
    intro accepted
    obtain ⟨between, first, later⟩ := validated_cons accepted
    rw [verdicts, results]
    exact .cons (verdict_agrees payload child depth nodes between first)
      (verdicts_agree payload rest depth between counted later)
end

variable {realm elsewhere}

theorem decided_outcome {expr : Expr N} {payload : Members N} {options : Options N} {outcome : Evaluation}
    (evaluated : evaluateAuthorizationSafeCondition realm elsewhere expr payload options = outcome)
    (decided : outcome = .satisfied ∨ outcome = .notSatisfied) :
    (∃ counted, validateSafeBoolean (resolveLimits options) 1 0 expr = .ok counted) ∧
      verdict realm elsewhere payload expr = some (decide (outcome = .satisfied)) := by
  rw [evaluateAuthorizationSafeCondition, validateAuthorizationSafeCondition] at evaluated
  rcases accepted : validateSafeBoolean (resolveLimits options) 1 0 expr with reason | counted
  · rw [accepted] at evaluated
    rcases decided with same | same <;> rw [same] at evaluated <;> cases evaluated
  · rw [accepted] at evaluated
    refine ⟨⟨counted, rfl⟩, ?_⟩
    rw [← evalSafeBoolean_verdict realm elsewhere payload none expr]
    rcases result : evalSafeBoolean realm elsewhere payload none expr with ⟨answer, reason⟩
    simp only [Except.map, result] at evaluated
    rcases answer with _ | answer
    · rcases decided with same | same <;> rw [same] at evaluated <;> cases evaluated
    · cases answer <;> simp [← evaluated]

/-- For every condition, options and payload at one clock: what the closed-world
evaluation answers is what the open-world evaluation gives. -/
theorem safe_condition_refines (realm : Realm N) (elsewhere : Expr N → Members N → Value N) (expr : Expr N)
    (payload : Members N) (options : Options N) :
    (evaluateAuthorizationSafeCondition realm elsewhere expr payload options = .satisfied →
      evaluateCanonicalCondition realm elsewhere expr payload = true) ∧
    (evaluateAuthorizationSafeCondition realm elsewhere expr payload options = .notSatisfied →
      evaluateCanonicalCondition realm elsewhere expr payload = false) := by
  have agrees : ∀ outcome, (outcome = .satisfied ∨ outcome = .notSatisfied) →
      evaluateAuthorizationSafeCondition realm elsewhere expr payload options = outcome →
      evaluateCanonicalCondition realm elsewhere expr payload = decide (outcome = .satisfied) := by
    intro outcome decided evaluated
    obtain ⟨⟨counted, accepted⟩, answer⟩ := decided_outcome evaluated decided
    exact verdict_agrees realm elsewhere payload expr 1 0 counted accepted _ answer
  constructor
  · exact agrees .satisfied (.inl rfl)
  · exact agrees .notSatisfied (.inr rfl)

/-- A rule comparing `path` with a text. -/
def textRule (operator : ConditionOperator) (path expected : Text) : Expr Whole :=
  let blank : Head Whole := ⟨none, none, none, [], false, none, .undefined, .today⟩
  .node { blank with operator := some (.known operator) } .absent .absent .absent
    (.node { blank with kind := some .path, path } .absent .absent .absent .undefined .undefined)
    (.node { blank with kind := some .literal, value := .text expected } .absent .absent .absent .undefined .undefined)

/-- One of the two rules holds. -/
def anyRule (first second : Expr Whole) : Expr Whole :=
  .node ⟨none, none, none, [], false, none, .undefined, .today⟩ .absent .absent (.list [first, second])
    .undefined .undefined

def bareRealm : Realm Whole := ⟨.finite 0, fun _ _ => .undefined, fun _ _ => false⟩

def bareOptions : Options Whole := ⟨none, none, none, none⟩

theorem safe_condition_refines_open :
    evaluateCanonicalCondition bareRealm (fun _ _ => .undefined) (textRule .notEquals (js "resource.status") (js "open"))
      [(js "resource", .object [(js "status", .text (js "done"))])] = true :=
  (safe_condition_refines bareRealm _ _ _ bareOptions).1 (by decide)

end OpenShapeForge.Canonical.SafeSound
