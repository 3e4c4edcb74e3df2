import OpenShapeForge.Canonical.SafeSound

/-! A closed-world answer survives every completion of the payload: values that
were missing or null may be filled in, and no decided condition changes. -/

namespace OpenShapeForge.Canonical.SafeMonotone
open Js Comparison Condition Safe SafeVerdict SafeSound Library.ThreeValued

variable {N : Type} [JsNumber N]

/-- `later` holds what `value` held; an object may have gained members. -/
def Keeps (value later : Value N) : Prop := later = value ∨ (value.isObject = true ∧ later.isObject = true)

/-- Every path that reaches a value through own properties of `payload` reaches
it through those of `filled`. -/
def Extends (payload filled : Members N) : Prop :=
  ∀ (path : Text) (value : Value N), ownWalk (.object payload) (segments path) = some value → value.isNullish = false →
    ∃ later, ownWalk (.object filled) (segments path) = some later ∧ Keeps value later

/-- The same from any two values on, over lists of segments. -/
def ExtendsFrom (current filled : Value N) : Prop :=
  ∀ (path : List Text) (value : Value N), (∀ segment ∈ path, unit '.' ∉ segment) → ownWalk current path = some value →
    value.isNullish = false → ∃ later, ownWalk filled path = some later ∧ Keeps value later

theorem ownWalk_cons (current : Value N) (segment : Text) (rest : List Text) :
    ownWalk current (segment :: rest) = (current.own? segment).bind fun next => ownWalk next rest := by
  have fromNone : ∀ path : List Text,
      path.foldl (fun (current : Option (Value N)) segment => current.bind fun value => value.own? segment) none = none := by
    intro path
    induction path with
    | nil => rfl
    | cons _ _ ih => exact ih
  cases found : current.own? segment with
  | none => simpa [ownWalk, found] using fromNone rest
  | some next => simp [ownWalk, found]

theorem Extends.from {payload filled : Members N} (extends_ : Extends payload filled) :
    ExtendsFrom (.object payload) (.object filled) := by
  intro path value dotless reached present
  cases path with
  | nil => exact ⟨.object filled, rfl, .inr ⟨by cases reached; rfl, rfl⟩⟩
  | cons segment rest =>
    have split : segments (join [unit '.'] (segment :: rest)) = segment :: rest :=
      List.splitOn_intercalate _ dotless (by simp)
    rw [← split] at reached ⊢
    exact extends_ _ value reached present

theorem ExtendsFrom.step {current filled next later : Value N} {segment : Text} (dotless : unit '.' ∉ segment)
    (extends_ : ExtendsFrom current filled) (own : current.own? segment = some next)
    (ownLater : filled.own? segment = some later) : ExtendsFrom next later := by
  intro path value dotlessRest reached present
  have whole := extends_ (segment :: path) value (by simpa using ⟨dotless, dotlessRest⟩)
    (by rw [ownWalk_cons, own]; exact reached) present
  rw [ownWalk_cons, ownLater] at whole
  exact whole

variable (realm : Realm N)

theorem walk_cons (current : Value N) (segment : Text) (rest : List Text) :
    walk realm current (segment :: rest) = walk realm (step realm current segment) rest := rfl

theorem step_own {current next : Value N} {segment : Text} (isObject : current.isObject = true)
    (own : current.own? segment = some next) : step realm current segment = next := by
  cases current with
  | object members => simp [step, Value.get, own]
  | _ => cases isObject

theorem ExtendsFrom.root {current filled next : Value N} {segment : Text} (extends_ : ExtendsFrom current filled)
    (own : current.own? segment = some next) : Keeps current filled := by
  have present : current.isNullish = false := by
    cases current <;> first | rfl | cases own
  obtain ⟨later, reached, keeps⟩ := extends_ [] current (by simp) rfl present
  cases reached
  exact keeps

theorem walk_extends (path : List Text) (dotless : ∀ segment ∈ path, unit '.' ∉ segment) :
    ∀ current filled : Value N, ExtendsFrom current filled → (ownWalk current path).isSome →
      (walk realm current path).isNullish = false → (walk realm current path).isObject = false →
      (ownWalk filled path).isSome ∧ walk realm filled path = walk realm current path := by
  induction path with
  | nil =>
    intro current filled extends_ _ present plain
    obtain ⟨later, reached, keeps⟩ := extends_ [] current (by simp) rfl present
    cases reached
    rcases keeps with same | ⟨isObject, -⟩
    · exact ⟨rfl, same⟩
    · rw [show walk realm current [] = current from rfl, isObject] at plain
      cases plain
  | cons segment rest ih =>
    intro current filled extends_ reached present plain
    have here := dotless segment List.mem_cons_self
    rw [ownWalk_cons] at reached
    cases own : current.own? segment with
    | none =>
      rw [own] at reached
      cases reached
    | some next =>
      rcases extends_.root own with same | ⟨isObject, isLater⟩
      · rw [same, ownWalk_cons]
        exact ⟨reached, rfl⟩
      · have read : walk realm current (segment :: rest) = walk realm next rest := by
          rw [walk_cons, step_own realm isObject own]
        rw [read] at present plain ⊢
        rw [own] at reached
        have nonNullish : next.isNullish = false := by
          cases rest with
          | nil => exact present
          | cons deeper more =>
            simp only [Option.bind_some, ownWalk_cons] at reached
            cases next <;> first | rfl | cases reached
        obtain ⟨later, reachedLater, -⟩ := extends_ [segment] next (by simpa using here)
          (by rw [ownWalk_cons, own]; rfl) nonNullish
        rw [ownWalk_cons] at reachedLater
        cases ownLater : filled.own? segment with
        | none =>
          rw [ownLater] at reachedLater
          cases reachedLater
        | some found =>
          obtain ⟨inside, same⟩ := ih (fun s member => dotless s (List.mem_cons_of_mem _ member)) next found
            (extends_.step here own ownLater) reached present plain
          rw [ownWalk_cons, ownLater, walk_cons, step_own realm isLater ownLater]
          exact ⟨inside, same⟩

variable {realm} {elsewhere : Expr N → Members N → Value N} {limits : Limits}

theorem isScalar_object {value : Value N} (isObject : value.isObject = true) : isScalar value = false := by
  cases value with
  | object members => rfl
  | _ => cases isObject

theorem isOrderedValue_object {value : Value N} (isObject : value.isObject = true) : isOrderedValue value = false := by
  cases value with
  | object members => rfl
  | _ => cases isObject

theorem lookupDefect_plain {member list : Value N} {memberPosition listPosition : Text}
    (defectFree : lookupDefect member list memberPosition listPosition = none) :
    member.isObject = false ∧ list.isObject = false := by
  cases list with
  | array items =>
    refine ⟨?_, rfl⟩
    rw [Bool.eq_false_iff]
    intro isObject
    unfold lookupDefect at defectFree
    cases found : listDefect (Value.array items) listPosition with
    | some rejected =>
      rw [found] at defectFree
      cases defectFree
    | none =>
      rw [found] at defectFree
      simp [memberDefect, isScalar_object isObject] at defectFree
  | _ => simp [lookupDefect, listDefect] at defectFree

theorem operandDefect_plain {shape : Option OperandShape} {left right : Value N}
    (defectFree : operandDefect shape left right = none) : left.isObject = false ∧ right.isObject = false := by
  have scalars : ∀ value : Value N, isScalar value = true → value.isObject = false := by
    intro value scalar
    rw [Bool.eq_false_iff]
    intro isObject
    rw [isScalar_object isObject] at scalar
    cases scalar
  cases shape with
  | none => cases defectFree
  | some shape =>
    cases shape with
    | scalar =>
      simp only [operandDefect, scalarPairDefect] at defectFree
      grind
    | ordering =>
      simp only [operandDefect, orderingDefect] at defectFree
      grind [isOrderedValue_object]
    | textual =>
      simp only [operandDefect, textualDefect] at defectFree
      cases left <;> cases right <;> simp_all [isText, Value.isObject]
    | membership => exact lookupDefect_plain defectFree
    | containment =>
      simp only [operandDefect] at defectFree
      cases left with
      | array items => exact (lookupDefect_plain defectFree).symm
      | text value => cases right <;> simp_all [containmentDefect, isText, Value.isObject]
      | _ => simp [containmentDefect] at defectFree

theorem validated_operand {operand : Expr N} {position : Text} {listLiteral : Bool} {nodes counted : Nat}
    (accepted : validateSafeOperand operand position listLiteral limits nodes = .ok counted) :
    ∃ head conditions all any left right, operand = .node head conditions all any left right ∧
      (inferKind head conditions all any = some .path ∨ inferKind head conditions all any = some .literal ∨
        (inferKind head conditions all any = some .function ∧ head.function = .today)) := by
  cases operand with
  | node head conditions all any left right =>
    refine ⟨head, conditions, all, any, left, right, rfl, ?_⟩
    rw [validateSafeOperand] at accepted
    cases budget : countNode N limits nodes with
    | error reason =>
      rw [budget] at accepted
      cases accepted
    | ok first =>
      simp only [budget, bind, Except.bind] at accepted
      split at accepted
      case h_1 isPath => exact .inl isPath
      case h_2 isLiteral => exact .inr (.inl isLiteral)
      case h_3 isFunction =>
        split at accepted
        case isTrue today => exact .inr (.inr ⟨isFunction, today⟩)
        case isFalse => cases accepted
      case h_4 => cases accepted
  | _ => cases accepted

theorem isNullish_of_resolved {value : Value N} (resolved : isResolvedOperandValue value = true) :
    value.isNullish = false := by
  cases value <;> first | rfl | cases resolved

theorem operand_extends {operand : Expr N} {position : Text} {listLiteral : Bool} {nodes counted : Nat}
    {payload filled : Members N} (accepted : validateSafeOperand operand position listLiteral limits nodes = .ok counted)
    (extends_ : Extends payload filled) (present : safeOperandPresent operand payload = true)
    (resolved : isResolvedOperandValue (evaluateExpression realm elsewhere payload operand) = true)
    (plain : (evaluateExpression realm elsewhere payload operand).isObject = false) :
    safeOperandPresent operand filled = true ∧
      evaluateExpression realm elsewhere filled operand = evaluateExpression realm elsewhere payload operand := by
  obtain ⟨head, conditions, all, any, left, right, rfl, kinds⟩ := validated_operand accepted
  rcases kinds with isPath | isLiteral | ⟨isFunction, today⟩
  · simp only [safeOperandPresent, evaluateExpression, isPath, if_pos] at present resolved plain ⊢
    have useful := isNullish_of_resolved resolved
    have walkUseful : (walk realm (.object payload) (segments head.path)).isNullish = false ∧
        (walk realm (.object payload) (segments head.path)).isObject = false := by
      unfold evalPath moveDate at useful plain
      generalize walk realm (.object payload) (segments head.path) = reached at useful plain ⊢
      cases reached <;> cases head.offsetDays <;> simp_all [Value.isNullish, Value.isObject]
    obtain ⟨inside, same⟩ := walk_extends realm (segments head.path) (not_mem_segments head.path) _ _ extends_.from
      present walkUseful.1 walkUseful.2
    refine ⟨inside, ?_⟩
    simp only [evalPath, same]
  · simp [safeOperandPresent, evaluateExpression, isLiteral]
  · simp [safeOperandPresent, evaluateExpression, isFunction, today, evalFunction]

theorem validated_rule {operator : Option OperatorName} {left right : Expr N} {nodes counted : Nat}
    (accepted : validateSafeRule operator left right limits nodes = .ok counted) :
    ∃ between listLiteral, validateSafeOperand left (js "left") false limits nodes = .ok between ∧
      validateSafeOperand right (js "right") listLiteral limits between = .ok counted := by
  rw [validateSafeRule] at accepted
  split at accepted
  · cases accepted
  · rcases first : validateSafeOperand left (js "left") false limits nodes with reason | between
    · rw [first] at accepted
      cases accepted
    · simp only [first, bind, Except.bind] at accepted
      split at accepted
      · cases accepted
      · exact ⟨between, _, rfl, accepted⟩

theorem ruleVerdict_informs {operator : Option OperatorName} {left right : Expr N} {nodes counted : Nat}
    {payload filled : Members N} (accepted : validateSafeRule operator left right limits nodes = .ok counted)
    (extends_ : Extends payload filled) :
    Informs (ruleVerdict realm elsewhere operator left right payload)
      (ruleVerdict realm elsewhere operator left right filled) := by
  intro answer decided
  obtain ⟨between, listLiteral, leftAccepted, rightAccepted⟩ := validated_rule accepted
  rw [ruleVerdict] at decided
  split at decided
  case isFalse => cases decided
  case isTrue compared =>
    simp only [Bool.and_eq_true, Option.isNone_iff_eq_none] at compared
    obtain ⟨⟨⟨⟨leftPresent, rightPresent⟩, leftResolved⟩, rightResolved⟩, defectFree⟩ := compared
    obtain ⟨leftPlain, rightPlain⟩ := operandDefect_plain defectFree
    obtain ⟨leftStays, leftSame⟩ := operand_extends leftAccepted extends_ leftPresent leftResolved leftPlain
    obtain ⟨rightStays, rightSame⟩ := operand_extends rightAccepted extends_ rightPresent rightResolved rightPlain
    rw [ruleVerdict, leftStays, rightStays, leftSame, rightSame, leftResolved, rightResolved, defectFree]
    exact decided

theorem groupVerdict_informs (mode : Mode) {verdicts others : List Verdict}
    (related : List.Forall₂ Informs verdicts others) :
    Informs (groupVerdict mode verdicts) (groupVerdict mode others) := by
  unfold groupVerdict
  split
  · exact anyOf_informs related
  · exact allOf_informs related

/-- The children of a group before and after the payload is filled. -/
abbrev SlotsInform (verdicts others : Option (List Verdict)) : Prop := Option.Rel (List.Forall₂ Informs) verdicts others

theorem SlotsInform.or {first second others rest : Option (List Verdict)} (one : SlotsInform first others)
    (two : SlotsInform second rest) : SlotsInform (first.or second) (others.or rest) := by
  cases one with
  | some related => exact .some related
  | none => exact two

theorem SlotsInform.getD {verdicts others : Option (List Verdict)} (inform : SlotsInform verdicts others) :
    List.Forall₂ Informs (verdicts.getD []) (others.getD []) := by
  cases inform with
  | some related => exact related
  | none => exact .nil

mutual
theorem verdict_informs {payload filled : Members N} (extends_ : Extends payload filled) : ∀ (expr : Expr N) (depth nodes counted : Nat),
    validateSafeBoolean limits depth nodes expr = .ok counted →
      Informs (verdict realm elsewhere payload expr) (verdict realm elsewhere filled expr)
  | .node head conditions all any left right, depth, nodes, counted => by
    intro accepted
    unfold verdict
    rcases validated_node accepted with
      ⟨isGroup, first, second, third, fromConditions, fromAll, fromAny⟩ | ⟨isRule, first, rule⟩
    · rw [isGroup, if_pos rfl, if_pos rfl]
      have chosen := (slotVerdicts_inform extends_ conditions _ _ _ fromConditions).or
        ((slotVerdicts_inform extends_ all _ _ _ fromAll).or (slotVerdicts_inform extends_ any _ _ _ fromAny))
      exact groupVerdict_informs (groupMode head.mode any) chosen.getD
    · rw [isRule, if_neg (by simp), if_neg (by simp)]
      exact ruleVerdict_informs rule extends_
  | .undefined, _, _, _ => by
    intro accepted
    cases accepted
  | .null, _, _, _ => by
    intro accepted
    cases accepted
  | .list, _, _, _ => by
    intro accepted
    cases accepted

theorem slotVerdicts_inform {payload filled : Members N} (extends_ : Extends payload filled) : ∀ (slot : Slot (Expr N)) (depth nodes counted : Nat),
    validateSafeSlot limits depth nodes slot = .ok counted →
      SlotsInform (slotVerdicts realm elsewhere payload slot) (slotVerdicts realm elsewhere filled slot)
  | .list children, depth, nodes, counted => by
    intro accepted
    rw [slotVerdicts, slotVerdicts]
    exact .some (verdicts_inform extends_ children depth nodes counted accepted)
  | .absent, _, _, _ => fun _ => .none
  | .undefined, _, _, _ => fun _ => .none
  | .null, _, _, _ => fun _ => .none

theorem verdicts_inform {payload filled : Members N} (extends_ : Extends payload filled) : ∀ (children : List (Expr N)) (depth nodes counted : Nat),
    validateSafeChildren limits depth nodes children = .ok counted →
      List.Forall₂ Informs (verdicts realm elsewhere payload children) (verdicts realm elsewhere filled children)
  | [], _, _, _ => fun _ => .nil
  | child :: rest, depth, nodes, counted => by
    intro accepted
    obtain ⟨between, first, later⟩ := validated_cons accepted
    rw [verdicts, verdicts]
    exact .cons (verdict_informs extends_ child depth nodes between first)
      (verdicts_inform extends_ rest depth between counted later)
end

theorem outcome_of_verdict {expr : Expr N} {payload : Members N} {options : Options N} {answer : Bool}
    (accepted : ∃ counted, validateSafeBoolean (resolveLimits options) 1 0 expr = .ok counted)
    (decided : verdict realm elsewhere payload expr = some answer) :
    evaluateAuthorizationSafeCondition realm elsewhere expr payload options =
      if answer then .satisfied else .notSatisfied := by
  obtain ⟨counted, valid⟩ := accepted
  rw [← evalSafeBoolean_verdict realm elsewhere payload none expr] at decided
  rw [evaluateAuthorizationSafeCondition, validateAuthorizationSafeCondition, valid]
  simp only [Except.map]
  generalize evalSafeBoolean realm elsewhere payload none expr = result at decided ⊢
  rcases result with ⟨found, reason⟩
  cases found with
  | none => cases decided
  | some reached =>
    have same : reached = answer := Option.some.inj decided
    rw [same]
    cases answer <;> rfl

/-- Filling in missing or null values never changes a decided outcome, whatever
the condition, its options and the values its operands have. -/
theorem safe_outcome_monotone (realm : Realm N) (elsewhere : Expr N → Members N → Value N) (expr : Expr N)
    (options : Options N) (payload filled : Members N) (extends_ : Extends payload filled) :
    (evaluateAuthorizationSafeCondition realm elsewhere expr payload options = .satisfied →
      evaluateAuthorizationSafeCondition realm elsewhere expr filled options = .satisfied) ∧
    (evaluateAuthorizationSafeCondition realm elsewhere expr payload options = .notSatisfied →
      evaluateAuthorizationSafeCondition realm elsewhere expr filled options = .notSatisfied) := by
  constructor
  · intro satisfied
    obtain ⟨accepted, decided⟩ := decided_outcome satisfied (.inl rfl)
    obtain ⟨counted, valid⟩ := accepted
    exact outcome_of_verdict ⟨counted, valid⟩ (verdict_informs extends_ expr 1 0 counted valid _ decided)
  · intro notSatisfied
    obtain ⟨accepted, decided⟩ := decided_outcome notSatisfied (.inr rfl)
    obtain ⟨counted, valid⟩ := accepted
    exact outcome_of_verdict ⟨counted, valid⟩ (verdict_informs extends_ expr 1 0 counted valid _ decided)

theorem ExtendsFrom.refl (value : Value N) : ExtendsFrom value value :=
  fun _ reached _ walked _ => ⟨reached, walked, .inl rfl⟩

theorem ExtendsFrom.of_nullish {value : Value N} (absent : value.isNullish = true) (later : Value N) :
    ExtendsFrom value later := by
  intro path reached _ walked present
  cases path with
  | nil =>
    cases walked
    rw [absent] at present
    cases present
  | cons segment rest =>
    have none_own : value.own? segment = none := by
      cases value <;> first | rfl | cases absent
    rw [ownWalk_cons, none_own] at walked
    cases walked

theorem own?_object_cons (key : Text) (value : Value N) (rest : Members N) (segment : Text) :
    (Value.object ((key, value) :: rest)).own? segment =
      if key = segment then some value else (Value.object rest).own? segment := by
  by_cases same : key = segment <;> simp [Value.own?, same]

theorem own?_extends {members later : Members N}
    (each : List.Forall₂ (fun before after => before.1 = after.1 ∧ ExtendsFrom before.2 after.2) members later)
    {segment : Text} {value : Value N} (own : (Value.object members).own? segment = some value) :
    ∃ found, (Value.object later).own? segment = some found ∧ ExtendsFrom value found := by
  induction each with
  | nil => cases own
  | @cons before after _ _ head _ ih =>
    obtain ⟨key, value'⟩ := before
    obtain ⟨key', found⟩ := after
    obtain ⟨same, inside⟩ := head
    cases same
    rw [own?_object_cons] at own ⊢
    split at own
    · cases own
      rw [if_pos ‹_›]
      exact ⟨found, rfl, inside⟩
    · rw [if_neg ‹_›]
      exact ih own

theorem ExtendsFrom.of_members {members later : Members N}
    (each : List.Forall₂ (fun before after => before.1 = after.1 ∧ ExtendsFrom before.2 after.2) members later) :
    ExtendsFrom (.object members) (.object later) := by
  intro path reached dotless walked present
  cases path with
  | nil =>
    cases walked
    exact ⟨_, rfl, .inr ⟨rfl, rfl⟩⟩
  | cons segment rest =>
    rw [ownWalk_cons] at walked
    cases own : (Value.object members).own? segment with
    | none =>
      rw [own] at walked
      cases walked
    | some value =>
      obtain ⟨found, ownLater, inside⟩ := own?_extends each own
      rw [own] at walked
      rw [ownWalk_cons, ownLater]
      exact inside rest reached (fun s member => dotless s (List.mem_cons_of_mem _ member)) walked present

theorem extends_of_from {payload filled : Members N} (inside : ExtendsFrom (.object payload) (.object filled)) :
    Extends payload filled :=
  fun path value => inside (segments path) value (not_mem_segments path)

/-- The owner was not known; filling it in leaves the answer as it was. -/
def draftPayload : Members Whole :=
  [(js "resource", .object [(js "status", .text (js "done")), (js "owner", .null)])]

def filledPayload : Members Whole :=
  [(js "resource", .object [(js "status", .text (js "done")), (js "owner", .text (js "ann"))])]

theorem draft_extends : Extends draftPayload filledPayload :=
  extends_of_from (.of_members (.cons ⟨rfl, .of_members
    (.cons ⟨rfl, .refl _⟩ (.cons ⟨rfl, .of_nullish rfl _⟩ .nil))⟩ .nil))

theorem safe_outcome_monotone_filled :
    evaluateAuthorizationSafeCondition bareRealm (fun _ _ => .undefined)
      (anyRule (textRule .equals (js "resource.owner") (js "bob")) (textRule .notEquals (js "resource.status") (js "open")))
      filledPayload bareOptions = .satisfied :=
  (safe_outcome_monotone bareRealm _ _ bareOptions draftPayload filledPayload draft_extends).1 (by decide)

end OpenShapeForge.Canonical.SafeMonotone
