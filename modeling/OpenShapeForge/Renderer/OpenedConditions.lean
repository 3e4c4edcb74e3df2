import OpenShapeForge.Js.Whole
import OpenShapeForge.Renderer.ConditionBuilder

/-! A condition that is opened in the builder keeps its meaning unless one of its groups names a mode
next to a list of alternatives. -/

namespace OpenShapeForge.Renderer.OpenedConditions
open Js
open Canonical.Comparison Canonical.Condition
open ConditionBuilder

variable {N : Type}

def isOperand : Expr N → Bool
  | .node head _ _ _ _ _ =>
    match head.kind with
    | some .path | some .function => true
    | some .literal => (extractLiteralVariablePath head.value).isNone
    | _ => false
  | _ => false

theorem normalizeConditionOperand_operand {operand : Expr N} (fallback : Expr N) (shown : isOperand operand = true) :
    normalizeConditionOperand operand fallback = operand := by
  unfold isOperand at shown
  unfold normalizeConditionOperand
  cases operand with
  | node head conditions all any left right =>
    dsimp only at shown ⊢
    cases isKind : head.kind with
    | none =>
      rw [isKind] at shown
      cases shown
    | some kind =>
      rw [isKind] at shown
      cases kind with
      | path => rfl
      | function => rfl
      | literal =>
        dsimp only at shown ⊢
        rw [Option.isNone_iff_eq_none.mp shown]
      | _ => cases shown
  | _ => cases shown

theorem normalizeItems_map (path : Text) (items : List (Expr N)) :
    normalizeItems path items = items.map (normalizeConditionInput path) := by
  induction items with
  | nil => rfl
  | cons item rest ih => rw [normalizeItems, ih, List.map_cons]

theorem normalizeSlot_map (path : Text) (slot : Slot (Expr N)) :
    normalizeSlot path slot = slot.list?.map (List.map (normalizeConditionInput path)) := by
  cases slot with
  | list items => exact congrArg some (normalizeItems_map path items)
  | _ => rfl

theorem chosen_map {α β : Type} (f : List α → List β) (empty : f [] = []) (first second third : Option (List α)) :
    ((first.map f).or ((second.map f).or (third.map f))).getD [] = f ((first.or (second.or third)).getD []) := by
  cases first <;> cases second <;> cases third <;> first | rfl | exact empty.symm

theorem normalize_group {head : Head N} {conditions all any : Slot (Expr N)} (path : Text) (left right : Expr N)
    (isGroup : isConditionGroup head conditions all any = true) :
    normalizeConditionInput path (.node head conditions all any left right) =
      groupNode (getConditionGroupMode head.mode any)
        ((getConditionGroupItems conditions all any).map (normalizeConditionInput path)) := by
  unfold normalizeConditionInput getConditionGroupItems
  rw [if_pos isGroup, normalizeSlot_map, normalizeSlot_map, normalizeSlot_map,
    chosen_map _ (List.map_nil) conditions.list? all.list? any.list?]

theorem isConditionGroup_of_inferKind {head : Head N} {conditions all any : Slot (Expr N)}
    (isGroup : inferKind head conditions all any = some .group) : isConditionGroup head conditions all any = true := by
  unfold inferKind at isGroup
  unfold isConditionGroup
  cases tagged : head.kind with
  | some kind =>
    rw [tagged] at isGroup
    cases isGroup
    rfl
  | none =>
    rw [tagged] at isGroup
    dsimp only at isGroup
    split at isGroup
    · next present => simpa using present
    · split at isGroup <;> cases isGroup

theorem evalGroup_modes {mode : Option Mode} {any : Slot (Expr N)} (verdicts : List Bool)
    (readAlike : ¬((∃ named, mode = some named ∧ named ≠ .any) ∧ any.list?.isSome = true)) :
    evalGroup (getConditionGroupMode mode any) verdicts = evalGroup (groupMode mode any) verdicts := by
  unfold getConditionGroupMode groupMode
  cases mode with
  | none => rfl
  | some named =>
    by_cases isAny : named = .any
    · rw [isAny, if_pos rfl]
      rfl
    · have noAlternatives : ¬any.list?.isSome = true := fun present => readAlike ⟨⟨named, rfl, isAny⟩, present⟩
      rw [if_neg (fun same => isAny (Option.some.inj same)), if_neg noAlternatives]
      cases named with
      | any => exact absurd rfl isAny
      | _ => rfl

theorem isTrue_boolean (value : Bool) : (Value.boolean value : Value N).isTrue = value := by
  cases value <;> rfl

/-- Groups in any spelling, and rules whose operands the builder shows as they are.
A rule has the members of a rule only. -/
inductive Authored : Expr N → Prop
  | group {head : Head N} {conditions all any : Slot (Expr N)} {left right : Expr N}
      (isGroup : inferKind head conditions all any = some .group)
      (items : ∀ item ∈ getConditionGroupItems conditions all any, Authored item) :
      Authored (.node head conditions all any left right)
  | rule {head : Head N} {left right : Expr N} {operator : ConditionOperator}
      (isRule : inferKind head (.absent : Slot (Expr N)) .absent .absent = some .rule)
      (named : head.operator = some (.known operator)) (shownLeft : isOperand left = true)
      (shownRight : isOperand right = true ∨ conditionUsesUnaryOperator operator = true) :
      Authored (.node head .absent .absent .absent left right)

/-- The condition itself, and every condition its groups are made of. -/
inductive PartOf : Expr N → Expr N → Prop
  | whole {condition : Expr N} : PartOf condition condition
  | item {part item : Expr N} {head : Head N} {conditions all any : Slot (Expr N)} {left right : Expr N}
      (member : item ∈ getConditionGroupItems conditions all any) (inside : PartOf part item) :
      PartOf part (.node head conditions all any left right)

/-- A group that names another mode than `any`, next to an `any` list. -/
def Misread : Expr N → Prop
  | .node head conditions all any _ _ =>
    inferKind head conditions all any = some .group ∧ (∃ mode, head.mode = some mode ∧ mode ≠ .any) ∧ any.list?.isSome = true
  | _ => False

def itemsOf : Expr N → List (Expr N)
  | .node _ conditions all any _ _ => getConditionGroupItems conditions all any
  | _ => []

/-- There is one at least, and they are all met or all failed. -/
def Together (verdicts : List Bool) : Prop := verdicts ≠ [] ∧ ∃ verdict, ∀ each ∈ verdicts, each = verdict

theorem any_eq_all_iff (verdicts : List Bool) : verdicts.any id = verdicts.all id ↔ Together verdicts := by
  constructor
  · intro same
    refine ⟨?_, verdicts.any id, ?_⟩
    · intro empty
      subst empty
      cases same
    · intro each member
      cases each with
      | true => exact (List.any_eq_true.mpr ⟨true, member, rfl⟩).symm
      | false =>
        rw [same]
        exact (List.all_eq_false.mpr ⟨false, member, Bool.false_ne_true⟩).symm
  · rintro ⟨nonempty, verdict, alike⟩
    have isReplicate : verdicts = List.replicate verdicts.length verdict := List.eq_replicate_of_mem alike
    have positive : verdicts.length ≠ 0 := fun none => nonempty (List.eq_nil_of_length_eq_zero none)
    rw [isReplicate, List.any_replicate, List.all_replicate, if_neg positive, if_neg positive]

theorem Authored.part {part condition : Expr N} (authored : Authored condition) (inside : PartOf part condition) :
    Authored part := by
  induction inside with
  | whole => exact authored
  | item member _ ih =>
    cases authored with
    | group _ items => exact ih (items _ member)
    | rule => cases member

theorem PartOf.within {part item whole : Expr N} (inner : PartOf part item) (outer : PartOf item whole) : PartOf part whole := by
  induction outer with
  | whole => exact inner
  | item member _ ih => exact .item member ih

variable [JsNumber N] (realm : Realm N) (elsewhere : Expr N → Members N → Value N)

def verdicts (payload : Members N) (items : List (Expr N)) : List Bool :=
  items.map fun item => evaluateCanonicalCondition realm elsewhere item payload

theorem results_map (payload : Members N) (items : List (Expr N)) :
    results realm elsewhere payload items = verdicts realm elsewhere payload items := by
  induction items with
  | nil => rfl
  | cons item rest ih =>
    rw [results, ih]
    rfl

theorem slotResults_map (payload : Members N) (slot : Slot (Expr N)) :
    slotResults realm elsewhere payload slot = slot.list?.map (verdicts realm elsewhere payload) := by
  cases slot with
  | list items => exact congrArg some (results_map realm elsewhere payload items)
  | _ => rfl

theorem evaluate_group {head : Head N} {conditions all any : Slot (Expr N)} (payload : Members N) (left right : Expr N)
    (isGroup : inferKind head conditions all any = some .group) :
    evaluateCanonicalCondition realm elsewhere (.node head conditions all any left right) payload =
      evalGroup (groupMode head.mode any) (verdicts realm elsewhere payload (getConditionGroupItems conditions all any)) := by
  unfold evaluateCanonicalCondition evaluateExpression getConditionGroupItems
  rw [isGroup]
  dsimp only
  rw [slotResults_map, slotResults_map, slotResults_map,
    chosen_map (verdicts realm elsewhere payload) rfl conditions.list? all.list? any.list?, isTrue_boolean]

theorem evaluate_groupNode (payload : Members N) (mode : Mode) (items : List (Expr N)) :
    evaluateCanonicalCondition realm elsewhere (groupNode mode items) payload =
      evalGroup mode (verdicts realm elsewhere payload items) :=
  evaluate_group realm elsewhere payload .undefined .undefined rfl

theorem evaluate_ruleNode (payload : Members N) (operator : Option OperatorName) (left right : Expr N) :
    evaluateCanonicalCondition realm elsewhere (ruleNode operator left right) payload =
      applyOperator realm operator (evaluateExpression realm elsewhere payload left)
        (evaluateExpression realm elsewhere payload right) := isTrue_boolean _

theorem evaluate_rootGroup (payload : Members N) (condition : Expr N) :
    evaluateCanonicalCondition realm elsewhere (rootGroup condition) payload =
      evaluateCanonicalCondition realm elsewhere condition payload := by
  have single : ∀ only : Expr N, evaluateCanonicalCondition realm elsewhere (groupNode .all [only]) payload =
      evaluateCanonicalCondition realm elsewhere only payload := by
    intro only
    rw [evaluate_groupNode]
    exact Bool.and_true _
  unfold rootGroup
  split
  · next head conditions all any left right =>
    by_cases isGroup : isConditionGroup head conditions all any = true
    · rw [if_pos isGroup]
    · rw [if_neg isGroup]
      exact single _
  · exact single _

def Kept (path : Text) (payload : Members N) (condition : Expr N) : Prop :=
  evaluateCanonicalCondition realm elsewhere (normalizeConditionInput path condition) payload =
    evaluateCanonicalCondition realm elsewhere condition payload

variable {realm elsewhere}

theorem rule_kept {head : Head N} {left right : Expr N} {operator : ConditionOperator} (path : Text) (payload : Members N)
    (isRule : inferKind head (.absent : Slot (Expr N)) .absent .absent = some .rule)
    (named : head.operator = some (.known operator)) (shownLeft : isOperand left = true)
    (shownRight : isOperand right = true ∨ conditionUsesUnaryOperator operator = true) :
    Kept realm elsewhere path payload (.node head .absent .absent .absent left right) := by
  have notGroup : isConditionGroup head (.absent : Slot (Expr N)) .absent .absent = false := by
    unfold inferKind at isRule
    unfold isConditionGroup
    cases tagged : head.kind with
    | some kind =>
      rw [tagged] at isRule
      cases isRule
      rfl
    | none => rfl
  have original : evaluateCanonicalCondition realm elsewhere (.node head .absent .absent .absent left right) payload =
      applyOperator realm head.operator (evaluateExpression realm elsewhere payload left)
        (evaluateExpression realm elsewhere payload right) := by
    unfold evaluateCanonicalCondition
    rw [evaluateExpression, isRule]
    exact isTrue_boolean _
  have opened : normalizeConditionInput path (.node head .absent .absent .absent left right) =
      ruleNode head.operator left (normalizeConditionOperand right (createLiteralOperand (.text []))) := by
    unfold normalizeConditionInput
    rw [notGroup, if_neg Bool.false_ne_true, isConditionRule, named, normalizeConditionOperand_operand _ shownLeft]
    rfl
  unfold Kept
  rw [opened, original, evaluate_ruleNode, named]
  cases shownRight with
  | inl shown => rw [normalizeConditionOperand_operand _ shown]
  | inr unary =>
    -- a unary operator looks at its left operand only
    cases operator <;> first | rfl | cases unary

/-- A group whose items are kept is kept exactly when it is read in its own mode, or in which mode makes no difference. -/
theorem group_kept_iff {head : Head N} {conditions all any : Slot (Expr N)} {path : Text} {payload : Members N}
    (left right : Expr N) (isGroup : inferKind head conditions all any = some .group)
    (items : ∀ item ∈ getConditionGroupItems conditions all any, Kept realm elsewhere path payload item) :
    Kept realm elsewhere path payload (.node head conditions all any left right) ↔
      (Misread (.node head conditions all any left right) →
        Together (verdicts realm elsewhere payload (getConditionGroupItems conditions all any))) := by
  have same : verdicts realm elsewhere payload ((getConditionGroupItems conditions all any).map (normalizeConditionInput path)) =
      verdicts realm elsewhere payload (getConditionGroupItems conditions all any) := by
    unfold verdicts
    rw [List.map_map]
    exact List.map_congr_left items
  unfold Kept
  rw [normalize_group path left right (isConditionGroup_of_inferKind isGroup), evaluate_groupNode, same,
    evaluate_group realm elsewhere payload left right isGroup]
  by_cases misread : Misread (.node head conditions all any left right)
  · obtain ⟨-, ⟨mode, named, notAny⟩, alternatives⟩ := misread
    have asAny : getConditionGroupMode head.mode any = .any := by
      unfold getConditionGroupMode
      rw [if_pos alternatives, ite_self]
    have asAll : ∀ verdicts : List Bool, evalGroup (groupMode head.mode any) verdicts = verdicts.all id := by
      intro verdicts
      unfold groupMode
      rw [named]
      cases mode with
      | any => exact absurd rfl notAny
      | _ => rfl
    rw [asAny, asAll]
    constructor
    · intro agree _
      exact (any_eq_all_iff _).mp agree
    · intro together
      exact (any_eq_all_iff _).mpr (together ⟨isGroup, ⟨mode, named, notAny⟩, alternatives⟩)
  · refine iff_of_true (evalGroup_modes _ ?_) (fun read => absurd read misread)
    rintro ⟨named, alternatives⟩
    exact misread ⟨isGroup, named, alternatives⟩

/-- By induction on the condition: once every misread group of it makes no difference, nothing of it does. -/
theorem kept_of_together {condition : Expr N} {path : Text} {payload : Members N} (authored : Authored condition)
    (together : ∀ part, PartOf part condition → Misread part → Together (verdicts realm elsewhere payload (itemsOf part))) :
    Kept realm elsewhere path payload condition := by
  induction authored with
  | group isGroup items ih =>
    refine (group_kept_iff _ _ isGroup ?_).mpr (together _ .whole)
    intro item member
    exact ih item member fun part inside => together part (.item member inside)
  | rule isRule named shownLeft shownRight => exact rule_kept path payload isRule named shownLeft shownRight

theorem together_of_kept {condition : Expr N} {payload : Members N} (path : Text) (authored : Authored condition)
    (kept : ∀ part, PartOf part condition → Kept realm elsewhere path payload part) (misread : Misread condition) :
    Together (verdicts realm elsewhere payload (itemsOf condition)) := by
  cases authored with
  | group isGroup items =>
    refine (group_kept_iff _ _ isGroup ?_).mp (kept _ .whole) misread
    intro item member
    exact kept item (.item member .whole)
  | rule isRule =>
    have isGroup := misread.1
    rw [isRule] at isGroup
    cases isGroup

theorem opened_iff {condition : Expr N} (defaultPath : Option Text) (payload : Members N) :
    evaluateCanonicalCondition realm elsewhere (normalizeConditionForMode condition (.free defaultPath)) payload =
        evaluateCanonicalCondition realm elsewhere condition payload ↔
      Kept realm elsewhere (defaultPath.getD []) payload condition := by
  unfold normalizeConditionForMode Kept
  rw [evaluate_rootGroup]
  rfl

/-- Opening a condition in the builder keeps what it means, at every payload, where none of its groups is misread;
and it keeps the meaning of every part of it exactly where each misread group has items of one verdict. -/
theorem opening_keeps_iff (realm : Realm N) (elsewhere : Expr N → Members N → Value N) {condition : Expr N}
    (authored : Authored condition) (defaultPath : Option Text) :
    ((∀ part, PartOf part condition → ¬Misread part) → ∀ payload,
      evaluateCanonicalCondition realm elsewhere (normalizeConditionForMode condition (.free defaultPath)) payload =
        evaluateCanonicalCondition realm elsewhere condition payload) ∧
    ∀ payload,
      (∀ part, PartOf part condition →
        evaluateCanonicalCondition realm elsewhere (normalizeConditionForMode part (.free defaultPath)) payload =
          evaluateCanonicalCondition realm elsewhere part payload) ↔
      ∀ part, PartOf part condition → Misread part → Together (verdicts realm elsewhere payload (itemsOf part)) := by
  constructor
  · intro wellRead payload
    refine (opened_iff defaultPath payload).mpr (kept_of_together authored ?_)
    intro part inside misread
    exact absurd misread (wellRead part inside)
  · intro payload
    constructor
    · intro kept part inside misread
      refine together_of_kept (defaultPath.getD []) (authored.part inside) ?_ misread
      intro inner deeper
      exact (opened_iff defaultPath payload).mp (kept inner (deeper.within inside))
    · intro together part inside
      refine (opened_iff defaultPath payload).mpr (kept_of_together (authored.part inside) ?_)
      intro inner deeper
      exact together inner (deeper.within inside)

section Alternatives

def stillRealm : Realm Whole := ⟨.finite 0, fun _ _ => .undefined, fun _ _ => false⟩

def nowhere (_ : Expr Whole) (_ : Members Whole) : Value Whole := .undefined

/-- `{ operator: "equals", left: { kind: "path", path }, right: { kind: "literal", value } }` -/
def equalsRule (path : Text) (value : Text) : Expr Whole :=
  .node { bareHead .rule with kind := none, operator := some (.known .equals) } .absent .absent .absent (createPathOperand path)
    (createLiteralOperand (.text value))

def statusRules : List (Expr Whole) := [equalsRule (js "status") (js "open"), equalsRule (js "owner") (js "ann")]

/-- `{ mode, any: [status = "open", owner = "ann"] }` -/
def alternatives (mode : Option Mode) : Expr Whole :=
  .node { bareHead .group with kind := none, mode := mode } .absent .absent (.list statusRules) .undefined .undefined

def openRecord : Members Whole := [(js "status", .text (js "open")), (js "owner", .text (js "bob"))]

theorem statusRules_authored : ∀ rule ∈ statusRules, Authored rule := by
  intro rule member
  have isOne : rule = equalsRule (js "status") (js "open") ∨ rule = equalsRule (js "owner") (js "ann") := by
    simpa [statusRules] using member
  cases isOne with
  | inl same =>
    subst same
    exact .rule rfl rfl rfl (.inl rfl)
  | inr same =>
    subst same
    exact .rule rfl rfl rfl (.inl rfl)

theorem alternatives_authored (mode : Option Mode) : Authored (alternatives mode) := .group rfl statusRules_authored

theorem alternatives_wellRead {part : Expr Whole} (inside : PartOf part (alternatives none)) : ¬Misread part := by
  have bare : ∀ rule ∈ statusRules, ∀ inner, PartOf inner rule → ¬Misread inner := by
    intro rule member inner within misread
    have isOne : rule = equalsRule (js "status") (js "open") ∨ rule = equalsRule (js "owner") (js "ann") := by
      simpa [statusRules] using member
    rcases isOne with rfl | rfl <;> cases within <;> first | cases misread.1 | contradiction
  intro misread
  cases inside with
  | whole =>
    obtain ⟨-, ⟨mode, named, -⟩, -⟩ := misread
    cases named
  | item member within => exact bare _ member _ within misread

theorem opening_keeps_untagged :
    evaluateCanonicalCondition stillRealm nowhere (normalizeConditionForMode (alternatives none) (.free none)) openRecord =
      evaluateCanonicalCondition stillRealm nowhere (alternatives none) openRecord :=
  (opening_keeps_iff stillRealm nowhere (alternatives_authored none) none).1 (fun _ inside => alternatives_wellRead inside) openRecord

/-- `{ mode: "all", any: […] }` asks for all of the list, until its author opens it in the builder. -/
theorem alternatives_reopened : ¬∀ condition : Expr Whole, Authored condition → ∀ payload,
    evaluateCanonicalCondition stillRealm nowhere (normalizeConditionForMode condition (.free none)) payload =
      evaluateCanonicalCondition stillRealm nowhere condition payload := by
  intro keeps
  have same := keeps (alternatives (some .all)) (alternatives_authored _) openRecord
  have asked : evaluateCanonicalCondition stillRealm nowhere (alternatives (some .all)) openRecord = false := by decide +kernel
  have opened : evaluateCanonicalCondition stillRealm nowhere (normalizeConditionForMode (alternatives (some .all)) (.free none))
      openRecord = true := by
    decide +kernel
  rw [asked, opened] at same
  cases same

end Alternatives

end OpenShapeForge.Renderer.OpenedConditions
