import OpenShapeForge.Canonical.SafeMonotone
import OpenShapeForge.Js.IndexText

/-! Whether an operand is there is asked of own properties, and its value is read by the permissive walk:
the two agree but for the length of an array. -/

namespace OpenShapeForge.Canonical.SafePresence
open Js Comparison Condition Safe SafeMonotone

variable {N : Type} [JsNumber N] (realm : Realm N) (elsewhere : Expr N → Members N → Value N)

/-- The last segment asks an array for its length. -/
def EndsInLength (current : Value N) (path : List Text) : Prop :=
  ∃ front items, path = front ++ [js "length"] ∧ ownWalk current front = some (.array items)

variable {realm}

theorem step_of_own [LawfulIndexText N] {current next : Value N} {segment : Text} (own : current.own? segment = some next)
    (notLength : ∀ items, current = .array items → segment ≠ js "length") : step realm current segment = next := by
  cases current with
  | object members => exact step_own realm rfl own
  | array items =>
    have isElement := own
    unfold Value.own? at isElement
    dsimp only at isElement
    rw [if_neg (notLength items rfl)] at isElement
    obtain ⟨index, isKey, -⟩ := Option.bind_eq_some_iff.mp isElement
    unfold step
    dsimp only
    rw [if_pos (LawfulIndexText.isFinite_element isKey), LawfulIndexText.toText_element isKey]
    unfold Value.get
    rw [own]
    rfl
  | _ => cases own

theorem walk_of_own [LawfulIndexText N] : ∀ {path : List Text} {current own : Value N}, ownWalk current path = some own →
    ¬EndsInLength current path → walk realm current path = own
  | [], current, own, reached, _ => Option.some.inj reached
  | segment :: rest, current, own, reached, plain => by
    rw [ownWalk_cons] at reached
    obtain ⟨next, isNext, onward⟩ := Option.bind_eq_some_iff.mp reached
    have notLength : ∀ items, current = .array items → segment ≠ js "length" := by
      intro items isArray isLength
      subst isArray isLength
      have isNumber : next = .number (JsNumber.ofNat items.length) := by
        unfold Value.own? at isNext
        exact (Option.some.inj isNext).symm
      cases rest with
      | nil => exact plain ⟨[], items, rfl, rfl⟩
      | cons further others =>
        rw [isNumber, ownWalk_cons] at onward
        cases onward
    have later : ¬EndsInLength next rest := by
      rintro ⟨front, items, rfl, isArray⟩
      exact plain ⟨segment :: front, items, rfl, by rw [ownWalk_cons, isNext]; exact isArray⟩
    rw [walk_cons, step_of_own isNext notLength]
    exact walk_of_own onward later

theorem ownWalk_append (front back : List Text) : ∀ current : Value N,
    ownWalk current (front ++ back) = (ownWalk current front).bind fun next => ownWalk next back := by
  induction front with
  | nil =>
    intro current
    rfl
  | cons segment front ih =>
    intro current
    rw [List.cons_append, ownWalk_cons, ownWalk_cons, Option.bind_assoc]
    congr 1
    funext next
    exact ih next

theorem ownWalk_of_length {current : Value N} {path : List Text} (ends : EndsInLength current path) :
    ∃ length : Nat, ownWalk current path = some (.number (JsNumber.ofNat length)) := by
  obtain ⟨front, items, rfl, isArray⟩ := ends
  refine ⟨items.length, ?_⟩
  rw [ownWalk_append, isArray, Option.bind_some, ownWalk_cons]
  rfl

theorem walk_of_length [LawfulIndexText N] {current : Value N} {path : List Text} (ends : EndsInLength current path) :
    ∃ items, walk realm current path = .array items := by
  obtain ⟨front, items, rfl, isArray⟩ := ends
  have plain : ¬EndsInLength current front := by
    intro earlier
    obtain ⟨length, isLength⟩ := ownWalk_of_length earlier
    cases isArray.symm.trans isLength
  refine ⟨items.map fun item => item.read realm (js "length"), ?_⟩
  unfold walk
  rw [List.foldl_append]
  change step realm (walk realm current front) (js "length") = _
  rw [walk_of_own isArray plain]
  unfold step
  dsimp only
  rw [if_neg]
  rw [LawfulIndexText.length_isNaN]
  exact Bool.false_ne_true

/-- The value of a path whose presence was checked is the one that its own properties lead to,
exactly where the path does not end in the length of an array. -/
theorem present_value_iff [LawfulIndexText N] (realm : Realm N) (elsewhere : Expr N → Members N → Value N) {head : Head N}
    {conditions all any : Slot (Expr N)} {left right : Expr N} {payload : Members N} (isPath : inferKind head conditions all any = some .path)
    (unmoved : head.offsetDays = none) (present : safeOperandPresent (.node head conditions all any left right) payload = true) :
    ownWalk (.object payload) (segments head.path) =
        some (evaluateExpression realm elsewhere payload (.node head conditions all any left right)) ↔
      ¬EndsInLength (.object payload) (segments head.path) := by
  unfold safeOperandPresent at present
  dsimp only at present
  rw [if_pos isPath] at present
  obtain ⟨own, reached⟩ := Option.isSome_iff_exists.mp present
  have value : evaluateExpression realm elsewhere payload (.node head conditions all any left right) =
      walk realm (.object payload) (segments head.path) := by
    unfold evaluateExpression
    rw [isPath]
    dsimp only
    unfold evalPath
    rw [unmoved]
    cases walk realm (.object payload) (segments head.path) <;> rfl
  rw [value]
  constructor
  · intro same ends
    obtain ⟨length, isLength⟩ := ownWalk_of_length ends
    obtain ⟨items, isArray⟩ : ∃ items, walk realm (.object payload) (segments head.path) = .array items := walk_of_length ends
    rw [isLength, isArray] at same
    cases same
  · intro plain
    rw [walk_of_own reached plain]
    exact reached

section Lengths

/-- A realm in which only texts have something that they do not own: their length. -/
def plainRealm : Realm Whole where
  clock := .finite 0
  inherited value name := match value with
    | .text value => if name = js "length" then .number (.finite value.length) else .undefined
    | _ => .undefined
  identical _ _ := false

def pathHead (path : Text) : Head Whole := ⟨some .path, none, none, path, false, none, .undefined, .today⟩

def pathOperand (path : Text) : Expr Whole := .node (pathHead path) .absent .absent .absent .undefined .undefined

def noOptions : Options Whole := ⟨none, none, none, none⟩

def itemsPayload : Members Whole := [(js "resource", .object [(js "items", .array [.text (js "a"), .text (js "bc")])])]

theorem present_value_first : ownWalk (.object itemsPayload) (segments (js "resource.items.0")) =
      some (evaluateExpression plainRealm (fun _ _ => .undefined) itemsPayload (pathOperand (js "resource.items.0"))) ↔
    ¬EndsInLength (.object itemsPayload) (segments (js "resource.items.0")) :=
  present_value_iff plainRealm (fun _ _ => .undefined) rfl rfl
    (show safeOperandPresent (pathOperand (js "resource.items.0")) itemsPayload = true by decide +kernel)

/-- `resource.items.length` is there, and it is 2; but it is read as the list of 1 and 2. -/
theorem length_misread : validateSafePath (pathHead (js "resource.items.length")) (js "left") (resolveLimits noOptions) = .ok () ∧
    safeOperandPresent (pathOperand (js "resource.items.length")) itemsPayload = true ∧
    ownWalk (.object itemsPayload) (segments (js "resource.items.length")) = some (.number (.finite 2)) ∧
    evaluateExpression plainRealm (fun _ _ => .undefined) itemsPayload (pathOperand (js "resource.items.length")) =
      .array [.number (.finite 1), .number (.finite 2)] :=
  ⟨by decide +kernel, by decide +kernel, rfl, rfl⟩

end Lengths

end OpenShapeForge.Canonical.SafePresence
