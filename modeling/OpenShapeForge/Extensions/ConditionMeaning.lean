import OpenShapeForge.Extensions.RollupCondition
import OpenShapeForge.Library.Failing

/-! A rollup's condition in SQL against the condition itself: the predicate is decided on every row, and
it says what the condition says but where texts or times are ordered otherwise as texts. -/

namespace OpenShapeForge.Extensions.ConditionMeaning
open Js Formula.Types FieldModel LinkedResolution RollupCondition
open Library.SqlPredicates Library.ThreeValued
open Formula.StoredDates (yearOf monthOf dayOf written written_of_layout fields_lt length_zeroPadded digitsValue_zeroPadded)
open Operations.FieldValues (hasLayout isDateText)
open Js.Dates (zeroPadded decimalDigit)

section Dates

theorem textLess_append_append : ∀ {first second : Text} (rest other : Text), first.length = second.length →
    (textLess (first ++ rest) (second ++ other) = true ↔ textLess first second = true ∨ (first = second ∧ textLess rest other = true))
  | [], [], rest, other, _ => by simp [textLess]
  | [], _ :: _, _, _, never | _ :: _, [], _, _, never => by cases never
  | a :: first, b :: second, rest, other, same => by
    have ih := textLess_append_append rest other (Nat.succ.inj same)
    rw [List.cons_append, List.cons_append, textLess_cons, textLess_cons, ih, List.cons.injEq]
    tauto

theorem zeroPadded_inj {width a b : Nat} (low : a < 10 ^ width) (high : b < 10 ^ width) (same : zeroPadded width a = zeroPadded width b) : a = b := by
  rw [← Nat.mod_eq_of_lt low, ← Nat.mod_eq_of_lt high, ← digitsValue_zeroPadded, ← digitsValue_zeroPadded, same]

theorem textLess_digit {a b : Nat} : textLess [decimalDigit a] [decimalDigit b] = true ↔ a % 10 < b % 10 := by
  rw [textLess_cons, UInt16.lt_iff_toNat_lt, decimalDigit, decimalDigit, UInt16.toNat_ofNat', UInt16.toNat_ofNat']
  simp only [textLess, Bool.false_eq_true, and_false, or_false]
  omega

theorem textLess_zeroPadded : ∀ {width a b : Nat}, a < 10 ^ width → b < 10 ^ width →
    (textLess (zeroPadded width a) (zeroPadded width b) = true ↔ a < b)
  | 0, a, b, low, high => by
    rw [Nat.pow_zero] at low high
    simp [zeroPadded, textLess]
    omega
  | width + 1, a, b, low, high => by
    rw [Nat.pow_succ] at low high
    have lowTens : a / 10 < 10 ^ width := by omega
    have highTens : b / 10 < 10 ^ width := by omega
    have sameLength : (zeroPadded width (a / 10)).length = (zeroPadded width (b / 10)).length := by
      rw [length_zeroPadded, length_zeroPadded]
    have tens : zeroPadded width (a / 10) = zeroPadded width (b / 10) ↔ a / 10 = b / 10 :=
      ⟨zeroPadded_inj lowTens highTens, fun same => congrArg _ same⟩
    rw [zeroPadded, zeroPadded, textLess_append_append _ _ sameLength, textLess_zeroPadded lowTens highTens, tens, textLess_digit]
    omega

variable {a b : Text} (layoutA : hasLayout a (js "dddd-dd-dd") = true) (layoutB : hasLayout b (js "dddd-dd-dd") = true)
include layoutA layoutB

theorem textLess_date : textLess a b = (dateOf a).less (dateOf b) := by
  obtain ⟨isA, -⟩ := written_of_layout layoutA
  obtain ⟨isB, -⟩ := written_of_layout layoutB
  obtain ⟨yearA, monthA, dayA⟩ := fields_lt layoutA
  obtain ⟨yearB, monthB, dayB⟩ := fields_lt layoutB
  have years : zeroPadded 4 (yearOf a) = zeroPadded 4 (yearOf b) ↔ yearOf a = yearOf b := ⟨zeroPadded_inj yearA yearB, fun same => congrArg _ same⟩
  have months : zeroPadded 2 (monthOf a) = zeroPadded 2 (monthOf b) ↔ monthOf a = monthOf b :=
    ⟨zeroPadded_inj monthA monthB, fun same => congrArg _ same⟩
  have order : textLess (written (yearOf a) (monthOf a) (dayOf a)) (written (yearOf b) (monthOf b) (dayOf b)) = true ↔
      (dateOf a).less (dateOf b) = true := by
    unfold written
    simp only [List.append_assoc]
    rw [textLess_append_append _ _ (by rw [length_zeroPadded, length_zeroPadded]), textLess_append,
      textLess_append_append _ _ (by rw [length_zeroPadded, length_zeroPadded]), textLess_append,
      textLess_zeroPadded yearA yearB, textLess_zeroPadded monthA monthB, textLess_zeroPadded dayA dayB, years, months]
    simp only [Day.less, Bool.or_eq_true, Bool.and_eq_true, decide_eq_true_eq]
    rfl
  rw [← isA, ← isB] at order
  exact Bool.eq_iff_iff.mpr order

theorem dateOf_inj (same : dateOf a = dateOf b) : a = b := by
  obtain ⟨isA, -⟩ := written_of_layout layoutA
  obtain ⟨isB, -⟩ := written_of_layout layoutB
  obtain ⟨years, months, days⟩ := Day.mk.inj same
  rw [isA, isB, years, months, days]

end Dates

theorem layout_of_isCalendarDate {text : Text} (isDate : isCalendarDate text = true) : hasLayout text (js "dddd-dd-dd") = true := by
  unfold isCalendarDate isDateText at isDate
  simp only [Bool.and_eq_true] at isDate
  exact isDate.1.1.1.1.1

inductive FieldValue (K : Type) where
  | text (chars : List Char)
  | number (value : K)
  | boolean (value : Bool)
  | date (text : Text) (isDate : isCalendarDate text = true)
  | timestamp (text : Text) (written : text ≠ [])

section Values
variable {K : Type} (reading : Reading K)

def FieldValue.type : FieldValue K → FormulaType
  | .text _ => .text
  | .number _ => .number
  | .boolean _ => .boolean
  | .date .. => .date
  | .timestamp .. => .timestamp

def FieldValue.item : FieldValue K → Item K
  | .text chars => .text (utf16 chars)
  | .number value => .number value
  | .boolean value => .boolean value
  | .date value _ | .timestamp value _ => .text value

def FieldValue.sql : FieldValue K → SqlValue K
  | .text chars => .text chars
  | .number value => .number value
  | .boolean value => .boolean value
  | .date value _ => .date (dateOf value)
  | .timestamp value _ => .timestamp (reading.instant value)

def itemOf : Option (FieldValue K) → Item K
  | none => .null
  | some value => value.item

/-- An equality that is one of texts for the runtime and one of characters or instants for SQL. -/
def EqualAlike : FieldValue K → Literal → Prop
  | .text chars, .text literal => characters literal = chars → WellFormed literal
  | .timestamp text _, .text literal => reading.instant text = reading.instant literal → text = literal
  | _, _ => True

def MemberAlike (items : List Literal) : FieldValue K → Prop
  | .text chars => (∃ literal, .text literal ∈ items ∧ characters literal = chars) → .text (utf16 chars) ∈ items
  | .timestamp text _ => (∃ literal, .text literal ∈ items ∧ reading.instant text = reading.instant literal) → .text text ∈ items
  | _ => True

/-- The value comes before the literal as a text where it does as characters, or as an instant. -/
def BelowAlike : FieldValue K → Literal → Prop
  | .text chars, .text literal => textLess (utf16 chars) literal = charsLess chars (characters literal)
  | .timestamp text _, .text literal => textLess text literal = decide (reading.instant text < reading.instant literal)
  | _, _ => True

def AboveAlike : FieldValue K → Literal → Prop
  | .text chars, .text literal => textLess literal (utf16 chars) = charsLess (characters literal) chars
  | .timestamp text _, .text literal => textLess literal text = decide (reading.instant literal < reading.instant text)
  | _, _ => True

def ContainsAlike : FieldValue K → Literal → Prop
  | .text chars, .text literal => literal <:+: utf16 chars ↔ characters literal <:+: chars
  | _, _ => True

def RuleAlike (operator : RuleOperator) (right : Literal) : Option (FieldValue K) → Prop
  | none => True
  | some value =>
    match operator with
    | .equals | .notEquals => EqualAlike reading value right
    | .«in» | .notIn => MemberAlike reading (listItems right) value
    | .isEmpty | .isNotEmpty => True
    | .contains | .notContains => ContainsAlike value right
    | .greaterThan | .lessThanOrEquals => AboveAlike reading value right
    | .lessThan | .greaterThanOrEquals => BelowAlike reading value right

end Values

section Literals
variable {K : Type} {contract : Contract} {reading : Reading K}

inductive Cast (reading : Reading K) : FieldValue K → Literal → SqlValue K → Prop where
  | text (chars : List Char) (literal : Text) : Cast reading (.text chars) (.text literal) (.text (characters literal))
  | number (value : K) (json : Text) : Cast reading (.number value) (.number json) (.number (reading.number json))
  | boolean (value literal : Bool) : Cast reading (.boolean value) (.boolean literal) (.boolean literal)
  | date {text literal : Text} (isDate : isCalendarDate text = true) (isDate' : isCalendarDate literal = true) :
    Cast reading (.date text isDate) (.text literal) (.date (dateOf literal))
  | timestamp {text : Text} (written : text ≠ []) (literal : Text) : Cast reading (.timestamp text written) (.text literal) (.timestamp (reading.instant literal))

theorem cast_of {value : FieldValue K} {right : Literal} {constant : SqlValue K}
    (isCast : castLiteral contract reading value.type right = some constant) : Cast reading value right constant := by
  cases value with
  | text chars =>
    cases right with
    | text literal =>
      obtain rfl := Option.some.inj isCast
      exact .text ..
    | _ => cases isCast
  | number value =>
    cases right with
    | number json =>
      obtain rfl := Option.some.inj isCast
      exact .number ..
    | _ => cases isCast
  | boolean value =>
    cases right with
    | boolean literal =>
      obtain rfl := Option.some.inj isCast
      exact .boolean ..
    | _ => cases isCast
  | date text isDate =>
    cases right with
    | text literal =>
      unfold FieldValue.type castLiteral at isCast
      dsimp only at isCast
      split at isCast
      next isDate' =>
        obtain rfl := Option.some.inj isCast
        exact .date isDate isDate'
      next => cases isCast
    | _ => cases isCast
  | timestamp text written =>
    cases right with
    | text literal =>
      unfold FieldValue.type castLiteral at isCast
      dsimp only at isCast
      split at isCast
      next =>
        obtain rfl := Option.some.inj isCast
        exact .timestamp ..
      next => cases isCast
    | _ => cases isCast

variable [LinearOrder K]

theorem sameItem_comm (a b : Item K) : sameItem a b = sameItem b a := by
  cases a <;> cases b <;> simp [sameItem, eq_comm]

variable {value : FieldValue K} {right : Literal} {constant : SqlValue K}

theorem text_same {chars : List Char} {literal : Text} : utf16 chars = literal ↔ chars = characters literal ∧ WellFormed literal := by
  constructor
  · rintro rfl
    exact ⟨(characters_utf16 chars).symm, wellFormed_utf16 chars⟩
  · rintro ⟨rfl, wellFormed⟩
    exact utf16_characters wellFormed

theorem sql_of_sameItem (cast : Cast reading value right constant) (same : sameItem value.item (literalItem reading right) = true) :
    value.sql reading = constant := by
  cases cast with
  | text chars literal => exact congrArg _ (text_same.mp (of_decide_eq_true same)).1
  | number value json => exact congrArg _ (of_decide_eq_true same)
  | boolean value literal => exact congrArg _ (of_decide_eq_true same)
  | date isDate isDate' => exact congrArg (fun text => SqlValue.date (dateOf text)) (of_decide_eq_true same)
  | timestamp written literal => exact congrArg (fun text => SqlValue.timestamp (reading.instant text)) (of_decide_eq_true same)

theorem equalAlike_iff (cast : Cast reading value right constant) :
    EqualAlike reading value right ↔ (value.sql reading = constant → sameItem value.item (literalItem reading right) = true) := by
  cases cast with
  | text chars literal =>
    unfold EqualAlike FieldValue.sql FieldValue.item literalItem sameItem
    simp only [SqlValue.text.injEq, decide_eq_true_eq, text_same]
    exact ⟨fun alike same => ⟨same, alike same.symm⟩, fun alike same => (alike same.symm).2⟩
  | number value json =>
    refine iff_of_true trivial fun same => decide_eq_true ?_
    exact SqlValue.number.inj same
  | boolean value literal =>
    refine iff_of_true trivial fun same => decide_eq_true ?_
    exact SqlValue.boolean.inj same
  | date isDate isDate' =>
    refine iff_of_true trivial fun same => decide_eq_true ?_
    exact dateOf_inj (layout_of_isCalendarDate isDate) (layout_of_isCalendarDate isDate') (SqlValue.date.inj same)
  | timestamp written literal =>
    unfold EqualAlike FieldValue.sql FieldValue.item literalItem sameItem
    simp only [SqlValue.timestamp.injEq, decide_eq_true_eq]

/-- What the runtime's order of two items rests on. -/
def itemLess : Item K → Item K → Bool
  | .number a, .number b => a < b
  | .text a, .text b => textLess a b
  | _, _ => false

theorem belowAlike_iff (cast : Cast reading value right constant) (ordered : value.type ≠ .boolean) :
    BelowAlike reading value right ↔ itemLess value.item (literalItem reading right) = (value.sql reading).less constant := by
  cases cast with
  | text chars literal => exact Iff.rfl
  | number value json => exact iff_of_true trivial rfl
  | boolean value literal => exact absurd rfl ordered
  | date isDate isDate' =>
    exact iff_of_true trivial (textLess_date (layout_of_isCalendarDate isDate) (layout_of_isCalendarDate isDate'))
  | timestamp written literal => exact Iff.rfl

theorem aboveAlike_iff (cast : Cast reading value right constant) (ordered : value.type ≠ .boolean) :
    AboveAlike reading value right ↔ itemLess (literalItem reading right) value.item = constant.less (value.sql reading) := by
  cases cast with
  | text chars literal => exact Iff.rfl
  | number value json => exact iff_of_true trivial rfl
  | boolean value literal => exact absurd rfl ordered
  | date isDate isDate' =>
    exact iff_of_true trivial (textLess_date (layout_of_isCalendarDate isDate') (layout_of_isCalendarDate isDate))
  | timestamp written literal => exact Iff.rfl

theorem containsAlike_iff (cast : Cast reading value right constant) (isText : value.type = .text) :
    ContainsAlike value right ↔ holdsText value.item (literalItem reading right) = holds .position (value.sql reading) constant := by
  cases cast with
  | text chars literal => exact decide_eq_decide.symm
  | _ => cases isText

variable [Ring K] [IsStrictOrderedRing K]

theorem compareItems_cast (cast : Cast reading value right constant) (ordered : value.type ≠ .boolean) :
    ∃ sign, compareItems reading value.item (literalItem reading right) = some sign ∧
      (sign < 0 ↔ itemLess value.item (literalItem reading right) = true) ∧ (0 < sign ↔ itemLess (literalItem reading right) value.item = true) := by
  have texts : ∀ a b : Text, ∃ sign : SignType, (some (if textLess a b then -1 else if textLess b a then 1 else 0) : Option SignType) = some sign ∧
      (sign < 0 ↔ textLess a b = true) ∧ (0 < sign ↔ textLess b a = true) := by
    intro a b
    refine ⟨_, rfl, ?_⟩
    by_cases less : textLess a b = true
    · have notMore := textLess_asymm less
      rw [if_pos less, notMore]
      exact ⟨iff_of_true (by decide) less, iff_of_false (by decide) (by decide)⟩
    · by_cases more : textLess b a = true
      · rw [if_neg less, if_pos more]
        exact ⟨iff_of_false (by decide) less, iff_of_true (by decide) more⟩
      · rw [if_neg less, if_neg more]
        exact ⟨iff_of_false (by decide) less, iff_of_false (by decide) more⟩
  cases cast with
  | text chars literal => exact texts ..
  | number value json =>
    refine ⟨_, rfl, ?_, ?_⟩
    · rw [← not_le, sign_nonneg_iff, not_le, sub_neg]
      exact decide_eq_true_iff.symm
    · rw [← not_le, sign_nonpos_iff, not_le, sub_pos]
      exact decide_eq_true_iff.symm
  | boolean value literal => exact absurd rfl ordered
  | date isDate isDate' => exact texts ..
  | timestamp written literal => exact texts ..

end Literals

section Rules
variable {K : Type} {contract : Contract} {reading : Reading K} {field : TargetField} {type : FormulaType} {path : FieldPath}

theorem literal_ok {right : Literal} {constant : SqlValue K} (built : literal contract reading field type right = .ok constant) :
    castLiteral contract reading type right = some constant := by
  unfold literal at built
  split at built
  next isCast =>
    cases built
    exact isCast
  next => cases built

theorem literals_ok : ∀ {values : List Literal} {constants : List (SqlValue K)}, literals contract reading field type values = .ok constants →
    values.map (castLiteral contract reading type) = constants.map some
  | [], constants, built => by
    cases built
    rfl
  | value :: rest, constants, built => by
    obtain ⟨constant, isConstant, built⟩ := Library.Failing.attempt_bind_ok.mp built
    obtain ⟨others, areOthers, rfl⟩ := Library.Failing.attempt_map_ok.mp built
    rw [List.map_cons, List.map_cons, literal_ok isConstant, literals_ok areOthers]

theorem list_of_literal (right : Literal) :
    (match literalItem reading right with
      | .list items => items
      | item => [item]) = (listItems right).map (literalItem reading) := by
  have each : ∀ items, literalItem.literalItems reading items = items.map (literalItem reading) := by
    intro items
    induction items with
    | nil => rfl
    | cons item rest ih => rw [literalItem.literalItems, ih, List.map_cons]
  cases right with
  | list items => exact each items
  | _ => rfl

theorem not_null_of_cast {right : Literal} {constant : SqlValue K} (isCast : castLiteral contract reading type right = some constant) :
    Literal.isNull right = false := by
  cases right with
  | null => cases type <;> cases isCast
  | _ => rfl

variable [LinearOrder K] {row : FieldPath → Option (SqlValue K)}

theorem eval_orFalse_test (operator : SqlOperator) (constant : SqlValue K) :
    eval holds row (.orFalse (.test (.column path) operator constant)) = some ((row path).any fun value => holds operator value constant) := by
  rw [eval, eval, Operand.read]
  cases row path <;> rfl

variable {value : Option (FieldValue K)} (isRow : row path = value.map (FieldValue.sql reading)) (typed : ∀ x, value = some x → x.type = type)
include isRow typed

theorem equal_answer {right : Literal} {constant : SqlValue K} (isCast : castLiteral contract reading type right = some constant) :
    ((row path).any fun value => holds .equal value constant) = sameItem (itemOf value) (literalItem reading right) ↔
      RuleAlike reading .equals right value := by
  rw [isRow]
  cases value with
  | none =>
    refine iff_of_true ?_ trivial
    have notNull := not_null_of_cast isCast
    cases right with
    | null => cases notNull
    | _ => rfl
  | some value =>
    obtain rfl := typed value rfl
    have cast := cast_of isCast
    have alike := equalAlike_iff cast
    have back := sql_of_sameItem cast
    refine Iff.trans ?_ alike.symm
    change decide (value.sql reading = constant) = _ ↔ _
    rw [Bool.eq_iff_iff, decide_eq_true_eq]
    exact ⟨fun same => same.mp, fun forth => ⟨forth, back⟩⟩

theorem null_answer : (row path).isNone = sameItem (itemOf value) .null := by
  rw [isRow]
  cases value with
  | none => rfl
  | some stored => cases stored <;> rfl

theorem contains_answer {right : Literal} {predicate : RowPredicate K}
    (built : containsPredicate contract reading path field type right = .ok predicate) :
    ∃ answer, eval holds row predicate = some answer ∧
      (answer = holdsText (itemOf value) (literalItem reading right) ↔ RuleAlike reading .contains right value) := by
  unfold containsPredicate at built
  split at built
  next => cases built
  next isText =>
    obtain ⟨constant, isConstant, rfl⟩ := Library.Failing.attempt_map_ok.mp built
    refine ⟨_, eval_orFalse_test .., ?_⟩
    rw [isRow]
    cases value with
    | none => exact iff_of_true rfl trivial
    | some stored =>
      have isType := typed stored rfl
      have cast := cast_of (isType ▸ literal_ok isConstant)
      refine Iff.trans ?_ (containsAlike_iff cast (isType.trans (not_not.mp isText))).symm
      exact eq_comm

omit isRow typed

omit [LinearOrder K] in
theorem mem_constants {items : List Literal} {constants : List (SqlValue K)}
    (areCast : (items.filter fun item => !Literal.isNull item).map (castLiteral contract reading type) = constants.map some) (constant : SqlValue K) :
    constant ∈ constants ↔ ∃ item ∈ items, castLiteral contract reading type item = some constant := by
  have across : constant ∈ constants ↔ some constant ∈ constants.map some :=
    ⟨fun member => List.mem_map_of_mem member, fun member => by simpa using member⟩
  rw [across, ← areCast]
  constructor
  · intro member
    obtain ⟨item, inside, isCast⟩ := List.mem_map.mp member
    exact ⟨item, (List.mem_filter.mp inside).1, isCast⟩
  · rintro ⟨item, inside, isCast⟩
    have kept : item ∈ items.filter fun item => !Literal.isNull item := by
      rw [List.mem_filter, not_null_of_cast isCast]
      exact ⟨inside, rfl⟩
    exact List.mem_map.mpr ⟨item, kept, isCast⟩

theorem includes_iff {items : List Literal} {item : Item K} :
    includes (items.map (literalItem reading)) item = true ↔ ∃ other ∈ items, sameItem item (literalItem reading other) = true := by
  unfold includes
  rw [List.any_map, List.any_eq_true]
  simp only [Function.comp, sameItem_comm _ item]

theorem text_of_sameItem {text : Text} {right : Literal} : sameItem (.text text) (literalItem reading right) = true ↔ right = .text text := by
  constructor
  · intro same
    cases right with
    | text other => rw [of_decide_eq_true same]
    | _ => cases same
  · rintro rfl
    exact decide_eq_true rfl

theorem memberAlike_iff {stored : FieldValue K} {items : List Literal} (accepted : ∀ item ∈ items, Literal.isNull item = false →
      (castLiteral contract reading stored.type item).isSome = true) :
    MemberAlike reading items stored ↔
      ((∃ item ∈ items, castLiteral contract reading stored.type item = some (stored.sql reading)) →
        ∃ item ∈ items, sameItem stored.item (literalItem reading item) = true) := by
  have one : ∀ item, castLiteral contract reading stored.type item = some (stored.sql reading) →
      (EqualAlike reading stored item ↔ sameItem stored.item (literalItem reading item) = true) := fun item isCast =>
    (equalAlike_iff (cast_of isCast)).trans ⟨fun forth => forth rfl, fun same _ => same⟩
  have trivially : (∀ item, castLiteral contract reading stored.type item = some (stored.sql reading) → EqualAlike reading stored item) →
      (∃ item ∈ items, castLiteral contract reading stored.type item = some (stored.sql reading)) →
        ∃ item ∈ items, sameItem stored.item (literalItem reading item) = true := by
    rintro alike ⟨item, inside, isCast⟩
    exact ⟨item, inside, (one item isCast).mp (alike item isCast)⟩
  cases stored with
  | text chars =>
    refine imp_congr ⟨?_, ?_⟩ ?_
    · rintro ⟨literal, inside, rfl⟩
      exact ⟨_, inside, rfl⟩
    · rintro ⟨item, inside, isCast⟩
      cases item with
      | text literal => exact ⟨literal, inside, SqlValue.text.inj (Option.some.inj isCast)⟩
      | _ => cases isCast
    · simp only [FieldValue.item, text_of_sameItem]
      exact ⟨fun inside => ⟨_, inside, rfl⟩, fun ⟨_, inside, same⟩ => same ▸ inside⟩
  | timestamp text written =>
    refine imp_congr ⟨?_, ?_⟩ ?_
    · rintro ⟨literal, inside, same⟩
      have isTime := accepted _ inside rfl
      refine ⟨_, inside, ?_⟩
      unfold FieldValue.type castLiteral at isTime ⊢
      dsimp only at isTime ⊢
      split at isTime
      next parsed => rw [if_pos parsed, FieldValue.sql, same]
      next => cases isTime
    · rintro ⟨item, inside, isCast⟩
      have cast := cast_of isCast
      generalize isTime : FieldValue.sql reading (.timestamp text written) = constant at cast
      cases cast with
      | timestamp _ literal => exact ⟨literal, inside, SqlValue.timestamp.inj isTime⟩
    · simp only [FieldValue.item, text_of_sameItem]
      exact ⟨fun inside => ⟨_, inside, rfl⟩, fun ⟨_, inside, same⟩ => same ▸ inside⟩
  | number value => exact iff_of_true trivial (trivially fun item _ => by cases item <;> trivial)
  | boolean value => exact iff_of_true trivial (trivially fun item _ => by cases item <;> trivial)
  | date text isDate => exact iff_of_true trivial (trivially fun item _ => by cases item <;> trivial)

theorem eval_list {right : Literal} {predicate : RowPredicate K} (built : listPredicate contract reading path field type right = .ok predicate) :
    ∃ constants : List (SqlValue K),
      ((listItems right).filter fun item => !Literal.isNull item).map (castLiteral contract reading type) = constants.map some ∧
      eval holds row predicate = some (((row path).any fun value => constants.any fun constant => holds .equal value constant) ||
        ((listItems right).any Literal.isNull && (row path).isNone)) := by
  unfold listPredicate at built
  dsimp only at built
  split at built
  next => cases built
  next =>
    obtain ⟨constants, areConstants, rfl⟩ := Library.Failing.attempt_map_ok.mp built
    have areCast := literals_ok areConstants
    refine ⟨constants, areCast, ?_⟩
    have nulls : ((listItems right).filter fun item => !Literal.isNull item).length < (listItems right).length ↔
        (listItems right).any Literal.isNull = true := by
      rw [List.length_filter_lt_length_iff_exists, List.any_eq_true]
      simp
    have member : eval holds row (if ((listItems right).filter fun item => !Literal.isNull item).isEmpty then .falsehood
        else .orFalse (.among (.column path) .equal constants)) =
          some ((row path).any fun value => constants.any fun constant => holds .equal value constant) := by
      split
      next isEmpty =>
        rw [List.isEmpty_iff.mp isEmpty, List.map_nil] at areCast
        rw [List.map_eq_nil_iff.mp areCast.symm, eval]
        cases row path <;> rfl
      next =>
        rw [eval]
        cases isValue : row path with
        | none =>
          have isRead : (Operand.column path : Operand FieldPath (SqlValue K)).read row = none := isValue
          rw [eval_among_none holds row isRead]
          rfl
        | some value =>
          have isRead : (Operand.column path : Operand FieldPath (SqlValue K)).read row = some value := isValue
          rw [eval_among_some holds row isRead]
          rfl
    by_cases hasNull : ((listItems right).filter fun item => !Literal.isNull item).length < (listItems right).length
    · rw [if_pos hasNull, eval, evalEach, evalEach, evalEach, member, nulls.mp hasNull, eval, Operand.read]
      generalize (row path).any _ = isMember
      generalize (row path).isNone = isNone
      revert isMember isNone
      decide
    · rw [if_neg hasNull, member, Bool.eq_false_iff.mpr (fun isAny => hasNull (nulls.mpr isAny)), Bool.false_and, Bool.or_false]

include isRow typed

theorem member_answer {right : Literal} {predicate : RowPredicate K} (built : listPredicate contract reading path field type right = .ok predicate) :
    ∃ answer, eval holds row predicate = some answer ∧
      (answer = includes ((listItems right).map (literalItem reading)) (itemOf value) ↔ RuleAlike reading .«in» right value) := by
  obtain ⟨constants, areCast, isEval⟩ : ∃ constants : List (SqlValue K), _ ∧ eval holds row predicate = _ := eval_list built
  refine ⟨_, isEval, ?_⟩
  rw [isRow]
  cases value with
  | none =>
    refine iff_of_true ?_ trivial
    rw [Option.map_none, Option.any_none, Option.isNone_none, Bool.and_true, Bool.false_or, Bool.eq_iff_iff, includes_iff, List.any_eq_true]
    refine exists_congr fun item => and_congr_right fun _ => ?_
    cases item with
    | null => exact iff_of_true rfl rfl
    | _ => exact iff_of_false (fun never => by cases never) (fun never => by cases never)
  | some stored =>
    obtain rfl := typed stored rfl
    have accepted : ∀ item ∈ listItems right, Literal.isNull item = false → (castLiteral contract reading stored.type item).isSome = true := by
      intro item inside notNull
      have kept : castLiteral contract reading stored.type item ∈ constants.map some := by
        rw [← areCast]
        exact List.mem_map_of_mem (List.mem_filter.mpr ⟨inside, by rw [notNull]; rfl⟩)
      obtain ⟨constant, -, isConstant⟩ := List.mem_map.mp kept
      rw [← isConstant]
      rfl
    refine Iff.trans ?_ (memberAlike_iff accepted).symm
    have sqlSide : (constants.any fun constant => holds .equal (stored.sql reading) constant) = true ↔
        ∃ item ∈ listItems right, castLiteral contract reading stored.type item = some (stored.sql reading) := by
      rw [← mem_constants areCast, List.any_eq_true]
      constructor
      · rintro ⟨constant, inside, same⟩
        exact of_decide_eq_true same ▸ inside
      · exact fun inside => ⟨_, inside, decide_eq_true rfl⟩
    have back : (∃ item ∈ listItems right, sameItem stored.item (literalItem reading item) = true) →
        ∃ item ∈ listItems right, castLiteral contract reading stored.type item = some (stored.sql reading) := by
      rintro ⟨item, inside, same⟩
      have notNull : Literal.isNull item = false := by
        cases item with
        | null => cases stored <;> cases same
        | _ => rfl
      obtain ⟨constant, isCast⟩ := Option.isSome_iff_exists.mp (accepted item inside notNull)
      exact ⟨item, inside, by rw [isCast, sql_of_sameItem (cast_of isCast) same]⟩
    rw [Option.map_some, Option.any_some, Option.isNone_some, Bool.and_false, Bool.or_false, Bool.eq_iff_iff, sqlSide, includes_iff]
    exact ⟨fun same => same.mp, fun forth => ⟨forth, back⟩⟩

end Rules

section Orders
variable {K : Type} [LinearOrder K] {contract : Contract} {reading : Reading K}

def signTest (operator : SqlOperator) (sign : SignType) : Bool :=
  match operator with
  | .more => 0 < sign
  | .atLeast => 0 ≤ sign
  | .less => sign < 0
  | .atMost => sign ≤ 0
  | .equal | .position => false

def OrderAlike (reading : Reading K) (operator : SqlOperator) (value : FieldValue K) (right : Literal) : Prop :=
  match operator with
  | .more | .atMost => AboveAlike reading value right
  | .less | .atLeast => BelowAlike reading value right
  | .equal | .position => False

def isOrder : SqlOperator → Bool
  | .more | .atLeast | .less | .atMost => true
  | .equal | .position => false

variable [Ring K] [IsStrictOrderedRing K]

theorem order_cast {operator : SqlOperator} (order : isOrder operator = true) {value : FieldValue K} {right : Literal} {constant : SqlValue K}
    (cast : Cast reading value right constant) (ordered : value.type ≠ .boolean) :
    holds operator (value.sql reading) constant = (compareItems reading value.item (literalItem reading right)).any (signTest operator) ↔
      OrderAlike reading operator value right := by
  obtain ⟨sign, isSign, below, above⟩ := compareItems_cast cast ordered
  have isBelow : decide (sign < 0) = itemLess value.item (literalItem reading right) := by rw [Bool.eq_iff_iff, decide_eq_true_eq, below]
  have isAbove : decide (0 < sign) = itemLess (literalItem reading right) value.item := by rw [Bool.eq_iff_iff, decide_eq_true_eq, above]
  have notBelow : decide (0 ≤ sign) = !itemLess value.item (literalItem reading right) := by
    rw [← isBelow, ← decide_not, decide_eq_decide, not_lt]
  have notAbove : decide (sign ≤ 0) = !itemLess (literalItem reading right) value.item := by
    rw [← isAbove, ← decide_not, decide_eq_decide, not_lt]
  rw [isSign, Option.any_some]
  cases operator with
  | more =>
    refine Iff.trans ?_ (aboveAlike_iff cast ordered).symm
    rw [signTest, isAbove]
    exact eq_comm
  | atMost =>
    refine Iff.trans ?_ (aboveAlike_iff cast ordered).symm
    rw [signTest, notAbove, holds, Bool.not_inj_iff]
    exact eq_comm
  | less =>
    refine Iff.trans ?_ (belowAlike_iff cast ordered).symm
    rw [signTest, isBelow]
    exact eq_comm
  | atLeast =>
    refine Iff.trans ?_ (belowAlike_iff cast ordered).symm
    rw [signTest, notBelow, holds, Bool.not_inj_iff]
    exact eq_comm
  | equal => cases order
  | position => cases order

variable {field : TargetField} {type : FormulaType} {path : FieldPath} {row : FieldPath → Option (SqlValue K)} {value : Option (FieldValue K)}

theorem order_answer {operator : SqlOperator} (order : isOrder operator = true) (isRow : row path = value.map (FieldValue.sql reading))
    (typed : ∀ x, value = some x → x.type = type) {right : Literal} {predicate : RowPredicate K}
    (built : orderPredicate contract reading path field type operator right = .ok predicate) :
    ∃ answer, eval holds row predicate = some answer ∧
      (answer = (compareItems reading (itemOf value) (literalItem reading right)).any (signTest operator) ↔
        ∀ x, value = some x → OrderAlike reading operator x right) := by
  unfold orderPredicate at built
  split at built
  next => cases built
  next ordered =>
    obtain ⟨constant, isConstant, rfl⟩ := Library.Failing.attempt_map_ok.mp built
    have isCast := literal_ok isConstant
    by_cases isNumber : type = .number
    · rw [if_pos isNumber]
      refine ⟨_, rfl, ?_⟩
      change holds operator ((row path).getD (.number 0)) constant = _ ↔ _
      rw [isRow]
      cases value with
      | some value =>
        obtain rfl := typed value rfl
        exact (order_cast order (cast_of isCast) ordered).trans ⟨fun alike x same => Option.some.inj same ▸ alike, fun alike => alike value rfl⟩
      | none =>
        -- a missing number stands for zero on both sides
        subst isNumber
        have cast : Cast reading (.number 0) right constant := cast_of isCast
        refine iff_of_true ?_ (fun x never => by cases never)
        have same := (order_cast order cast ordered).mpr (by cases cast; cases operator <;> trivial)
        cases cast with
        | number _ json => exact same
    · rw [if_neg isNumber, eval_orFalse_test, isRow]
      refine ⟨_, rfl, ?_⟩
      cases value with
      | some value =>
        obtain rfl := typed value rfl
        exact (order_cast order (cast_of isCast) ordered).trans ⟨fun alike x same => Option.some.inj same ▸ alike, fun alike => alike value rfl⟩
      | none =>
        refine iff_of_true ?_ (fun x never => by cases never)
        cases right with
        | number json =>
          cases type with
          | number => exact absurd rfl isNumber
          | _ => cases isCast
        | _ => rfl

omit [Ring K] [IsStrictOrderedRing K] in
theorem eval_negation {predicate : RowPredicate K} {answer : Bool} (isEval : eval holds row predicate = some answer) :
    eval holds row (.negation predicate) = some !answer := by
  rw [eval, isEval]
  rfl

omit [Ring K] [IsStrictOrderedRing K] in
theorem eval_blank (isRow : row path = value.map (FieldValue.sql reading)) (typed : ∀ x, value = some x → x.type = type) :
    eval holds row (blankPredicate path type) = some (empty (itemOf value)) := by
  unfold blankPredicate
  split
  next isText =>
    change some (holds .equal ((row path).getD (.text [])) (.text [])) = _
    rw [isRow]
    cases value with
    | none => rfl
    | some value =>
      cases value with
      | text chars =>
        refine congrArg some (decide_eq_decide.mpr ?_)
        exact SqlValue.text.injEq .. ▸ ⟨fun same => by rw [same]; rfl, fun same => utf16_inj same⟩
      | _ => cases (typed _ rfl).trans isText
  next notText =>
    change some (row path).isNone = _
    rw [isRow]
    cases value with
    | none => rfl
    | some value =>
      cases value with
      | text chars => exact absurd (typed _ rfl).symm notText
      | date text isDate =>
        refine congrArg some (decide_eq_false ?_).symm
        rintro rfl
        cases isDate
      | timestamp text written => exact congrArg some (decide_eq_false written).symm
      | _ => rfl

omit [IsStrictOrderedRing K] in
theorem evaluateRule_of_value (operator : RuleOperator) (value : Option (FieldValue K)) (right : Literal) :
    evaluateRule reading operator (itemOf value) (literalItem reading right) =
      match operator with
      | .equals => sameItem (itemOf value) (literalItem reading right)
      | .notEquals => !sameItem (itemOf value) (literalItem reading right)
      | .«in» => includes ((listItems right).map (literalItem reading)) (itemOf value)
      | .notIn => !includes ((listItems right).map (literalItem reading)) (itemOf value)
      | .isEmpty => empty (itemOf value)
      | .isNotEmpty => !empty (itemOf value)
      | .contains => holdsText (itemOf value) (literalItem reading right)
      | .notContains => !holdsText (itemOf value) (literalItem reading right)
      | .greaterThan => (compareItems reading (itemOf value) (literalItem reading right)).any (signTest .more)
      | .greaterThanOrEquals => (compareItems reading (itemOf value) (literalItem reading right)).any (signTest .atLeast)
      | .lessThan => (compareItems reading (itemOf value) (literalItem reading right)).any (signTest .less)
      | .lessThanOrEquals => (compareItems reading (itemOf value) (literalItem reading right)).any (signTest .atMost) := by
  rw [← list_of_literal]
  cases value with
  | none => cases operator <;> rfl
  | some stored => cases stored <;> cases operator <;> rfl

/-- One rule: decided on every row, and answered alike exactly where its value and its literal are alike. -/
theorem rule_meaning {operator : RuleOperator} (isRow : row path = value.map (FieldValue.sql reading)) (typed : ∀ x, value = some x → x.type = type)
    {right : Literal} {predicate : RowPredicate K} (built : rulePredicate contract reading path field type operator right = .ok predicate) :
    ∃ answer, eval holds row predicate = some answer ∧
      (answer = evaluateRule reading operator (itemOf value) (literalItem reading right) ↔ RuleAlike reading operator right value) := by
  have ordered : ∀ {order : SqlOperator}, isOrder order = true → orderPredicate contract reading path field type order right = .ok predicate →
      (∀ stored, RuleAlike reading operator right (some stored) ↔ OrderAlike reading order stored right) → ∃ answer, eval holds row predicate = some answer ∧
        (answer = (compareItems reading (itemOf value) (literalItem reading right)).any (signTest order) ↔ RuleAlike reading operator right value) := by
    intro order isOrder built alike
    obtain ⟨answer, isEval, same⟩ := order_answer isOrder isRow typed built
    refine ⟨answer, isEval, same.trans ?_⟩
    cases value with
    | none => exact iff_of_true (fun x never => by cases never) trivial
    | some stored => exact ⟨fun every => (alike stored).mpr (every stored rfl), fun one x same => Option.some.inj same ▸ (alike stored).mp one⟩
  rw [evaluateRule_of_value]
  unfold rulePredicate at built
  cases operator with
  | equals =>
    dsimp only at built ⊢
    split at built
    next isNull =>
      cases built
      cases right with
      | null =>
        exact ⟨_, rfl, iff_of_true (null_answer isRow typed) (by cases value with | none => trivial | some stored => cases stored <;> trivial)⟩
      | _ => cases isNull
    next =>
      obtain ⟨constant, isConstant, rfl⟩ := Library.Failing.attempt_map_ok.mp built
      exact ⟨_, eval_orFalse_test .., equal_answer isRow typed (literal_ok isConstant)⟩
  | notEquals =>
    dsimp only at built ⊢
    split at built
    next isNull =>
      cases built
      cases right with
      | null =>
        refine ⟨_, rfl, iff_of_true ?_ (by cases value with | none => trivial | some stored => cases stored <;> trivial)⟩
        change (row path).isSome = !sameItem (itemOf value) .null
        rw [← null_answer isRow typed, Option.not_isNone]
      | _ => cases isNull
    next =>
      obtain ⟨constant, isConstant, rfl⟩ := Library.Failing.attempt_map_ok.mp built
      refine ⟨_, rfl, Iff.trans ?_ (equal_answer isRow typed (literal_ok isConstant))⟩
      have isDistinct : distinct (row path) constant = !(row path).any fun value => holds .equal value constant := by
        unfold distinct
        cases row path with
        | none => rfl
        | some value => simp [holds]
      rw [Operand.read.eq_1, isDistinct, Bool.not_inj_iff]
  | «in» => exact member_answer isRow typed built
  | notIn =>
    obtain ⟨inner, isInner, rfl⟩ := Library.Failing.attempt_map_ok.mp built
    obtain ⟨answer, isEval, same⟩ := member_answer isRow typed isInner
    exact ⟨_, eval_negation isEval, Iff.trans Bool.not_inj_iff same⟩
  | isEmpty =>
    cases built
    exact ⟨_, eval_blank isRow typed, iff_of_true rfl (by cases value <;> trivial)⟩
  | isNotEmpty =>
    cases built
    exact ⟨_, eval_negation (eval_blank isRow typed), iff_of_true rfl (by cases value <;> trivial)⟩
  | contains => exact contains_answer isRow typed built
  | notContains =>
    obtain ⟨inner, isInner, rfl⟩ := Library.Failing.attempt_map_ok.mp built
    obtain ⟨answer, isEval, same⟩ := contains_answer isRow typed isInner
    exact ⟨_, eval_negation isEval, Iff.trans Bool.not_inj_iff same⟩
  | greaterThan => exact ordered (by decide) built fun _ => Iff.rfl
  | greaterThanOrEquals => exact ordered (by decide) built fun _ => Iff.rfl
  | lessThan => exact ordered (by decide) built fun _ => Iff.rfl
  | lessThanOrEquals => exact ordered (by decide) built fun _ => Iff.rfl

end Orders

section Conditions
variable {K : Type} [Ring K] [LinearOrder K] {contract : Contract} {reading : Reading K}
variable {fields : List (FieldPath × TargetField × FormulaType)} {values : FieldPath → Option (FieldValue K)}

def Typed (fields : List (FieldPath × TargetField × FormulaType)) (values : FieldPath → Option (FieldValue K)) : Prop :=
  ∀ entry ∈ fields, ∀ stored, values entry.1 = some stored → stored.type = entry.2.2

def rowOf (reading : Reading K) (values : FieldPath → Option (FieldValue K)) (path : FieldPath) : Option (SqlValue K) :=
  (values path).map (FieldValue.sql reading)

def itemsOf (values : FieldPath → Option (FieldValue K)) (path : FieldPath) : Item K := itemOf (values path)

mutual

def RulesAlike (reading : Reading K) (values : FieldPath → Option (FieldValue K)) : Condition → Prop
  | .rule left operator right => RuleAlike reading operator right (values left)
  | .group _ children => ChildrenAlike reading values children

def ChildrenAlike (reading : Reading K) (values : FieldPath → Option (FieldValue K)) : List Condition → Prop
  | [] => True
  | child :: rest => RulesAlike reading values child ∧ ChildrenAlike reading values rest

end

theorem rulePredicate_meaning [IsStrictOrderedRing K] (typed : Typed fields values) {left : FieldPath} {operator : RuleOperator} {right : Literal}
    {predicate : RowPredicate K} (built : conditionPredicate contract reading fields (.rule left operator right) = .ok predicate) :
    ∃ answer, eval holds (rowOf reading values) predicate = some answer ∧
      (answer = evaluateCondition reading (itemsOf values) (.rule left operator right) ↔ RuleAlike reading operator right (values left)) := by
  rw [conditionPredicate] at built
  cases isEntry : fields.find? fun entry => entry.1 = left with
  | none =>
    rw [isEntry] at built
    cases built
  | some entry =>
    rw [isEntry] at built
    have named : entry.1 = left := by simpa using List.find?_some isEntry
    have fits : ∀ stored, values left = some stored → stored.type = entry.2.2 := fun stored isValue =>
      typed _ (List.mem_of_find?_eq_some isEntry) stored (named ▸ isValue)
    exact rule_meaning rfl fits built

theorem evaluateSome_eq (items : FieldPath → Item K) (children : List Condition) :
    evaluateSome reading items children = children.any (evaluateCondition reading items) := by
  induction children with
  | nil => rfl
  | cons child rest ih => rw [evaluateSome, ih, List.any_cons]

theorem evaluateEvery_eq (items : FieldPath → Item K) (children : List Condition) :
    evaluateEvery reading items children = children.all (evaluateCondition reading items) := by
  induction children with
  | nil => rfl
  | cons child rest ih => rw [evaluateEvery, ih, List.all_cons]

mutual

theorem predicate_meaning [IsStrictOrderedRing K] (typed : Typed fields values) : ∀ {condition : Condition} {predicate : RowPredicate K},
    conditionPredicate contract reading fields condition = .ok predicate → ∃ answer, eval holds (rowOf reading values) predicate = some answer ∧
      (RulesAlike reading values condition → answer = evaluateCondition reading (itemsOf values) condition)
  | .rule left operator right, predicate, built => by
    obtain ⟨answer, isEval, same⟩ := rulePredicate_meaning typed built
    exact ⟨answer, isEval, same.mpr⟩
  | .group any children, predicate, built => by
    rw [conditionPredicate] at built
    obtain ⟨parts, areParts, rfl⟩ := Library.Failing.attempt_map_ok.mp built
    obtain ⟨answers, areAnswers, same⟩ := children_meaning typed areParts
    rw [evaluateCondition, evaluateSome_eq, evaluateEvery_eq]
    cases any with
    | true =>
      refine ⟨answers.any id, ?_, fun alike => ?_⟩
      · rw [if_pos rfl, eval, areAnswers, anyOf_map answers fun _ _ => rfl]
        rfl
      · rw [if_pos rfl, same alike, List.any_map]
        rfl
    | false =>
      refine ⟨answers.all id, ?_, fun alike => ?_⟩
      · rw [if_neg Bool.false_ne_true, eval, areAnswers, allOf_map answers fun _ _ => rfl]
        rfl
      · rw [if_neg Bool.false_ne_true, same alike, List.all_map]
        rfl

theorem children_meaning [IsStrictOrderedRing K] (typed : Typed fields values) : ∀ {children : List Condition} {parts : List (RowPredicate K)},
    childPredicates contract reading fields children = .ok parts → ∃ answers : List Bool,
      evalEach holds (rowOf reading values) parts = answers.map some ∧
        (ChildrenAlike reading values children → answers = children.map (evaluateCondition reading (itemsOf values)))
  | [], parts, built => by
    rw [childPredicates] at built
    cases built
    exact ⟨[], rfl, fun _ => rfl⟩
  | child :: rest, parts, built => by
    rw [childPredicates] at built
    obtain ⟨part, isPart, built⟩ := Library.Failing.attempt_bind_ok.mp built
    obtain ⟨others, areOthers, rfl⟩ := Library.Failing.attempt_map_ok.mp built
    obtain ⟨answer, isAnswer, first⟩ := predicate_meaning typed isPart
    obtain ⟨answers, areAnswers, later⟩ := children_meaning typed areOthers
    refine ⟨answer :: answers, ?_, fun alike => ?_⟩
    · rw [evalEach, isAnswer, areAnswers, List.map_cons]
    · rw [List.map_cons, ← first alike.1, ← later alike.2]

end

/-- A rollup's predicate is decided on every row and says what its condition says where every rule finds its
value and its literal alike; a rule that stands alone says it nowhere else. -/
theorem condition_meaning [IsStrictOrderedRing K] (typed : Typed fields values) {condition : Condition} {predicate : RowPredicate K}
    (built : conditionPredicate contract reading fields condition = .ok predicate) :
    eval holds (rowOf reading values) predicate ≠ none ∧
      (RulesAlike reading values condition →
        (eval holds (rowOf reading values) predicate = some true ↔ evaluateCondition reading (itemsOf values) condition = true)) ∧
      ∀ left operator right, condition = .rule left operator right →
        ((eval holds (rowOf reading values) predicate = some true ↔ evaluateCondition reading (itemsOf values) condition = true) ↔
          RulesAlike reading values condition) := by
  obtain ⟨answer, isEval, same⟩ := predicate_meaning typed built
  rw [isEval]
  refine ⟨Option.some_ne_none _, fun alike => ?_, ?_⟩
  · rw [Option.some_inj, same alike]
  · rintro left operator right rfl
    obtain ⟨also, isAlso, exactly⟩ := rulePredicate_meaning typed built
    obtain rfl := Option.some.inj (isEval.symm.trans isAlso)
    rw [Option.some_inj, ← Bool.eq_iff_iff, exactly]
    rfl

end Conditions

section Texts
variable {K : Type} {reading : Reading K} {chars : List Char} {literal : Text} (wellFormed : WellFormed literal)
include wellFormed

end Texts

section Runs

def taskContract : Contract where
  entities := []
  once := List.nodup_nil
  childRelations _ := []
  readAccess _ := none
  tables _ := none
  baseType _ := none
  parsesTime _ := true

def titleField : TargetField := ⟨js "Task", .authored (js "title"), .formula .text, js "Task.title", none⟩

def taskFields : List (FieldPath × TargetField × FormulaType) := [(.authored (js "title"), titleField, .text)]

def asRead : Reading ℚ := ⟨fun _ => 0, fun _ => none, fun _ => 0⟩

/-- A title of one character of two code units, and a bound of one from U+E000 to U+FFFF. -/
def titled : FieldPath → Option (FieldValue ℚ) := fun path => if path = .authored (js "title") then some (.text [Char.ofNat 0x1F600]) else none

def afterReplacement : Condition := .rule (.authored (js "title")) .greaterThan (.text [0xFFFD])

theorem typed_titled : Typed taskFields titled := by
  intro entry member stored isValue
  rw [List.mem_singleton.mp member] at isValue ⊢
  have isText : stored = .text [Char.ofNat 0x1F600] := (Option.some.inj isValue).symm
  rw [isText]
  rfl

theorem condition_meaning_counterexample : conditionPaths 0 afterReplacement = .ok [.authored (js "title")] ∧ Typed taskFields titled ∧
    ∃ predicate, conditionPredicate taskContract asRead taskFields afterReplacement = .ok predicate ∧
      ¬(eval holds (rowOf asRead titled) predicate = some true ↔ evaluateCondition asRead (itemsOf titled) afterReplacement = true) :=
  ⟨by decide +kernel, typed_titled, _, rfl, by decide +kernel⟩

def unlikeA : Condition := .group false [.rule (.authored (js "title")) .isNotEmpty .null, .rule (.authored (js "title")) .notEquals (.text (js "a"))]

theorem condition_meaning_titled : ∃ predicate, conditionPredicate taskContract asRead taskFields unlikeA = .ok predicate ∧
    eval holds (rowOf asRead titled) predicate ≠ none ∧
    (eval holds (rowOf asRead titled) predicate = some true ↔ evaluateCondition asRead (itemsOf titled) unlikeA = true) := by
  have alike : RulesAlike asRead titled unlikeA := ⟨trivial, fun same => absurd same (by decide +kernel), trivial⟩
  obtain ⟨predicate, built⟩ : ∃ predicate, conditionPredicate taskContract asRead taskFields unlikeA = .ok predicate := ⟨_, rfl⟩
  obtain ⟨decided, same, -⟩ := condition_meaning typed_titled built
  exact ⟨predicate, built, decided, same alike⟩

end Runs

end OpenShapeForge.Extensions.ConditionMeaning
