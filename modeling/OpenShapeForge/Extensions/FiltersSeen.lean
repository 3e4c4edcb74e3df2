import OpenShapeForge.Extensions.FieldFilters
import OpenShapeForge.Js.Exact
import OpenShapeForge.Js.TextOrder
import OpenShapeForge.Library.Failing

/-! A filter on a tenant field against what readers see of it (extensionFilterCondition in
apps/api/src/operations/entity/extensions/query.ts): they agree, but for a collection that was
emptied under a default. -/

namespace OpenShapeForge.Extensions.FiltersSeen
open Js TypedIndex FieldFilters Operations.FieldValues
open Operations.FieldVariables (sameValueZero)
open Library.Failing

section Shapes
variable {N : Type} [JsNumber N] {entry : Entry} (field : StoredField entry N)

theorem shape_numeric (numeric : isNumeric field.shape = true) :
    field.shape.column = .number ∧ field.shape.projection = none ∧ field.shape.collection = false := by
  have valid := field.valid
  unfold validDefinition at valid
  unfold isNumeric StoredField.shape at *
  simp only [Bool.and_eq_true, Bool.or_eq_true, decide_eq_true_eq] at valid numeric
  have several := valid.1.1.2
  have static := valid.1.1.1.2
  unfold extensionShape at *
  dsimp only at *
  split at numeric
  next => simp at numeric
  next notReference =>
    rw [if_neg notReference] at static ⊢
    rw [if_neg notReference]
    rcases numeric with integer | number
    · rw [integer] at static ⊢
      refine ⟨rfl, rfl, ?_⟩
      simp [notReference] at several static
      simpa [static] using several
    · rw [number] at static ⊢
      refine ⟨rfl, rfl, ?_⟩
      simp [notReference] at several static
      simpa [static] using several

theorem shape_collection (several : field.shape.collection = true) :
    field.shape.projection = none ∧ (field.shape.column = .text ∨ field.shape.column = .ref) ∧ isNumeric field.shape = false := by
  have valid := field.valid
  unfold validDefinition at valid
  unfold isNumeric StoredField.shape at *
  simp only [Bool.and_eq_true, Bool.or_eq_true, decide_eq_true_eq, Bool.not_eq_true'] at valid
  have severalFor := valid.1.1.2
  have static := valid.1.1.1.2
  rw [several] at severalFor
  unfold extensionShape at *
  dsimp only at *
  by_cases reference : field.definition.osfType ∈ entry.targets
  · simp [reference]
  · simp [reference] at severalFor static ⊢
    have base := static.resolve_left (by rw [severalFor]; decide)
    simp [base]

theorem shape_projected {projection : List (IndexColumn × Text)} (projected : field.shape.projection = some projection) :
    isNumeric field.shape = false ∧ field.shape.collection = false ∧
      ((componentOf projection .number).isSome = true → field.shape.column = .number) := by
  have notSeveral : field.shape.collection = false := by
    by_contra several
    have none := (shape_collection field (Bool.not_eq_false _ ▸ several)).1
    rw [projected] at none
    cases none
  refine ⟨?_, notSeveral, ?_⟩
  · by_contra numeric
    have none := (shape_numeric field (Bool.not_eq_false _ ▸ numeric)).2.1
    rw [projected] at none
    cases none
  · intro hasNumber
    unfold StoredField.shape extensionShape at projected ⊢
    dsimp only at projected ⊢
    by_cases reference : field.definition.osfType ∈ entry.targets
    · simp [reference] at projected
    · simp only [reference, decide_false, Bool.false_eq_true, if_false] at projected ⊢
      split at projected
      next isObject =>
        have any : projection.any (fun component => component.1 = .number) = true := by
          unfold componentOf at hasNumber
          rw [Option.isSome_map, List.find?_isSome] at hasNumber
          exact List.any_eq_true.mpr hasNumber
        rw [isObject]
        dsimp only
        rw [if_pos rfl, projected, Option.getD_some, any]
        rfl
      next => cases projected

end Shapes

section Alike
variable {N : Type} [JsNumber N]

structure NumberTexts (N : Type) [JsNumber N] : Prop where
  finite : ∀ value : N, JsNumber.isFinite value = true → JsNumber.isFinite (JsNumber.ofText (JsNumber.toText value) : N) = true
  difference : ∀ value other : N, JsNumber.isFinite value = true → JsNumber.isFinite other = true →
    signOfDifference (JsNumber.ofText (JsNumber.toText value)) other = signOfDifference value other

structure Alike (kind : QueryKind) (a b : Value N) : Prop where
  nullish : a.isNullish = b.isNullish
  order : ∀ operand, FieldFilters.order kind a operand = FieldFilters.order kind b operand
  text : kind = .text → a = b

theorem Alike.refl (kind : QueryKind) (value : Value N) : Alike kind value value := ⟨rfl, fun _ => rfl, fun _ => rfl⟩

theorem Alike.symm {kind : QueryKind} {a b : Value N} (alike : Alike kind a b) : Alike kind b a :=
  ⟨alike.nullish.symm, fun operand => (alike.order operand).symm, fun isText => (alike.text isText).symm⟩

theorem Alike.trans {kind : QueryKind} {a b c : Value N} (first : Alike kind a b) (second : Alike kind b c) : Alike kind a c :=
  ⟨first.nullish.trans second.nullish, fun operand => (first.order operand).trans (second.order operand),
    fun isText => (first.text isText).trans (second.text isText)⟩

theorem alike_numberOf (value : Value N) : Alike .number (numberOf value) value := by
  unfold numberOf
  split
  next text =>
    split
    next => exact .refl ..
    next =>
      split
      next => exact ⟨rfl, fun _ => rfl, fun never => by cases never⟩
      next => exact .refl ..
  next => exact .refl ..

def indexedValue (column : IndexColumn) (value : Value N) : Value N :=
  match column with
  | .number => .number (JsNumber.ofText (valueText value))
  | _ => value

theorem alike_indexed (texts : NumberTexts N) {column : IndexColumn} {value : Value N} (fits : fitsColumn column value = true) :
    Alike (kindOf column) (indexedValue column value) value := by
  unfold indexedValue
  split
  next =>
    cases value with
    | number value =>
      refine ⟨rfl, fun operand => ?_, fun never => by cases never⟩
      show finiteOrder (JsNumber.ofText (JsNumber.toText value)) (toNumber operand) = finiteOrder value (toNumber operand)
      have finite : JsNumber.isFinite value = true := fits
      unfold finiteOrder
      rw [finite, texts.finite value finite]
      split
      next both =>
        rw [Bool.true_and] at both
        rw [texts.difference value _ finite both]
      next => rfl
    | text text => exact ⟨rfl, fun _ => rfl, fun never => by cases never⟩
    | _ => cases fits
  next => exact .refl ..

theorem notNullish_of_fits {column : IndexColumn} {value : Value N} (fits : fitsColumn column value = true) : value.isNullish = false := by
  cases value with
  | undefined => cases column <;> cases fits
  | null => cases column <;> cases fits
  | _ => rfl

variable [Unicode]

theorem satisfies_alike {kind : QueryKind} {operator : Text} {operand a b : Value N} (checked : checkOperator kind operator operand = .ok ())
    (alike : Alike kind a b) : scalarSatisfies kind operator operand a = scalarSatisfies kind operator operand b := by
  by_cases isText : kind = .text
  · rw [alike.text isText]
  have noTextOperator : operator ≠ js "contains" ∧ operator ≠ js "startsWith" := by
    constructor
    · rintro rfl
      unfold checkOperator at checked
      rw [if_neg (by decide), if_neg (by decide), if_neg (by decide), if_neg fun both => isText both.1] at checked
      cases checked
    · rintro rfl
      unfold checkOperator at checked
      rw [if_neg (by decide), if_neg (by decide), if_neg (by decide), if_neg fun both => isText both.1] at checked
      cases checked
  unfold scalarSatisfies
  simp only [alike.nullish, alike.order, if_neg noTextOperator.1, if_neg noTextOperator.2]

theorem satisfies_nullish {kind : QueryKind} {operator : Text} {operand value : Value N} (nullish : value.isNullish = true)
    (other : operator ≠ js "isNull") : scalarSatisfies kind operator operand value = false := by
  unfold scalarSatisfies
  rw [if_pos nullish, decide_eq_false other, Bool.false_and]

omit [Unicode] in
theorem textOrder_eq_zero {a b : Text} : textOrder a b = 0 ↔ a = b := by
  unfold textOrder
  constructor
  · intro zero
    split at zero
    next => cases zero
    next notLess =>
      split at zero
      next => cases zero
      next notMore => exact eq_of_textLess_false (Bool.not_eq_true _ ▸ notLess) (Bool.not_eq_true _ ▸ notMore)
  · rintro rfl
    have notLess : textLess a a = false := by
      by_contra less
      have isLess : textLess a a = true := Bool.not_eq_false _ ▸ less
      rw [textLess_asymm isLess] at isLess
      cases isLess
    rw [notLess]
    rfl

theorem satisfies_eq_text {text : Text} {operand : Value N} :
    scalarSatisfies .text (js "eq") operand (.text text) = sameValueZero (.text text) operand := by
  unfold scalarSatisfies
  have present : ¬(Value.text text : Value N).isNullish = true := fun never => by cases never
  rw [if_neg present]
  dsimp only
  rw [if_neg (by decide), if_pos rfl]
  cases operand with
  | text other =>
    show decide (some (textOrder text other) = some 0) = decide (text = other)
    exact decide_eq_decide.mpr (Option.some_inj.trans textOrder_eq_zero)
  | _ => rfl

end Alike

section Rows
variable {N : Type} [JsNumber N]

theorem notNull_of_fits {column : IndexColumn} {value : Value N} (fits : fitsColumn column value = true) : StoredValue.isNull value = false :=
  notNullish_of_fits fits

theorem columnValue_scalarRow {column : IndexColumn} {value : Value N} (fits : fitsColumn column value = true) (row : ExtensionIndexRow) :
    columnValue (scalarRow column (some value) row) column = some (indexedValue column value) := by
  unfold scalarRow
  dsimp only
  rw [notNull_of_fits fits, if_neg (by decide)]
  cases value with
  | boolean value =>
    cases column with
    | boolean => cases value <;> rfl
    | _ => cases fits
  | _ => cases column <;> first | rfl | cases fits

theorem columnValue_other {column other : IndexColumn} (different : other ≠ column) (value : Option (Value N)) (row : ExtensionIndexRow) :
    (columnValue (scalarRow column value row) other : Option (Value N)) = columnValue row other := by
  cases value with
  | none => rfl
  | some value =>
    unfold scalarRow
    dsimp only
    split
    next => rfl
    next => cases column <;> cases other <;> first | rfl | exact absurd rfl different

theorem columnValue_components {member : Text → Option (Value N)} : ∀ {projection : List (IndexColumn × Text)} (row : ExtensionIndexRow),
    (projection.map Prod.fst).Nodup → (∀ component ∈ projection, ∃ value, member component.2 = some value ∧ fitsColumn component.1 value = true) →
    ∀ component ∈ projection, ∀ value, member component.2 = some value →
      columnValue (projection.foldl (fun row component => scalarRow component.1 (member component.2) row) row) component.1 =
        some (indexedValue component.1 value)
  | [], _, _, _, _, among, _, _ => absurd among List.not_mem_nil
  | first :: rest, row, nodup, fits, component, among, value, isValue => by
    have apart := List.nodup_cons.mp nodup
    rw [List.foldl_cons]
    rcases List.mem_cons.mp among with rfl | later
    · have kept : ∀ (others : List (IndexColumn × Text)) (row : ExtensionIndexRow), component.1 ∉ others.map Prod.fst →
          (columnValue (others.foldl (fun row component => scalarRow component.1 (member component.2) row) row) component.1 : Option (Value N)) =
            columnValue row component.1 := by
        intro others
        induction others with
        | nil => exact fun _ _ => rfl
        | cons other others ih =>
          intro row absent
          rw [List.map_cons, List.mem_cons, not_or] at absent
          rw [List.foldl_cons, ih _ absent.2, columnValue_other absent.1]
      obtain ⟨other, isOther, fitsOther⟩ := fits component List.mem_cons_self
      obtain rfl := Option.some.inj (isValue.symm.trans isOther)
      rw [kept rest _ apart.1, isValue]
      exact columnValue_scalarRow fitsOther row
    · exact columnValue_components _ apart.2 (fun other member => fits other (List.mem_cons_of_mem _ member)) component later value isValue

variable {entry : Entry} (field : StoredField entry N)

theorem shape_scalar (plain : field.shape.projection = none) : field.shape.baseType ≠ .object := by
  have valid := field.valid
  unfold validDefinition at valid
  simp only [Bool.and_eq_true, Bool.or_eq_true, decide_eq_true_eq] at valid
  refine valid.1.2.resolve_right fun projected => ?_
  rw [show (extensionShape entry field.definition).projection = none from plain] at projected
  cases projected

theorem itemRow_scalar (plain : field.shape.projection = none) {item : Value N} (fits : fitsColumn field.shape.column item = true) (ordinal : Nat) :
    itemRow field.shape item ordinal = some (scalarRow field.shape.column (some item) (.blank ordinal)) := by
  unfold itemRow
  rw [notNull_of_fits fits, if_neg (by decide), plain]
  dsimp only
  rw [if_neg (shape_scalar field plain)]

theorem indexRows_scalar (plain : field.shape.projection = none) (single : field.shape.collection = false) {value : Value N}
    (fits : fitsColumn field.shape.column value = true) :
    indexRows field.shape (some value) = [scalarRow field.shape.column (some value) (.blank 0)] := by
  unfold indexRows
  dsimp only
  rw [notNull_of_fits fits, if_neg (by decide), single, if_neg (by decide), List.zipIdx_singleton, List.filterMap_cons]
  dsimp only
  rw [itemRow_scalar field plain fits]
  rfl

theorem indexRows_collection (plain : field.shape.projection = none) (several : field.shape.collection = true) {items : List (Value N)}
    (fits : ∀ item ∈ items, fitsColumn field.shape.column item = true) :
    indexRows field.shape (some (Value.array items)) = items.zipIdx.map fun item => scalarRow field.shape.column (some item.1) (.blank item.2) := by
  unfold indexRows
  dsimp only
  rw [if_neg (by exact fun never => by cases never), several, if_pos rfl]
  show items.zipIdx.filterMap _ = _
  rw [← List.filterMap_eq_map]
  refine List.filterMap_congr fun item member => ?_
  have among : item.1 ∈ items := by
    obtain ⟨value, ordinal⟩ := item
    exact List.mem_of_getElem? (List.mk_mem_zipIdx_iff_getElem?.mp member)
  exact itemRow_scalar field plain (fits item.1 among) item.2

theorem indexRows_object {projection : List (IndexColumn × Text)} (projected : field.shape.projection = some projection) {members : Members N}
    {member : Text → Option (Value N)} (isMember : StoredValue.members (Value.object members) = some member) :
    indexRows field.shape (some (Value.object members)) =
      [projection.foldl (fun row component => scalarRow component.1 (member component.2) row) (.blank 0)] := by
  have single := (shape_projected field projected).2.1
  unfold indexRows
  dsimp only
  rw [if_neg (by exact fun never => by cases never), single, if_neg (by decide), List.zipIdx_singleton, List.filterMap_cons]
  dsimp only
  unfold itemRow
  rw [if_neg (by exact fun never => by cases never), projected]
  dsimp only
  rw [isMember]
  rfl

end Rows

section Reading
variable {N : Type} [JsNumber N] {entry : Entry} (field : StoredField entry N)

theorem numericValue_null (shape : ExtensionShape) : numericValue shape (.null : Value N) = .null := by
  unfold numericValue
  split
  next => rfl
  next => cases numericComponent shape <;> rfl

theorem numericValue_plain {shape : ExtensionShape} (notNumeric : isNumeric shape = false) (plain : shape.projection = none) (value : Value N) :
    numericValue shape value = value := by
  have noComponent : numericComponent shape = none := by
    unfold numericComponent
    rw [plain]
    rfl
  unfold numericValue
  rw [notNumeric, noComponent]
  rfl

theorem alike_numericValue (plain : field.shape.projection = none) (value : Value N) :
    Alike (kindOf field.shape.column) (numericValue field.shape value) value := by
  cases numeric : isNumeric field.shape with
  | true =>
    have read : numericValue field.shape value = numberOf value := by
      unfold numericValue
      rw [numeric]
      rfl
    rw [read, (shape_numeric field numeric).1]
    exact alike_numberOf value
  | false =>
    rw [numericValue_plain numeric plain]
    exact .refl ..

theorem fits_numberOf {value : Value N} (fits : fitsColumn .number value = true) : fitsColumn .number (numberOf value) = true := by
  unfold numberOf
  split
  next text =>
    split
    next => exact fits
    next =>
      split
      next equal =>
        unfold exactNumericEquals at equal
        split at equal
        next a b readText readNumber =>
          show JsNumber.isFinite (JsNumber.ofText text : N) = true
          by_contra infinite
          unfold exactDecimal at readNumber
          dsimp only at readNumber
          rw [if_neg infinite] at readNumber
          cases readNumber
        next => cases equal
      next => exact fits
  next => exact fits

theorem memberOf_map (members : Members N) (component name : Text) :
    memberOf (.object (members.map fun member => if member.1 = component then (member.1, numberOf member.2) else member)) name =
      if name = component then numberOf (memberOf (.object members) name) else memberOf (.object members) name := by
  unfold memberOf
  show (((members.map _).find? _).map Prod.snd).getD Value.undefined = _
  rw [List.find?_map]
  have names : ((fun member : Text × Value N => decide (member.1 = name)) ∘
      fun member => if member.1 = component then (member.1, numberOf member.2) else member) = fun member => decide (member.1 = name) := by
    funext member
    dsimp only [Function.comp]
    split <;> rfl
  rw [names]
  show _ = if name = component then numberOf (((members.find? fun member => member.1 = name).map Prod.snd).getD .undefined)
    else ((members.find? fun member => member.1 = name).map Prod.snd).getD .undefined
  cases found : members.find? fun member => member.1 = name with
  | none => split <;> rfl
  | some member =>
    have isName : member.1 = name := of_decide_eq_true (List.find?_some found :)
    dsimp only [Option.map_some, Option.getD_some]
    rw [isName]
    split <;> rfl

theorem componentOf_mem {projection : List (IndexColumn × Text)} {column : IndexColumn} {name : Text}
    (found : componentOf projection column = some name) : (column, name) ∈ projection := by
  obtain ⟨component, isComponent, rfl⟩ := Option.map_eq_some_iff.mp found
  have isColumn : component.1 = column := of_decide_eq_true (List.find?_some isComponent :)
  subst isColumn
  exact List.mem_of_find?_eq_some isComponent

theorem components_apart {projection : List (IndexColumn × Text)} (names : (projection.map Prod.snd).Nodup) {one other : IndexColumn × Text}
    (isOne : one ∈ projection) (isOther : other ∈ projection) (same : one.2 = other.2) : one = other :=
  List.inj_on_of_nodup_map names isOne isOther same

theorem numericValue_fits {value : Value N} (fits : fitsValue field.shape value = true) : fitsValue field.shape (numericValue field.shape value) = true := by
  cases numeric : isNumeric field.shape with
  | true =>
    obtain ⟨column, plain, single⟩ := shape_numeric field numeric
    unfold numericValue
    rw [numeric, if_pos rfl]
    unfold fitsValue fitsItem at fits ⊢
    rw [single, if_neg (by decide), plain, column] at fits ⊢
    exact fits_numberOf fits
  | false =>
    cases projected : field.shape.projection with
    | none => rwa [numericValue_plain numeric projected]
    | some projection =>
      have single := (shape_projected field projected).2.1
      unfold numericValue
      rw [numeric, if_neg (by decide)]
      split
      next component members isComponent =>
        unfold fitsValue fitsItem at fits ⊢
        rw [single, if_neg (by decide), projected] at fits ⊢
        dsimp only at fits ⊢
        unfold numericComponent at isComponent
        rw [projected, Option.bind_some] at isComponent
        rw [List.all_eq_true] at fits ⊢
        intro other among
        rw [memberOf_map]
        split
        next same =>
          have isNumber : other = (.number, component) :=
            components_apart (field.components projection projected).2 among (componentOf_mem isComponent) same
          subst isNumber
          exact fits_numberOf (fits _ among)
        next => exact fits other among
      next => exact fits

theorem fits_of_leftBehind {stored : Option (Value N)} (left : LeftBehind field stored) {value : Value N} (isStored : stored = some value) :
    fitsValue field.shape value = true := by
  have step : ∀ {operation : WriteOperation} {before supplied after : Option (Value N)},
      (∀ value, before = some value → fitsValue field.shape value = true) → writeValue field operation before supplied = some after →
      ∀ value, after = some value → fitsValue field.shape value = true := by
    intro operation before supplied after fitsBefore written value isAfter
    unfold writeValue at written
    obtain ⟨prepared, isPrepared, written⟩ := Option.bind_eq_some_iff.mp written
    have fitsPrepared : ∀ value, prepared = some value → fitsValue field.shape value = true := by
      intro value isValue
      split at isPrepared
      next => exact fitsBefore value ((Option.some.inj isPrepared).trans isValue)
      next => exact fitsBefore value ((Option.some.inj isPrepared).trans isValue)
      next =>
        rw [← Option.some.inj isPrepared] at isValue
        cases isValue
      next supplied _ _ =>
        split at isPrepared
        next valid =>
          rw [← Option.some.inj isPrepared] at isValue
          rw [← Option.some.inj isValue]
          exact numericValue_fits field valid.1
        next => cases isPrepared
    dsimp only at written
    obtain ⟨settled, isSettled⟩ : ∃ settled,
        (if blank prepared = true ∧ operation = .create then (field.defaultValue.map (numericValue field.shape)).or prepared else prepared) = settled :=
      ⟨_, rfl⟩
    rw [isSettled] at written
    split at written
    next => cases written
    next =>
      obtain rfl := Option.some.inj written
      rw [isAfter] at isSettled
      split at isSettled
      next =>
        cases isDefault : field.defaultValue with
        | none =>
          rw [isDefault] at isSettled
          exact fitsPrepared value isSettled
        | some default =>
          rw [isDefault] at isSettled
          rw [← Option.some.inj isSettled]
          exact numericValue_fits field (field.fits default isDefault)
      next => exact fitsPrepared value isSettled
  induction left generalizing value with
  | absent => cases isStored
  | create written => exact step (fun _ never => by cases never) written value isStored
  | update _ written ih => exact step (fun _ isBefore => ih isBefore) written value isStored

end Reading

section Conditions
variable {N : Type} [JsNumber N] [Unicode] {entry : Entry} (field : StoredField entry N)

theorem probe_holds (fallback : Option (Value N)) (stored : Probe N) (defaultMatches : Bool) (rows : List ExtensionIndexRow) :
    (probe fallback (.indexed (some stored)) defaultMatches).holds rows =
      if rows = [] then fallback.isSome && defaultMatches else rows.any stored.holds := by
  unfold probe
  cases counts : fallback.isSome && defaultMatches with
  | true =>
    rw [if_pos rfl]
    cases rows with
    | nil => rfl
    | cons row rest =>
      rw [if_neg (List.cons_ne_nil row rest)]
      exact Bool.or_false _
  | false =>
    rw [if_neg (by decide)]
    cases rows with
    | nil => rfl
    | cons row rest => rfl

omit [Unicode] in
theorem structuredFilter_ok {column : IndexColumn} {operators : Members N} {unit : Option Text} {stored : Probe N}
    (ok : structuredFilter column operators unit = .ok stored) :
    stored = { column, operators, unit } ∧ ∀ named ∈ operators, checkOperator (kindOf column) named.1 named.2 = .ok () := by
  unfold structuredFilter at ok
  dsimp only at ok
  split at ok
  next => cases ok
  next =>
    obtain ⟨⟨⟩, -, ok⟩ := attempt_bind_ok.mp ok
    obtain ⟨⟨⟩, checked, ok⟩ := attempt_bind_ok.mp ok
    exact ⟨(Except.ok.inj ok).symm, fun named member => forM_ok checked named member⟩

theorem all_alike {kind : QueryKind} {operators : Members N} {a b : Value N} (alike : Alike kind a b)
    (checked : ∀ named ∈ operators, checkOperator kind named.1 named.2 = .ok ()) :
    (operators.all fun named => scalarSatisfies kind named.1 named.2 a) = operators.all fun named => scalarSatisfies kind named.1 named.2 b := by
  rw [Bool.eq_iff_iff, List.all_eq_true, List.all_eq_true]
  exact forall₂_congr fun named member => by rw [satisfies_alike (checked named member) alike]

variable {field}

omit [Unicode] in
theorem fallback_eq (unconditional : field.appliesWhen = false) : filterableDefault field = field.defaultValue := by
  unfold filterableDefault
  rw [unconditional]
  rfl

theorem satisfiesOperator_scalar {shape : ExtensionShape} (plain : shape.projection = none) (single : shape.collection = false) {seen : Value N}
    {named : Text × Value N} (other : named.1 ≠ js "isNull") :
    satisfiesOperator shape seen named = scalarSatisfies (kindOf shape.column) named.1 named.2 seen := by
  unfold satisfiesOperator
  rw [if_neg other, plain]
  dsimp only
  rw [single]
  rfl

omit [Unicode] in
theorem indexRows_none (shape : ExtensionShape) : indexRows shape (none : Option (Value N)) = [] := rfl

theorem scalar_agrees (texts : NumberTexts N) (unconditional : field.appliesWhen = false) (plain : field.shape.projection = none)
    (single : field.shape.collection = false) {stored : Option (Value N)} (fits : ∀ value, stored = some value → fitsValue field.shape value = true)
    {key : Text} {predicate : Members N} (others : ∀ named ∈ predicate, named.1 ≠ js "isNull") {conditions : List (RankedCondition N)}
    (ok : scalarConditions key field.shape (filterableDefault field) predicate = .ok conditions) :
    (conditions.all fun ranked => ranked.condition.holds (indexRows field.shape stored)) =
      predicate.all (satisfiesOperator field.shape (readValue field stored true)) := by
  have goes : predicate.all (satisfiesOperator field.shape (readValue field stored true)) =
      predicate.all fun named => scalarSatisfies (kindOf field.shape.column) named.1 named.2 (readValue field stored true) := by
    rw [Bool.eq_iff_iff, List.all_eq_true, List.all_eq_true]
    exact forall₂_congr fun named member => by rw [satisfiesOperator_scalar plain single (others named member)]
  have fitsScalar : ∀ value : Value N, fitsValue field.shape value = true → fitsColumn field.shape.column value = true := by
    intro value fits
    unfold fitsValue fitsItem at fits
    rwa [single, if_neg (by decide), plain] at fits
  rw [goes]
  unfold scalarConditions at ok
  cases predicate with
  | nil =>
    obtain rfl := Except.ok.inj ok
    rfl
  | cons first rest =>
    rw [if_neg (by simp)] at ok
    obtain ⟨probed, filtered, ok⟩ := attempt_bind_ok.mp ok
    obtain ⟨rfl, checked⟩ := structuredFilter_ok filtered
    obtain rfl := Except.ok.inj ok
    rw [List.all_cons, List.all_nil, Bool.and_true, probe_holds, fallback_eq unconditional]
    cases stored with
    | none =>
      rw [indexRows_none, if_pos rfl]
      unfold readValue
      rw [Option.getD_none, if_pos rfl]
      cases field.defaultValue with
      | none =>
        rw [Option.getD_none, numericValue_null, List.all_cons, satisfies_nullish rfl (others first List.mem_cons_self), Bool.false_and]
        rfl
      | some default =>
        rw [Option.getD_some, Option.isSome_some, Bool.true_and, Option.any_some]
        exact all_alike (alike_numericValue field plain default).symm checked
    | some value =>
      have fitsThis := fitsScalar value (fits value rfl)
      have rows := indexRows_scalar field plain single fitsThis
      rw [rows, if_neg (List.cons_ne_nil _ _), List.any_cons, List.any_nil, Bool.or_false]
      unfold Probe.holds
      dsimp only
      rw [columnValue_scalarRow fitsThis, Option.any_some]
      have seen : readValue field (some value) true = numericValue field.shape value := rfl
      rw [seen]
      show ((first :: rest).all _ && true) = _
      rw [Bool.and_true]
      exact all_alike ((alike_indexed texts fitsThis).trans (alike_numericValue field plain value).symm) checked

def Emptied (field : StoredField entry N) (stored : Option (Value N)) (predicate : Members N) : Prop :=
  field.shape.collection = true ∧ stored = some (.array []) ∧ ∃ named ∈ predicate, ∃ default, field.defaultValue = some default ∧
    ((StoredValue.items default).getD []).any (fun item => sameValueZero item named.2) = true

omit [Unicode] in
theorem fits_items (several : field.shape.collection = true) {items : List (Value N)} (fits : fitsValue field.shape (.array items) = true) :
    ∀ item ∈ items, fitsColumn field.shape.column item = true := by
  unfold fitsValue at fits
  rw [several, if_pos rfl] at fits
  intro item member
  have fitsItem := List.all_eq_true.mp fits item member
  unfold FieldFilters.fitsItem at fitsItem
  rwa [(shape_collection field several).1] at fitsItem

theorem rows_contain (several : field.shape.collection = true) {items : List (Value N)} (fits : fitsValue field.shape (.array items) = true)
    (operand : Value N) :
    (indexRows field.shape (some (Value.array items))).any (Probe.holds { column := field.shape.column, operators := [(js "eq", operand)], unit := none }) =
      items.any fun item => sameValueZero item operand := by
  obtain ⟨plain, column, -⟩ := shape_collection field several
  have fitsEach := fits_items several fits
  have isText : ∀ item ∈ items, ∃ text, item = .text text := by
    intro item member
    have fitsThis := fitsEach item member
    cases item with
    | text text => exact ⟨text, rfl⟩
    | _ => rcases column with column | column <;> rw [column] at fitsThis <;> cases fitsThis
  rw [indexRows_collection field plain several fitsEach, List.any_map]
  have each : ∀ entry ∈ items.zipIdx, (Probe.holds { column := field.shape.column, operators := [(js "eq", operand)], unit := none } ∘
      fun item => scalarRow field.shape.column (some item.1) (.blank item.2)) entry = sameValueZero entry.1 operand := by
    rintro ⟨item, ordinal⟩ among
    have member : item ∈ items := List.mem_of_getElem? (List.mk_mem_zipIdx_iff_getElem?.mp among)
    obtain ⟨text, rfl⟩ := isText item member
    show Probe.holds _ (scalarRow field.shape.column (some (Value.text text)) (.blank ordinal)) = _
    unfold Probe.holds
    dsimp only
    rw [columnValue_scalarRow (fitsEach _ member), Option.any_some, List.all_cons, List.all_nil]
    show ((_ && true) && true) = _
    rw [Bool.and_true, Bool.and_true]
    rcases column with column | column
    · rw [column]
      exact satisfies_eq_text
    · rw [column]
      exact satisfies_eq_text
  rw [Bool.eq_iff_iff, List.any_eq_true, List.any_eq_true]
  constructor
  · rintro ⟨⟨item, ordinal⟩, among, holds⟩
    rw [each _ among] at holds
    exact ⟨item, List.mem_of_getElem? (List.mk_mem_zipIdx_iff_getElem?.mp among), holds⟩
  · rintro ⟨item, member, same⟩
    obtain ⟨ordinal, inBounds, isItem⟩ := List.getElem_of_mem member
    have among : (item, ordinal) ∈ items.zipIdx := List.mk_mem_zipIdx_iff_getElem?.mpr (List.getElem?_eq_some_iff.mpr ⟨inBounds, isItem⟩)
    exact ⟨(item, ordinal), among, (each _ among).trans same⟩

theorem collection_agrees (unconditional : field.appliesWhen = false) (several : field.shape.collection = true) {stored : Option (Value N)}
    (fits : ∀ value, stored = some value → fitsValue field.shape value = true) {key : Text} (operand : Value N) {conditions : List (RankedCondition N)}
    (ok : collectionConditions key field.shape (filterableDefault field) [(js "contains", operand)] = .ok conditions) :
    (conditions.all fun ranked => ranked.condition.holds (indexRows field.shape stored)) =
        [(js "contains", operand)].all (satisfiesOperator field.shape (readValue field stored true)) ↔
      ¬Emptied field stored [(js "contains", operand)] := by
  obtain ⟨plain, -, notNumeric⟩ := shape_collection field several
  have reads : [(js "contains", operand)].all (satisfiesOperator field.shape (readValue field stored true)) =
      ((StoredValue.items (stored.getD (field.defaultValue.getD .null))).getD []).any fun item => sameValueZero item operand := by
    rw [List.all_cons, List.all_nil, Bool.and_true]
    unfold readValue satisfiesOperator
    rw [numericValue_plain notNumeric plain, if_neg (show js "contains" ≠ js "isNull" by decide), plain]
    dsimp only
    rw [several]
    rfl
  unfold collectionConditions at ok
  have found : operandOf [(js "contains", operand)] (js "contains") = some operand := rfl
  rw [found] at ok
  dsimp only at ok
  obtain ⟨probed, filtered, ok⟩ := attempt_bind_ok.mp ok
  obtain ⟨rfl, -⟩ := structuredFilter_ok filtered
  obtain rfl := Except.ok.inj ok
  rw [reads, List.all_cons, List.all_nil, Bool.and_true, probe_holds, fallback_eq unconditional]
  have counts : ∀ default : Option (Value N), (default.isSome &&
      default.any fun value => ((StoredValue.items value).getD []).any fun item => sameValueZero item operand) =
      ((StoredValue.items (default.getD .null)).getD []).any fun item => sameValueZero item operand := by
    intro default
    cases default with
    | none => rfl
    | some default => exact Bool.true_and _
  cases stored with
  | none =>
    rw [indexRows_none, if_pos rfl, counts]
    refine iff_of_true rfl ?_
    rintro ⟨-, never, -⟩
    cases never
  | some value =>
    have fitsThis := fits value rfl
    cases value with
    | array items =>
      cases items with
      | nil =>
        have noRows : indexRows field.shape (some (.array [] : Value N)) = [] := by
          rw [indexRows_collection field plain several (fun _ never => absurd never List.not_mem_nil)]
          rfl
        rw [noRows, if_pos rfl, counts]
        show _ = false ↔ _
        rw [← Bool.not_eq_true, not_iff_not]
        constructor
        · intro holds
          cases isDefault : field.defaultValue with
          | none =>
            rw [isDefault] at holds
            cases holds
          | some default =>
            rw [isDefault] at holds
            exact ⟨several, rfl, _, List.mem_singleton_self _, default, isDefault, holds⟩
        · rintro ⟨-, -, named, among, default, isDefault, holds⟩
          obtain rfl := List.mem_singleton.mp among
          rw [isDefault]
          exact holds
      | cons first rest =>
        have someRow : indexRows field.shape (some (Value.array (first :: rest))) ≠ [] := by
          rw [indexRows_collection field plain several (fits_items several fitsThis), List.zipIdx_cons]
          exact List.cons_ne_nil _ _
        rw [if_neg someRow, rows_contain several fitsThis]
        refine iff_of_true rfl ?_
        rintro ⟨-, never, -⟩
        cases never
    | _ =>
      unfold fitsValue at fitsThis
      rw [several] at fitsThis
      cases fitsThis

omit [JsNumber N] [Unicode] in
theorem compoundPredicate_ok {key : Text} {projection : List (IndexColumn × Text)} {predicate : Members N} {compound : CompoundPredicate N}
    (ok : compoundPredicate key projection predicate = .ok compound) :
    componentOf projection .number = some compound.number ∧ componentOf projection .text = some compound.unit ∧
      operandOf predicate compound.number = some (.object compound.operators) ∧
      operandOf predicate compound.unit = some (.object [(js "eq", .text compound.value)]) ∧ compound.operators ≠ [] ∧
      ∀ named ∈ predicate, named.1 = compound.number ∨ named.1 = compound.unit := by
  unfold compoundPredicate at ok
  dsimp only at ok
  split at ok
  next number unit isNumber isUnit =>
    split at ok
    next operators equals value hasNumber hasUnit =>
      split at ok
      next fine =>
        obtain rfl := Except.ok.inj ok
        simp only [Bool.and_eq_true, List.all_eq_true, Bool.or_eq_true, decide_eq_true_eq, Bool.not_eq_true', List.isEmpty_eq_false_iff] at fine
        obtain ⟨⟨names, nonempty⟩, rfl⟩ := fine
        exact ⟨isNumber, isUnit, hasNumber, hasUnit, nonempty, names⟩
      next => cases ok
    next => cases ok
  next => cases ok

omit [JsNumber N] [Unicode] in
theorem operandOf_mem {predicate : Members N} {operator : Text} {operand : Value N} (found : operandOf predicate operator = some operand) :
    (operator, operand) ∈ predicate := by
  obtain ⟨named, isNamed, rfl⟩ := Option.map_eq_some_iff.mp found
  have isOperator : named.1 = operator := of_decide_eq_true (List.find?_some isNamed :)
  subst isOperator
  exact List.mem_of_find?_eq_some isNamed

omit [Unicode] in
theorem memberOf_numericValue {projection : List (IndexColumn × Text)} (projected : field.shape.projection = some projection) {number : Text}
    (isNumber : componentOf projection .number = some number) (members : Members N) (name : Text) :
    memberOf (numericValue field.shape (.object members)) name =
      if name = number then numberOf (memberOf (.object members) name) else memberOf (.object members) name := by
  have component : numericComponent field.shape = some number := by
    unfold numericComponent
    rw [projected]
    exact isNumber
  unfold numericValue
  rw [(shape_projected field projected).1, if_neg (by decide), component]
  exact memberOf_map members number name

/-- A unit and a number against an object, as the filter and the reader compare them. -/
def meetsCompound (compound : CompoundPredicate N) (value : Value N) : Bool :=
  sameValueZero (memberOf value compound.unit) (.text compound.value) &&
    compound.operators.all fun named => scalarSatisfies .number named.1 named.2 (memberOf value compound.number)

theorem satisfies_eq_iff {value : Value N} {text : Text} :
    scalarSatisfies .text (js "eq") (.text text) value = sameValueZero value (.text text) := by
  cases value with
  | text other => exact satisfies_eq_text
  | _ => rfl

theorem compound_agrees (texts : NumberTexts N) (unconditional : field.appliesWhen = false) {projection : List (IndexColumn × Text)}
    (projected : field.shape.projection = some projection) {stored : Option (Value N)}
    (fits : ∀ value, stored = some value → fitsValue field.shape value = true) {key : Text} {predicate : Members N}
    (distinct : (predicate.map Prod.fst).Nodup) (others : ∀ named ∈ predicate, named.1 ≠ js "isNull") {conditions : List (RankedCondition N)}
    (ok : compoundConditions key field.shape projection (filterableDefault field) predicate = .ok conditions) :
    (conditions.all fun ranked => ranked.condition.holds (indexRows field.shape stored)) =
      predicate.all (satisfiesOperator field.shape (readValue field stored true)) := by
  unfold compoundConditions at ok
  split at ok
  next empty =>
    obtain rfl := Except.ok.inj ok
    rw [List.isEmpty_iff.mp empty]
    rfl
  next =>
    obtain ⟨compound, isCompound, ok⟩ := attempt_bind_ok.mp ok
    obtain ⟨probed, filtered, ok⟩ := attempt_bind_ok.mp ok
    obtain ⟨rfl, checked⟩ := structuredFilter_ok filtered
    obtain rfl := Except.ok.inj ok
    obtain ⟨isNumber, isUnit, hasNumber, hasUnit, nonempty, names⟩ := compoundPredicate_ok isCompound
    obtain ⟨notNumeric, single, column⟩ := shape_projected field projected
    have isColumn : field.shape.column = .number := column (by rw [isNumber]; rfl)
    have apart : compound.unit ≠ compound.number := by
      intro same
      have one := components_apart (field.components projection projected).2 (componentOf_mem isUnit) (componentOf_mem isNumber) same
      cases one
    rw [isColumn] at checked
    -- The reader's operators are those of the two components.
    have reads : ∀ seen : Value N, predicate.all (satisfiesOperator field.shape seen) = meetsCompound compound seen := by
      intro seen
      have ofNumber : satisfiesOperator field.shape seen (compound.number, .object compound.operators) =
          compound.operators.all fun named => scalarSatisfies .number named.1 named.2 (memberOf seen compound.number) := by
        unfold satisfiesOperator
        rw [if_neg (others _ (operandOf_mem hasNumber)), projected]
        dsimp only
        rw [if_pos isNumber]
      have ofUnit : satisfiesOperator field.shape seen (compound.unit, .object [(js "eq", .text compound.value)]) =
          sameValueZero (memberOf seen compound.unit) (.text compound.value) := by
        unfold satisfiesOperator
        rw [if_neg (others _ (operandOf_mem hasUnit)), projected]
        dsimp only
        rw [if_neg fun same => apart ((Option.some.inj (isNumber.symm.trans same)).symm), List.all_cons, List.all_nil, Bool.and_true]
        exact satisfies_eq_iff
      unfold meetsCompound
      rw [← ofNumber, ← ofUnit, Bool.eq_iff_iff, List.all_eq_true, Bool.and_eq_true]
      constructor
      · exact fun all => ⟨all _ (operandOf_mem hasUnit), all _ (operandOf_mem hasNumber)⟩
      · rintro ⟨unit, number⟩ named among
        rcases names named among with isName | isName
        · rw [List.inj_on_of_nodup_map distinct among (operandOf_mem hasNumber) isName]
          exact number
        · rw [List.inj_on_of_nodup_map distinct among (operandOf_mem hasUnit) isName]
          exact unit
    -- Reading an object's number changes nothing that is compared.
    have readsAs : ∀ members : Members N, meetsCompound compound (numericValue field.shape (.object members)) = meetsCompound compound (.object members) := by
      intro members
      unfold meetsCompound
      rw [memberOf_numericValue projected isNumber, memberOf_numericValue projected isNumber, if_neg apart, if_pos rfl,
        all_alike (alike_numberOf _) checked]
    rw [reads, List.all_cons, List.all_nil, Bool.and_true, probe_holds, fallback_eq unconditional]
    have isObject : ∀ value : Value N, fitsValue field.shape value = true → ∃ members, value = .object members ∧
        ∀ component ∈ projection, fitsColumn component.1 (memberOf value component.2) = true := by
      intro value fitsThis
      unfold fitsValue fitsItem at fitsThis
      rw [single, if_neg (by decide), projected] at fitsThis
      cases value with
      | object members => exact ⟨members, rfl, List.all_eq_true.mp fitsThis⟩
      | _ => cases fitsThis
    cases stored with
    | none =>
      rw [indexRows_none, if_pos rfl]
      unfold readValue
      rw [Option.getD_none, if_pos rfl]
      cases isDefault : field.defaultValue with
      | none =>
        rw [Option.getD_none, numericValue_null]
        rfl
      | some default =>
        obtain ⟨members, rfl, -⟩ := isObject default (field.fits default isDefault)
        rw [Option.getD_some, Option.isSome_some, Bool.true_and, Option.any_some, readsAs]
        rfl
    | some value =>
      obtain ⟨members, rfl, each⟩ := isObject value (fits value rfl)
      obtain ⟨member, isMember⟩ : ∃ member, StoredValue.members (Value.object members) = some member := ⟨_, rfl⟩
      have isMemberOf : ∀ component ∈ projection, member component.2 = some (memberOf (.object members) component.2) := by
        intro component among
        have fitsThis := each component among
        unfold memberOf at fitsThis ⊢
        rw [isMember, Option.bind_some] at fitsThis ⊢
        cases found : member component.2 with
        | some value => rfl
        | none =>
          rw [found] at fitsThis
          have present := notNullish_of_fits fitsThis
          cases present
      have inColumn := columnValue_components (.blank 0) (field.components projection projected).1
        (fun component among => ⟨_, isMemberOf component among, each component among⟩)
      have ofNumber := inColumn _ (componentOf_mem isNumber) _ (isMemberOf _ (componentOf_mem isNumber))
      have ofUnit := inColumn _ (componentOf_mem isUnit) _ (isMemberOf _ (componentOf_mem isUnit))
      have seen : readValue field (some (.object members)) true = numericValue field.shape (.object members) := rfl
      rw [seen, readsAs, indexRows_object field projected isMember, if_neg (List.cons_ne_nil _ _), List.any_cons, List.any_nil, Bool.or_false]
      unfold Probe.holds meetsCompound
      dsimp only at ofNumber ofUnit ⊢
      rw [isColumn, ofNumber, Option.any_some, Bool.and_comm]
      congr 1
      · -- The unit of the row is the text of the component.
        have isText := each _ (componentOf_mem isUnit)
        dsimp only at isText
        cases unitValue : memberOf (.object members) compound.unit with
        | text text =>
          rw [unitValue] at ofUnit
          unfold columnValue at ofUnit
          obtain ⟨shown, isShown, same⟩ := Option.map_eq_some_iff.mp ofUnit
          have sameText : shown = text := Value.text.inj same
          show decide (_ = some compound.value) = decide (text = compound.value)
          rw [isShown, sameText]
          exact decide_eq_decide.mpr Option.some_inj
        | _ =>
          rw [unitValue] at isText
          cases isText
      · exact all_alike (alike_indexed texts (each _ (componentOf_mem isNumber))) checked

omit [Unicode] in
theorem notNullish_of_fitsValue {value : Value N} (fits : fitsValue field.shape value = true) : value.isNullish = false := by
  cases value with
  | undefined =>
    unfold fitsValue fitsItem at fits
    split at fits
    next => cases fits
    next =>
      split at fits
      next => cases fits
      next =>
        have present := notNullish_of_fits fits
        cases present
  | null =>
    unfold fitsValue fitsItem at fits
    split at fits
    next => cases fits
    next =>
      split at fits
      next => cases fits
      next =>
        have present := notNullish_of_fits fits
        cases present
  | _ => rfl

omit [Unicode] in
theorem indexRows_some (single : field.shape.collection = false) {value : Value N} (fits : fitsValue field.shape value = true) :
    ∃ row, indexRows field.shape (some value) = [row] := by
  unfold fitsValue fitsItem at fits
  rw [single, if_neg (by decide)] at fits
  cases projected : field.shape.projection with
  | none =>
    rw [projected] at fits
    exact ⟨_, indexRows_scalar field projected single fits⟩
  | some projection =>
    rw [projected] at fits
    cases value with
    | object members => exact ⟨_, indexRows_object field projected rfl⟩
    | _ => cases fits

theorem nulls_agree (unconditional : field.appliesWhen = false) (single : field.shape.collection = false) {stored : Option (Value N)}
    (fits : ∀ value, stored = some value → fitsValue field.shape value = true) {key : Text} {predicate : Members N}
    (distinct : (predicate.map Prod.fst).Nodup) {conditions : List (RankedCondition N)}
    (ok : nullConditions key (filterableDefault field) predicate = .ok conditions) :
    (conditions.all fun ranked => ranked.condition.holds (indexRows field.shape stored)) =
      (predicate.filter fun named => named.1 = js "isNull").all (satisfiesOperator field.shape (readValue field stored true)) := by
  unfold nullConditions at ok
  rw [fallback_eq unconditional] at ok
  split at ok
  next absent =>
    obtain rfl := Except.ok.inj ok
    have noneNamed : predicate.filter (fun named => named.1 = js "isNull") = [] := by
      unfold operandOf at absent
      exact List.filter_eq_nil_iff.mpr fun named member isNamed =>
        List.find?_eq_none.mp (Option.map_eq_none_iff.mp absent) named member isNamed
    rw [noneNamed]
    rfl
  next isNull found =>
    obtain rfl := Except.ok.inj ok
    have reads : (predicate.filter fun named => named.1 = js "isNull").all (satisfiesOperator field.shape (readValue field stored true)) =
        decide ((readValue field stored true).isNullish = isNull) := by
      rw [Bool.eq_iff_iff, List.all_eq_true]
      have here : satisfiesOperator field.shape (readValue field stored true) (js "isNull", .boolean isNull) =
          decide ((readValue field stored true).isNullish = isNull) := rfl
      rw [← here]
      constructor
      · exact fun all => all _ (List.mem_filter.mpr ⟨operandOf_mem found, rfl⟩)
      · intro holds named member
        obtain ⟨among, isName⟩ := List.mem_filter.mp member
        rw [List.inj_on_of_nodup_map distinct among (operandOf_mem found) (of_decide_eq_true isName)]
        exact holds
    rw [reads, List.all_cons, List.all_nil, Bool.and_true]
    cases stored with
    | none =>
      unfold readValue
      rw [indexRows_none, Option.getD_none, if_pos rfl]
      cases isDefault : field.defaultValue with
      | none =>
        rw [Option.getD_none, numericValue_null]
        cases isNull <;> rfl
      | some default =>
        have present := notNullish_of_fitsValue (numericValue_fits field (field.fits default isDefault))
        rw [Option.getD_some, present]
        cases isNull <;> rfl
    | some value =>
      obtain ⟨row, isRow⟩ := indexRows_some single (fits value rfl)
      have present : (readValue field (some value) true).isNullish = false :=
        notNullish_of_fitsValue (numericValue_fits field (fits value rfl))
      rw [isRow, present]
      cases field.defaultValue <;> cases isNull <;> rfl
  next => cases ok

end Conditions

section Results
variable {N : Type} [JsNumber N] [Unicode] {entry : Entry}

omit [JsNumber N] [Unicode] in
theorem only_contains {shape : ExtensionShape} {predicate : Members N} (several : shape.collection = true)
    (allowed : assertExtensionQueryAllowed shape predicate = true) (distinct : (predicate.map Prod.fst).Nodup) :
    ∃ operand, predicate = [(js "contains", operand)] := by
  unfold assertExtensionQueryAllowed at allowed
  rw [several, Bool.not_true, Bool.false_or, Bool.and_eq_true, List.all_eq_true] at allowed
  obtain ⟨nonempty, all⟩ := allowed
  match predicate, nonempty, all, distinct with
  | [], nonempty, _, _ => cases nonempty
  | [(name, operand)], _, all, _ =>
    have isContains : name = js "contains" := of_decide_eq_true (all (name, operand) List.mem_cons_self)
    rw [isContains]
    exact ⟨operand, rfl⟩
  | first :: second :: rest, _, all, distinct =>
    have one : first.1 = js "contains" := of_decide_eq_true (all first List.mem_cons_self)
    have other : second.1 = js "contains" := of_decide_eq_true (all second (List.mem_cons_of_mem _ List.mem_cons_self))
    rw [List.map_cons, List.map_cons, one, other] at distinct
    exact absurd List.mem_cons_self (List.nodup_cons.mp distinct).1

/-- A condition holds of a record exactly where what a reader sees of it satisfies the predicate, unless
the record's collection was emptied under a default that the predicate asks for. -/
theorem filter_matches_seen (texts : NumberTexts N) (field : StoredField entry N) (unconditional : field.appliesWhen = false)
    {stored : Option (Value N)} (left : LeftBehind field stored) {key : Text} {predicate : Members N} (distinct : (predicate.map Prod.fst).Nodup)
    (allowed : assertExtensionQueryAllowed field.shape predicate = true) {conditions : List (RankedCondition N)}
    (built : extensionFilterCondition [(key, field, predicate)] = .ok conditions) :
    matchesRecord (fun _ => indexRows field.shape stored) conditions = satisfies field.shape predicate (readValue field stored true) ↔
      ¬Emptied field stored predicate := by
  have fits : ∀ value, stored = some value → fitsValue field.shape value = true := fun _ isStored => fits_of_leftBehind field left isStored
  unfold extensionFilterCondition at built
  obtain ⟨several, isSeveral, built⟩ := attempt_bind_ok.mp built
  rw [List.mapM_cons, attempt_bind_ok] at isSeveral
  obtain ⟨ranked, isRanked, isSeveral⟩ := isSeveral
  rw [List.mapM_nil] at isSeveral
  obtain rfl := Except.ok.inj isSeveral
  have sorted : matchesRecord (fun _ => indexRows field.shape stored) conditions =
      ranked.all fun ranked => ranked.condition.holds (indexRows field.shape stored) := by
    rw [← Except.ok.inj built]
    unfold matchesRecord
    rw [Bool.eq_iff_iff, List.all_eq_true, List.all_eq_true]
    exact forall_congr' fun one => imp_congr_left (((List.perm_insertionSort _ _).mem_iff).trans (by simp))
  rw [sorted]
  unfold fieldConditions at isRanked
  obtain ⟨⟨⟩, -, isRanked⟩ := attempt_bind_ok.mp isRanked
  obtain ⟨nulls, isNulls, isRanked⟩ := attempt_bind_ok.mp isRanked
  obtain ⟨values, isValues, isRanked⟩ := attempt_bind_ok.mp isRanked
  rw [← Except.ok.inj isRanked, List.all_append]
  cases collection : field.shape.collection with
  | true =>
    obtain ⟨operand, rfl⟩ := only_contains collection allowed distinct
    have noNulls : nulls = [] := (Except.ok.inj isNulls).symm
    have kept : [(js "contains", operand)].filter (fun named => named.1 ≠ js "isNull") = [(js "contains", operand)] := rfl
    unfold valueConditions at isValues
    rw [kept, (shape_collection field collection).1, collection] at isValues
    rw [noNulls, List.all_nil, Bool.true_and]
    exact collection_agrees unconditional collection fits operand isValues
  | false =>
    have others : ∀ named ∈ predicate.filter (fun named => named.1 ≠ js "isNull"), named.1 ≠ js "isNull" :=
      fun named member => of_decide_eq_true (List.mem_filter.mp member).2
    have distinctOthers : ((predicate.filter fun named => named.1 ≠ js "isNull").map Prod.fst).Nodup :=
      distinct.sublist (List.filter_sublist.map Prod.fst)
    have agrees : (values.all fun ranked => ranked.condition.holds (indexRows field.shape stored)) =
        (predicate.filter fun named => named.1 ≠ js "isNull").all (satisfiesOperator field.shape (readValue field stored true)) := by
      unfold valueConditions at isValues
      cases projected : field.shape.projection with
      | some projection =>
        rw [projected] at isValues
        exact compound_agrees texts unconditional projected fits distinctOthers others isValues
      | none =>
        rw [projected, collection] at isValues
        exact scalar_agrees texts unconditional projected collection fits others isValues
    rw [nulls_agree unconditional collection fits distinct isNulls, agrees]
    refine iff_of_true ?_ fun emptied => ?_
    · unfold satisfies
      rw [Bool.eq_iff_iff, Bool.and_eq_true, List.all_eq_true, List.all_eq_true, List.all_eq_true]
      constructor
      · rintro ⟨ofNull, ofOther⟩ named among
        by_cases isNull : named.1 = js "isNull"
        · exact ofNull named (List.mem_filter.mpr ⟨among, decide_eq_true isNull⟩)
        · exact ofOther named (List.mem_filter.mpr ⟨among, decide_eq_true isNull⟩)
      · exact fun all => ⟨fun named member => all named (List.mem_filter.mp member).1, fun named member => all named (List.mem_filter.mp member).1⟩
    · have many := emptied.1
      rw [collection] at many
      cases many

end Results

section Emptied
attribute [local instance] asciiTables

theorem exact_texts : NumberTexts Exact where
  finite value finite := by
    cases value with
    | finite value =>
      show JsNumber.isFinite (Exact.ofText (Exact.toText (.finite value))) = true
      rw [Exact.ofText_toText]
      exact finite
    | _ => cases finite
  difference value other finite _ := by
    cases value with
    | finite value =>
      show signOfDifference (Exact.ofText (Exact.toText (.finite value))) other = _
      rw [Exact.ofText_toText]
    | _ => cases finite

def plainEntry : Entry where
  allowedOsfTypes := [js "string"]
  targets := []
  storedFieldBaseType osfType := if osfType = js "integer" then .integer else if osfType = js "number" then .number else .string
  indexProjection _ := none
  integer := rfl
  number := rfl
  primitives := ⟨List.not_mem_nil, List.not_mem_nil⟩

/-- Tags, of which a record without any reads red. -/
def tags : StoredField plainEntry Exact where
  definition := { osfType := js "string", collection := true, staticOptions := true, unique := false }
  valid := rfl
  required := false
  appliesWhen := false
  defaultValue := some (.array [.text (js "red")])
  fits value isValue := by
    rw [← Option.some.inj isValue]
    rfl
  components projection isProjection := by cases isProjection

def containsRed : Members Exact := [(js "contains", .text (js "red"))]

def tagsProbe : Probe Exact := { column := .text, operators := [(js "eq", .text (js "red"))], unit := none }

def tagsConditions : List (RankedCondition Exact) :=
  [{ rank := 0, key := js "tags", condition := .or (.indexed (some tagsProbe)) (.not (.indexed none)) }]

theorem tags_built : extensionFilterCondition [(js "tags", tags, containsRed)] = .ok tagsConditions := rfl

theorem tags_emptied : LeftBehind tags (some (.array [])) := by
  have written : writeValue tags .update none (some (.array [])) = some (some (.array [])) := rfl
  exact .update .absent written

/-- A record whose tags an update has emptied is found by the default that its readers do not see. -/
theorem emptied_found : LeftBehind tags (some (.array [])) ∧ extensionFilterCondition [(js "tags", tags, containsRed)] = .ok tagsConditions ∧
    matchesRecord (fun _ => indexRows tags.shape (some (.array [] : Value Exact))) tagsConditions = true ∧
    satisfies tags.shape containsRed (readValue tags (some (.array [])) true) = false :=
  ⟨tags_emptied, tags_built, rfl, rfl⟩

theorem filter_matches_red : matchesRecord (fun _ => indexRows tags.shape (none : Option (Value Exact))) tagsConditions =
      satisfies tags.shape containsRed (readValue tags none true) ↔ ¬Emptied tags none containsRed := by
  have distinct : (containsRed.map Prod.fst).Nodup := List.nodup_singleton _
  exact filter_matches_seen exact_texts tags rfl .absent distinct rfl tags_built

end Emptied

end OpenShapeForge.Extensions.FiltersSeen
