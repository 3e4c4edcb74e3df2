import OpenShapeForge.Js.Whole
import OpenShapeForge.Library.Failing
import OpenShapeForge.Operations.ExactRationals
import OpenShapeForge.Operations.FieldVariables

/-! A whole-value binding keeps the contract of the field it fills, and bindings compose
(variableCompatibility in packages/operations/src/field-variables.ts). -/

namespace OpenShapeForge.Operations.VariableFits
open Js FieldValues FieldVariables ExactRationals
open ExactNumeric (decimalValue)
open Library.Failing

variable {N : Type} [JsNumber N]

section Contract

def childOf (shape : VariableValueShape N) (key : Text) : Option (VariableValueShape N) :=
  ((shape.children.getD []).find? fun child => child.1 = key).map Prod.snd

def memberOf (value : Value N) (key : Text) : Option (Value N) :=
  match value with
  | .object members => (members.find? fun member => member.1 = key).map Prod.snd
  | _ => none

def inDomain (baseType : BaseType) (domain : List (Value N)) (value : Value N) : Bool :=
  if baseType = .integer ∨ baseType = .number then domain.any fun allowed => exactNumericEquals allowed value
  else domain.any fun allowed => sameValueZero allowed value

mutual

inductive ItemMeets : VariableValueShape N → Value N → Prop where
  | intro {shape : VariableValueShape N} {value : Value N} (base : matchesBaseType shape.baseType value = true)
      (domain : ∀ own, shape.enum = some own → inDomain shape.baseType own value = true)
      (present : ∀ key child, childOf shape key = some child → (memberOf value key).isSome = true)
      (each : ∀ key child member, childOf shape key = some child → memberOf value key = some member → Satisfies child member) : ItemMeets shape value

inductive Satisfies : VariableValueShape N → Value N → Prop where
  | single {shape : VariableValueShape N} {value : Value N} (single : shape.cardinality = .single) (meets : ItemMeets shape value) :
      Satisfies shape value
  | collection {shape : VariableValueShape N} {items : List (Value N)} (collection : shape.cardinality = .collection)
      (each : ∀ item ∈ items, ItemMeets shape item) : Satisfies shape (.array items)

end

inductive Typed (baseOf : Text → BaseType) : VariableValueShape N → Prop where
  | intro {shape : VariableValueShape N} (base : shape.baseType = baseOf shape.osfType)
      (each : ∀ key child, childOf shape key = some child → Typed baseOf child) : Typed baseOf shape

/-- `===` between numbers, as the language has it. -/
structure NumberEquality (N : Type) [JsNumber N] : Prop where
  trans : ∀ a b c : N, JsNumber.equal a b = true → JsNumber.equal b c = true → JsNumber.equal a c = true
  notNaN : ∀ a b : N, JsNumber.equal a b = true → JsNumber.isNaN a = false ∧ JsNumber.isNaN b = false

end Contract

section Domains

theorem sameValueZero_trans (numbers : NumberEquality N) {a b c : Value N} (first : sameValueZero a b = true) (second : sameValueZero b c = true) :
    sameValueZero a c = true := by
  cases a with
  | number a =>
    cases b with
    | number b =>
      cases c with
      | number c =>
        simp only [sameValueZero, Bool.or_eq_true, Bool.and_eq_true] at first second ⊢
        rcases first with equal | ⟨nan, first⟩
        · rcases second with equal' | ⟨nan, -⟩
          · exact .inl (numbers.trans a b c equal equal')
          · exact absurd nan (by rw [(numbers.notNaN a b equal).2]; decide)
        · rcases second with equal' | ⟨-, nan'⟩
          · exact absurd first (by rw [(numbers.notNaN b c equal').1]; decide)
          · exact .inr ⟨nan, nan'⟩
      | _ => cases second
    | _ => cases first
  | null =>
    cases b with
    | null => exact second
    | _ => cases first
  | boolean a =>
    cases b with
    | boolean b =>
      have same : a = b := of_decide_eq_true first
      exact same ▸ second
    | _ => cases first
  | text a =>
    cases b with
    | text b =>
      have same : a = b := of_decide_eq_true first
      exact same ▸ second
    | _ => cases first
  | _ => cases first

theorem lift_eq_iff (a b : ExactDecimal) : a.lift (max a.scale b.scale) = b.lift (max a.scale b.scale) ↔ decimalValue a = decimalValue b := by
  have positive : (10 : ℚ) ^ max a.scale b.scale ≠ 0 := by positivity
  rw [← Int.cast_inj (α := ℚ), lift_value a (le_max_left ..), lift_value b (le_max_right ..)]
  exact mul_left_inj' positive

theorem exactNumericEquals_iff {a b : Value N} :
    exactNumericEquals a b = true ↔
      ∃ left right, exactDecimal a = some left ∧ exactDecimal b = some right ∧ decimalValue left = decimalValue right := by
  unfold exactNumericEquals
  cases exactDecimal a with
  | none => simp
  | some left =>
    cases exactDecimal b with
    | none => simp
    | some right => simp [lift_eq_iff]

theorem exactNumericEquals_trans {a b c : Value N} (first : exactNumericEquals a b = true) (second : exactNumericEquals b c = true) :
    exactNumericEquals a c = true := by
  obtain ⟨left, middle, isLeft, isMiddle, same⟩ := exactNumericEquals_iff.mp first
  obtain ⟨middle', right, isMiddle', isRight, same'⟩ := exactNumericEquals_iff.mp second
  obtain rfl := Option.some.inj (isMiddle.symm.trans isMiddle')
  exact exactNumericEquals_iff.mpr ⟨left, right, isLeft, isRight, same.trans same'⟩

theorem inDomain_trans (numbers : NumberEquality N) {baseType : BaseType} {domain other : List (Value N)} {value : Value N}
    (inner : inDomain baseType domain value = true) (admits : ∀ allowed ∈ domain, inDomain baseType other allowed = true) :
    inDomain baseType other value = true := by
  unfold inDomain at inner admits ⊢
  split
  next numeric =>
    simp only [if_pos numeric, List.any_eq_true] at inner admits ⊢
    obtain ⟨allowed, member, equal⟩ := inner
    obtain ⟨wider, member', equal'⟩ := admits allowed member
    exact ⟨wider, member', exactNumericEquals_trans equal' equal⟩
  next notNumeric =>
    simp only [if_neg notNumeric, List.any_eq_true] at inner admits ⊢
    obtain ⟨allowed, member, equal⟩ := inner
    obtain ⟨wider, member', equal'⟩ := admits allowed member
    exact ⟨wider, member', sameValueZero_trans numbers equal' equal⟩

end Domains

section Inversion

omit [JsNumber N] in
theorem refuse_ok {α : Type} {refused : Prop} [Decidable refused] {code : VariableRefusalCode} {message : Text}
    {rest : Except VariableFailure α} {result : α} : (if refused then refuse code message else rest) = .ok result ↔ ¬refused ∧ rest = .ok result := by
  split
  next isRefused => exact ⟨(fun ok => by cases ok), fun both => absurd isRefused both.1⟩
  next passed => exact ⟨fun ok => ⟨passed, ok⟩, And.right⟩

omit [JsNumber N] in
theorem forIn_ok {α : Type} {check : α → Except VariableFailure Unit} {body : α → PUnit → Except VariableFailure (ForInStep PUnit)}
    (checks : ∀ item, body item ⟨⟩ = check item >>= fun _ => pure (.yield ⟨⟩)) : ∀ {items : List α},
    forIn items ⟨⟩ body = .ok ⟨⟩ ↔ ∀ item ∈ items, check item = .ok ()
  | [] => by simp [pure, Except.pure]
  | item :: rest => by
    rw [List.forIn_cons, checks, List.forall_mem_cons, ← forIn_ok checks]
    cases check item with
    | error reason => exact ⟨(fun ok => by cases ok), fun both => by cases both.1⟩
    | ok result => exact ⟨fun ok => ⟨rfl, ok⟩, And.right⟩

def childSlot (slot : VariableSlot N) (key : Text) (child : VariableValueShape N) : VariableSlot N :=
  { child with path := slot.path ++ js "." ++ key, mode := .whole }

structure Fits (levels : Nat) (slot : VariableSlot N) (offer : VariableValueShape N) : Prop where
  permitted : permitsVariableUsage slot.mode .whole = true
  cardinality : offer.cardinality = slot.cardinality
  target : offer.target = slot.target
  osfType : offer.osfType = slot.osfType ∨ (unrefined slot = true ∧ offer.baseType = slot.baseType)
  unit : offer.unit = slot.unit
  currency : offer.currency = slot.currency
  keys : childKeys slot.children = childKeys offer.children
  children : ∀ key required offered, childOf slot.toVariableValueShape key = some required → childOf offer key = some offered →
    compatibilityAtDepth levels (childSlot slot key required) offered .whole = .ok ()
  domain : ∀ own, slot.enum = some own → ∃ offered, offer.enum = some offered ∧ ∀ value ∈ offered, inDomain slot.baseType own value = true

def compareChild (levels : Nat) (slot : VariableSlot N) (offer : VariableValueShape N) (key : Text) : Except VariableFailure Unit :=
  match childOf slot.toVariableValueShape key, childOf offer key with
  | some required, some offered => compatibilityAtDepth levels (childSlot slot key required) offered .whole
  | _, _ => .ok ()

omit [JsNumber N] in
theorem mem_childKeys {shape : VariableValueShape N} {key : Text} : key ∈ childKeys shape.children ↔ (childOf shape key).isSome = true := by
  unfold childKeys childOf sortTexts
  rw [(List.perm_insertionSort _ _).mem_iff, Option.isSome_map, List.find?_isSome, List.mem_map]
  simp only [decide_eq_true_eq]

def compareDomain (slot : VariableSlot N) (offer : VariableValueShape N) : Except VariableFailure Unit :=
  match slot.enum with
  | some _ =>
    if (offer.enum.map fun domain => domain.all (domainAdmits slot)) = some true then .ok ()
    else refuse .incompatibleDomain (slot.path ++ js " admits only its own allowed values, which the variable does not declare.")
  | none => .ok ()

theorem domainAdmits_eq {slot : VariableSlot N} {own : List (Value N)} (isOwn : slot.enum = some own) (value : Value N) :
    domainAdmits slot value = inDomain slot.baseType own value := by
  rw [domainAdmits, isOwn]
  rfl

theorem compareDomain_ok {slot : VariableSlot N} {offer : VariableValueShape N} : compareDomain slot offer = .ok () ↔
    ∀ own, slot.enum = some own → ∃ offered, offer.enum = some offered ∧ ∀ value ∈ offered, inDomain slot.baseType own value = true := by
  unfold compareDomain
  cases isOwn : slot.enum with
  | none => exact ⟨fun _ _ absent => (by cases absent), fun _ => rfl⟩
  | some own =>
    have admitted : (offer.enum.map fun domain => domain.all (domainAdmits slot)) = some true ↔
        ∃ offered, offer.enum = some offered ∧ ∀ value ∈ offered, inDomain slot.baseType own value = true := by
      rw [Option.map_eq_some_iff]
      simp only [List.all_eq_true, domainAdmits_eq isOwn]
    dsimp only
    split
    next admits => exact ⟨fun _ other same => Option.some.inj same ▸ admitted.mp admits, fun _ => rfl⟩
    next refuses => exact ⟨(fun ok => by cases ok), fun each => absurd (admitted.mpr (each own rfl)) refuses⟩

theorem compatibility_fits {levels : Nat} {slot : VariableSlot N} {offer : VariableValueShape N} :
    compatibilityAtDepth (levels + 1) slot offer .whole = .ok () ↔ Fits levels slot offer := by
  rw [compatibilityAtDepth, assertVariableUsagePermitted]
  by_cases permitted : permitsVariableUsage slot.mode .whole = true
  · rw [if_pos permitted]
    show (if offer.cardinality ≠ slot.cardinality then _ else _) = _ ↔ _
    simp only [refuse_ok]
    have loop : ∀ {body : Text → PUnit → Except VariableFailure (ForInStep PUnit)},
        (∀ key, body key ⟨⟩ = compareChild levels slot offer key >>= fun _ => pure (.yield ⟨⟩)) →
        ((forIn (childKeys slot.children) ⟨⟩ body >>= fun _ => compareDomain slot offer) = .ok () ↔
          (∀ key ∈ childKeys slot.children, compareChild levels slot offer key = .ok ()) ∧ compareDomain slot offer = .ok ()) := by
      intro body checks
      rw [attempt_bind_ok]
      exact ⟨fun ⟨_, ran, ok⟩ => ⟨(forIn_ok checks).mp ran, ok⟩, fun ⟨each, ok⟩ => ⟨⟨⟩, (forIn_ok checks).mpr each, ok⟩⟩
    have childrenFit : (∀ key ∈ childKeys slot.children, compareChild levels slot offer key = .ok ()) ↔ ∀ key required offered,
        childOf slot.toVariableValueShape key = some required → childOf offer key = some offered →
        compatibilityAtDepth levels (childSlot slot key required) offered .whole = .ok () := by
      constructor
      · intro each key required offered isRequired isOffered
        have ok := each key (mem_childKeys.mpr (Option.isSome_iff_exists.mpr ⟨required, isRequired⟩))
        unfold compareChild at ok
        rwa [isRequired, isOffered] at ok
      · intro each key _
        unfold compareChild
        cases isRequired : childOf slot.toVariableValueShape key with
        | none => rfl
        | some required =>
          cases isOffered : childOf offer key with
          | none => rfl
          | some offered => exact each key required offered isRequired isOffered
    constructor
    · rintro ⟨cardinality, target, osfType, context, keys, ok⟩
      obtain ⟨each, domain⟩ := (loop fun key => by
        unfold compareChild childOf
        cases (slot.children.getD []).find? fun child => child.1 = key with
        | none => rfl
        | some required => cases (offer.children.getD []).find? fun child => child.1 = key <;> rfl).mp ok
      obtain ⟨unit, currency⟩ := not_or.mp context
      exact {
        permitted
        cardinality := not_not.mp cardinality
        target := not_not.mp target
        osfType := by tauto
        unit := not_not.mp unit
        currency := not_not.mp currency
        keys := not_not.mp keys
        children := childrenFit.mp each
        domain := compareDomain_ok.mp domain }
    · intro fits
      refine ⟨not_not.mpr fits.cardinality, not_not.mpr fits.target, ?_, ?_, not_not.mpr fits.keys, (loop fun key => ?_).mpr
        ⟨childrenFit.mpr fits.children, compareDomain_ok.mpr fits.domain⟩⟩
      · have := fits.osfType
        tauto
      · exact not_or.mpr ⟨not_not.mpr fits.unit, not_not.mpr fits.currency⟩
      · unfold compareChild childOf
        cases (slot.children.getD []).find? fun child => child.1 = key with
        | none => rfl
        | some required => cases (offer.children.getD []).find? fun child => child.1 = key <;> rfl
  · rw [if_neg permitted]
    exact ⟨(fun ok => by cases ok), fun fits => absurd fits.permitted permitted⟩

end Inversion

section Results
variable {baseOf : Text → BaseType}

omit [JsNumber N] in
theorem Typed.child {shape child : VariableValueShape N} {key : Text} (typed : Typed baseOf shape) (isChild : childOf shape key = some child) :
    Typed baseOf child := by
  cases typed with
  | intro _ each => exact each key child isChild

omit [JsNumber N] in
theorem Typed.base {shape : VariableValueShape N} (typed : Typed baseOf shape) : shape.baseType = baseOf shape.osfType := by
  cases typed with
  | intro base _ => exact base

namespace Fits
variable {levels : Nat} {slot : VariableSlot N} {offer : VariableValueShape N}

theorem baseType (fits : Fits levels slot offer) (typedSlot : Typed baseOf slot.toVariableValueShape) (typedOffer : Typed baseOf offer) :
    offer.baseType = slot.baseType := by
  rcases fits.osfType with same | ⟨-, same⟩
  · rw [typedOffer.base, typedSlot.base, same]
  · exact same

theorem offered (fits : Fits levels slot offer) {key : Text} {child : VariableValueShape N} (isChild : childOf slot.toVariableValueShape key = some child) :
    ∃ other, childOf offer key = some other := by
  have member : key ∈ childKeys slot.children := mem_childKeys.mpr (Option.isSome_iff_exists.mpr ⟨child, isChild⟩)
  rw [fits.keys] at member
  exact Option.isSome_iff_exists.mp (mem_childKeys.mp member)

theorem declared (fits : Fits levels slot offer) {key : Text} {child : VariableValueShape N} (isChild : childOf offer key = some child) :
    ∃ other, childOf slot.toVariableValueShape key = some other := by
  have member : key ∈ childKeys offer.children := mem_childKeys.mpr (Option.isSome_iff_exists.mpr ⟨child, isChild⟩)
  rw [← fits.keys] at member
  exact Option.isSome_iff_exists.mp (mem_childKeys.mp member)

end Fits

theorem satisfies_of_compatible (numbers : NumberEquality N) : ∀ (levels : Nat) {slot : VariableSlot N} {offer : VariableValueShape N} {value : Value N},
    Typed baseOf slot.toVariableValueShape → Typed baseOf offer → compatibilityAtDepth levels slot offer .whole = .ok () →
    Satisfies offer value → Satisfies slot.toVariableValueShape value
  | 0, _, _, _, _, _, compatible, _ => by cases compatible
  | levels + 1, slot, offer, value, typedSlot, typedOffer, compatible, satisfies => by
    have fits := compatibility_fits.mp compatible
    have item : ∀ {value : Value N}, ItemMeets offer value → ItemMeets slot.toVariableValueShape value := by
      intro value meets
      cases meets with
      | intro base domain present each =>
        refine ⟨?_, fun own isOwn => ?_, fun key child isChild => ?_, fun key child member isChild isMember => ?_⟩
        · rwa [← fits.baseType typedSlot typedOffer]
        · obtain ⟨offered, isOffered, admits⟩ := fits.domain own isOwn
          have inner := domain offered isOffered
          rw [fits.baseType typedSlot typedOffer] at inner
          exact inDomain_trans numbers inner admits
        · obtain ⟨other, isOther⟩ := fits.offered isChild
          exact present key other isOther
        · obtain ⟨other, isOther⟩ := fits.offered isChild
          have nested := fits.children key child other isChild isOther
          have typedChild : Typed baseOf (childSlot slot key child).toVariableValueShape := typedSlot.child isChild
          exact satisfies_of_compatible numbers levels typedChild (typedOffer.child isOther) nested (each key other member isOther isMember)
    cases satisfies with
    | single single meets => exact .single (fits.cardinality.symm.trans single) (item meets)
    | collection collection each => exact .collection (fits.cardinality.symm.trans collection) fun value member => item (each value member)

theorem compatible_trans (numbers : NumberEquality N) : ∀ (levels : Nat) {first : VariableValueShape N} {second third : VariableSlot N},
    Typed baseOf first → Typed baseOf second.toVariableValueShape → Typed baseOf third.toVariableValueShape →
    compatibilityAtDepth levels second first .whole = .ok () → compatibilityAtDepth levels third second.toVariableValueShape .whole = .ok () →
    compatibilityAtDepth levels third first .whole = .ok ()
  | 0, _, _, _, _, _, _, compatible, _ => by cases compatible
  | levels + 1, first, second, third, typedFirst, typedSecond, typedThird, compatible, compatible' => by
    have inner := compatibility_fits.mp compatible
    have outer := compatibility_fits.mp compatible'
    have base : first.baseType = third.baseType := (inner.baseType typedSecond typedFirst).trans (outer.baseType typedThird typedSecond)
    refine compatibility_fits.mpr {
      permitted := outer.permitted
      cardinality := inner.cardinality.trans outer.cardinality
      target := inner.target.trans outer.target
      osfType := ?_
      unit := inner.unit.trans outer.unit
      currency := inner.currency.trans outer.currency
      keys := outer.keys.trans inner.keys
      children := fun key required offered isRequired isOffered => ?_
      domain := fun own isOwn => ?_ }
    · rcases outer.osfType with same | ⟨bare, -⟩
      · rcases inner.osfType with same' | ⟨bare, -⟩
        · exact .inl (same'.trans same)
        · -- An unrefined slot declares no domain, so the slot of the same type has none to ask for either.
          have noDomain : second.enum = none := by
            simp only [unrefined, Bool.and_eq_true, Option.isNone_iff_eq_none] at bare
            exact bare.1.2
          have noDomain' : third.enum = none := by
            cases isOwn : third.enum with
            | none => rfl
            | some own =>
              obtain ⟨offered, isOffered, -⟩ := outer.domain own isOwn
              rw [noDomain] at isOffered
              cases isOffered
          refine .inr ⟨?_, base⟩
          simp only [unrefined, Bool.and_eq_true, Option.isNone_iff_eq_none] at bare ⊢
          exact ⟨⟨same ▸ bare.1.1, noDomain'⟩, outer.target ▸ bare.2⟩
      · exact .inr ⟨bare, base⟩
    · obtain ⟨middle, isMiddle⟩ := inner.declared isOffered
      have innerChild := inner.children key middle offered isMiddle isOffered
      have outerChild := outer.children key required middle isRequired isMiddle
      have typedMiddle : Typed baseOf (childSlot second key middle).toVariableValueShape := typedSecond.child isMiddle
      have typedRequired : Typed baseOf (childSlot third key required).toVariableValueShape := typedThird.child isRequired
      exact compatible_trans numbers levels (typedFirst.child isOffered) typedMiddle typedRequired innerChild outerChild
    · obtain ⟨middle, isMiddle, admits⟩ := outer.domain own isOwn
      obtain ⟨offered, isOffered, admits'⟩ := inner.domain middle isMiddle
      refine ⟨offered, isOffered, fun value member => ?_⟩
      have between := admits' value member
      rw [outer.baseType typedThird typedSecond] at between
      exact inDomain_trans numbers between admits

/-- A whole-value binding keeps the contract of its slot, and bindings compose. -/
theorem whole_binding_sound (numbers : NumberEquality N) (baseOf : Text → BaseType) :
    (∀ (slot : VariableSlot N) (offer : VariableValueShape N) (value : Value N), Typed baseOf slot.toVariableValueShape → Typed baseOf offer →
      value ≠ .null → assertVariableCompatible slot offer .whole = .ok () → Satisfies offer value → Satisfies slot.toVariableValueShape value) ∧
    ∀ (first : VariableValueShape N) (second third : VariableSlot N), Typed baseOf first → Typed baseOf second.toVariableValueShape →
      Typed baseOf third.toVariableValueShape → assertVariableCompatible second first .whole = .ok () →
      assertVariableCompatible third second.toVariableValueShape .whole = .ok () → assertVariableCompatible third first .whole = .ok () :=
  ⟨fun _ _ _ typedSlot typedOffer _ compatible satisfies => satisfies_of_compatible numbers 33 typedSlot typedOffer compatible satisfies,
    fun _ _ _ typedFirst typedSecond typedThird compatible compatible' =>
      compatible_trans numbers 33 typedFirst typedSecond typedThird compatible compatible'⟩

end Results

section Parcels

omit [JsNumber N] in
theorem childOf_mem {shape : VariableValueShape N} {key : Text} {child : VariableValueShape N} (isChild : childOf shape key = some child) :
    (key, child) ∈ shape.children.getD [] := by
  obtain ⟨⟨name, found⟩, isFound, rfl⟩ := Option.map_eq_some_iff.mp isChild
  have same : name = key := by simpa using List.find?_some isFound
  exact same ▸ List.mem_of_find?_eq_some isFound

theorem whole_equality : NumberEquality Whole where
  trans a b c equal equal' := by
    have same : a = b := of_decide_eq_true (Bool.and_eq_true_iff.mp equal).1
    exact same ▸ equal'
  notNaN a b equal := by
    obtain ⟨same, notNaN⟩ := Bool.and_eq_true_iff.mp equal
    have isNumber : a ≠ .nan := of_decide_eq_true notNaN
    have copy : a = b := of_decide_eq_true same
    exact ⟨decide_eq_false isNumber, decide_eq_false (copy ▸ isNumber)⟩

/-- The size of a parcel, out of a closed domain. -/
def sizeShape (sizes : List Int) : VariableValueShape Whole where
  osfType := js "size"
  baseType := .integer
  cardinality := .single
  enum := some (sizes.map fun size => .number (.finite size))

def parcelShape (sizes : List Int) : VariableValueShape Whole where
  osfType := js "parcel"
  baseType := .object
  cardinality := .collection
  children := some [(js "size", sizeShape sizes)]

def parcelSlot (sizes : List Int) : VariableSlot Whole := { parcelShape sizes with path := js "parcels", mode := .both }

def parcels : Value Whole := .array [.object [(js "size", .text (js "2"))], .object [(js "size", .number (.finite 1))]]

def parcelBase (osfType : Text) : BaseType := if osfType = js "parcel" then .object else .integer

theorem typed_parcel (sizes : List Int) : Typed parcelBase (parcelShape sizes) := by
  refine .intro rfl fun key child isChild => ?_
  obtain rfl : child = sizeShape sizes := (Prod.mk.inj (List.mem_singleton.mp (childOf_mem isChild))).2
  exact .intro rfl fun key child isChild => by cases childOf_mem isChild

theorem satisfies_parcels : Satisfies (parcelShape [1, 2]) parcels := by
  refine .collection rfl fun item member => ?_
  have sized : ∀ value : Value Whole, matchesBaseType .integer value = true → inDomain .integer [.number (.finite 1), .number (.finite 2)] value = true →
      ItemMeets (parcelShape [1, 2]) (.object [(js "size", value)]) := by
    intro value isInteger isSize
    refine .intro rfl (fun own isOwn => by cases isOwn) (fun key child isChild => ?_) fun key child member isChild isMember => ?_
    · obtain ⟨rfl, rfl⟩ := Prod.mk.inj (List.mem_singleton.mp (childOf_mem isChild))
      rfl
    · obtain ⟨rfl, rfl⟩ := Prod.mk.inj (List.mem_singleton.mp (childOf_mem isChild))
      obtain rfl : value = member := Option.some.inj isMember
      refine .single rfl (.intro isInteger (fun own isOwn => ?_) (fun key child isChild => ?_) fun key child _ isChild _ => ?_)
      · exact Option.some.inj isOwn ▸ isSize
      · cases childOf_mem isChild
      · cases childOf_mem isChild
  rcases List.mem_pair.mp member with rfl | rfl
  · exact sized _ (by decide +kernel) (by decide +kernel)
  · exact sized _ (by decide +kernel) (by decide +kernel)

theorem whole_binding_parcels : Satisfies (parcelShape [1, 2, 3]) parcels ∧
    assertVariableCompatible (parcelSlot [0, 1, 2, 3]) (parcelShape [1, 2]) .whole = .ok () := by
  have sound := whole_binding_sound whole_equality parcelBase
  constructor
  · exact sound.1 (parcelSlot [1, 2, 3]) (parcelShape [1, 2]) parcels (typed_parcel _) (typed_parcel _) (fun never => by cases never) (by decide +kernel)
      satisfies_parcels
  · exact sound.2 (parcelShape [1, 2]) (parcelSlot [1, 2, 3]) (parcelSlot [0, 1, 2, 3]) (typed_parcel _) (typed_parcel _) (typed_parcel _)
      (by decide +kernel) (by decide +kernel)

end Parcels

end OpenShapeForge.Operations.VariableFits
