import OpenShapeForge.Formula.Evaluator
import OpenShapeForge.Js.Exact

/-! CEILING and FLOOR over numbers that are never rounded. -/

namespace OpenShapeForge.Formula.Multiples
open Js Types Spreadsheet Evaluator

section Field
variable {K : Type*} [Field K] [LinearOrder K] [IsStrictOrderedRing K] [FloorRing K] {value step : K}

def IsMultiple (step multiple : K) : Prop := ∃ times : ℤ, multiple = times * step

/-- Rounding the quotient up gives the least multiple that is not below the value, where the step is positive. -/
theorem isLeast_ceil (positive : 0 < step) : IsLeast {multiple | IsMultiple step multiple ∧ value ≤ multiple} (⌈value / step⌉ * step) := by
  refine ⟨⟨⟨_, rfl⟩, (div_le_iff₀ positive).mp (Int.le_ceil _)⟩, ?_⟩
  rintro multiple ⟨⟨times, rfl⟩, above⟩
  have fewer : ⌈value / step⌉ ≤ times := Int.ceil_le.mpr ((div_le_iff₀ positive).mpr above)
  exact mul_le_mul_of_nonneg_right (Int.cast_le.mpr fewer) positive.le

theorem isGreatest_floor (positive : 0 < step) : IsGreatest {multiple | IsMultiple step multiple ∧ multiple ≤ value} (⌊value / step⌋ * step) := by
  refine ⟨⟨⟨_, rfl⟩, (le_div_iff₀ positive).mp (Int.floor_le _)⟩, ?_⟩
  rintro multiple ⟨⟨times, rfl⟩, below⟩
  have fewer : times ≤ ⌊value / step⌋ := Int.le_floor.mpr ((le_div_iff₀ positive).mpr below)
  exact mul_le_mul_of_nonneg_right (Int.cast_le.mpr fewer) positive.le

theorem ceil_multiple (nonzero : step ≠ 0) (multiple : IsMultiple step value) : (⌈value / step⌉ : K) * step = value := by
  obtain ⟨times, rfl⟩ := multiple
  rw [mul_div_cancel_right₀ _ nonzero, Int.ceil_intCast]

theorem floor_multiple (nonzero : step ≠ 0) (multiple : IsMultiple step value) : (⌊value / step⌋ : K) * step = value := by
  obtain ⟨times, rfl⟩ := multiple
  rw [mul_div_cancel_right₀ _ nonzero, Int.floor_intCast]

theorem ceil_below (negative : step < 0) (missed : ¬IsMultiple step value) : (⌈value / step⌉ : K) * step < value := by
  have atMost : (⌈value / step⌉ : K) * step ≤ value := (div_le_iff_of_neg negative).mp (Int.le_ceil _)
  exact lt_of_le_of_ne atMost fun same => missed ⟨⌈value / step⌉, same.symm⟩

end Field

section Operators
variable [Unicode]

def ceilingOf (value step : ℚ) : Value Exact := evalFormula .ceiling [.number (.finite value), .number (.finite step)]

def floorOf (value step : ℚ) : Value Exact := evalFormula .floor [.number (.finite value), .number (.finite step)]

omit [Unicode] in
theorem unsignedZero_finite (value : ℚ) : unsignedZero (Exact.finite value) = .finite value := by
  unfold unsignedZero isZero
  split
  next zero =>
    have isZero : Exact.finite value = JsNumber.ofNat 0 := of_decide_eq_true (Bool.and_eq_true_iff.mp zero).1
    exact isZero.symm
  next => rfl

omit [Unicode] in
theorem toMultiple_finite (value step : ℚ) (nonzero : step ≠ 0) (round : Exact → Exact) (rounded : ℚ → ℤ)
    (rounds : ∀ quotient : ℚ, round (.finite quotient) = .finite (rounded quotient)) :
    toMultiple (Exact.finite value) (.number (.finite step)) round = .finite (rounded (value / step) * step) := by
  have notZero : isZero (Exact.finite step) = false := by
    refine Bool.and_eq_false_imp.mpr fun same => ?_
    exact absurd (Exact.finite.inj (of_decide_eq_true same)) (by simpa using nonzero)
  have divided : JsMath.div (Exact.finite value) (.finite step) = .finite (value / step) := if_pos nonzero
  have read : ∀ (number : ℚ) (digits : Nat), (JsNumber.ofText (JsMath.toPrecision (Exact.finite number) digits) : Exact) = .finite number :=
    fun number digits => Exact.ofText_toText number
  unfold toMultiple
  show (if (!true || !true) = true then _ else if isZero (Exact.finite step) = true then _ else
    unsignedZero (JsNumber.ofText (JsMath.toPrecision (JsNumber.mul
      (round (JsNumber.ofText (JsMath.toPrecision (JsMath.div (Exact.finite value) (.finite step)) 15))) (.finite step)) 15))) = _
  rw [if_neg (by decide), if_neg (by rw [notZero]; decide), divided, read, rounds]
  show unsignedZero (JsNumber.ofText (JsMath.toPrecision (Exact.finite (rounded (value / step) * step)) 15) : Exact) = _
  rw [read, unsignedZero_finite]

theorem ceilingOf_eq (value step : ℚ) (nonzero : step ≠ 0) : ceilingOf value step = .number (.finite (⌈value / step⌉ * step)) :=
  congrArg Value.number (toMultiple_finite value step nonzero _ Int.ceil fun _ => rfl)

theorem floorOf_eq (value step : ℚ) (nonzero : step ≠ 0) : floorOf value step = .number (.finite (⌊value / step⌋ * step)) :=
  congrArg Value.number (toMultiple_finite value step nonzero _ Int.floor fun _ => rfl)

/-- CEILING is the least multiple at or above the value, FLOOR the greatest at or below it. -/
def OnTheirSides (value step : ℚ) : Prop :=
  (∃ multiple : ℚ, ceilingOf value step = .number (.finite multiple) ∧ IsLeast {multiple | IsMultiple step multiple ∧ value ≤ multiple} multiple) ∧
  (∃ multiple : ℚ, floorOf value step = .number (.finite multiple) ∧ IsGreatest {multiple | IsMultiple step multiple ∧ multiple ≤ value} multiple)

/-- They are where the step is positive or divides the value; a negative step turns both around. -/
theorem onTheirSides_iff (value step : ℚ) (nonzero : step ≠ 0) : OnTheirSides value step ↔ 0 < step ∨ IsMultiple step value := by
  unfold OnTheirSides
  rw [ceilingOf_eq value step nonzero, floorOf_eq value step nonzero]
  constructor
  · rintro ⟨⟨multiple, isCeiling, ⟨-, above⟩, -⟩, -⟩
    have same : (⌈value / step⌉ : ℚ) * step = multiple := Exact.finite.inj (Value.number.inj isCeiling)
    rcases nonzero.lt_or_gt with negative | positive
    · right
      by_contra missed
      rw [← same] at above
      exact absurd above (not_le.mpr (ceil_below negative missed))
    · exact .inl positive
  · rintro (positive | multiple)
    · exact ⟨⟨_, rfl, isLeast_ceil positive⟩, ⟨_, rfl, isGreatest_floor positive⟩⟩
    · rw [ceil_multiple nonzero multiple, floor_multiple nonzero multiple]
      exact ⟨⟨value, rfl, ⟨multiple, le_rfl⟩, fun other isOther => isOther.2⟩, ⟨value, rfl, ⟨multiple, le_rfl⟩, fun other isOther => isOther.2⟩⟩

end Operators

/-- `CEILING(7, 2)` and `FLOOR(7, 2)`. -/
theorem onTheirSides_seven : @OnTheirSides asciiTables 7 2 := (@onTheirSides_iff asciiTables 7 2 (by norm_num)).mpr (.inl (by norm_num))

/-- `CEILING(5, -2)` is 4, which is below 5. -/
theorem ceiling_below_value : ¬∀ value step : ℚ, step ≠ 0 → @OnTheirSides asciiTables value step := by
  intro always
  obtain ⟨⟨multiple, isCeiling, ⟨-, above⟩, -⟩, -⟩ := always 5 (-2) (by norm_num)
  rw [@ceilingOf_eq asciiTables 5 (-2) (by norm_num)] at isCeiling
  have rounded : ⌈(5 : ℚ) / -2⌉ = -2 := by norm_num
  have isFour : (4 : ℚ) = multiple := by
    have same := Exact.finite.inj (Value.number.inj isCeiling)
    rw [rounded] at same
    norm_num at same
    exact same
  rw [← isFour] at above
  norm_num at above

end OpenShapeForge.Formula.Multiples
