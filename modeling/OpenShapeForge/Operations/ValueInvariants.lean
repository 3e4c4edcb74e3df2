import OpenShapeForge.Operations.ExactRationals
import OpenShapeForge.Extensions.ConditionMeaning

/-! The keywords that hold a value together (packages/operations/src/value-invariants.ts): which items
of an array are the same one, and which of two fields is the lower, goes by the numbers that are
written down and not by how they are written. -/

namespace OpenShapeForge.Operations.ValueInvariants
open Js FieldValues ExactNumeric ExactRationals
open Extensions.ConditionMeaning (textLess_date)
open Extensions.RollupCondition (dateOf)

/-- A number of the language; its two zeros are printed alike. -/
inductive Number where
  | finite (value : FiniteNumber)
  | infinity (negative : Bool)
  | nan

/-- `String(value)`. -/
def Number.toText : Number → Text
  | finite value => value.toText
  | infinity negative => signed negative (js "Infinity")
  | nan => js "NaN"

/-- A value of the language; `opaqueValue` is a symbol or a function. -/
inductive Unknown where
  | undefined
  | null
  | boolean (value : Bool)
  | number (value : Number)
  | bigint (value : Int)
  | text (value : Text)
  | array (items : List Unknown)
  | object (members : List (Text × Unknown))
  | opaqueValue

/-- `Object.hasOwn` and what it finds, of an object that is no array. -/
def ownField (value : Unknown) (field : Text) : Option Unknown :=
  match value with
  | .object members => (members.find? fun member => member.1 = field).map Prod.snd
  | _ => none

def numericValue : Unknown → Option NumericValue
  | .number (.finite value) => some (.number value)
  | .bigint value => some (.bigint value)
  | .text value => some (.text value)
  | _ => none

def exactDecimal (value : Unknown) : Option ExactDecimal := (numericValue value).bind ExactNumeric.exactDecimal

def compareExactNumeric (left right : Unknown) : Option Int :=
  match numericValue left, numericValue right with
  | some left, some right => ExactNumeric.compareExactNumeric left right
  | _, _ => none

inductive OrderKind where
  | numeric
  | date

/-- `x-osf-ordered-fields`. -/
structure OrderedFields where
  lower : Text
  upper : Text
  kind : OrderKind

/-- `(lower as string) <= (upper as string)`, of two date texts. -/
def datesInOrder : Unknown → Unknown → Bool
  | .text lower, .text upper => isDateText lower && isDateText upper && !textLess upper lower
  | _, _ => false

def OrderedFields.validate (rule : OrderedFields) (value : Unknown) : Bool :=
  match ownField value rule.lower, ownField value rule.upper with
  | some lower, some upper =>
    match rule.kind with
    | .numeric => (compareExactNumeric lower upper).any fun compared => compared ≤ 0
    | .date => datesInOrder lower upper
  | _, _ => false

/-- `x-osf-unique-by`. -/
structure UniqueBy where
  field : Text
  numeric : Bool

/-- The digits and the scale without the zeros that a fraction ends in. -/
def stripZeros : Nat → Nat → Nat × Nat
  | digits, 0 => (digits, 0)
  | digits, scale + 1 => if digits % 10 = 0 then stripZeros (digits / 10) scale else (digits, scale + 1)

def numericKey (decimal : ExactDecimal) : Text :=
  let stripped := stripZeros decimal.digits decimal.scale
  (if decimal.negative then js "-" else js "+") ++ (Exact.wholeText stripped.1 ++ js ":" ++ Exact.wholeText stripped.2)

def scalarKey : Unknown → Option Text
  | .text value => some (js "string:" ++ value)
  | .number value => some (js "number:" ++ value.toText)
  | .boolean value => some (js "boolean:" ++ if value then js "true" else js "false")
  | _ => none

def UniqueBy.key (rule : UniqueBy) (identity : Unknown) : Option Text :=
  if rule.numeric then (exactDecimal identity).map numericKey else scalarKey identity

def UniqueBy.itemKey (rule : UniqueBy) (item : Unknown) : Option Text := (ownField item rule.field).bind rule.key

/-- The loop of `validate`, with the keys seen so far. -/
def UniqueBy.allDistinct (rule : UniqueBy) (seen : List Text) : List Unknown → Bool
  | [] => true
  | item :: rest =>
    match rule.itemKey item with
    | none => false
    | some key => if key ∈ seen then false else rule.allDistinct (key :: seen) rest

def UniqueBy.validate (rule : UniqueBy) : Unknown → Bool
  | .array items => rule.allDistinct [] items
  | _ => false

section Meaning

/-- The rational of a number, or of a decimal text that is not too long to be read. -/
inductive Denotes : Unknown → ℚ → Prop where
  | intro {value : Unknown} {numeric : NumericValue} (isNumeric : numericValue value = some numeric) (admitted : Admitted numeric) :
    Denotes value numeric.toRat

inductive IsScalar : Unknown → Prop where
  | text (value : Text) : IsScalar (.text value)
  | number (value : Number) : IsScalar (.number value)
  | boolean (value : Bool) : IsScalar (.boolean value)

/-- Scalars of one type and value; a set takes NaN for itself. -/
inductive SameScalar : Unknown → Unknown → Prop where
  | text (value : Text) : SameScalar (.text value) (.text value)
  | boolean (value : Bool) : SameScalar (.boolean value) (.boolean value)
  | finite {value other : FiniteNumber} (same : value.toRat = other.toRat) : SameScalar (.number (.finite value)) (.number (.finite other))
  | infinity (negative : Bool) : SameScalar (.number (.infinity negative)) (.number (.infinity negative))
  | nan : SameScalar (.number .nan) (.number .nan)

def UniqueBy.IsIdentity (rule : UniqueBy) (identity : Unknown) : Prop :=
  if rule.numeric then ∃ value, Denotes identity value else IsScalar identity

def UniqueBy.SameIdentity (rule : UniqueBy) (one other : Unknown) : Prop :=
  if rule.numeric then ∃ value, Denotes one value ∧ Denotes other value else SameScalar one other

/-- The lower value is not after the upper one, both of the kind. -/
inductive InOrder : OrderKind → Unknown → Unknown → Prop where
  | numeric {lower upper : Unknown} {low high : ℚ} (isLow : Denotes lower low) (isHigh : Denotes upper high) (ordered : low ≤ high) :
    InOrder .numeric lower upper
  | date {lower upper : Text} (isLow : isDateText lower = true) (isHigh : isDateText upper = true)
    (ordered : (dateOf upper).less (dateOf lower) = false) : InOrder .date (.text lower) (.text upper)

end Meaning

section Tens

theorem sign_mul {negative negative' : Bool} {a b : ℚ} (positive : 0 ≤ a) (positive' : 0 ≤ b) (marked : negative = true → a ≠ 0)
    (marked' : negative' = true → b ≠ 0) (same : sign negative * a = sign negative' * b) : negative = negative' ∧ a = b := by
  unfold sign at same
  cases negative with
  | false =>
    cases negative' with
    | false => exact ⟨rfl, by simpa using same⟩
    | true =>
      have below := lt_of_le_of_ne positive' (marked' rfl).symm
      simp at same
      linarith
  | true =>
    cases negative' with
    | false =>
      have below := lt_of_le_of_ne positive (marked rfl).symm
      simp at same
      linarith
    | true => exact ⟨rfl, by simpa using same⟩

theorem zeros_of_lower {m n : Nat} {e f : ℤ} (same : (m : ℚ) * 10 ^ e = n * 10 ^ f) (lower : e < f) : m % 10 = 0 := by
  obtain ⟨count, isAbove⟩ := Int.eq_ofNat_of_zero_le (sub_nonneg.mpr (Int.add_one_le_of_lt lower))
  have isPower : f = e + (count + 1 : Nat) := by
    push_cast
    omega
  have base : (10 : ℚ) ≠ 0 := by norm_num
  rw [isPower, zpow_add₀ base, zpow_natCast, mul_comm ((10 : ℚ) ^ e), ← mul_assoc] at same
  have digits : (m : ℚ) = n * 10 ^ (count + 1) := mul_right_cancel₀ (zpow_ne_zero e base) same
  have whole : m = n * 10 ^ (count + 1) := by exact_mod_cast digits
  rw [whole, pow_succ, ← mul_assoc, Nat.mul_mod_left]

theorem exponents_eq {m n : Nat} {e f : ℤ} (same : (m : ℚ) * 10 ^ e = n * 10 ^ f) (ends : e < f → m % 10 ≠ 0) (ends' : f < e → n % 10 ≠ 0) :
    m = n ∧ e = f := by
  have exponents : e = f := by
    rcases lt_trichotomy e f with below | equal | above
    · exact absurd (zeros_of_lower same below) (ends below)
    · exact equal
    · exact absurd (zeros_of_lower same.symm above) (ends' above)
  subst exponents
  refine ⟨?_, rfl⟩
  have digits := mul_right_cancel₀ (zpow_ne_zero e (by norm_num : (10 : ℚ) ≠ 0)) same
  exact_mod_cast digits

end Tens

section Keys

theorem stripZeros_spec (digits scale : Nat) : ((stripZeros digits scale).1 : ℚ) * 10 ^ (-(stripZeros digits scale).2 : ℤ) = digits * 10 ^ (-scale : ℤ) ∧
    (0 < (stripZeros digits scale).2 → (stripZeros digits scale).1 % 10 ≠ 0) := by
  induction scale generalizing digits with
  | zero => exact ⟨rfl, fun never => absurd never (lt_irrefl 0)⟩
  | succ scale ih =>
    unfold stripZeros
    split
    next ends =>
      obtain ⟨kept, canonical⟩ := ih (digits / 10)
      refine ⟨?_, canonical⟩
      have tens : (digits : ℚ) = (digits / 10 : Nat) * 10 := by exact_mod_cast (Nat.div_mul_cancel (Nat.dvd_of_mod_eq_zero ends)).symm
      have shift : (10 : ℚ) ^ (-(scale : ℤ)) = 10 * 10 ^ (-((scale + 1 : Nat) : ℤ)) := by
        rw [← zpow_one_add₀ (by norm_num)]
        congr 1
        push_cast
        ring
      rw [kept, shift, ← mul_assoc, ← tens]
    next ends => exact ⟨rfl, fun _ => ends⟩

theorem wholeText_inj {a b : Nat} (same : Exact.wholeText a = Exact.wholeText b) : a = b := by
  rw [← digitsValue_wholeText a, same, digitsValue_wholeText]

theorem colon_parts {a b c d : Nat} (same : Exact.wholeText a ++ js ":" ++ Exact.wholeText b = Exact.wholeText c ++ js ":" ++ Exact.wholeText d) :
    a = c ∧ b = d := by
  have cut : ∀ m n : Nat, (Exact.wholeText m ++ js ":" ++ Exact.wholeText n).takeWhile isDigit = Exact.wholeText m ∧
      (Exact.wholeText m ++ js ":" ++ Exact.wholeText n).dropWhile isDigit = unit ':' :: Exact.wholeText n := by
    intro m n
    rw [List.append_assoc]
    exact takeWhile_digits (allDigits_wholeText m) (by decide) _
  have front := (cut a b).1.symm.trans ((congrArg (List.takeWhile isDigit) same).trans (cut c d).1)
  have back := (cut a b).2.symm.trans ((congrArg (List.dropWhile isDigit) same).trans (cut c d).2)
  exact ⟨wholeText_inj front, wholeText_inj (List.cons.inj back).2⟩

def Signed (decimal : ExactDecimal) : Prop := decimal.negative = true → decimal.digits ≠ 0

theorem decimalValue_eq (decimal : ExactDecimal) : decimalValue decimal = sign decimal.negative * (decimal.digits * 10 ^ (-decimal.scale : ℤ)) := by
  unfold decimalValue sign
  rw [zpow_neg, zpow_natCast, mul_div_assoc, div_eq_mul_inv]

theorem numericKey_inj {one other : ExactDecimal} (isSigned : Signed one) (isSigned' : Signed other) :
    numericKey one = numericKey other ↔ decimalValue one = decimalValue other := by
  obtain ⟨kept, canonical⟩ := stripZeros_spec one.digits one.scale
  obtain ⟨kept', canonical'⟩ := stripZeros_spec other.digits other.scale
  rw [decimalValue_eq, decimalValue_eq]
  constructor
  · intro same
    unfold numericKey at same
    dsimp only at same
    have parts : one.negative = other.negative ∧
        Exact.wholeText (stripZeros one.digits one.scale).1 ++ js ":" ++ Exact.wholeText (stripZeros one.digits one.scale).2 =
          Exact.wholeText (stripZeros other.digits other.scale).1 ++ js ":" ++ Exact.wholeText (stripZeros other.digits other.scale).2 := by
      cases left : one.negative <;> cases right : other.negative <;> rw [left, right] at same
      · exact ⟨rfl, (List.cons.inj same).2⟩
      · exact absurd (List.cons.inj same).1 (by decide)
      · exact absurd (List.cons.inj same).1 (by decide)
      · exact ⟨rfl, (List.cons.inj same).2⟩
    obtain ⟨digits, scale⟩ := colon_parts parts.2
    rw [parts.1, ← kept, ← kept', digits, scale]
  · intro same
    have nonneg : ∀ decimal : ExactDecimal, (0 : ℚ) ≤ decimal.digits * 10 ^ (-decimal.scale : ℤ) := fun decimal =>
      mul_nonneg (Nat.cast_nonneg _) (zpow_nonneg (by norm_num) _)
    have nonzero : ∀ decimal : ExactDecimal, Signed decimal → decimal.negative = true → (decimal.digits * 10 ^ (-decimal.scale : ℤ) : ℚ) ≠ 0 :=
      fun decimal isSigned marked => mul_ne_zero (Nat.cast_ne_zero.mpr (isSigned marked)) (zpow_ne_zero _ (by norm_num))
    obtain ⟨signs, magnitudes⟩ := sign_mul (nonneg one) (nonneg other) (nonzero one isSigned) (nonzero other isSigned') same
    rw [← kept, ← kept'] at magnitudes
    obtain ⟨digits, scales⟩ := exponents_eq magnitudes (fun below => canonical (by omega)) (fun above => canonical' (by omega))
    unfold numericKey
    dsimp only
    rw [signs, digits, Nat.cast_injective (neg_inj.mp scales)]

end Keys

section Printing

theorem lastDigit (value : Printed) : digitsValue value.digits % 10 ≠ 0 := by
  have trailing := value.trailing
  have digits := value.isDigits
  rcases List.eq_nil_or_concat value.digits with empty | ⟨front, c, written⟩
  · exact absurd empty value.nonempty
  · rw [List.concat_eq_append] at written
    rw [written] at trailing digits ⊢
    have range := Formula.StoredDates.isDigit_range (digits c (List.mem_append_right _ List.mem_cons_self))
    have other : c ≠ unit '0' := by
      intro isZero
      rw [isZero, List.getLast?_concat] at trailing
      exact trailing rfl
    have apart : c.toNat ≠ 48 := fun isZero => other (UInt16.toNat_inj.mp isZero)
    rw [show digitsValue (front ++ [c]) = 10 * digitsValue front + (c.toNat - 48) from Formula.StoredDates.digitsValue_snoc front c]
    omega

theorem digitsValue_ne_zero (value : Printed) : digitsValue value.digits ≠ 0 := fun zero => lastDigit value (by rw [zero])

theorem toRat_eq (value : Printed) : value.toRat = sign value.negative * (digitsValue value.digits * 10 ^ (value.point - value.digits.length)) := by
  unfold Printed.toRat sign
  rw [mul_assoc]

theorem printed_unique {one other : Printed} (same : one.toRat = other.toRat) : one = other := by
  have nonneg : ∀ value : Printed, (0 : ℚ) ≤ digitsValue value.digits * 10 ^ (value.point - value.digits.length) := fun value =>
    mul_nonneg (Nat.cast_nonneg _) (zpow_nonneg (by norm_num) _)
  have nonzero : ∀ value : Printed, (digitsValue value.digits * 10 ^ (value.point - value.digits.length) : ℚ) ≠ 0 := fun value =>
    mul_ne_zero (Nat.cast_ne_zero.mpr (digitsValue_ne_zero value)) (zpow_ne_zero _ (by norm_num))
  rw [toRat_eq, toRat_eq] at same
  obtain ⟨signs, magnitudes⟩ := sign_mul (nonneg one) (nonneg other) (fun _ => nonzero one) (fun _ => nonzero other) same
  obtain ⟨values, points⟩ := exponents_eq magnitudes (fun _ => lastDigit one) (fun _ => lastDigit other)
  have written : ∀ value : Printed, Whole.digitsText (digitsValue value.digits) = value.digits := fun value =>
    digitsText_digitsValue (fun c member => Formula.StoredDates.isDigit_range (value.isDigits c member)) value.leading
  have digits : one.digits = other.digits := by rw [← written one, values, written other]
  have places : one.point = other.point := by
    rw [digits] at points
    omega
  cases one
  cases other
  cases signs
  cases digits
  cases places
  rfl

theorem toText_eq_iff {one other : FiniteNumber} : one.toText = other.toText ↔ one.toRat = other.toRat := by
  constructor
  · intro same
    rw [← (decimalText_value one).2.1, same, (decimalText_value other).2.1]
  · intro same
    have nonzero : ∀ value : Printed, value.toRat ≠ 0 := by
      intro value
      rw [toRat_eq]
      refine mul_ne_zero ?_ (mul_ne_zero (Nat.cast_ne_zero.mpr (digitsValue_ne_zero value)) (zpow_ne_zero _ (by norm_num)))
      unfold sign
      split <;> norm_num
    cases one with
    | zero =>
      cases other with
      | zero => rfl
      | printed value => exact absurd same.symm (nonzero value)
    | printed value =>
      cases other with
      | zero => exact absurd same (nonzero value)
      | printed other => rw [printed_unique same]

end Printing

section Identities

theorem signed_of_text {text : Text} {decimal : ExactDecimal} (read : exactDecimalText text = some decimal) : Signed decimal := by
  unfold exactDecimalText at read
  split at read
  next => cases read
  next =>
    obtain rfl := Option.some.inj read
    intro marked
    exact of_decide_eq_true (Bool.and_eq_true_iff.mp marked).2

theorem admitted_of_read {value : NumericValue} {decimal : ExactDecimal} (read : ExactNumeric.exactDecimal value = some decimal) :
    Admitted value ∧ Signed decimal := by
  cases value with
  | bigint value =>
    refine ⟨?_, signed_of_text read⟩
    change exactDecimalText (bigintText value) = some decimal at read
    unfold exactDecimalText at read
    split at read
    next => cases read
    next fits => exact not_lt.mp (not_or.mp fits).1
  | number value => exact ⟨trivial, signed_of_text read⟩
  | text value =>
    unfold ExactNumeric.exactDecimal at read
    dsimp only at read
    split at read
    next fits => exact ⟨fits, signed_of_text read⟩
    next => cases read

theorem denotes_iff {identity : Unknown} {value : ℚ} :
    Denotes identity value ↔ ∃ decimal, exactDecimal identity = some decimal ∧ Signed decimal ∧ decimalValue decimal = value := by
  constructor
  · intro denotes
    cases denotes with
    | intro isNumeric admitted =>
      obtain ⟨decimal, read, isValue⟩ := exactDecimal_value admitted
      exact ⟨decimal, by rw [exactDecimal, isNumeric]; exact read, (admitted_of_read read).2, isValue⟩
  · intro ⟨decimal, read, _, isValue⟩
    obtain ⟨numeric, isNumeric, read⟩ := Option.bind_eq_some_iff.mp read
    obtain ⟨admitted, -⟩ := admitted_of_read read
    obtain ⟨other, read', isValue'⟩ := exactDecimal_value admitted
    cases Option.some.inj (read.symm.trans read')
    rw [← isValue, isValue']
    exact .intro isNumeric admitted

theorem denotes_unique {identity : Unknown} {value other : ℚ} (one : Denotes identity value) (two : Denotes identity other) : value = other := by
  obtain ⟨decimal, read, -, isValue⟩ := denotes_iff.mp one
  obtain ⟨decimal', read', -, isValue'⟩ := denotes_iff.mp two
  cases Option.some.inj (read.symm.trans read')
  exact isValue.symm.trans isValue'

theorem scalarKey_isSome {identity : Unknown} : (∃ key, scalarKey identity = some key) ↔ IsScalar identity := by
  constructor
  · intro ⟨key, isKey⟩
    cases identity with
    | text value => exact .text value
    | number value => exact .number value
    | boolean value => exact .boolean value
    | _ => cases isKey
  · intro scalar
    cases scalar with
    | text value => exact ⟨_, rfl⟩
    | number value => exact ⟨_, rfl⟩
    | boolean value => exact ⟨_, rfl⟩

/-- A finite number is printed with a digit or a sign and a digit, the others with a letter or a sign and a letter. -/
theorem toText_apart (value : FiniteNumber) : (∀ negative, value.toText ≠ (Number.infinity negative).toText) ∧ value.toText ≠ Number.nan.toText := by
  have isDecimal := (decimalText_value value).1
  constructor
  · intro negative same
    rw [same] at isDecimal
    cases negative with
    | false => exact absurd isDecimal (by decide)
    | true => exact absurd isDecimal (by decide)
  · intro same
    rw [same] at isDecimal
    exact absurd isDecimal (by decide)

theorem number_toText {one other : Number} : one.toText = other.toText ↔ SameScalar (.number one) (.number other) := by
  constructor
  · intro same
    cases one with
    | finite value =>
      cases other with
      | finite other => exact .finite (toText_eq_iff.mp same)
      | infinity negative => exact absurd same ((toText_apart value).1 negative)
      | nan => exact absurd same (toText_apart value).2
    | infinity negative =>
      cases other with
      | finite other => exact absurd same.symm ((toText_apart other).1 negative)
      | infinity negative' =>
        cases negative <;> cases negative'
        · exact .infinity false
        · exact absurd same (by decide)
        · exact absurd same (by decide)
        · exact .infinity true
      | nan =>
        cases negative
        · exact absurd same (by decide)
        · exact absurd same (by decide)
    | nan =>
      cases other with
      | finite other => exact absurd same.symm (toText_apart other).2
      | infinity negative =>
        cases negative
        · exact absurd same (by decide)
        · exact absurd same (by decide)
      | nan => exact .nan
  · intro same
    cases same with
    | finite same => exact toText_eq_iff.mpr same
    | infinity negative => rfl
    | nan => rfl

theorem scalarKey_inj {one other : Unknown} {key key' : Text} (isKey : scalarKey one = some key) (isKey' : scalarKey other = some key') :
    key = key' ↔ SameScalar one other := by
  have isOne := scalarKey_isSome.mp ⟨key, isKey⟩
  have isOther := scalarKey_isSome.mp ⟨key', isKey'⟩
  have apart : ∀ {c d : CodeUnit} {rest rest' : Text}, c ≠ d → c :: rest ≠ d :: rest' := fun differ same => differ (List.cons.inj same).1
  cases isOne with
  | text value =>
    obtain rfl := Option.some.inj isKey
    cases isOther with
    | text other =>
      obtain rfl := Option.some.inj isKey'
      rw [List.append_cancel_left_eq]
      exact ⟨fun same => same ▸ .text value, fun same => by cases same; rfl⟩
    | number other => exact Option.some.inj isKey' ▸ ⟨fun same => absurd same (apart (by decide)), fun never => by cases never⟩
    | boolean other => exact Option.some.inj isKey' ▸ ⟨fun same => absurd same (apart (by decide)), fun never => by cases never⟩
  | number value =>
    obtain rfl := Option.some.inj isKey
    cases isOther with
    | text other => exact Option.some.inj isKey' ▸ ⟨fun same => absurd same (apart (by decide)), fun never => by cases never⟩
    | number other =>
      obtain rfl := Option.some.inj isKey'
      rw [List.append_cancel_left_eq]
      exact number_toText
    | boolean other => exact Option.some.inj isKey' ▸ ⟨fun same => absurd same (apart (by decide)), fun never => by cases never⟩
  | boolean value =>
    obtain rfl := Option.some.inj isKey
    cases isOther with
    | text other => exact Option.some.inj isKey' ▸ ⟨fun same => absurd same (apart (by decide)), fun never => by cases never⟩
    | number other => exact Option.some.inj isKey' ▸ ⟨fun same => absurd same (apart (by decide)), fun never => by cases never⟩
    | boolean other =>
      obtain rfl := Option.some.inj isKey'
      rw [List.append_cancel_left_eq]
      cases value <;> cases other
      · exact iff_of_true rfl (.boolean false)
      · exact iff_of_false (by decide) (fun never => by cases never)
      · exact iff_of_false (by decide) (fun never => by cases never)
      · exact iff_of_true rfl (.boolean true)

theorem key_inj (rule : UniqueBy) {one other : Unknown} {key key' : Text} (isKey : rule.key one = some key) (isKey' : rule.key other = some key') :
    key = key' ↔ rule.SameIdentity one other := by
  unfold UniqueBy.key at isKey isKey'
  unfold UniqueBy.SameIdentity
  split
  next numeric =>
    rw [if_pos numeric] at isKey isKey'
    obtain ⟨decimal, read, rfl⟩ := Option.map_eq_some_iff.mp isKey
    obtain ⟨decimal', read', rfl⟩ := Option.map_eq_some_iff.mp isKey'
    obtain ⟨numericOne, isNumeric, readOne⟩ := Option.bind_eq_some_iff.mp read
    obtain ⟨numericOther, isNumeric', readOther⟩ := Option.bind_eq_some_iff.mp read'
    have isSigned := (admitted_of_read readOne).2
    have isSigned' := (admitted_of_read readOther).2
    have denotes := denotes_iff.mpr ⟨decimal, read, isSigned, rfl⟩
    have denotes' := denotes_iff.mpr ⟨decimal', read', isSigned', rfl⟩
    rw [numericKey_inj isSigned isSigned']
    constructor
    · intro same
      exact ⟨_, denotes, same ▸ denotes'⟩
    · intro ⟨value, isOne, isOther⟩
      exact (denotes_unique denotes isOne).trans (denotes_unique isOther denotes')
  next scalar =>
    rw [if_neg scalar] at isKey isKey'
    exact scalarKey_inj isKey isKey'

theorem key_isSome (rule : UniqueBy) {identity : Unknown} : (∃ key, rule.key identity = some key) ↔ rule.IsIdentity identity := by
  unfold UniqueBy.key UniqueBy.IsIdentity
  split
  next numeric =>
    constructor
    · intro ⟨key, isKey⟩
      obtain ⟨decimal, read, -⟩ := Option.map_eq_some_iff.mp isKey
      obtain ⟨value, -, readValue⟩ := Option.bind_eq_some_iff.mp read
      exact ⟨_, denotes_iff.mpr ⟨decimal, read, (admitted_of_read readValue).2, rfl⟩⟩
    · intro ⟨value, denotes⟩
      obtain ⟨decimal, read, -⟩ := denotes_iff.mp denotes
      exact ⟨_, by rw [read]; rfl⟩
  next scalar => exact scalarKey_isSome

end Identities

section Keywords

theorem allDistinct_iff (rule : UniqueBy) (items : List Unknown) (seen : List Text) : rule.allDistinct seen items = true ↔
    (∀ item ∈ items, ∃ key, rule.itemKey item = some key ∧ key ∉ seen) ∧
      items.Pairwise fun one other => ∀ key, rule.itemKey one = some key → rule.itemKey other ≠ some key := by
  induction items generalizing seen with
  | nil => exact ⟨fun _ => ⟨fun item never => absurd never List.not_mem_nil, .nil⟩, fun _ => rfl⟩
  | cons item rest ih =>
    rw [List.forall_mem_cons, List.pairwise_cons]
    unfold UniqueBy.allDistinct
    cases isKey : rule.itemKey item with
    | none =>
      constructor
      · intro never
        cases never
      · intro ⟨⟨⟨key, never, _⟩, _⟩, _⟩
        cases never
    | some key =>
      dsimp only
      constructor
      · intro distinct
        split at distinct
        next => cases distinct
        next fresh =>
          obtain ⟨each, pairs⟩ := (ih (key :: seen)).mp distinct
          refine ⟨⟨⟨key, rfl, fresh⟩, fun other member => ?_⟩, fun other member key' same isOther => ?_, pairs⟩
          · obtain ⟨found, isFound, unseen⟩ := each other member
            exact ⟨found, isFound, fun among => unseen (List.mem_cons_of_mem _ among)⟩
          · cases same
            obtain ⟨found, isFound, unseen⟩ := each other member
            cases isOther.symm.trans isFound
            exact unseen List.mem_cons_self
      · intro ⟨⟨⟨found, same, fresh⟩, each⟩, others, pairs⟩
        cases same
        rw [if_neg fresh]
        refine (ih _).mpr ⟨fun other member => ?_, pairs⟩
        obtain ⟨found, isFound, unseen⟩ := each other member
        refine ⟨found, isFound, fun among => ?_⟩
        rcases List.mem_cons.mp among with rfl | among
        · exact others other member found rfl isFound
        · exact unseen among

theorem itemKey_isSome (rule : UniqueBy) {item : Unknown} : (∃ key, rule.itemKey item = some key) ↔
    ∃ identity, ownField item rule.field = some identity ∧ rule.IsIdentity identity := by
  constructor
  · intro ⟨key, isKey⟩
    obtain ⟨identity, isOwn, isKey⟩ := Option.bind_eq_some_iff.mp isKey
    exact ⟨identity, isOwn, (key_isSome rule).mp ⟨key, isKey⟩⟩
  · intro ⟨identity, isOwn, isIdentity⟩
    obtain ⟨key, isKey⟩ := (key_isSome rule).mpr isIdentity
    exact ⟨key, Option.bind_eq_some_iff.mpr ⟨identity, isOwn, isKey⟩⟩

theorem itemKey_apart (rule : UniqueBy) {one other : Unknown} (hasKey : ∃ key, rule.itemKey one = some key)
    (hasKey' : ∃ key, rule.itemKey other = some key) : (∀ key, rule.itemKey one = some key → rule.itemKey other ≠ some key) ↔
      ∀ a b, ownField one rule.field = some a → ownField other rule.field = some b → ¬rule.SameIdentity a b := by
  obtain ⟨key, isKey⟩ := hasKey
  obtain ⟨key', isKey'⟩ := hasKey'
  obtain ⟨identity, isOwn, ofIdentity⟩ := Option.bind_eq_some_iff.mp isKey
  obtain ⟨identity', isOwn', ofIdentity'⟩ := Option.bind_eq_some_iff.mp isKey'
  have same := key_inj rule ofIdentity ofIdentity'
  constructor
  · intro apart a b isA isB alike
    cases isOwn.symm.trans isA
    cases isOwn'.symm.trans isB
    exact apart key isKey (same.mpr alike ▸ isKey')
  · intro apart found isFound isOther
    cases isKey.symm.trans isFound
    cases isKey'.symm.trans isOther
    exact apart identity identity' isOwn isOwn' (same.mp rfl)

theorem unique_iff (rule : UniqueBy) (items : List Unknown) : rule.validate (.array items) = true ↔
    (∀ item ∈ items, ∃ identity, ownField item rule.field = some identity ∧ rule.IsIdentity identity) ∧
      items.Pairwise fun one other => ∀ a b, ownField one rule.field = some a → ownField other rule.field = some b → ¬rule.SameIdentity a b := by
  have keyed : (∀ item ∈ items, ∃ key, rule.itemKey item = some key ∧ key ∉ ([] : List Text)) ↔
      ∀ item ∈ items, ∃ identity, ownField item rule.field = some identity ∧ rule.IsIdentity identity := by
    refine forall₂_congr fun item _ => Iff.trans ?_ (itemKey_isSome rule)
    exact exists_congr fun key => and_iff_left List.not_mem_nil
  show rule.allDistinct [] items = true ↔ _
  rw [allDistinct_iff, keyed]
  refine and_congr_right fun each => ?_
  have hasKey : ∀ item ∈ items, ∃ key, rule.itemKey item = some key := fun item member => (itemKey_isSome rule).mpr (each item member)
  constructor
  · intro pairs
    exact pairs.imp_of_mem fun one other apart => (itemKey_apart rule (hasKey _ one) (hasKey _ other)).mp apart
  · intro pairs
    exact pairs.imp_of_mem fun one other apart => (itemKey_apart rule (hasKey _ one) (hasKey _ other)).mpr apart

theorem admitted_of_compared {left right : NumericValue} {compared : Int} (isCompared : ExactNumeric.compareExactNumeric left right = some compared) :
    Admitted left ∧ Admitted right := by
  unfold ExactNumeric.compareExactNumeric at isCompared
  split at isCompared
  next a b readLeft readRight => exact ⟨(admitted_of_read readLeft).1, (admitted_of_read readRight).1⟩
  next => cases isCompared

theorem sign_le {low high : ℚ} : (SignType.sign (low - high) : ℤ) ≤ 0 ↔ low ≤ high := by
  rw [← sub_nonpos (a := low)]
  rcases lt_trichotomy (low - high) 0 with below | equal | above
  · rw [sign_neg below]
    exact iff_of_true (by decide) below.le
  · rw [equal, sign_zero]
    exact iff_of_true (by decide) le_rfl
  · rw [sign_pos above]
    exact iff_of_false (by decide) (not_le.mpr above)

theorem layout_of_isDateText {text : Text} (isDate : isDateText text = true) : hasLayout text (js "dddd-dd-dd") = true := by
  unfold isDateText at isDate
  simp only [Bool.and_eq_true] at isDate
  exact isDate.1.1.1.1

theorem compare_iff {lower upper : Unknown} : (compareExactNumeric lower upper).any (fun compared => compared ≤ 0) = true ↔
    InOrder .numeric lower upper := by
  constructor
  · intro ordered
    obtain ⟨compared, isCompared, below⟩ := (Option.any_eq_true _ _).mp ordered
    unfold compareExactNumeric at isCompared
    split at isCompared
    next left right isLeft isRight =>
      obtain ⟨admitted, admitted'⟩ := admitted_of_compared isCompared
      rw [compare_value admitted admitted'] at isCompared
      obtain rfl := Option.some.inj isCompared
      exact .numeric (.intro isLeft admitted) (.intro isRight admitted') (sign_le.mp (of_decide_eq_true below))
    next => cases isCompared
  · intro ordered
    cases ordered with
    | numeric isLow isHigh ordered =>
      cases isLow with
      | intro isLeft admitted =>
        cases isHigh with
        | intro isRight admitted' =>
          unfold compareExactNumeric
          rw [isLeft, isRight]
          dsimp only
          rw [compare_value admitted admitted', Option.any_some, decide_eq_true_eq]
          exact sign_le.mpr ordered

theorem datesInOrder_iff {lower upper : Unknown} : datesInOrder lower upper = true ↔ InOrder .date lower upper := by
  constructor
  · intro ordered
    unfold datesInOrder at ordered
    split at ordered
    next low high =>
      simp only [Bool.and_eq_true, Bool.not_eq_true'] at ordered
      obtain ⟨⟨isLow, isHigh⟩, ordered⟩ := ordered
      rw [textLess_date (layout_of_isDateText isHigh) (layout_of_isDateText isLow)] at ordered
      exact .date isLow isHigh ordered
    next => cases ordered
  · intro ordered
    cases ordered with
    | @date low high isLow isHigh ordered =>
      rw [← textLess_date (layout_of_isDateText isHigh) (layout_of_isDateText isLow)] at ordered
      show (isDateText low && isDateText high && !textLess high low) = true
      rw [isLow, isHigh, ordered]
      rfl

theorem ordered_iff (rule : OrderedFields) (value : Unknown) : rule.validate value = true ↔
    ∃ lower upper, ownField value rule.lower = some lower ∧ ownField value rule.upper = some upper ∧ InOrder rule.kind lower upper := by
  have kept : ∀ lower upper, (match rule.kind with
      | .numeric => (compareExactNumeric lower upper).any fun compared => compared ≤ 0
      | .date => datesInOrder lower upper) = true ↔ InOrder rule.kind lower upper := by
    intro lower upper
    cases rule.kind with
    | numeric => exact compare_iff
    | date => exact datesInOrder_iff
  unfold OrderedFields.validate
  constructor
  · intro valid
    split at valid
    next lower upper isLower isUpper => exact ⟨lower, upper, isLower, isUpper, (kept lower upper).mp valid⟩
    next => cases valid
  · intro ⟨lower, upper, isLower, isUpper, ordered⟩
    rw [isLower, isUpper]
    exact (kept lower upper).mpr ordered

end Keywords

section Results

/-- Value invariants go by the numbers and the dates that a value holds, however these are spelled. -/
theorem invariants_by_value :
    (∀ (rule : UniqueBy) (items : List Unknown), rule.validate (.array items) = true ↔
      (∀ item ∈ items, ∃ identity, ownField item rule.field = some identity ∧ rule.IsIdentity identity) ∧
        items.Pairwise fun one other => ∀ a b, ownField one rule.field = some a → ownField other rule.field = some b → ¬rule.SameIdentity a b) ∧
    ∀ (rule : OrderedFields) (members : List (Text × Unknown)), rule.validate (.object members) = true ↔
      ∃ lower upper, ownField (.object members) rule.lower = some lower ∧ ownField (.object members) rule.upper = some upper ∧
        InOrder rule.kind lower upper :=
  ⟨unique_iff, fun rule members => ordered_iff rule (.object members)⟩

example : (UniqueBy.mk (js "id") true).validate (.array [.object [(js "id", .text (js "1.50"))], .object [(js "id", .text (js "1.5"))]]) = false := by
  decide

end Results

end OpenShapeForge.Operations.ValueInvariants
