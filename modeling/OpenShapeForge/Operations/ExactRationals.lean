import OpenShapeForge.Operations.ExactNumeric
import Mathlib.Data.List.TakeWhile
import Mathlib.Data.Sign.Basic
import Mathlib.Tactic.FieldSimp
import Mathlib.Tactic.Ring

/-! Exact numbers stand for the rationals they write down, however they are spelled: they compare
as these do, and a value is in a domain where its rational is. -/

namespace OpenShapeForge.Operations.ExactRationals
open Js FieldValues ExactNumeric

section Digits

def AllDigits (text : Text) : Prop := ∀ c ∈ text, isDigit c = true

theorem AllDigits.append {one other : Text} (first : AllDigits one) (second : AllDigits other) : AllDigits (one ++ other) := by
  intro c member
  rcases List.mem_append.mp member with front | back
  · exact first c front
  · exact second c back

theorem allDigits_zeros (count : Nat) : AllDigits (zeros count) := by
  intro c member
  rw [List.eq_of_mem_replicate member]
  decide

theorem allDigits_wholeText (value : Nat) : AllDigits (Exact.wholeText value) :=
  fun c member => Exact.digit_of_range (Exact.wholeText_digits value c member)

theorem digitsValue_append (front back : Text) : digitsValue (front ++ back) = digitsValue front * 10 ^ back.length + digitsValue back := by
  induction back using List.reverseRecOn with
  | nil => simp [digitsValue]
  | append_singleton back c ih =>
    have step : ∀ text : Text, digitsValue (text ++ [c]) = 10 * digitsValue text + (c.toNat - 48) := by
      intro text
      unfold digitsValue
      rw [List.foldl_append]
      rfl
    rw [← List.append_assoc, step, ih, step, List.length_append, List.length_singleton, pow_succ]
    ring

theorem digitsValue_zeros (count : Nat) : digitsValue (zeros count) = 0 := by
  induction count with
  | zero => rfl
  | succ count ih =>
    have split : zeros (count + 1) = zeros count ++ js "0" := List.replicate_succ'
    rw [split, digitsValue_append, ih]
    rfl

theorem digitsValue_wholeText (value : Nat) : digitsValue (Exact.wholeText value) = value := Exact.digitsValue_wholeText value

theorem not_dot {text : Text} (digits : AllDigits text) : unit '.' ∉ text := fun member => absurd (digits _ member) (by decide)

theorem head_not_minus {text : Text} (digits : AllDigits text) (nonempty : text ≠ []) (rest : Text) : (text ++ rest).head? ≠ some (unit '-') := by
  cases text with
  | nil => exact absurd rfl nonempty
  | cons c text =>
    intro minus
    have isDash : c = unit '-' := Option.some.inj minus
    have isOne := digits c List.mem_cons_self
    rw [isDash] at isOne
    exact absurd isOne (by decide)

end Digits

section Spelling

theorem unsignedPart_signed {body : Text} (plain : body.head? ≠ some (unit '-')) (negative : Bool) :
    unsignedPart (signed negative body) = body := by
  cases negative with
  | false => exact if_neg plain
  | true => rfl

theorem signed_head {body : Text} (plain : body.head? ≠ some (unit '-')) (negative : Bool) :
    (signed negative body).head? = some (unit '-') ↔ negative = true := by
  cases negative with
  | false => exact ⟨fun minus => absurd minus plain, fun never => absurd never (by decide)⟩
  | true => exact ⟨fun _ => rfl, fun _ => rfl⟩

theorem splitOn_whole {integer : Text} (digits : AllDigits integer) : integer.splitOn (unit '.') = [integer] := by
  have plain : ∀ part ∈ [integer], unit '.' ∉ part := fun part member => List.mem_singleton.mp member ▸ not_dot digits
  have split := List.splitOn_intercalate (unit '.') plain (by simp)
  rwa [List.intercalate_singleton] at split

theorem splitOn_fraction {integer fraction : Text} (digits : AllDigits integer) (more : AllDigits fraction) :
    (integer ++ js "." ++ fraction).splitOn (unit '.') = [integer, fraction] := by
  have plain : ∀ part ∈ [integer, fraction], unit '.' ∉ part := by
    intro part member
    rcases List.mem_pair.mp member with rfl | rfl
    · exact not_dot digits
    · exact not_dot more
  have joined : [unit '.'].intercalate [integer, fraction] = integer ++ js "." ++ fraction := by
    simp [List.intercalate, List.intersperse]
    rfl
  rw [← joined]
  exact List.splitOn_intercalate (unit '.') plain (by simp)

def IsWhole (integer : Text) : Prop := AllDigits integer ∧ integer ≠ [] ∧ (integer.length = 1 ∨ integer.head? ≠ some (unit '0'))

theorem isWholeText_iff {integer : Text} : isWholeText integer = true ↔ IsWhole integer := by
  unfold isWholeText IsWhole AllDigits
  simp [and_assoc]

theorem IsWhole.plain {integer : Text} (whole : IsWhole integer) (rest : Text) : (integer ++ rest).head? ≠ some (unit '-') :=
  head_not_minus whole.1 whole.2.1 rest

def sign (negative : Bool) : ℚ := if negative then -1 else 1

theorem signed_value {negative : Bool} {body : Text} (plain : body.head? ≠ some (unit '-')) (magnitude : ℚ) :
    (if (signed negative body).head? = some (unit '-') then -magnitude else magnitude) = sign negative * magnitude := by
  unfold sign
  cases negative with
  | false => rw [if_neg ((signed_head plain false).not.mpr (by decide)), if_neg (by decide), one_mul]
  | true => rw [if_pos ((signed_head plain true).mpr rfl), if_pos rfl, neg_one_mul]

theorem spelled_whole {integer : Text} (whole : IsWhole integer) (negative : Bool) :
    isDecimalText (signed negative integer) = true ∧ textValue (signed negative integer) = sign negative * digitsValue integer := by
  have plain : integer.head? ≠ some (unit '-') := by
    have := whole.plain []
    rwa [List.append_nil] at this
  constructor
  · unfold isDecimalText
    rw [unsignedPart_signed plain, splitOn_whole whole.1]
    exact isWholeText_iff.mpr whole
  · unfold textValue
    rw [unsignedPart_signed plain, splitOn_whole whole.1]
    dsimp only
    rw [signed_value plain]
    simp [digitsValue]

theorem spelled_fraction {integer fraction : Text} (whole : IsWhole integer) (digits : AllDigits fraction) (nonempty : fraction ≠ []) (negative : Bool) :
    isDecimalText (signed negative (integer ++ js "." ++ fraction)) = true ∧ textValue (signed negative (integer ++ js "." ++ fraction)) =
      sign negative * (digitsValue integer + digitsValue fraction / 10 ^ fraction.length) := by
  have plain : (integer ++ js "." ++ fraction).head? ≠ some (unit '-') := by
    rw [List.append_assoc]
    exact whole.plain _
  constructor
  · unfold isDecimalText
    rw [unsignedPart_signed plain, splitOn_fraction whole.1 digits]
    dsimp only
    rw [isWholeText_iff.mpr whole, List.all_eq_true.mpr digits]
    simpa using nonempty
  · unfold textValue
    rw [unsignedPart_signed plain, splitOn_fraction whole.1 digits]
    dsimp only
    rw [signed_value plain]
    rfl

end Spelling

section Parsing

theorem exactDecimalText_value {text : Text} (short : text.length ≤ maxExactNumericLength) (isDecimal : isDecimalText text = true) :
    ∃ decimal, exactDecimalText text = some decimal ∧ decimalValue decimal = textValue text := by
  unfold exactDecimalText
  rw [if_neg (by rw [not_or, not_lt, isDecimal]; exact ⟨short, by decide⟩)]
  refine ⟨_, rfl, ?_⟩
  unfold decimalValue textValue
  dsimp only
  generalize (((unsignedPart text).splitOn (unit '.'))[0]?).getD [] = integer
  generalize (((unsignedPart text).splitOn (unit '.'))[1]?).getD [] = fraction
  have digits : (digitsValue (integer ++ fraction) : ℚ) / 10 ^ fraction.length = digitsValue integer + digitsValue fraction / 10 ^ fraction.length := by
    rw [digitsValue_append]
    push_cast
    field_simp
  rw [← digits]
  by_cases minus : text.head? = some (unit '-')
  · rw [if_pos minus, decide_eq_true minus, Bool.true_and]
    by_cases zero : digitsValue (integer ++ fraction) = 0
    · rw [zero]
      simp
    · rw [if_pos (decide_eq_true zero), neg_one_mul, neg_div]
  · rw [if_neg minus, decide_eq_false minus, Bool.false_and, if_neg (by decide), one_mul]

end Parsing

section Exponents

theorem takeWhile_digits {integer : Text} (digits : AllDigits integer) {c : CodeUnit} (other : isDigit c = false) (rest : Text) :
    (integer ++ c :: rest).takeWhile isDigit = integer ∧ (integer ++ c :: rest).dropWhile isDigit = c :: rest := by
  constructor
  · rw [List.takeWhile_append_of_pos digits, List.takeWhile_cons_of_neg (by rw [other]; decide), List.append_nil]
  · rw [List.dropWhile_append_of_pos digits, List.dropWhile_cons_of_neg (by rw [other]; decide)]

theorem takeWhile_allDigits {integer : Text} (digits : AllDigits integer) : integer.takeWhile isDigit = integer ∧ integer.dropWhile isDigit = [] :=
  ⟨List.takeWhile_eq_self_iff.mpr digits, List.dropWhile_eq_nil_iff.mpr digits⟩

theorem expandExponent_whole {integer : Text} (whole : IsWhole integer) (negative : Bool) :
    expandExponent (signed negative integer) = signed negative integer := by
  have plain : integer.head? ≠ some (unit '-') := by
    have := whole.plain []
    rwa [List.append_nil] at this
  unfold expandExponent
  dsimp only
  rw [unsignedPart_signed plain, (takeWhile_allDigits whole.1).2]
  rfl

theorem expandExponent_fraction {integer fraction : Text} (whole : IsWhole integer) (digits : AllDigits fraction) (negative : Bool) :
    expandExponent (signed negative (integer ++ js "." ++ fraction)) = signed negative (integer ++ js "." ++ fraction) := by
  have plain : (integer ++ js "." ++ fraction).head? ≠ some (unit '-') := by
    rw [List.append_assoc]
    exact whole.plain _
  have cut : (integer ++ js "." ++ fraction).dropWhile isDigit = unit '.' :: fraction := by
    rw [List.append_assoc]
    exact (takeWhile_digits whole.1 (by decide) fraction).2
  have rest : (if (unit '.' :: fraction).head? = some (unit '.') then (unit '.' :: fraction).tail.dropWhile isDigit else unit '.' :: fraction) = [] := by
    rw [List.head?_cons, if_pos rfl]
    exact (takeWhile_allDigits digits).2
  unfold expandExponent
  dsimp only
  rw [unsignedPart_signed plain, cut, rest]

def pointMoved (digits : Text) (place : Int) : Text :=
  if place ≤ 0 then js "0." ++ zeros (-place).toNat ++ digits
  else if digits.length ≤ place.toNat then digits ++ zeros (place.toNat - digits.length)
  else digits.take place.toNat ++ js "." ++ digits.drop place.toNat

def fractionPart (fraction : Text) : Text := if fraction = [] then [] else unit '.' :: fraction

theorem expandExponent_exponent {integer fraction exponent : Text} {direction : CodeUnit} (digits : AllDigits integer) (nonempty : integer ≠ [])
    (more : AllDigits fraction) (power : AllDigits exponent) (powered : exponent ≠ []) (directed : direction = unit '+' ∨ direction = unit '-')
    (negative : Bool) : expandExponent (signed negative (integer ++ (fractionPart fraction ++ unit 'e' :: direction :: exponent))) =
      signed negative (pointMoved (integer ++ fraction)
        (integer.length + (if direction = unit '-' then -(digitsValue exponent : Int) else digitsValue exponent))) := by
  have plain := head_not_minus digits nonempty (fractionPart fraction ++ unit 'e' :: direction :: exponent)
  have isSign : (if (signed negative (integer ++ (fractionPart fraction ++ unit 'e' :: direction :: exponent))).head? = some (unit '-') then js "-" else []) =
      if negative then js "-" else [] := by
    cases negative with
    | false => exact if_neg ((signed_head plain false).not.mpr (by decide))
    | true => exact if_pos ((signed_head plain true).mpr rfl)
  have isPower : exponent.all isDigit = true := List.all_eq_true.mpr power
  have inDirection : ¬(direction ≠ unit '+' ∧ direction ≠ unit '-') := by tauto
  have moved : ∀ digits : Text, ∀ place : Int, (if place ≤ 0 then (if negative then js "-" else []) ++ js "0." ++ List.replicate (-place).toNat (unit '0') ++ digits
      else if digits.length ≤ place.toNat then (if negative then js "-" else []) ++ digits ++ List.replicate (place.toNat - digits.length) (unit '0')
      else (if negative then js "-" else []) ++ digits.take place.toNat ++ js "." ++ digits.drop place.toNat) = signed negative (pointMoved digits place) := by
    intro digits place
    unfold signed pointMoved zeros
    split
    next => simp only [List.append_assoc]
    next =>
      split
      next => simp only [List.append_assoc]
      next => simp only [List.append_assoc]
  unfold expandExponent
  dsimp only
  rw [isSign, unsignedPart_signed plain]
  by_cases pointed : fraction = []
  · subst pointed
    have cut := takeWhile_digits digits (c := unit 'e') (by decide) (direction :: exponent)
    have noPoint : (some (unit 'e') = some (unit '.')) = False := eq_false (by decide)
    rw [show fractionPart [] = [] from rfl, List.nil_append, cut.1, cut.2]
    simp only [List.head?_cons, noPoint, if_false, false_and, false_or, nonempty, ne_eq, not_true, inDirection, powered, isPower, Bool.true_eq_false,
      List.append_nil]
    exact moved integer _
  · have written : fractionPart fraction ++ unit 'e' :: direction :: exponent = unit '.' :: (fraction ++ unit 'e' :: direction :: exponent) := by
      rw [fractionPart, if_neg pointed]
      rfl
    have cut := takeWhile_digits digits (c := unit '.') (by decide) (fraction ++ unit 'e' :: direction :: exponent)
    have cutMore := takeWhile_digits more (c := unit 'e') (by decide) (direction :: exponent)
    rw [written, cut.1, cut.2]
    simp only [List.head?_cons, List.tail_cons, if_true, cutMore.1, cutMore.2, true_and, false_or, pointed, nonempty, ne_eq, not_true, inDirection,
      powered, isPower, Bool.true_eq_false, if_false]
    exact moved (integer ++ fraction) _

end Exponents

section Numbers
variable (value : Printed)

theorem isWhole_leading {text : Text} (digits : AllDigits text) (nonempty : text ≠ []) (leading : text.head? ≠ some (unit '0')) : IsWhole text :=
  ⟨digits, nonempty, .inr leading⟩

theorem isWhole_take {place : Nat} (positive : 0 < place) : IsWhole (value.digits.take place) := by
  obtain ⟨count, rfl⟩ := Nat.exists_eq_add_of_lt positive
  have leading := value.leading
  have nonempty := value.nonempty
  have digits := value.isDigits
  cases written : value.digits with
  | nil => exact absurd written nonempty
  | cons c rest =>
    rw [written] at leading digits
    rw [Nat.zero_add, List.take_succ_cons]
    refine isWhole_leading (fun d member => ?_) (List.cons_ne_nil _ _) leading
    exact digits d (List.mem_of_mem_take (i := count + 1) member)

theorem isWhole_zeros (count : Nat) : IsWhole (value.digits ++ zeros count) := by
  refine isWhole_leading (AllDigits.append value.isDigits (allDigits_zeros count)) (List.append_ne_nil_of_left_ne_nil value.nonempty _) ?_
  have leading := value.leading
  cases written : value.digits with
  | nil => exact absurd written value.nonempty
  | cons c rest =>
    rw [written] at leading
    exact leading

theorem isWhole_zero : IsWhole (js "0") := ⟨each_unit (by decide), by decide, .inl rfl⟩

theorem digits_pos : 0 < value.digits.length := List.length_pos_iff.mpr value.nonempty

theorem exponential_eq : value.exponential = value.digits.take 1 ++ (fractionPart (value.digits.drop 1) ++
    unit 'e' :: (if value.point - 1 < 0 then unit '-' else unit '+') :: Exact.wholeText (value.point - 1).natAbs) := by
  have fraction : (if value.digits.length = 1 then [] else js "." ++ value.digits.drop 1) = fractionPart (value.digits.drop 1) := by
    unfold fractionPart
    have positive := digits_pos value
    by_cases single : value.digits.length = 1
    · rw [if_pos single, if_pos (List.drop_eq_nil_iff.mpr single.le)]
    · rw [if_neg single, if_neg (by rw [List.drop_eq_nil_iff]; omega)]
      rfl
  unfold Printed.exponential
  dsimp only
  rw [fraction]
  split
  next => simp only [List.append_assoc]; rfl
  next => simp only [List.append_assoc]; rfl

theorem expandExponent_printed : expandExponent (FiniteNumber.printed value).toText = signed value.negative (pointMoved value.digits value.point) := by
  have positive := digits_pos value
  show expandExponent (signed value.negative value.body) = _
  unfold Printed.body
  split
  next whole =>
    rw [expandExponent_whole (isWhole_zeros value _)]
    unfold pointMoved
    rw [if_neg (by omega), if_pos (by omega)]
  next notWhole =>
    split
    next pointed =>
      rw [expandExponent_fraction (isWhole_take value (by omega)) (fun c member => value.isDigits c (List.mem_of_mem_drop member))]
      unfold pointMoved
      rw [if_neg (by omega), if_neg (by omega)]
    next notPointed =>
      split
      next small =>
        have written : js "0." ++ zeros (-value.point).toNat ++ value.digits = js "0" ++ js "." ++ (zeros (-value.point).toNat ++ value.digits) :=
          List.append_assoc _ _ _
        rw [written, expandExponent_fraction isWhole_zero ((allDigits_zeros _).append value.isDigits)]
        unfold pointMoved
        rw [if_pos small.2, written]
      next far =>
        have directed : (if value.point - 1 < 0 then unit '-' else unit '+') = unit '+' ∨ (if value.point - 1 < 0 then unit '-' else unit '+') = unit '-' := by
          split
          next => exact .inr rfl
          next => exact .inl rfl
        have leadingDigit : value.digits.take 1 ≠ [] := (isWhole_take value Nat.one_pos).2.1
        rw [exponential_eq, expandExponent_exponent (isWhole_take value Nat.one_pos).1 leadingDigit (fun c member => value.isDigits c (List.mem_of_mem_drop member))
          (allDigits_wholeText _) (Exact.wholeText_ne_nil _) directed, List.take_append_drop, digitsValue_wholeText, List.length_take]
        have place : ((min 1 value.digits.length : Nat) : Int) + (if (if value.point - 1 < 0 then unit '-' else unit '+') = unit '-' then
            -((value.point - 1).natAbs : Int) else (value.point - 1).natAbs) = value.point := by
          rw [min_eq_left positive]
          split
          next => rw [if_pos rfl]; omega
          next => rw [if_neg (by decide)]; omega
        rw [place]

theorem pointMoved_value : isDecimalText (signed value.negative (pointMoved value.digits value.point)) = true ∧
    textValue (signed value.negative (pointMoved value.digits value.point)) = value.toRat := by
  have positive := digits_pos value
  have base : (10 : ℚ) ≠ 0 := by norm_num
  unfold pointMoved Printed.toRat
  rw [← sign]
  split
  next below =>
    have written : js "0." ++ zeros (-value.point).toNat ++ value.digits = js "0" ++ js "." ++ (zeros (-value.point).toNat ++ value.digits) :=
      List.append_assoc _ _ _
    have spelled := spelled_fraction isWhole_zero ((allDigits_zeros (-value.point).toNat).append value.isDigits)
      (List.append_ne_nil_of_right_ne_nil _ value.nonempty) value.negative
    rw [written]
    refine ⟨spelled.1, spelled.2.trans ?_⟩
    have scale : (10 : ℚ) ^ (value.point - value.digits.length) = (10 ^ (zeros (-value.point).toNat ++ value.digits).length)⁻¹ := by
      rw [← zpow_natCast, ← zpow_neg, List.length_append, zeros, List.length_replicate]
      congr 1
      omega
    rw [digitsValue_append, digitsValue_zeros, scale, Nat.zero_mul, Nat.zero_add, mul_assoc, div_eq_mul_inv]
    show _ * (((0 : Nat) : ℚ) + _) = _
    rw [Nat.cast_zero, zero_add]
  next above =>
    split
    next long =>
      have spelled := spelled_whole (isWhole_zeros value (value.point.toNat - value.digits.length)) value.negative
      refine ⟨spelled.1, spelled.2.trans ?_⟩
      have scale : (10 : ℚ) ^ (value.point - value.digits.length) = 10 ^ (value.point.toNat - value.digits.length) := by
        rw [← zpow_natCast]
        congr 1
        omega
      rw [digitsValue_append, digitsValue_zeros, scale, zeros, List.length_replicate]
      push_cast
      ring
    next inside =>
      have pointed : 0 < value.point.toNat := by omega
      have spelled := spelled_fraction (isWhole_take value pointed)
        (fun c member => value.isDigits c (List.mem_of_mem_drop member) : AllDigits (value.digits.drop value.point.toNat))
        (by rw [ne_eq, List.drop_eq_nil_iff]; omega) value.negative
      refine ⟨spelled.1, spelled.2.trans ?_⟩
      have whole : digitsValue value.digits = digitsValue (value.digits.take value.point.toNat) * 10 ^ (value.digits.drop value.point.toNat).length +
          digitsValue (value.digits.drop value.point.toNat) := by
        rw [← digitsValue_append, List.take_append_drop]
      have scale : (10 : ℚ) ^ (value.point - value.digits.length) = (10 ^ (value.digits.drop value.point.toNat).length)⁻¹ := by
        rw [← zpow_natCast, ← zpow_neg, List.length_drop]
        congr 1
        omega
      rw [whole, scale, mul_assoc]
      push_cast
      field_simp

theorem pointMoved_short : (signed value.negative (pointMoved value.digits value.point)).length ≤ maxExactNumericLength := by
  have short := value.short
  have range := value.range
  have positive := digits_pos value
  have bySign : (signed value.negative (pointMoved value.digits value.point)).length ≤ 1 + (pointMoved value.digits value.point).length := by
    unfold signed
    rw [List.length_append]
    refine Nat.add_le_add_right ?_ _
    cases value.negative with
    | false => exact Nat.zero_le 1
    | true => exact le_rfl
  have bound : (pointMoved value.digits value.point).length ≤ 1000 := by
    unfold pointMoved
    split
    next =>
      have lead : (js "0.").length = 2 := rfl
      rw [List.length_append, List.length_append, zeros, List.length_replicate, lead]
      omega
    next =>
      split
      next =>
        rw [List.length_append, zeros, List.length_replicate]
        omega
      next =>
        have dot : (js ".").length = 1 := rfl
        rw [List.length_append, List.length_append, List.length_take, List.length_drop, dot]
        omega
  exact bySign.trans (by unfold maxExactNumericLength; omega)

theorem decimalText_value (number : FiniteNumber) : isDecimalText (expandExponent number.toText) = true ∧
    textValue (expandExponent number.toText) = number.toRat ∧ (expandExponent number.toText).length ≤ maxExactNumericLength := by
  cases number with
  | zero =>
    have spelled := spelled_whole isWhole_zero false
    have expanded := expandExponent_whole isWhole_zero false
    show isDecimalText (expandExponent (signed false (js "0"))) = true ∧ textValue (expandExponent (signed false (js "0"))) = 0 ∧ _ ≤ _
    rw [expanded]
    refine ⟨spelled.1, spelled.2.trans ?_, by decide⟩
    show _ * ((0 : Nat) : ℚ) = 0
    rw [Nat.cast_zero, mul_zero]
  | printed value =>
    rw [expandExponent_printed]
    exact ⟨(pointMoved_value value).1, (pointMoved_value value).2, pointMoved_short value⟩

end Numbers

section Values

theorem isWhole_wholeText (value : Nat) : IsWhole (Exact.wholeText value) := by
  refine ⟨allDigits_wholeText value, Exact.wholeText_ne_nil value, ?_⟩
  unfold Exact.wholeText
  split
  next => exact .inl rfl
  next nonzero =>
    right
    unfold Whole.digitsText
    have nonempty : Nat.digits 10 value ≠ [] := Nat.digits_ne_nil_iff_ne_zero.mpr nonzero
    rw [List.head?_map, List.head?_reverse, List.getLast?_eq_some_getLast nonempty]
    intro same
    have last := Nat.getLast_digit_ne_zero 10 nonzero
    have small : (Nat.digits 10 value).getLast nonempty < 10 := Nat.digits_lt_base (by decide) (List.getLast_mem nonempty)
    have isZero := congrArg UInt16.toNat (Option.some.inj same)
    rw [UInt16.toNat_ofNat_of_lt' (by show _ + 48 < 65536; omega)] at isZero
    have is48 : (unit '0').toNat = 48 := rfl
    omega

theorem bigintText_value (value : Int) : isDecimalText (bigintText value) = true ∧ textValue (bigintText value) = value := by
  have spelled := spelled_whole (isWhole_wholeText value.natAbs) (decide (value < 0))
  refine ⟨spelled.1, spelled.2.trans ?_⟩
  rw [digitsValue_wholeText, Nat.cast_natAbs]
  unfold sign
  by_cases negative : value < 0
  · rw [if_pos (decide_eq_true negative), abs_of_neg negative]
    push_cast
    ring
  · rw [if_neg (by simpa using negative), abs_of_nonneg (not_lt.mp negative), one_mul]

/-- Decimal texts and bigints of no more than the longest text that is read, and every finite number. -/
def Admitted : NumericValue → Prop
  | .bigint value => (bigintText value).length ≤ maxExactNumericLength
  | .number _ => True
  | .text value => value.length ≤ maxExactNumericLength ∧ isDecimalText value = true

theorem exactDecimal_value {value : NumericValue} (admitted : Admitted value) :
    ∃ decimal, exactDecimal value = some decimal ∧ decimalValue decimal = value.toRat := by
  cases value with
  | bigint value =>
    obtain ⟨decimal, read, isValue⟩ := exactDecimalText_value admitted (bigintText_value value).1
    exact ⟨decimal, read, isValue.trans (bigintText_value value).2⟩
  | number value =>
    obtain ⟨isDecimal, isRat, short⟩ := decimalText_value value
    obtain ⟨decimal, read, isValue⟩ := exactDecimalText_value short isDecimal
    exact ⟨decimal, read, isValue.trans isRat⟩
  | text value =>
    obtain ⟨decimal, read, isValue⟩ := exactDecimalText_value admitted.1 admitted.2
    exact ⟨decimal, (if_pos admitted).trans read, isValue⟩

theorem lift_value (decimal : ExactDecimal) {scale : Nat} (fits : decimal.scale ≤ scale) :
    (decimal.lift scale : ℚ) = decimalValue decimal * 10 ^ scale := by
  have split : (10 : ℚ) ^ scale = 10 ^ (scale - decimal.scale) * 10 ^ decimal.scale := by
    rw [← pow_add, Nat.sub_add_cancel fits]
  unfold ExactDecimal.lift decimalValue
  rw [split]
  cases decimal.negative with
  | false =>
    push_cast
    field_simp
  | true =>
    push_cast
    field_simp
    simp

theorem compare_value {left right : NumericValue} (leftAdmitted : Admitted left) (rightAdmitted : Admitted right) :
    compareExactNumeric left right = some (SignType.sign (left.toRat - right.toRat) : ℤ) := by
  obtain ⟨a, readLeft, isLeft⟩ := exactDecimal_value leftAdmitted
  obtain ⟨b, readRight, isRight⟩ := exactDecimal_value rightAdmitted
  have positive : (0 : ℚ) < 10 ^ max a.scale b.scale := by positivity
  have liftLeft := lift_value a (le_max_left a.scale b.scale)
  have liftRight := lift_value b (le_max_right a.scale b.scale)
  unfold compareExactNumeric aligned
  rw [readLeft, readRight]
  dsimp only
  congr 1
  rw [← isLeft, ← isRight]
  split
  next same =>
    have equal : decimalValue a = decimalValue b := by
      have lifted : decimalValue a * 10 ^ max a.scale b.scale = decimalValue b * 10 ^ max a.scale b.scale := by
        rw [← liftLeft, ← liftRight, same]
      exact mul_right_cancel₀ positive.ne' lifted
    rw [equal, sub_self, sign_zero]
    rfl
  next different =>
    split
    next less =>
      have below : decimalValue a < decimalValue b := by
        have lifted : decimalValue a * 10 ^ max a.scale b.scale < decimalValue b * 10 ^ max a.scale b.scale := by
          rw [← liftLeft, ← liftRight]
          exact Int.cast_lt.mpr less
        exact lt_of_mul_lt_mul_right lifted positive.le
      rw [sign_neg (sub_neg_of_lt below)]
      rfl
    next notLess =>
      have above : decimalValue b < decimalValue a := by
        have lifted : decimalValue b * 10 ^ max a.scale b.scale < decimalValue a * 10 ^ max a.scale b.scale := by
          rw [← liftLeft, ← liftRight]
          exact Int.cast_lt.mpr (lt_of_le_of_ne (not_lt.mp notLess) fun same => different same.symm)
        exact lt_of_mul_lt_mul_right lifted positive.le
      rw [sign_pos (sub_pos.mpr above)]
      rfl

theorem whole_value {value : NumericValue} (admitted : Admitted value) : isExactWholeNumber value = true ↔ ∃ whole : ℤ, value.toRat = whole := by
  obtain ⟨decimal, read, isValue⟩ := exactDecimal_value admitted
  unfold isExactWholeNumber
  rw [read, ← isValue]
  dsimp only
  rw [decide_eq_true_eq]
  unfold decimalValue
  have positive : (0 : ℚ) < 10 ^ decimal.scale := by positivity
  constructor
  · intro divides
    obtain ⟨times, isTimes⟩ := Nat.dvd_of_mod_eq_zero divides
    refine ⟨(if decimal.negative then -1 else 1) * times, ?_⟩
    rw [isTimes]
    push_cast
    split
    next => field_simp
    next => field_simp
  · rintro ⟨whole, isWhole⟩
    have magnitude : (decimal.digits : ℚ) / 10 ^ decimal.scale = whole.natAbs := by
      rw [Nat.cast_natAbs, Int.cast_abs, ← isWhole, mul_div_assoc, abs_mul, abs_of_nonneg (div_nonneg (Nat.cast_nonneg _) positive.le)]
      split
      next => rw [abs_neg, abs_one, one_mul]
      next => rw [abs_one, one_mul]
    have digits : (decimal.digits : ℚ) = whole.natAbs * 10 ^ decimal.scale := (div_eq_iff positive.ne').mp magnitude
    have natural : decimal.digits = whole.natAbs * 10 ^ decimal.scale := by exact_mod_cast digits
    rw [natural, Nat.mul_mod_left]

theorem sign_cast (side : SignType) : ((side : ℤ) < 0 ↔ side < 0) ∧ (0 < (side : ℤ) ↔ 0 < side) ∧ ((side : ℤ) = 0 ↔ side = 0) := by
  revert side
  decide

theorem isBelow_value {value : NumericValue} (admitted : Admitted value) {minimum : Option NumericValue} (bounded : ∀ bound ∈ minimum, Admitted bound) :
    isBelow value minimum = false ↔ ∀ bound ∈ minimum, bound.toRat ≤ value.toRat := by
  cases minimum with
  | none => exact ⟨fun _ bound never => absurd never (by simp), fun _ => rfl⟩
  | some bound =>
    unfold isBelow
    rw [Option.any_some, compare_value admitted (bounded bound rfl), Option.all_some, decide_eq_false_iff_not, (sign_cast _).1, not_lt, sign_nonneg_iff,
      sub_nonneg]
    exact ⟨fun above other isBound => Option.some.inj isBound ▸ above, fun all => all bound rfl⟩

theorem isAbove_value {value : NumericValue} (admitted : Admitted value) {maximum : Option NumericValue} (bounded : ∀ bound ∈ maximum, Admitted bound) :
    isAbove value maximum = false ↔ ∀ bound ∈ maximum, value.toRat ≤ bound.toRat := by
  cases maximum with
  | none => exact ⟨fun _ bound never => absurd never (by simp), fun _ => rfl⟩
  | some bound =>
    unfold isAbove
    rw [Option.any_some, compare_value admitted (bounded bound rfl), Option.all_some, decide_eq_false_iff_not, (sign_cast _).2.1, not_lt, sign_nonpos_iff,
      sub_nonpos]
    exact ⟨fun below other isBound => Option.some.inj isBound ▸ below, fun all => all bound rfl⟩

theorem equals_value {value allowed : NumericValue} (admitted : Admitted value) (alsoAdmitted : Admitted allowed) :
    ExactNumeric.exactNumericEquals value allowed = true ↔ value.toRat = allowed.toRat := by
  unfold ExactNumeric.exactNumericEquals
  rw [compare_value admitted alsoAdmitted, decide_eq_true_eq, Option.some_inj, (sign_cast _).2.2, sign_eq_zero_iff, sub_eq_zero]

structure BoundsAdmitted (bounds : ExactNumericBounds) : Prop where
  minimum : ∀ bound ∈ bounds.minimum, Admitted bound
  maximum : ∀ bound ∈ bounds.maximum, Admitted bound
  enum : ∀ domain ∈ bounds.enum, ∀ allowed ∈ domain, Admitted allowed

/-- What the bounds ask of the rational: whole where that is required, within the limits and in the closed domain. -/
structure Meets (value : NumericValue) (bounds : ExactNumericBounds) : Prop where
  integer : bounds.integer = true → ∃ whole : ℤ, value.toRat = whole
  minimum : ∀ bound ∈ bounds.minimum, bound.toRat ≤ value.toRat
  maximum : ∀ bound ∈ bounds.maximum, value.toRat ≤ bound.toRat
  enum : ∀ domain ∈ bounds.enum, ∃ allowed ∈ domain, value.toRat = allowed.toRat

theorem violation_value {value : NumericValue} {bounds : ExactNumericBounds} (admitted : Admitted value) (bounded : BoundsAdmitted bounds) :
    exactNumericViolation value bounds = none ↔ Meets value bounds := by
  obtain ⟨decimal, read, -⟩ := exactDecimal_value admitted
  have integer : (bounds.integer && !isExactWholeNumber value) = false ↔ (bounds.integer = true → ∃ whole : ℤ, value.toRat = whole) := by
    rw [← whole_value admitted]
    cases bounds.integer <;> simp
  have enum : (bounds.enum.any fun domain => !domain.any fun allowed => ExactNumeric.exactNumericEquals value allowed) = false ↔
      ∀ domain ∈ bounds.enum, ∃ allowed ∈ domain, value.toRat = allowed.toRat := by
    cases domains : bounds.enum with
    | none => exact ⟨fun _ domain never => absurd never (by simp), fun _ => rfl⟩
    | some domain =>
      rw [Option.any_some, Bool.not_eq_false', List.any_eq_true]
      have inDomain : (∃ allowed ∈ domain, ExactNumeric.exactNumericEquals value allowed = true) ↔ ∃ allowed ∈ domain, value.toRat = allowed.toRat :=
        exists_congr fun allowed => and_congr_right fun member => equals_value admitted (bounded.enum domain domains allowed member)
      rw [inDomain]
      exact ⟨fun found other isDomain => Option.some.inj isDomain ▸ found, fun all => all domain rfl⟩
  have below := isBelow_value admitted bounded.minimum
  have above := isAbove_value admitted bounded.maximum
  unfold exactNumericViolation
  rw [read]
  dsimp only
  constructor
  · intro fine
    split at fine
    next => cases fine
    next isWhole =>
      split at fine
      next => cases fine
      next notBelow =>
        split at fine
        next => cases fine
        next notAbove =>
          split at fine
          next => cases fine
          next inDomain => exact {
              integer := integer.mp (Bool.not_eq_true _ ▸ isWhole)
              minimum := below.mp (Bool.not_eq_true _ ▸ notBelow)
              maximum := above.mp (Bool.not_eq_true _ ▸ notAbove)
              enum := enum.mp (Bool.not_eq_true _ ▸ inDomain) }
  · intro meets
    rw [integer.mpr meets.integer, below.mpr meets.minimum, above.mpr meets.maximum, enum.mpr meets.enum]
    rfl

end Values

section Results

/-- Exact numbers compare as the rationals that they denote, however they are spelled. -/
theorem exact_as_rationals :
    (∀ number : FiniteNumber, isDecimalText (expandExponent number.toText) = true ∧ textValue (expandExponent number.toText) = number.toRat) ∧
    (∀ left right : NumericValue, Admitted left → Admitted right →
      compareExactNumeric left right = some (SignType.sign (left.toRat - right.toRat) : ℤ)) ∧
    (∀ value : NumericValue, Admitted value → (isExactWholeNumber value = true ↔ ∃ whole : ℤ, value.toRat = whole)) ∧
    ∀ (value : NumericValue) (bounds : ExactNumericBounds), Admitted value → BoundsAdmitted bounds →
      (exactNumericViolation value bounds = none ↔ Meets value bounds) :=
  ⟨fun number => ⟨(decimalText_value number).1, (decimalText_value number).2.1⟩, fun _ _ => compare_value, fun _ => whole_value,
    fun _ _ => violation_value⟩

def twoTo53 : FiniteNumber := .printed {
  negative := false
  digits := js "9007199254740992"
  point := 16
  isDigits := each_unit (by decide)
  leading := by decide
  trailing := by decide
  nonempty := by decide
  short := by decide
  range := by decide }

/-- The text of the next whole number is above it, though no double tells the two apart. -/
theorem exact_above_double : compareExactNumeric (.text (js "9007199254740993")) (.number twoTo53) =
    some (SignType.sign ((NumericValue.text (js "9007199254740993")).toRat - (NumericValue.number twoTo53).toRat) : ℤ) :=
  exact_as_rationals.2.1 (.text (js "9007199254740993")) (.number twoTo53) ⟨by decide, by decide⟩ trivial

/-- A bigint of more digits than are read compares to nothing. -/
theorem long_bigint_unread : ¬∀ left right : Int,
    compareExactNumeric (.bigint left) (.bigint right) = some (SignType.sign ((left : ℚ) - right) : ℤ) := by
  intro always
  obtain ⟨huge, isHuge⟩ : ∃ huge : Nat, 10 ^ maxExactNumericLength ≤ huge := ⟨_, le_rfl⟩
  have compared := always huge 0
  have nonzero : huge ≠ 0 := (lt_of_lt_of_le (Nat.pow_pos (by decide)) isHuge).ne'
  have long : maxExactNumericLength < (Exact.wholeText huge).length := by
    unfold Exact.wholeText Whole.digitsText
    rw [if_neg nonzero, List.length_map, List.length_reverse, ← not_le, Nat.digits_length_le_iff (by decide), not_lt]
    exact isHuge
  have unread : exactDecimal (.bigint huge) = none := by
    show exactDecimalText (signed (decide ((huge : Int) < 0)) (Exact.wholeText (huge : Int).natAbs)) = none
    rw [decide_eq_false (not_lt.mpr (Int.natCast_nonneg _)), Int.natAbs_natCast]
    exact if_pos (.inl long)
  unfold compareExactNumeric at compared
  rw [unread] at compared
  cases compared

end Results

end OpenShapeForge.Operations.ExactRationals
