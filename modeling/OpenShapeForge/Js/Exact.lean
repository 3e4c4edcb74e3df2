import OpenShapeForge.Js.Math
import OpenShapeForge.Js.Dates
import OpenShapeForge.Js.IndexText
import Mathlib.Algebra.Order.Round
import Mathlib.Data.Rat.Floor
import Mathlib.Data.Rat.Sqrt

/-! Numbers that are never rounded: the rationals, with the infinities and NaN. Their texts are
fractions, so that a number is read back as it was written. -/

namespace OpenShapeForge.Js

inductive Exact where
  | nan
  | infinite (negative : Bool)
  | finite (value : ℚ)
deriving DecidableEq

namespace Exact

/-- Applied to two finite numbers; anything else gives NaN. -/
def combine (operation : ℚ → ℚ → ℚ) : Exact → Exact → Exact
  | finite a, finite b => finite (operation a b)
  | _, _ => nan

def map (operation : ℚ → ℚ) : Exact → Exact
  | finite value => finite (operation value)
  | value => value

def rank : Exact → Option ℚ
  | finite value => some value
  | _ => none

def less : Exact → Exact → Bool
  | finite a, finite b => decide (a < b)
  | infinite a, infinite b => a && !b
  | infinite negative, finite _ => negative
  | finite _, infinite negative => !negative
  | _, _ => false

def same (a b : Exact) : Bool := decide (a = b) && decide (a ≠ nan)

def wholeText (value : Nat) : Text := if value = 0 then js "0" else Whole.digitsText value

def toText : Exact → Text
  | nan => js "NaN"
  | infinite negative => if negative then js "-Infinity" else js "Infinity"
  | finite value => (if value.num < 0 then js "-" else []) ++ wholeText value.num.natAbs ++ js "/" ++ wholeText value.den

/-- A fraction without its sign. -/
def magnitude (text : Text) : ℚ :=
  match text.idxOf? (unit '/') with
  | none => Whole.digitsValue text
  | some bar => Whole.digitsValue (text.take bar) / Whole.digitsValue (text.drop (bar + 1))

def isFraction (text : Text) : Bool := text ≠ [] && text.all fun c => isDigit c || c = unit '/'

def ofText (text : Text) : Exact :=
  match trim text with
  | [] => finite 0
  | sign :: rest =>
    if sign = unit '-' then if isFraction rest then finite (-magnitude rest) else nan
    else if isFraction (sign :: rest) then finite (magnitude (sign :: rest)) else nan

def dayLength : ℚ := 86400000

instance jsNumber : JsNumber Exact where
  isNaN value := decide (value = nan)
  isFinite value := value.rank.isSome
  equal := same
  less := less
  lessEqual a b := less a b || same a b
  add := combine (· + ·)
  mul := combine (· * ·)
  abs
    | infinite _ => infinite false
    | value => value.map fun value => |value|
  neg
    | infinite negative => infinite !negative
    | value => value.map fun value => -value
  isSigned
    | infinite negative => negative
    | finite value => decide (value < 0)
    | nan => false
  ofNat value := finite value
  toNat? value := value.rank.bind fun value => if 0 ≤ value ∧ value.den = 1 then some value.num.toNat else none
  isInteger value := value.rank.any fun value => value.den = 1
  ofText
  toText
  timeClip value := value
  timeOfText _ := nan
  utcMidnight := map fun time => ⌊time / dayLength⌋ * dayLength
  addUtcDays := combine fun time days => time + days * dayLength

def quotient : Exact → Exact → Exact
  | finite a, finite b => if b ≠ 0 then finite (a / b) else if a = 0 then nan else infinite (decide (a < 0))
  | finite _, infinite _ => finite 0
  | infinite negative, finite b => infinite (negative != decide (b < 0))
  | _, _ => nan

/-- Toward zero. -/
def truncated (value : ℚ) : ℚ := if 0 ≤ value then ⌊value⌋ else ⌈value⌉

def remainder : Exact → Exact → Exact
  | finite a, finite b => if b = 0 then nan else finite (a - b * truncated (a / b))
  | finite a, infinite _ => finite a
  | _, _ => nan

/-- Of a whole exponent. -/
def power : Exact → Exact → Exact
  | finite a, finite b => if b.den ≠ 1 then nan else if a = 0 ∧ b < 0 then infinite false else finite (a ^ b.num)
  | _, _ => nan

def smaller (a b : Exact) : Exact := if a = nan ∨ b = nan then nan else if less a b then a else b

def greater (a b : Exact) : Exact := if a = nan ∨ b = nan then nan else if less b a then a else b

/-- Of the square of a fraction. -/
def root : Exact → Exact
  | finite value => if value < 0 then nan else finite (Rat.sqrt value)
  | infinite false => infinite false
  | _ => nan

def placeIn : Exact → Nat → Nat
  | finite place, length => if place < 0 then (length + ⌈place⌉).toNat else Nat.min ⌊place⌋.toNat length
  | infinite negative, length => if negative then 0 else length
  | nan, _ => 0

instance jsMath : JsMath Exact where
  infinity := infinite false
  sub := combine (· - ·)
  div := quotient
  rem := remainder
  pow := power
  min := smaller
  max := greater
  trunc := map truncated
  floor := map fun value => ⌊value⌋
  ceil := map fun value => ⌈value⌉
  round := map fun value => ⌊value + 1 / 2⌋
  sqrt := root
  toPrecision value _ := value.toText
  toFixed value _ := value.toText
  sliceIndex := placeIn
  objectText _ := js "[object Object]"

def toWhole : Exact → Whole
  | nan => .nan
  | infinite negative => .infinite negative
  | finite value => .finite ⌊value⌋

def ofWhole : Whole → Exact
  | .nan => nan
  | .infinite negative => infinite negative
  | .finite value => finite value

instance jsDates : JsDates Exact where
  dateUTC year month day hours minutes seconds milliseconds :=
    ofWhole (JsDates.dateUTC year.toWhole month.toWhole day.toWhole hours.toWhole minutes.toWhole seconds.toWhole milliseconds.toWhole)
  getUTCFullYear time := ofWhole (JsDates.getUTCFullYear time.toWhole)
  getUTCMonth time := ofWhole (JsDates.getUTCMonth time.toWhole)
  getUTCDate time := ofWhole (JsDates.getUTCDate time.toWhole)
  getUTCDay time := ofWhole (JsDates.getUTCDay time.toWhole)
  getUTCHours time := ofWhole (JsDates.getUTCHours time.toWhole)
  getUTCMinutes time := ofWhole (JsDates.getUTCMinutes time.toWhole)
  getUTCSeconds time := ofWhole (JsDates.getUTCSeconds time.toWhole)
  getUTCMilliseconds time := ofWhole (JsDates.getUTCMilliseconds time.toWhole)
  toISOString time := JsDates.toISOString time.toWhole

section RoundTrip

theorem digitsText_digits (value : Nat) : ∀ c ∈ Whole.digitsText value, 48 ≤ c.toNat ∧ c.toNat ≤ 57 := by
  intro c member
  obtain ⟨digit, inDigits, rfl⟩ := List.mem_map.mp member
  have small : digit < 10 := Nat.digits_lt_base (by decide) (List.mem_reverse.mp inDigits)
  rw [UInt16.toNat_ofNat_of_lt' (by show digit + 48 < 65536; omega)]
  omega

theorem wholeText_digits (value : Nat) : ∀ c ∈ wholeText value, 48 ≤ c.toNat ∧ c.toNat ≤ 57 := by
  unfold wholeText
  split
  next => exact each_unit (by decide)
  next => exact digitsText_digits value

theorem digitsValue_digitsText (value : Nat) : Whole.digitsValue (Whole.digitsText value) = value := by
  have digit_of : ((Nat.digits 10 value).reverse.map fun digit => UInt16.ofNat (digit + 48)).map (fun c => c.toNat - 48) = (Nat.digits 10 value).reverse := by
    rw [List.map_map]
    conv_rhs => rw [← List.map_id (Nat.digits 10 value).reverse]
    apply List.map_congr_left
    intro digit member
    have small : digit < 10 := Nat.digits_lt_base (by decide) (List.mem_reverse.mp member)
    show (UInt16.ofNat (digit + 48)).toNat - 48 = digit
    rw [UInt16.toNat_ofNat_of_lt' (by show digit + 48 < 65536; omega)]
    omega
  rw [digitsValue_eq]
  unfold Whole.digitsText
  rw [digit_of, List.reverse_reverse, Nat.ofDigits_digits]

theorem digitsValue_wholeText (value : Nat) : Whole.digitsValue (wholeText value) = value := by
  unfold wholeText
  split
  next isZero =>
    rw [isZero]
    rfl
  next => exact digitsValue_digitsText value

theorem wholeText_ne_nil (value : Nat) : wholeText value ≠ [] := by
  unfold wholeText
  split
  next => decide
  next nonzero =>
    intro empty
    have back := digitsValue_digitsText value
    rw [empty] at back
    exact nonzero back.symm

def fractionText (numerator denominator : Nat) : Text := wholeText numerator ++ js "/" ++ wholeText denominator

theorem digit_of_range {c : CodeUnit} (range : 48 ≤ c.toNat ∧ c.toNat ≤ 57) : isDigit c = true := by
  unfold isDigit
  rw [Bool.and_eq_true, decide_eq_true_eq, decide_eq_true_eq]
  exact ⟨UInt16.le_iff_toNat_le.mpr range.1, UInt16.le_iff_toNat_le.mpr range.2⟩

theorem fractionText_chars {numerator denominator : Nat} {c : CodeUnit} (member : c ∈ fractionText numerator denominator) :
    (48 ≤ c.toNat ∧ c.toNat ≤ 57) ∨ c = unit '/' := by
  rcases List.mem_append.mp member with front | back
  · rcases List.mem_append.mp front with digit | bar
    · exact .inl (wholeText_digits _ c digit)
    · exact .inr (List.mem_singleton.mp bar)
  · exact .inl (wholeText_digits _ c back)

theorem isFraction_fractionText (numerator denominator : Nat) : isFraction (fractionText numerator denominator) = true := by
  have nonempty : fractionText numerator denominator ≠ [] := by
    intro empty
    exact wholeText_ne_nil denominator (List.append_eq_nil_iff.mp empty).2
  unfold isFraction
  rw [Bool.and_eq_true, decide_eq_true_eq]
  refine ⟨nonempty, List.all_eq_true.mpr fun c member => ?_⟩
  rcases fractionText_chars member with digit | bar
  · rw [digit_of_range digit]
    rfl
  · rw [decide_eq_true bar, Bool.or_true]

theorem magnitude_fractionText (numerator denominator : Nat) : magnitude (fractionText numerator denominator) = (numerator : ℚ) / denominator := by
  have barAt : (fractionText numerator denominator).idxOf? (unit '/') = some (wholeText numerator).length := by
    have written : fractionText numerator denominator = wholeText numerator ++ (unit '/' :: wholeText denominator) := List.append_assoc _ _ _
    rw [written]
    refine List.idxOf?_eq_some_iff.mpr ⟨by simp, by simp, fun index before bar => ?_⟩
    rw [List.getElem_append_left before] at bar
    have range := wholeText_digits numerator _ (bar ▸ List.getElem_mem before)
    exact absurd range.1 (by decide)
  unfold magnitude
  rw [barAt]
  dsimp only
  have front : (fractionText numerator denominator).take (wholeText numerator).length = wholeText numerator := by
    unfold fractionText
    rw [List.append_assoc, List.take_left]
  have back : (fractionText numerator denominator).drop ((wholeText numerator).length + 1) = wholeText denominator := by
    unfold fractionText
    rw [List.append_assoc, ← List.drop_drop, List.drop_left]
    rfl
  rw [front, back, digitsValue_wholeText, digitsValue_wholeText]

theorem inked {numerator denominator : Nat} : ∀ c ∈ fractionText numerator denominator, isWhitespace c = false := by
  intro c member
  rcases fractionText_chars member with digit | rfl
  · exact isWhitespace_digit digit
  · decide

theorem head_fractionText (numerator denominator : Nat) :
    ∃ first rest, fractionText numerator denominator = first :: rest ∧ first ≠ unit '-' := by
  cases written : fractionText numerator denominator with
  | nil => exact absurd (List.append_eq_nil_iff.mp written).2 (wholeText_ne_nil denominator)
  | cons first rest =>
    refine ⟨first, rest, rfl, fun minus => ?_⟩
    have member : first ∈ fractionText numerator denominator := written ▸ List.mem_cons_self
    rcases fractionText_chars member with digit | bar
    · rw [minus] at digit
      exact absurd digit.1 (by decide)
    · exact absurd (minus.symm.trans bar) (by decide)

theorem ofText_plain (numerator denominator : Nat) : ofText (fractionText numerator denominator) = finite (numerator / denominator) := by
  obtain ⟨first, rest, written, unsigned⟩ := head_fractionText numerator denominator
  have isFrac := isFraction_fractionText numerator denominator
  have value := magnitude_fractionText numerator denominator
  unfold ofText
  rw [trim_of_inked inked, written]
  rw [written] at isFrac value
  dsimp only
  rw [if_neg unsigned, if_pos isFrac, value]

theorem ofText_signed (numerator denominator : Nat) : ofText (js "-" ++ fractionText numerator denominator) = finite (-(numerator / denominator)) := by
  have plain : ∀ c ∈ js "-" ++ fractionText numerator denominator, isWhitespace c = false := by
    intro c member
    rcases List.mem_append.mp member with sign | later
    · rw [List.mem_singleton.mp sign]
      decide
    · exact inked c later
  have isFrac := isFraction_fractionText numerator denominator
  have value := magnitude_fractionText numerator denominator
  unfold ofText
  rw [trim_of_inked plain]
  show (if unit '-' = unit '-' then if isFraction (fractionText numerator denominator) = true then
    finite (-magnitude (fractionText numerator denominator)) else nan else _) = _
  rw [if_pos rfl, if_pos isFrac, value]

theorem ofText_toText (value : ℚ) : ofText (toText (finite value)) = finite value := by
  have written : toText (finite value) = (if value.num < 0 then js "-" else []) ++ fractionText value.num.natAbs value.den := by
    unfold toText fractionText
    simp only [List.append_assoc]
  have size : (value.num.natAbs : ℚ) = |(value.num : ℚ)| := by
    rw [Nat.cast_natAbs, Int.cast_abs]
  rw [written]
  split
  next negative =>
    have negativeCast : (value.num : ℚ) < 0 := Int.cast_lt_zero.mpr negative
    rw [ofText_signed, size, abs_of_neg negativeCast, neg_div, neg_neg, Rat.num_div_den]
  next nonnegative =>
    have nonnegativeCast : (0 : ℚ) ≤ value.num := by exact_mod_cast not_lt.mp nonnegative
    rw [List.nil_append, ofText_plain, size, abs_of_nonneg nonnegativeCast, Rat.num_div_den]

end RoundTrip

end Exact

end OpenShapeForge.Js
