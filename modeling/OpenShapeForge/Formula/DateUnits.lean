import OpenShapeForge.Formula.Spreadsheet

/-! What dates in units come to: `dateDifference` finds the units that `addToDate` moved a date by, and
months are moved by on the calendar. The years 0001 to 0099 are the exception: `Date.UTC` takes them
for years of the twentieth century. -/

namespace OpenShapeForge.Formula.DateUnits
open Js Js.Dates Types Spreadsheet Library
open Whole (finite)

section Purpose

def InYears (time : Int) : Prop := 1 ≤ yearFromTime time ∧ yearFromTime time ≤ 9999

def monthsOn (time months : Int) : Int :=
  let index := Calendar.monthIndex (day time) + months
  makeDate (Calendar.monthFirst index + min (dateFromTime time) (Calendar.monthLength index) - 1) (timeWithinDay time)

def unitsOn (time amount : Int) (unit : DateUnit) : Int :=
  match calendarUnitMonths unit, fixedUnitMs unit with
  | some months, _ => monthsOn time (amount * months)
  | none, some size => time + amount * size
  | none, none => time

def LandsMonthsOn (time months : Int) (other : Whole) : Prop :=
  ∃ found, other = finite found ∧ Calendar.monthIndex (day found) = Calendar.monthIndex (day time) + months ∧
    dateFromTime found = min (dateFromTime time) (Calendar.monthLength (Calendar.monthIndex (day time) + months)) ∧
    timeWithinDay found = timeWithinDay time

end Purpose

section Calendar
variable (time months : Int)

theorem clamped_bounds : 1 ≤ min (dateFromTime time) (Calendar.monthLength (Calendar.monthIndex (day time) + months)) := by
  have written : 1 ≤ dateFromTime time := (Calendar.dayOf_bounds (day time)).1
  have long := Calendar.monthLength_pos (Calendar.monthIndex (day time) + months)
  omega

theorem day_monthsOn : day (monthsOn time months) = Calendar.monthFirst (Calendar.monthIndex (day time) + months) +
    min (dateFromTime time) (Calendar.monthLength (Calendar.monthIndex (day time) + months)) - 1 :=
  day_makeDate _ (timeWithinDay_bounds time).1 (timeWithinDay_bounds time).2

theorem monthIndex_monthsOn : Calendar.monthIndex (day (monthsOn time months)) = Calendar.monthIndex (day time) + months := by
  rw [day_monthsOn]
  exact Calendar.monthIndex_of (clamped_bounds time months) (min_le_right _ _)

theorem dateFromTime_monthsOn :
    dateFromTime (monthsOn time months) = min (dateFromTime time) (Calendar.monthLength (Calendar.monthIndex (day time) + months)) := by
  unfold dateFromTime
  rw [day_monthsOn]
  exact Calendar.dayOf_of (clamped_bounds time months) (min_le_right _ _)

theorem timeWithinDay_monthsOn : timeWithinDay (monthsOn time months) = timeWithinDay time :=
  timeWithinDay_makeDate _ (timeWithinDay_bounds time).1 (timeWithinDay_bounds time).2

theorem monthIndex_fields : yearFromTime time * 12 + monthFromTime time = Calendar.monthIndex (day time) := by
  rw [yearFromTime_eq]
  unfold monthFromTime
  omega

end Calendar

section Years

theorem inYears_iff (time : Int) : InYears time ↔ -62135596800000 ≤ time ∧ time < 253402300800000 := by
  have first : 1 ≤ yearFromTime time ↔ -719162 ≤ day time := Calendar.le_yearOf
  have last : 10000 ≤ yearFromTime time ↔ 2932897 ≤ day time := Calendar.le_yearOf
  unfold InYears
  unfold day msPerDay at first last
  omega

theorem timeClip_inYears {time : Int} (inside : InYears time) : timeClip time = some time := by
  rw [inYears_iff] at inside
  exact if_pos (by omega)

theorem makeFullYear_late {year : Int} (late : 100 ≤ year) : makeFullYear year = year := if_neg (by omega)

theorem makeFullYear_early {year : Int} (first : 0 ≤ year) (early : year < 100) : makeFullYear year = 1900 + year := if_pos (by omega)

end Years

section Added
variable (time months : Int)

/-- The months that `Date.UTC` moves the early years by. -/
def remapped : Int := (makeFullYear (yearFromTime time) - yearFromTime time) * 12

def monthEnd : Int := makeDate (Calendar.monthFirst (Calendar.monthIndex (day time) + months) + Calendar.monthLength (Calendar.monthIndex (day time) + months) - 1) 0

theorem smaller_finite (a b : Int) : JsMath.min (finite a) (finite b) = finite (min a b) := by
  change Whole.smaller _ _ = _
  unfold Whole.smaller
  rw [if_neg (by simp)]
  change (if decide (a < b) = true then _ else _) = _
  by_cases below : a < b
  · rw [decide_eq_true below, if_pos rfl, min_eq_left below.le]
  · rw [decide_eq_false below, if_neg Bool.false_ne_true, min_eq_right (not_lt.mp below)]

theorem makeDay_months (months date : Int) :
    makeDay (makeFullYear (yearFromTime time)) (monthFromTime time + months) date =
      Calendar.monthFirst (Calendar.monthIndex (day time) + (months + remapped time)) + date - 1 := by
  have fields := monthIndex_fields time
  unfold makeDay remapped
  congr 3
  omega

theorem addMonths_finite : addMonths (finite time) (finite months) =
    Whole.ofTime ((timeClip (monthEnd time (months + remapped time))).bind fun _ => timeClip (monthsOn time (months + remapped time))) := by
  have month : utc (yearFromTime time) (monthFromTime time + months + 1) 0 0 0 0 0 = timeClip (monthEnd time (months + remapped time)) := by
    have next := Calendar.monthFirst_succ (Calendar.monthIndex (day time) + (months + remapped time))
    have index : Calendar.monthIndex (day time) + (months + 1 + remapped time) = Calendar.monthIndex (day time) + (months + remapped time) + 1 := by
      omega
    unfold utc monthEnd
    rw [Int.add_assoc, makeDay_months, index, next, Int.add_zero]
    rfl
  have date : utc (yearFromTime time) (monthFromTime time + months)
      (min (dateFromTime time) (Calendar.monthLength (Calendar.monthIndex (day time) + (months + remapped time))))
      (hourFromTime time) (minFromTime time) (secFromTime time) (msFromTime time) = timeClip (monthsOn time (months + remapped time)) := by
    unfold utc monthsOn
    rw [makeDay_months, makeTime_parts]
  have lastDay : dateFromTime (monthEnd time (months + remapped time)) =
      Calendar.monthLength (Calendar.monthIndex (day time) + (months + remapped time)) := by
    have long := Calendar.monthLength_pos (Calendar.monthIndex (day time) + (months + remapped time))
    unfold dateFromTime monthEnd
    rw [day_makeDate _ (Int.le_refl 0) (by decide)]
    exact Calendar.dayOf_of (by omega) (Int.le_refl _)
  change JsDates.dateUTC _ _ (JsMath.min _ (JsDates.getUTCDate (Whole.ofTime (utc (yearFromTime time) (monthFromTime time + months + 1) 0 0 0 0 0)))) _ _ _ _ = _
  rw [month]
  cases clipped : timeClip (monthEnd time (months + remapped time)) with
  | none => rfl
  | some last =>
    have same : last = monthEnd time (months + remapped time) := by
      unfold timeClip at clipped
      split at clipped
      next => exact (Option.some.inj clipped).symm
      next => cases clipped
    change JsDates.dateUTC _ _ (JsMath.min (finite (dateFromTime time)) (finite (dateFromTime last))) _ _ _ _ = Whole.ofTime (timeClip _)
    rw [smaller_finite, same, lastDay, ← date]
    rfl

end Added

section Difference
variable {left right : Int} {unit : DateUnit} {size : Nat}

theorem unsignedZero_finite (value : Int) : unsignedZero (finite value) = finite value := by
  unfold unsignedZero
  split
  next zero =>
    have same : finite value = finite 0 := of_decide_eq_true (Bool.and_eq_true_iff.mp zero).1
    exact same.symm
  next => rfl

theorem quotient_finite (value : Int) (positive : size ≠ 0) :
    unsignedZero (JsMath.trunc (JsMath.div (finite value) (JsNumber.ofNat size))) = finite (value.tdiv size) := by
  change unsignedZero (Whole.quotient (finite value) (finite size)) = _
  unfold Whole.quotient
  dsimp only
  rw [if_pos (by omega), unsignedZero_finite]

theorem monthsBetween_finite (left right : Int) :
    monthsBetween (finite left) (finite right) = finite (Calendar.monthIndex (day left) - Calendar.monthIndex (day right)) := by
  change finite ((yearFromTime left - yearFromTime right) * 12 + (monthFromTime left - monthFromTime right)) = _
  have first := monthIndex_fields left
  have second := monthIndex_fields right
  congr 1
  omega

theorem calendarUnit_pos (calendar : calendarUnitMonths unit = some size) : 0 < size ∧ size ≤ 12 := by
  cases unit <;> cases calendar <;> decide

theorem fixedUnit_pos (fixed : fixedUnitMs unit = some size) : 0 < size := by
  cases unit <;> cases fixed <;> decide

theorem difference_near (left right : Int) (calendar : calendarUnitMonths unit = some size) : ∃ correction : Int, -1 ≤ correction ∧ correction ≤ 1 ∧
    dateDifference (finite left) (finite right) unit =
      .number (finite ((Calendar.monthIndex (day left) - Calendar.monthIndex (day right) + correction).tdiv size)) := by
  have positive := (calendarUnit_pos calendar).1
  unfold dateDifference
  rw [calendar, monthsBetween_finite]
  dsimp only
  split
  next =>
    refine ⟨-1, by decide, by decide, ?_⟩
    change Value.number (unsignedZero (JsMath.trunc (JsMath.div (finite (_ - 1)) _))) = _
    rw [quotient_finite _ positive.ne']
    rfl
  next =>
    split
    next =>
      refine ⟨1, by decide, by decide, ?_⟩
      change Value.number (unsignedZero (JsMath.trunc (JsMath.div (finite (_ + 1)) _))) = _
      rw [quotient_finite _ positive.ne']
    next =>
      refine ⟨0, by decide, by decide, ?_⟩
      rw [quotient_finite _ positive.ne', Int.add_zero]

theorem difference_exact (calendar : calendarUnitMonths unit = some size)
    (anchor : addMonths (finite right) (finite (Calendar.monthIndex (day left) - Calendar.monthIndex (day right))) = finite left) :
    dateDifference (finite left) (finite right) unit =
      .number (finite ((Calendar.monthIndex (day left) - Calendar.monthIndex (day right)).tdiv size)) := by
  have notLess : JsNumber.less (finite left) (finite left) = false := decide_eq_false (lt_irrefl left)
  unfold dateDifference
  rw [calendar, monthsBetween_finite]
  dsimp only
  rw [anchor, notLess, Bool.and_false, Bool.and_false, if_neg Bool.false_ne_true, if_neg Bool.false_ne_true,
    quotient_finite _ (calendarUnit_pos calendar).1.ne']

end Difference

section Claim
variable (time amount : Int) (unit : DateUnit)

/-- The sum lies in the years 0001 to 9999: the one that is meant, or the one that comes out. -/
def StaysInYears : Prop :=
  InYears (unitsOn time amount unit) ∨ ∃ sum, addToDate (finite time) (finite amount) unit = finite sum ∧ InYears sum

def DifferenceInverts : Prop :=
  dateDifference (addToDate (finite time) (finite amount) unit) (finite time) unit = .number (finite amount)

/-- Calendar units lead to a month, a day in it and a time of day. -/
def LandsInUnits : Prop :=
  ∀ months, calendarUnitMonths unit = some months → LandsMonthsOn time (amount * months) (addToDate (finite time) (finite amount) unit)

variable {time amount unit}

theorem timeClip_some {found : Int} (clipped : timeClip time = some found) : found = time := by
  unfold timeClip at clipped
  split at clipped
  next => exact (Option.some.inj clipped).symm
  next => cases clipped

theorem monthEnd_near (time months : Int) : ∃ late : Int, 0 ≤ late ∧ late ≤ 31 ∧ day (monthEnd time months) = day (monthsOn time months) + late ∧
    timeWithinDay (monthEnd time months) = 0 := by
  have long := Calendar.monthLength_le (Calendar.monthIndex (day time) + months)
  have first := clamped_bounds time months
  have least := min_le_right (dateFromTime time) (Calendar.monthLength (Calendar.monthIndex (day time) + months))
  refine ⟨day (monthEnd time months) - day (monthsOn time months), ?_, ?_, by omega, timeWithinDay_makeDate _ (Int.le_refl 0) (by decide)⟩
  · rw [day_monthsOn, monthEnd, day_makeDate _ (Int.le_refl 0) (by decide)]
    omega
  · rw [day_monthsOn, monthEnd, day_makeDate _ (Int.le_refl 0) (by decide)]
    omega

theorem addMonths_inYears {months : Int} (late : 100 ≤ yearFromTime time) (inside : InYears (monthsOn time months)) :
    addMonths (finite time) (finite months) = finite (monthsOn time months) := by
  have unmoved : remapped time = 0 := by
    unfold remapped
    rw [makeFullYear_late late, Int.sub_self, Int.zero_mul]
  have near : timeClip (monthEnd time months) = some (monthEnd time months) := by
    obtain ⟨later, first, last, days, within⟩ := monthEnd_near time months
    rw [inYears_iff] at inside
    have parts := makeDate_parts (monthEnd time months)
    rw [within, days] at parts
    unfold makeDate at parts
    unfold day msPerDay at parts
    exact if_pos (by omega)
  rw [addMonths_finite, unmoved, Int.add_zero, near, Option.bind_some, timeClip_inYears inside]
  rfl

theorem addToDate_calendar {months : Nat} (calendar : calendarUnitMonths unit = some months) :
    addToDate (finite time) (finite amount) unit = addMonths (finite time) (finite (amount * months)) := by
  unfold addToDate
  rw [calendar]
  rfl

theorem addToDate_fixed {size : Nat} (notCalendar : calendarUnitMonths unit = none) (fixed : fixedUnitMs unit = some size) :
    addToDate (finite time) (finite amount) unit = finite (time + amount * size) := by
  unfold addToDate
  rw [notCalendar, fixed]
  rfl

theorem unit_cases (unit : DateUnit) :
    (∃ months, calendarUnitMonths unit = some months) ∨ calendarUnitMonths unit = none ∧ ∃ size, fixedUnitMs unit = some size := by
  cases unit <;> simp [calendarUnitMonths, fixedUnitMs]

theorem inYears_monthsOn {months : Nat} (calendar : calendarUnitMonths unit = some months) (late : 100 ≤ yearFromTime time)
    (stays : StaysInYears time amount unit) : InYears (monthsOn time (amount * months)) := by
  rcases stays with meant | ⟨sum, added, inside⟩
  · unfold unitsOn at meant
    rw [calendar] at meant
    exact meant
  · have unmoved : remapped time = 0 := by
      unfold remapped
      rw [makeFullYear_late late, Int.sub_self, Int.zero_mul]
    rw [addToDate_calendar calendar, addMonths_finite, unmoved, Int.add_zero] at added
    cases ends : timeClip (monthEnd time (amount * months)) with
    | none =>
      rw [ends] at added
      cases added
    | some found =>
      rw [ends, Option.bind_some] at added
      cases clipped : timeClip (monthsOn time (amount * months)) with
      | none =>
        rw [clipped] at added
        cases added
      | some result =>
        rw [clipped] at added
        cases added
        rw [← timeClip_some clipped]
        exact inside

theorem inverts_calendar {months : Nat} (calendar : calendarUnitMonths unit = some months) (late : 100 ≤ yearFromTime time)
    (inside : InYears (monthsOn time (amount * months))) : DifferenceInverts time amount unit := by
  have between : Calendar.monthIndex (day (monthsOn time (amount * months))) - Calendar.monthIndex (day time) = amount * months := by
    rw [monthIndex_monthsOn]
    omega
  have added := addMonths_inYears late inside
  have difference : dateDifference (finite (monthsOn time (amount * months))) (finite time) unit = _ :=
    difference_exact calendar (by rw [between, added])
  unfold DifferenceInverts
  rw [addToDate_calendar calendar, added, difference, between, Int.mul_tdiv_cancel]
  have positive := (calendarUnit_pos calendar).1
  omega

theorem inverts_fixed {size : Nat} (notCalendar : calendarUnitMonths unit = none) (fixed : fixedUnitMs unit = some size) :
    DifferenceInverts time amount unit := by
  have positive := fixedUnit_pos fixed
  unfold DifferenceInverts dateDifference
  rw [addToDate_fixed notCalendar fixed, notCalendar, fixed]
  change Value.number (unsignedZero (JsMath.trunc (JsMath.div (finite (time + amount * size - time)) (JsNumber.ofNat size)))) = _
  rw [quotient_finite _ positive.ne', add_sub_cancel_left, Int.mul_tdiv_cancel]
  omega

theorem not_inverts_early {months : Nat} (calendar : calendarUnitMonths unit = some months) (first : 0 ≤ yearFromTime time)
    (early : yearFromTime time < 100) : ¬DifferenceInverts time amount unit := by
  have moved : remapped time = 22800 := by
    unfold remapped
    rw [makeFullYear_early first early]
    omega
  unfold DifferenceInverts
  rw [addToDate_calendar calendar, addMonths_finite, moved]
  cases sum : (timeClip (monthEnd time (amount * months + 22800))).bind fun _ => timeClip (monthsOn time (amount * months + 22800)) with
  | none =>
    intro inverts
    unfold dateDifference at inverts
    rw [calendar] at inverts
    cases inverts
  | some found =>
    obtain ⟨last, ends, clipped⟩ := Option.bind_eq_some_iff.mp sum
    obtain ⟨correction, least, most, difference⟩ := difference_near found time calendar
    change dateDifference (finite found) (finite time) unit ≠ _
    rw [difference, timeClip_some clipped, monthIndex_monthsOn]
    have bounds := calendarUnit_pos calendar
    intro inverts
    have quotient : (Calendar.monthIndex (day time) + (amount * months + 22800) - Calendar.monthIndex (day time) + correction).tdiv months = amount := by
      injection inverts with same
      injection same
    have whole := Int.mul_tdiv_add_tmod (Calendar.monthIndex (day time) + (amount * months + 22800) - Calendar.monthIndex (day time) + correction) months
    have small := Int.tmod_lt_of_pos (Calendar.monthIndex (day time) + (amount * months + 22800) - Calendar.monthIndex (day time) + correction)
      (show (0 : Int) < months by omega)
    rw [quotient, Int.mul_comm] at whole
    omega

theorem lands_late {months : Nat} (calendar : calendarUnitMonths unit = some months) (late : 100 ≤ yearFromTime time)
    (inside : InYears (monthsOn time (amount * months))) :
    LandsMonthsOn time (amount * months) (addToDate (finite time) (finite amount) unit) := by
  rw [addToDate_calendar calendar, addMonths_inYears late inside]
  exact ⟨_, rfl, monthIndex_monthsOn time _, dateFromTime_monthsOn time _, timeWithinDay_monthsOn time _⟩

/-- A difference finds the units that were added, and calendar units lead to the month they say, exactly
for units of one length and from the year 100 on. -/
theorem difference_inverts_iff (valid : InYears time) (stays : StaysInYears time amount unit) :
    DifferenceInverts time amount unit ∧ LandsInUnits time amount unit ↔ calendarUnitMonths unit = none ∨ 100 ≤ yearFromTime time := by
  constructor
  · rintro ⟨inverts, -⟩
    rcases unit_cases unit with ⟨months, calendar⟩ | ⟨notCalendar, -⟩
    · right
      by_contra early
      have first : 1 ≤ yearFromTime time := valid.1
      exact not_inverts_early calendar (by omega) (not_le.mp early) inverts
    · exact .inl notCalendar
  · intro spared
    rcases unit_cases unit with ⟨months, calendar⟩ | ⟨notCalendar, size, fixed⟩
    · have late : 100 ≤ yearFromTime time := spared.resolve_left (by rw [calendar]; exact Option.some_ne_none _)
      have inside := inYears_monthsOn calendar late stays
      refine ⟨inverts_calendar calendar late inside, fun other same => ?_⟩
      cases calendar.symm.trans same
      exact lands_late calendar late inside
    · refine ⟨inverts_fixed notCalendar fixed, fun months calendar => ?_⟩
      rw [notCalendar] at calendar
      cases calendar

/-- A month from the last of January of a leap year. -/
theorem difference_inverts_leap : DifferenceInverts 1706659200000 1 .months ∧ LandsInUnits 1706659200000 1 .months := by
  have valid : InYears 1706659200000 := (inYears_iff _).mpr (by decide)
  have meant : InYears (unitsOn 1706659200000 1 .months) := (inYears_iff _).mpr (by decide +kernel)
  exact (difference_inverts_iff valid (.inl meant)).mpr (.inr (by decide +kernel))

/-- A month from 31 January 0050 leads to 28 February 1950, which is told to be 22800 months away. -/
theorem early_month : ¬∀ (time amount : Int) (unit : DateUnit), InYears time → StaysInYears time amount unit →
    DifferenceInverts time amount unit ∧ LandsInUnits time amount unit := by
  have valid : InYears (-60586704000000) := (inYears_iff _).mpr (by decide)
  have sum : addToDate (finite (-60586704000000)) (finite 1) .months = finite (-626140800000) := by decide +kernel
  have inside : InYears (-626140800000) := (inYears_iff _).mpr (by decide)
  have difference : dateDifference (finite (-626140800000)) (finite (-60586704000000)) .months = .number (finite 22800) := by rfl
  intro claimed
  have inverts := (claimed _ 1 .months valid (.inr ⟨_, sum, inside⟩)).1
  unfold DifferenceInverts at inverts
  rw [sum, difference] at inverts
  cases inverts

end Claim

end OpenShapeForge.Formula.DateUnits
