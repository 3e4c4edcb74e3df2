import OpenShapeForge.Extensions.ConditionMeaning
import OpenShapeForge.Js.Exact

/-! Change markers of a source as texts to compare (sourceVersion in apps/api/src/mcp/value-transforms.ts,
sinceFromSourceVersion in apps/api/src/operations/source-sync-operations.ts): whole numbers sort as
numbers, and times as times up to the year 9999 and from the year 10000 on, but not across. -/

namespace OpenShapeForge.Operations.ChangeMarkers
open Js Js.Dates Library
open Whole (digitsValue)
open Operations.FieldValues (hasLayout)
open Formula.StoredDates (hasLayout_cons isDigit_range zeroPadded_digitsValue length_zeroPadded digitsValue_zeroPadded)
open Extensions.ConditionMeaning (textLess_append_append textLess_zeroPadded zeroPadded_inj)

/-- A marker as it comes from a provider: a whole number, any other number, a text, or anything else. -/
inductive MarkerValue where
  | integer (value : Int)
  | number
  | text (value : Text)
  | other

def sourceVersionDigits : Nat := 20

def maxSafeInteger : Nat := 9007199254740991

/-- `/^\d+$/`. -/
def isDigits (text : Text) : Bool := text ≠ [] && text.all isDigit

/-- What is left without `/^0+(?=\d)/`. -/
def withoutLeadingZeros : Text → Text
  | c :: d :: rest => if c = unit '0' ∧ isDigit d = true then withoutLeadingZeros (d :: rest) else c :: d :: rest
  | text => text

def padStart (width : Nat) (text : Text) : Text := List.replicate (width - text.length) (unit '0') ++ text

/-- What may follow the milliseconds of an OData date. -/
def isODataEnd (rest : Text) : Bool := rest = js ")/" || hasLayout rest (js "+dddd)/") || hasLayout rest (js "-dddd)/")

/-- The milliseconds of `ODATA_DATE`. -/
def odataDate (text : Text) : Option Nat :=
  let digits := (text.drop 6).takeWhile isDigit
  if text.take 6 = js "/Date(" ∧ digits ≠ [] ∧ isODataEnd ((text.drop 6).dropWhile isDigit) = true then some (digitsValue digits) else none

def isZone (zone : Text) : Bool :=
  zone = js "Z" || zone = js "z" || hasLayout zone (js "+dd:dd") || hasLayout zone (js "-dd:dd") || hasLayout zone (js "+dddd") || hasLayout zone (js "-dddd")

def isClock (c : CodeUnit) : Bool := isDigit c || c = unit ':' || c = unit '.'

/-- `ISO_WITH_ZONE`. -/
def isIsoWithZone (text : Text) : Bool :=
  let clock := text.drop 11
  (hasLayout (text.take 11) (js "dddd-dd-ddT") || hasLayout (text.take 11) (js "dddd-dd-ddt")) &&
    clock.takeWhile isClock ≠ [] && isZone (clock.dropWhile isClock)

/-- The time of an OData date or of a zoned ISO time, which `Date.parse` reads. A number of milliseconds that is
too great to be read exactly is too great for a time as well. -/
def instant (parse : Text → Option Int) (text : Text) : Option Int :=
  match odataDate text with
  | some milliseconds => some milliseconds
  | none => if isIsoWithZone text then parse text else none

def isoOrNull (time : Option Int) : Option Text := (time.bind timeClip).map isoText

def sourceVersion (parse : Text → Option Int) : MarkerValue → Option Text
  | .integer value => if value.natAbs ≤ maxSafeInteger ∧ 0 ≤ value then some (padStart sourceVersionDigits (Exact.wholeText value.natAbs)) else none
  | .number => none
  | .text value =>
    let text := trim value
    if isDigits text then
      let digits := withoutLeadingZeros text
      if digits.length ≤ sourceVersionDigits then some (padStart sourceVersionDigits digits) else none
    else isoOrNull (instant parse text)
  | .other => none

def sinceFromSourceVersion (version : Option Text) : Option Text :=
  version.map fun version => if isDigits version then withoutLeadingZeros version else version

section Meaning

/-- The whole number that a marker is, or that its digits write. -/
inductive DenotesInteger : MarkerValue → Nat → Prop where
  | number (value : Nat) : DenotesInteger (.integer value) value
  | digits {value : Text} (digits : isDigits (trim value) = true) : DenotesInteger (.text value) (digitsValue (trim value))

/-- The instant of an OData date, whose zone only tells where it was written, and of a zoned ISO time. -/
inductive DenotesTime (parse : Text → Option Int) : MarkerValue → Int → Prop where
  | odata {value digits rest : Text} (written : trim value = js "/Date(" ++ digits ++ rest) (isNumber : isDigits digits = true)
    (ends : isODataEnd rest = true) : DenotesTime parse (.text value) (digitsValue digits)
  | iso {value : Text} {time : Int} (zoned : isIsoWithZone (trim value) = true) (parsed : parse (trim value) = some time) :
    DenotesTime parse (.text value) time

/-- Both times are of the years that are written with four digits or before these, or both are of later
years; and they are of one year if both are of years before the year 0. -/
def WrittenAlike (s t : Int) : Prop :=
  (10000 ≤ yearFromTime s ↔ 10000 ≤ yearFromTime t) ∧ (yearFromTime s < 0 → yearFromTime t < 0 → yearFromTime s = yearFromTime t)

end Meaning

section Integers

theorem digits_of {text : Text} (digits : isDigits text = true) : text ≠ [] ∧ ∀ c ∈ text, isDigit c = true := by
  obtain ⟨nonempty, all⟩ := Bool.and_eq_true_iff.mp digits
  exact ⟨of_decide_eq_true nonempty, List.all_eq_true.mp all⟩

theorem isDigits_of {text : Text} (nonempty : text ≠ []) (digits : ∀ c ∈ text, isDigit c = true) : isDigits text = true := by
  unfold isDigits
  rw [decide_eq_true nonempty, Bool.true_and]
  exact List.all_eq_true.mpr digits

theorem digitsValue_zero (text : Text) : digitsValue (unit '0' :: text) = digitsValue text := rfl

theorem withoutLeadingZeros_cons (c d : CodeUnit) (rest : Text) : withoutLeadingZeros (c :: d :: rest) =
    if c = unit '0' ∧ isDigit d = true then withoutLeadingZeros (d :: rest) else c :: d :: rest := by
  rw [withoutLeadingZeros]

theorem withoutLeadingZeros_spec : ∀ {text : Text}, isDigits text = true →
    isDigits (withoutLeadingZeros text) = true ∧ digitsValue (withoutLeadingZeros text) = digitsValue text ∧
      withoutLeadingZeros (withoutLeadingZeros text) = withoutLeadingZeros text ∧ (withoutLeadingZeros text).length ≤ text.length
  | [], never => by cases never
  | [c], digits => ⟨digits, rfl, rfl, le_rfl⟩
  | c :: d :: rest, digits => by
    have behind := (digits_of digits).2
    have digitsBehind : isDigits (d :: rest) = true := isDigits_of (List.cons_ne_nil d rest) fun e member => behind e (List.mem_cons_of_mem c member)
    by_cases leads : c = unit '0' ∧ isDigit d = true
    · obtain ⟨isNumber, value, twice, short⟩ := withoutLeadingZeros_spec digitsBehind
      rw [withoutLeadingZeros_cons, if_pos leads, leads.1, digitsValue_zero]
      exact ⟨isNumber, value, twice, Nat.le_succ_of_le short⟩
    · have kept : withoutLeadingZeros (c :: d :: rest) = c :: d :: rest := by
        rw [withoutLeadingZeros_cons, if_neg leads]
      rw [kept]
      exact ⟨digits, rfl, kept, le_rfl⟩

theorem zeroPadded_of_length {width : Nat} {text : Text} (digits : ∀ c ∈ text, isDigit c = true) (length : text.length = width) :
    zeroPadded width (digitsValue text) = text := by
  rw [← length]
  exact zeroPadded_digitsValue digits

theorem padStart_eq {width : Nat} {text : Text} (digits : ∀ c ∈ text, isDigit c = true) (short : text.length ≤ width) :
    padStart width text = zeroPadded width (digitsValue text) := by
  have sameValue : ∀ count : Nat, digitsValue (List.replicate count (unit '0') ++ text) = digitsValue text := by
    intro count
    induction count with
    | zero => rfl
    | succ count ih =>
      rw [List.replicate_succ, List.cons_append, digitsValue_zero]
      exact ih
  have padded : ∀ c ∈ padStart width text, isDigit c = true := by
    intro c member
    rcases List.mem_append.mp member with zero | digit
    · rw [List.eq_of_mem_replicate zero]
      decide
    · exact digits c digit
  have length : (padStart width text).length = width := by
    unfold padStart
    rw [List.length_append, List.length_replicate]
    omega
  rw [← zeroPadded_of_length padded length]
  exact congrArg _ (sameValue _)

theorem version_of_integer {parse : Text → Option Int} {marker : MarkerValue} {value : Nat} {version : Text} (denotes : DenotesInteger marker value)
    (isVersion : sourceVersion parse marker = some version) : version = zeroPadded 20 value ∧ value < 10 ^ 20 := by
  cases denotes with
  | number value =>
    unfold sourceVersion at isVersion
    dsimp only at isVersion
    split at isVersion
    next safe =>
      have digits : ∀ c ∈ Exact.wholeText value, isDigit c = true := fun c member => Exact.digit_of_range (Exact.wholeText_digits value c member)
      have bound : value ≤ maxSafeInteger := safe.1
      have short : (Exact.wholeText value).length ≤ 20 := by
        unfold Exact.wholeText
        split
        next => decide
        next =>
          unfold Whole.digitsText
          rw [List.length_map, List.length_reverse, Nat.digits_length_le_iff (by decide)]
          exact lt_of_le_of_lt bound (by decide)
      have isText := padStart_eq digits short
      rw [Exact.digitsValue_wholeText] at isText
      refine ⟨(Option.some.inj isVersion).symm.trans isText, lt_of_le_of_lt bound (by decide)⟩
    next => cases isVersion
  | @digits text isNumber =>
    obtain ⟨stripped, value, -, -⟩ := withoutLeadingZeros_spec isNumber
    unfold sourceVersion at isVersion
    dsimp only at isVersion
    rw [if_pos isNumber] at isVersion
    split at isVersion
    next short =>
      have isText := padStart_eq (digits_of stripped).2 short
      have small := Formula.StoredDates.digitsValue_lt (digits_of stripped).2
      rw [value] at isText small
      exact ⟨(Option.some.inj isVersion).symm.trans isText, lt_of_lt_of_le small (Nat.pow_le_pow_right (by decide) short)⟩
    next => cases isVersion

theorem isDigit_zeroPadded (width value : Nat) : ∀ c ∈ zeroPadded width value, isDigit c = true := by
  induction width generalizing value with
  | zero => exact fun c never => absurd never List.not_mem_nil
  | succ width ih =>
    intro c member
    rcases List.mem_append.mp member with before | last
    · exact ih _ c before
    · rw [List.mem_singleton.mp last]
      refine Exact.digit_of_range ?_
      unfold decimalDigit
      rw [UInt16.toNat_ofNat']
      omega

theorem isDigits_zeroPadded (value : Nat) : isDigits (zeroPadded 20 value) = true := by
  have nonempty : zeroPadded 20 value ≠ [] := by
    intro empty
    have length := length_zeroPadded 20 value
    rw [empty] at length
    cases length
  exact isDigits_of nonempty (isDigit_zeroPadded 20 value)

theorem since_of_integer (value : Nat) : sinceFromSourceVersion (some (zeroPadded 20 value)) = some (withoutLeadingZeros (zeroPadded 20 value)) := by
  unfold sinceFromSourceVersion
  rw [Option.map_some, if_pos (isDigits_zeroPadded value)]

theorem version_of_since (parse : Text → Option Int) {value : Nat} (small : value < 10 ^ 20) :
    sourceVersion parse (.text (withoutLeadingZeros (zeroPadded 20 value))) = some (zeroPadded 20 value) := by
  have isNumber := isDigits_zeroPadded value
  obtain ⟨stripped, sameValue, twice, short⟩ := withoutLeadingZeros_spec isNumber
  have plain := trim_digits fun c member => isDigit_range ((digits_of stripped).2 c member)
  rw [length_zeroPadded] at short
  unfold sourceVersion
  dsimp only
  rw [plain, if_pos stripped, twice, if_pos (show _ ≤ sourceVersionDigits from short)]
  rw [show sourceVersionDigits = 20 from rfl, padStart_eq (digits_of stripped).2 short, sameValue]
  rw [show digitsValue (zeroPadded 20 value) = value % 10 ^ 20 from digitsValue_zeroPadded 20 value, Nat.mod_eq_of_lt small]

end Integers

section Times

def behindYear (time : Int) : Text :=
  js "-" ++ zeroPadded 2 (monthFromTime time + 1).toNat ++ js "-" ++ zeroPadded 2 (dateFromTime time).toNat ++
    js "T" ++ zeroPadded 2 (hourFromTime time).toNat ++ js ":" ++ zeroPadded 2 (minFromTime time).toNat ++ js ":" ++
    zeroPadded 2 (secFromTime time).toNat ++ js "." ++ zeroPadded 3 (msFromTime time).toNat ++ js "Z"

theorem isoText_eq (time : Int) : isoText time = yearText (yearFromTime time) ++ behindYear time := by
  unfold isoText dateText behindYear
  simp only [List.append_assoc]

structure Bounded (time : Int) : Prop where
  month : 0 ≤ monthFromTime time ∧ monthFromTime time < 12
  date : 1 ≤ dateFromTime time ∧ dateFromTime time ≤ 31
  hour : 0 ≤ hourFromTime time ∧ hourFromTime time < 24
  minute : 0 ≤ minFromTime time ∧ minFromTime time < 60
  second : 0 ≤ secFromTime time ∧ secFromTime time < 60
  millisecond : 0 ≤ msFromTime time ∧ msFromTime time < 1000

theorem bounded (time : Int) : Bounded time := by
  have within := timeWithinDay_bounds time
  have days := Calendar.dayOf_bounds (day time)
  have length := Calendar.monthLength_le (Calendar.monthIndex (day time))
  unfold msPerDay at within
  refine ⟨?_, ⟨days.1, days.2.trans length⟩, ?_, ?_, ?_, ?_⟩
  · unfold monthFromTime
    omega
  · unfold hourFromTime msPerHour
    omega
  · unfold minFromTime msPerHour msPerMinute
    omega
  · unfold secFromTime msPerMinute msPerSecond
    omega
  · unfold msFromTime msPerSecond
    omega

theorem day_lt_iff (s t : Int) : day s < day t ↔ yearFromTime s < yearFromTime t ∨ (yearFromTime s = yearFromTime t ∧
    (monthFromTime s < monthFromTime t ∨ (monthFromTime s = monthFromTime t ∧ dateFromTime s < dateFromTime t))) := by
  have first := Calendar.number_of (day s)
  have second := Calendar.number_of (day t)
  have bounds := Calendar.dayOf_bounds (day s)
  have bounds' := Calendar.dayOf_bounds (day t)
  rw [yearFromTime_eq, yearFromTime_eq]
  unfold monthFromTime dateFromTime
  rcases lt_trichotomy (Calendar.monthIndex (day s)) (Calendar.monthIndex (day t)) with below | equal | above
  · have apart := Calendar.monthFirst_lt below
    omega
  · rw [equal] at first bounds ⊢
    omega
  · have apart := Calendar.monthFirst_lt above
    omega

theorem time_lt_iff (s t : Int) : s < t ↔ day s < day t ∨ (day s = day t ∧ (hourFromTime s < hourFromTime t ∨ (hourFromTime s = hourFromTime t ∧
    (minFromTime s < minFromTime t ∨ (minFromTime s = minFromTime t ∧ (secFromTime s < secFromTime t ∨ (secFromTime s = secFromTime t ∧
      msFromTime s < msFromTime t))))))) := by
  unfold hourFromTime minFromTime secFromTime msFromTime timeWithinDay day msPerDay msPerHour msPerMinute msPerSecond
  omega

theorem day_eq_iff (s t : Int) : day s = day t ↔ yearFromTime s = yearFromTime t ∧ monthFromTime s = monthFromTime t ∧
    dateFromTime s = dateFromTime t := by
  constructor
  · intro same
    unfold yearFromTime monthFromTime dateFromTime
    rw [same]
    exact ⟨rfl, rfl, rfl⟩
  · intro ⟨years, months, dates⟩
    have before := day_lt_iff s t
    have behind := day_lt_iff t s
    omega

end Times

section Texts

theorem padded_less {width a b : Nat} (low : a < 10 ^ width) (high : b < 10 ^ width) (rest other : Text) :
    textLess (zeroPadded width a ++ rest) (zeroPadded width b ++ other) = true ↔ a < b ∨ (a = b ∧ textLess rest other = true) := by
  have same : zeroPadded width a = zeroPadded width b ↔ a = b := ⟨zeroPadded_inj low high, fun same => congrArg _ same⟩
  rw [textLess_append_append _ _ (by rw [length_zeroPadded, length_zeroPadded]), textLess_zeroPadded low high, same]

theorem behindYear_less (s t : Int) (sameYear : yearFromTime s = yearFromTime t) : textLess (behindYear s) (behindYear t) = true ↔ s < t := by
  have first := bounded s
  have second := bounded t
  have last : textLess (js "Z") (js "Z") = false := by decide
  have months := first.month
  have months' := second.month
  have dates := first.date
  have dates' := second.date
  have hours := first.hour
  have hours' := second.hour
  have minutes := first.minute
  have minutes' := second.minute
  have seconds := first.second
  have seconds' := second.second
  have milliseconds := first.millisecond
  have milliseconds' := second.millisecond
  unfold behindYear
  simp only [List.append_assoc]
  rw [textLess_append, padded_less (by omega) (by omega), textLess_append, padded_less (by omega) (by omega), textLess_append,
    padded_less (by omega) (by omega), textLess_append, padded_less (by omega) (by omega), textLess_append, padded_less (by omega) (by omega),
    textLess_append, padded_less (by omega) (by omega), last, time_lt_iff, day_lt_iff, day_eq_iff]
  simp only [Bool.false_eq_true, and_false, or_false]
  omega

theorem year_bounds {time clipped : Int} (isTime : timeClip time = some clipped) : clipped = time ∧ -1000000 < yearFromTime time ∧ yearFromTime time < 1000000 := by
  unfold timeClip at isTime
  split at isTime
  next inRange =>
    have first : Calendar.yearStart (-999999) ≤ day time := by
      rw [show Calendar.yearStart (-999999) = -365961662 by decide]
      unfold day msPerDay
      omega
    have last : ¬Calendar.yearStart 1000000 ≤ day time := by
      rw [show Calendar.yearStart 1000000 = 364522972 by decide]
      unfold day msPerDay
      omega
    have low := Calendar.le_yearOf.mpr first
    have high := Calendar.le_yearOf.not.mpr last
    refine ⟨(Option.some.inj isTime).symm, ?_, ?_⟩
    · unfold yearFromTime
      omega
    · unfold yearFromTime
      omega
  next => cases isTime

variable {s t : Int} (years : -1000000 < yearFromTime s ∧ yearFromTime s < 1000000) (years' : -1000000 < yearFromTime t ∧ yearFromTime t < 1000000)

theorem yearText_four {year : Int} (inside : 0 ≤ year ∧ year ≤ 9999) : yearText year = zeroPadded 4 year.toNat := if_pos inside

theorem yearText_late {year : Int} (late : 10000 ≤ year) : yearText year = unit '+' :: zeroPadded 6 year.natAbs := by
  unfold yearText
  rw [if_neg (by omega), if_neg (by omega)]
  rfl

theorem yearText_early {year : Int} (early : year < 0) : yearText year = unit '-' :: zeroPadded 6 year.natAbs := by
  unfold yearText
  rw [if_neg (by omega), if_pos early]
  rfl

theorem four_head {year : Int} (inside : 0 ≤ year ∧ year ≤ 9999) : ∃ c rest, yearText year = c :: rest ∧ unit '-' < c := by
  rw [yearText_four inside]
  cases written : zeroPadded 4 year.toNat with
  | nil =>
    have length := length_zeroPadded 4 year.toNat
    rw [written] at length
    cases length
  | cons c rest =>
    refine ⟨c, rest, rfl, ?_⟩
    have range := isDigit_range (isDigit_zeroPadded 4 year.toNat c (by rw [written]; exact List.mem_cons_self))
    rw [UInt16.lt_iff_toNat_lt]
    exact lt_of_lt_of_le (by decide) range.1

theorem less_of_heads {c d : CodeUnit} (below : c < d) (rest other : Text) : textLess (c :: rest) (d :: other) = true ∧ textLess (d :: other) (c :: rest) = false := by
  have less : textLess (c :: rest) (d :: other) = true := textLess_cons.mpr (.inl below)
  exact ⟨less, textLess_asymm less⟩

theorem early_less (early : yearFromTime s < 0) (inside : 0 ≤ yearFromTime t ∧ yearFromTime t ≤ 9999) :
    textLess (isoText s) (isoText t) = true ∧ textLess (isoText t) (isoText s) = false := by
  obtain ⟨c, rest, written, above⟩ := four_head inside
  rw [isoText_eq, isoText_eq, yearText_early early, written]
  exact less_of_heads above _ _

theorem late_less (late : 10000 ≤ yearFromTime s) (before : yearFromTime t < 10000) :
    textLess (isoText s) (isoText t) = true ∧ textLess (isoText t) (isoText s) = false := by
  rw [isoText_eq, isoText_eq, yearText_late late]
  by_cases early : yearFromTime t < 0
  · rw [yearText_early early]
    exact less_of_heads (show unit '+' < unit '-' by decide) _ _
  · obtain ⟨c, rest, written, above⟩ := four_head (show 0 ≤ yearFromTime t ∧ yearFromTime t ≤ 9999 by omega)
    rw [written]
    exact less_of_heads (UInt16.lt_trans (show unit '+' < unit '-' by decide) above) _ _

theorem time_lt_of_year (below : yearFromTime s < yearFromTime t) : s < t :=
  (time_lt_iff s t).mpr (.inl ((day_lt_iff s t).mpr (.inl below)))

include years years'

/-- Of the years that are written with a sign, the one that lies further from the year 0 is written behind. -/
theorem signed_less {c : CodeUnit} : textLess (c :: zeroPadded 6 (yearFromTime s).natAbs ++ behindYear s) (c :: zeroPadded 6 (yearFromTime t).natAbs ++ behindYear t) = true ↔
    (yearFromTime s).natAbs < (yearFromTime t).natAbs ∨ ((yearFromTime s).natAbs = (yearFromTime t).natAbs ∧ textLess (behindYear s) (behindYear t) = true) := by
  rw [List.cons_append, List.cons_append, textLess_cons, padded_less (by omega) (by omega)]
  simp

theorem isoText_less_iff : (textLess (isoText s) (isoText t) = true ↔ s < t) ↔ WrittenAlike s t := by
  unfold WrittenAlike
  by_cases late : 10000 ≤ yearFromTime s
  · by_cases late' : 10000 ≤ yearFromTime t
    · refine iff_of_true ?_ ⟨iff_of_true late late', fun never => absurd never (by omega)⟩
      rw [isoText_eq, isoText_eq, yearText_late late, yearText_late late', signed_less years years']
      rcases lt_trichotomy (yearFromTime s) (yearFromTime t) with below | equal | above
      · exact iff_of_true (.inl (by omega)) (time_lt_of_year below)
      · rw [behindYear_less s t equal, equal]
        simp
      · exact iff_of_false (by omega) (time_lt_of_year above).asymm
    · have apart := (late_less late (not_le.mp late')).1
      have after : t < s := time_lt_of_year (by omega)
      exact iff_of_false (fun sorted => after.asymm (sorted.mp apart)) fun alike => late' (alike.1.mp late)
  · by_cases late' : 10000 ≤ yearFromTime t
    · have apart := (late_less late' (not_le.mp late)).2
      have before : s < t := time_lt_of_year (by omega)
      refine iff_of_false (fun sorted => ?_) fun alike => late (alike.1.mpr late')
      rw [sorted.mpr before] at apart
      cases apart
    · have neither : (10000 ≤ yearFromTime s ↔ 10000 ≤ yearFromTime t) := iff_of_false late late'
      by_cases early : yearFromTime s < 0
      · by_cases early' : yearFromTime t < 0
        · rw [isoText_eq, isoText_eq, yearText_early early, yearText_early early', signed_less years years']
          rcases lt_trichotomy (yearFromTime s) (yearFromTime t) with below | equal | above
          · have before : s < t := time_lt_of_year below
            exact iff_of_false (fun sorted => by have := sorted.mpr before; omega) fun alike => by have := alike.2 early early'; omega
          · rw [behindYear_less s t equal, equal]
            simp
          · have after : t < s := time_lt_of_year above
            exact iff_of_false (fun sorted => after.asymm (sorted.mp (.inl (by omega)))) fun alike => by have := alike.2 early early'; omega
        · have sorted := (early_less early (t := t) (by omega)).1
          have before : s < t := time_lt_of_year (by omega)
          exact iff_of_true (iff_of_true sorted before) ⟨neither, fun _ never => absurd never early'⟩
      · by_cases early' : yearFromTime t < 0
        · have apart := (early_less early' (t := s) (by omega)).2
          have after : t < s := time_lt_of_year (by omega)
          exact iff_of_true (iff_of_false (by rw [apart]; decide) after.asymm) ⟨neither, fun never => absurd never early⟩
        · refine iff_of_true ?_ ⟨neither, fun never => absurd never early⟩
          have inside : 0 ≤ yearFromTime s ∧ yearFromTime s ≤ 9999 := by omega
          have inside' : 0 ≤ yearFromTime t ∧ yearFromTime t ≤ 9999 := by omega
          rw [isoText_eq, isoText_eq, yearText_four inside, yearText_four inside', padded_less (by omega) (by omega)]
          rcases lt_trichotomy (yearFromTime s) (yearFromTime t) with below | equal | above
          · exact iff_of_true (.inl (by omega)) (time_lt_of_year below)
          · rw [behindYear_less s t equal, equal]
            simp
          · exact iff_of_false (by omega) (time_lt_of_year above).asymm

theorem isoText_inj (same : isoText s = isoText t) : s = t := by
  have never : textLess (isoText s) (isoText t) ≠ true ∧ textLess (isoText t) (isoText s) ≠ true := by
    rw [same]
    have irreflexive : textLess (isoText t) (isoText t) ≠ true := fun less => by
      have more := textLess_asymm less
      rw [less] at more
      cases more
    exact ⟨irreflexive, irreflexive⟩
  have alike : WrittenAlike s t ↔ WrittenAlike t s := by
    unfold WrittenAlike
    omega
  have forth := isoText_less_iff years years'
  have back := isoText_less_iff years' years
  rw [iff_false_left never.1] at forth
  rw [iff_false_left never.2] at back
  by_contra apart
  by_cases written : WrittenAlike s t
  · have notBefore := forth.mpr written
    have notAfter := back.mpr (alike.mp written)
    omega
  · have before := not_not.mp (forth.not.mpr written)
    have after := not_not.mp (back.not.mpr (alike.not.mp written))
    omega

end Texts

section Markers

theorem layout_mem : ∀ {text pattern : Text} {p : CodeUnit}, hasLayout text pattern = true → p ∈ pattern → p ≠ unit 'd' → p ∈ text
  | text, [], p, _, never, _ => absurd never List.not_mem_nil
  | text, q :: pattern, p, layout, member, other => by
    obtain ⟨c, rest, rfl, here, behind⟩ := hasLayout_cons layout
    rcases List.mem_cons.mp member with rfl | later
    · rw [if_neg other] at here
      exact here ▸ List.mem_cons_self
    · exact List.mem_cons_of_mem c (layout_mem behind later other)

theorem isDigits_false {text : Text} {c : CodeUnit} (member : c ∈ text) (other : isDigit c = false) : isDigits text = false := by
  cases digits : isDigits text with
  | false => rfl
  | true =>
    have isOne := (digits_of digits).2 c member
    rw [other] at isOne
    cases isOne

theorem end_cons {rest : Text} (ends : isODataEnd rest = true) : ∃ c more, rest = c :: more ∧ isDigit c = false := by
  simp only [isODataEnd, Bool.or_eq_true, decide_eq_true_eq] at ends
  rcases ends with (rfl | plus) | minus
  · exact ⟨unit ')', js "/", rfl, by decide⟩
  · obtain ⟨c, more, rfl, here, -⟩ := hasLayout_cons (show hasLayout rest (unit '+' :: js "dddd)/") = true from plus)
    exact ⟨c, more, rfl, by rw [show c = unit '+' from here]; decide⟩
  · obtain ⟨c, more, rfl, here, -⟩ := hasLayout_cons (show hasLayout rest (unit '-' :: js "dddd)/") = true from minus)
    exact ⟨c, more, rfl, by rw [show c = unit '-' from here]; decide⟩

theorem odataDate_of {digits rest : Text} (isNumber : isDigits digits = true) (ends : isODataEnd rest = true) :
    odataDate (js "/Date(" ++ digits ++ rest) = some (digitsValue digits) := by
  obtain ⟨c, more, rfl, other⟩ := end_cons ends
  obtain ⟨nonempty, all⟩ := digits_of isNumber
  have front : (js "/Date(" ++ digits ++ c :: more).take 6 = js "/Date(" := by
    rw [List.append_assoc]
    rfl
  have behind : (js "/Date(" ++ digits ++ c :: more).drop 6 = digits ++ c :: more := by
    rw [List.append_assoc]
    rfl
  unfold odataDate
  dsimp only
  rw [front, behind, List.takeWhile_append_of_pos all, List.dropWhile_append_of_pos all, List.takeWhile_cons_of_neg (by rw [other]; decide),
    List.dropWhile_cons_of_neg (by rw [other]; decide), List.append_nil]
  exact if_pos ⟨rfl, nonempty, ends⟩

theorem odataDate_iso {text : Text} (zoned : isIsoWithZone text = true) : odataDate text = none ∧ isDigits text = false := by
  simp only [isIsoWithZone, Bool.and_eq_true, Bool.or_eq_true] at zoned
  have layout : ∃ last, hasLayout (text.take 11) (js "dddd-dd-dd" ++ [last]) = true := by
    rcases zoned.1.1 with upper | lower
    · exact ⟨unit 'T', upper⟩
    · exact ⟨unit 't', lower⟩
  obtain ⟨last, layout⟩ := layout
  have dash : unit '-' ∈ text.take 11 := layout_mem layout (List.mem_append_left _ (by decide)) (by decide)
  refine ⟨if_neg fun ⟨front, _⟩ => ?_, isDigits_false (List.mem_of_mem_take dash) (by decide)⟩
  obtain ⟨c, rest, isText, digit, -⟩ := hasLayout_cons (show hasLayout (text.take 11) (unit 'd' :: (js "ddd-dd-dd" ++ [last])) = true from layout)
  rw [if_pos rfl] at digit
  cases text with
  | nil => cases isText
  | cons d more =>
    have isSlash : d = unit '/' := (List.cons.inj (show d :: more.take 5 = unit '/' :: js "Date(" from front)).1
    have isFirst : d = c := (List.cons.inj (show d :: more.take 10 = c :: rest from isText)).1
    rw [← isFirst, isSlash] at digit
    exact absurd digit (by decide)

theorem version_of_time {parse : Text → Option Int} {marker : MarkerValue} {time : Int} {version : Text} (denotes : DenotesTime parse marker time)
    (isVersion : sourceVersion parse marker = some version) :
    version = isoText time ∧ -1000000 < yearFromTime time ∧ yearFromTime time < 1000000 := by
  have written : ∃ value, marker = .text value ∧ isDigits (trim value) = false ∧ instant parse (trim value) = some time := by
    cases denotes with
    | @odata value digits rest written isNumber ends =>
      refine ⟨value, rfl, ?_, ?_⟩
      · rw [written, List.append_assoc]
        exact isDigits_false (List.mem_cons_self (a := unit '/')) (by decide)
      · unfold instant
        rw [written, odataDate_of isNumber ends]
    | @iso value time zoned parsed =>
      refine ⟨value, rfl, (odataDate_iso zoned).2, ?_⟩
      unfold instant
      rw [(odataDate_iso zoned).1]
      exact (if_pos zoned).trans parsed
  obtain ⟨value, rfl, notDigits, isInstant⟩ := written
  unfold sourceVersion isoOrNull at isVersion
  dsimp only at isVersion
  rw [if_neg (by rw [notDigits]; decide), isInstant] at isVersion
  obtain ⟨clipped, isTime, rfl⟩ := Option.map_eq_some_iff.mp isVersion
  obtain ⟨rfl, years⟩ := year_bounds isTime
  exact ⟨rfl, years⟩

end Markers

section Results
variable {parse : Text → Option Int}

/-- Whole numbers sort as texts in their own order, and are asked for by the version they were read from;
times do exactly where both are written alike. -/
theorem markers_sorted (parse : Text → Option Int) :
    (∀ a b m n x y, DenotesInteger a m → DenotesInteger b n → sourceVersion parse a = some x → sourceVersion parse b = some y →
      (textLess x y = true ↔ m < n) ∧ (x = y → m = n)) ∧
    (∀ a m x, DenotesInteger a m → sourceVersion parse a = some x →
      ∃ since, sinceFromSourceVersion (some x) = some since ∧ sourceVersion parse (.text since) = some x) ∧
    ∀ a b s t x y, DenotesTime parse a s → DenotesTime parse b t → sourceVersion parse a = some x → sourceVersion parse b = some y →
      ((textLess x y = true ↔ s < t) ∧ (x = y → s = t) ↔ WrittenAlike s t) := by
  refine ⟨fun a b m n x y isA isB isX isY => ?_, fun a m x isA isX => ?_, fun a b s t x y isA isB isX isY => ?_⟩
  · obtain ⟨writtenX, low⟩ := version_of_integer isA isX
    obtain ⟨writtenY, high⟩ := version_of_integer isB isY
    rw [writtenX, writtenY]
    exact ⟨textLess_zeroPadded low high, zeroPadded_inj low high⟩
  · obtain ⟨writtenX, small⟩ := version_of_integer isA isX
    rw [writtenX]
    exact ⟨_, since_of_integer m, version_of_since parse small⟩
  · obtain ⟨rfl, years⟩ := version_of_time isA isX
    obtain ⟨rfl, years'⟩ := version_of_time isB isY
    rw [isoText_less_iff years years']
    exact and_iff_left (isoText_inj years years')

def year10000 : MarkerValue := .text (js "/Date(253402300800000)/")

def epoch : MarkerValue := .text (js "/Date(0)/")

theorem denotes_year10000 : DenotesTime parse year10000 253402300800000 :=
  @DenotesTime.odata parse _ (js "253402300800000") (js ")/") (by decide) (by decide) (by decide)

theorem year10000_version : sourceVersion parse year10000 = some (js "+010000-01-01T00:00:00.000Z") := by
  have isInstant : instant parse (trim (js "/Date(253402300800000)/")) = some 253402300800000 := rfl
  have isText : isoOrNull (some 253402300800000) = some (js "+010000-01-01T00:00:00.000Z") := by decide +kernel
  rw [← isText, ← isInstant]
  rfl

theorem epoch_version : sourceVersion parse epoch = some (js "1970-01-01T00:00:00.000Z") := by
  have isInstant : instant parse (trim (js "/Date(0)/")) = some 0 := rfl
  have isText : isoOrNull (some 0) = some (js "1970-01-01T00:00:00.000Z") := by decide +kernel
  rw [← isText, ← isInstant]
  rfl

theorem denotes_epoch : DenotesTime parse epoch 0 := @DenotesTime.odata parse _ (js "0") (js ")/") (by decide) (by decide) (by decide)

/-- The year 10000 is written before the year 1970. -/
theorem year10000_first : ¬∀ (parse : Text → Option Int) (a b : MarkerValue) (s t : Int) (x y : Text), DenotesTime parse a s → DenotesTime parse b t →
    sourceVersion parse a = some x → sourceVersion parse b = some y → ((textLess x y = true ↔ s < t) ∧ (x = y → s = t)) := by
  intro always
  have sorted := (always (fun _ => none) year10000 epoch _ _ (js "+010000-01-01T00:00:00.000Z") (js "1970-01-01T00:00:00.000Z") denotes_year10000 denotes_epoch
    year10000_version epoch_version).1
  exact absurd (sorted.mp (by decide)) (by decide)

theorem markers_sorted_epoch : (textLess (js "1970-01-01T00:00:00.000Z") (js "1970-01-01T00:00:00.000Z") = true ↔ (0 : Int) < 0) ∧
    (js "1970-01-01T00:00:00.000Z" = js "1970-01-01T00:00:00.000Z" → (0 : Int) = 0) :=
  ((markers_sorted fun _ => none).2.2 epoch epoch 0 0 _ _ denotes_epoch denotes_epoch epoch_version epoch_version).mpr
    ⟨Iff.rfl, fun _ _ => rfl⟩

end Results

end OpenShapeForge.Operations.ChangeMarkers
