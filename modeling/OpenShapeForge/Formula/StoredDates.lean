import OpenShapeForge.Formula.DateUnits
import OpenShapeForge.Formula.Evaluate
import OpenShapeForge.Js.IndexText

/-! Stored dates. Of a text `YYYY-MM-DD` only the day of the month is compared with what `Date.UTC` made
of it: a month that no year has leads on to the months around, and the years 0000 to 0099 are read as
those of the twentieth century. -/

namespace OpenShapeForge.Formula.StoredDates
open Js Js.Dates Types Evaluate Library
open Whole (finite digitsValue)
open DateUnits (InYears inYears_iff)
open Operations.FieldValues (hasLayout)

section Digits

theorem hasLayout_cons {text pattern : Text} {p : CodeUnit} (layout : hasLayout text (p :: pattern) = true) :
    ∃ c rest, text = c :: rest ∧ (if p = unit 'd' then isDigit c = true else c = p) ∧ hasLayout rest pattern = true := by
  cases text with
  | nil => cases layout
  | cons c rest =>
    obtain ⟨first, others⟩ := Bool.and_eq_true_iff.mp layout
    refine ⟨c, rest, rfl, ?_, others⟩
    split_ifs at first ⊢
    · exact first
    · exact of_decide_eq_true first

theorem isDigit_range {c : CodeUnit} (digit : isDigit c = true) : 48 ≤ c.toNat ∧ c.toNat ≤ 57 := by
  obtain ⟨low, high⟩ := Bool.and_eq_true_iff.mp digit
  exact ⟨UInt16.le_iff_toNat_le.mp (of_decide_eq_true low), UInt16.le_iff_toNat_le.mp (of_decide_eq_true high)⟩

theorem digitsValue_snoc (text : Text) (c : CodeUnit) : digitsValue (text ++ [c]) = 10 * digitsValue text + (c.toNat - 48) := by
  unfold digitsValue
  rw [List.foldl_append]
  rfl

theorem digitsValue_lt {text : Text} (digits : ∀ c ∈ text, isDigit c = true) : digitsValue text < 10 ^ text.length := by
  induction text using List.reverseRecOn with
  | nil => exact Nat.one_pos
  | append_singleton text c ih =>
    have range := isDigit_range (digits c (List.mem_append_right _ List.mem_cons_self))
    have before := ih fun other member => digits other (List.mem_append_left _ member)
    rw [digitsValue_snoc, List.length_append, List.length_singleton, Nat.pow_succ]
    omega

theorem zeroPadded_digitsValue {text : Text} (digits : ∀ c ∈ text, isDigit c = true) : zeroPadded text.length (digitsValue text) = text := by
  induction text using List.reverseRecOn with
  | nil => rfl
  | append_singleton text c ih =>
    have range := isDigit_range (digits c (List.mem_append_right _ List.mem_cons_self))
    have before := ih fun other member => digits other (List.mem_append_left _ member)
    have digit : decimalDigit (10 * digitsValue text + (c.toNat - 48)) = c := by
      unfold decimalDigit
      rw [show (10 * digitsValue text + (c.toNat - 48)) % 10 + 48 = c.toNat by omega, UInt16.ofNat_toNat]
    rw [List.length_append, List.length_singleton, digitsValue_snoc, zeroPadded, digit,
      show (10 * digitsValue text + (c.toNat - 48)) / 10 = digitsValue text by omega, before]

theorem length_zeroPadded (width value : Nat) : (zeroPadded width value).length = width := by
  induction width generalizing value with
  | zero => rfl
  | succ width ih => rw [zeroPadded, List.length_append, ih, List.length_singleton]

theorem digitsValue_zeroPadded (width value : Nat) : digitsValue (zeroPadded width value) = value % 10 ^ width := by
  induction width generalizing value with
  | zero => rw [Nat.pow_zero, Nat.mod_one]; rfl
  | succ width ih =>
    have digit : (decimalDigit value).toNat - 48 = value % 10 := by
      unfold decimalDigit
      rw [UInt16.toNat_ofNat']
      omega
    rw [zeroPadded, digitsValue_snoc, ih, digit, Nat.pow_succ, Nat.mul_comm (10 ^ width), Nat.mod_mul]
    omega

end Digits

section Texts

def yearOf (text : Text) : Nat := digitsValue (text.take 4)

def monthOf (text : Text) : Nat := digitsValue ((text.drop 5).take 2)

def dayOf (text : Text) : Nat := digitsValue (text.drop 8)

def indexOf (year month : Int) : Int := year * 12 + month - 1

def NamesDay (text : Text) : Prop :=
  1 ≤ monthOf text ∧ monthOf text ≤ 12 ∧ 1 ≤ dayOf text ∧ (dayOf text : Int) ≤ Calendar.monthLength (indexOf (yearOf text) (monthOf text))

/-- The month that a text is read in: `Date.UTC` moves the early years, and counts months on. -/
def readIndex (text : Text) : Int := indexOf (makeFullYear (yearOf text)) (monthOf text)

def written (year month day : Nat) : Text := zeroPadded 4 year ++ js "-" ++ zeroPadded 2 month ++ js "-" ++ zeroPadded 2 day

variable {text : Text}

theorem written_of_layout (layout : hasLayout text (js "dddd-dd-dd") = true) :
    text = written (yearOf text) (monthOf text) (dayOf text) ∧
      (∀ c ∈ text.take 4, isDigit c = true) ∧ (∀ c ∈ (text.drop 5).take 2, isDigit c = true) ∧ ∀ c ∈ text.drop 8, isDigit c = true := by
  obtain ⟨a, _, rfl, aDigit, layout⟩ := hasLayout_cons layout
  obtain ⟨b, _, rfl, bDigit, layout⟩ := hasLayout_cons layout
  obtain ⟨c, _, rfl, cDigit, layout⟩ := hasLayout_cons layout
  obtain ⟨d, _, rfl, dDigit, layout⟩ := hasLayout_cons layout
  obtain ⟨x, _, rfl, isDash, layout⟩ := hasLayout_cons layout
  obtain ⟨e, _, rfl, eDigit, layout⟩ := hasLayout_cons layout
  obtain ⟨f, _, rfl, fDigit, layout⟩ := hasLayout_cons layout
  obtain ⟨y, _, rfl, alsoDash, layout⟩ := hasLayout_cons layout
  obtain ⟨g, _, rfl, gDigit, layout⟩ := hasLayout_cons layout
  obtain ⟨h, rest, rfl, hDigit, layout⟩ := hasLayout_cons layout
  cases rest with
  | cons _ _ => cases layout
  | nil =>
    have firstDash : x = unit '-' := isDash
    have secondDash : y = unit '-' := alsoDash
    subst firstDash secondDash
    have years : ∀ other ∈ [a, b, c, d], isDigit other = true := by
      simpa using ⟨aDigit, bDigit, cDigit, dDigit⟩
    have months : ∀ other ∈ [e, f], isDigit other = true := by
      simpa using ⟨eDigit, fDigit⟩
    have days : ∀ other ∈ [g, h], isDigit other = true := by
      simpa using ⟨gDigit, hDigit⟩
    refine ⟨?_, years, months, days⟩
    change [a, b, c, d] ++ js "-" ++ [e, f] ++ js "-" ++ [g, h] =
      zeroPadded [a, b, c, d].length (digitsValue [a, b, c, d]) ++ js "-" ++ zeroPadded [e, f].length (digitsValue [e, f]) ++ js "-" ++
        zeroPadded [g, h].length (digitsValue [g, h])
    rw [zeroPadded_digitsValue years, zeroPadded_digitsValue months, zeroPadded_digitsValue days]

theorem fields_lt (layout : hasLayout text (js "dddd-dd-dd") = true) : yearOf text < 10000 ∧ monthOf text < 100 ∧ dayOf text < 100 := by
  obtain ⟨same, years, months, days⟩ := written_of_layout layout
  have size : text.length = 10 := by
    rw [same, written, List.length_append, List.length_append, List.length_append, List.length_append, length_zeroPadded, length_zeroPadded,
      length_zeroPadded]
    rfl
  have year := digitsValue_lt years
  have month := digitsValue_lt months
  have day := digitsValue_lt days
  rw [List.length_take, size] at year
  rw [List.length_take, List.length_drop, size] at month
  rw [List.length_drop, size] at day
  exact ⟨year, month, day⟩

end Texts

section Reading
variable {text : Text}

def readTime (text : Text) : Int := makeDate (Calendar.monthFirst (readIndex text) + dayOf text - 1) 0

theorem monthFirst_bounds {index : Int} (low : -12 ≤ index) (high : index < 130000) :
    -1000000 ≤ Calendar.monthFirst index ∧ Calendar.monthFirst index ≤ 4000000 := by
  have before := Calendar.monthFirst_lt (show -13 < index by omega)
  have after := Calendar.monthFirst_lt high
  have first : Calendar.monthFirst (-13) = -719924 := by decide +kernel
  have last : Calendar.monthFirst 130000 = 3237265 := by decide +kernel
  have positive := Calendar.monthLength_pos (-13)
  have also := Calendar.monthLength_pos index
  omega

theorem timeClip_readTime (layout : hasLayout text (js "dddd-dd-dd") = true) : timeClip (readTime text) = some (readTime text) := by
  obtain ⟨year, month, day⟩ := fields_lt layout
  have bounds : -12 ≤ readIndex text ∧ readIndex text < 130000 := by
    unfold readIndex indexOf makeFullYear
    split_ifs <;> omega
  have near := monthFirst_bounds bounds.1 bounds.2
  refine if_pos ?_
  unfold readTime makeDate msPerDay
  omega

theorem dayOf_iff (index day : Int) : Calendar.dayOf (Calendar.monthFirst index + day - 1) = day ↔ 1 ≤ day ∧ day ≤ Calendar.monthLength index := by
  constructor
  · intro same
    have bounds := Calendar.dayOf_bounds (Calendar.monthFirst index + day - 1)
    have number := Calendar.number_of (Calendar.monthFirst index + day - 1)
    rw [same] at bounds number
    rcases lt_trichotomy (Calendar.monthIndex (Calendar.monthFirst index + day - 1)) index with earlier | found | later
    · have := Calendar.monthFirst_lt earlier
      have := Calendar.monthLength_pos (Calendar.monthIndex (Calendar.monthFirst index + day - 1))
      omega
    · rw [found] at bounds
      exact bounds
    · have := Calendar.monthFirst_lt later
      have := Calendar.monthLength_pos index
      omega
  · rintro ⟨first, last⟩
    exact Calendar.dayOf_of first last

theorem readDay_eq (layout : hasLayout text (js "dddd-dd-dd") = true) : (readDay text : Outcome (Value Whole)) =
    if 1 ≤ (dayOf text : Int) ∧ (dayOf text : Int) ≤ Calendar.monthLength (readIndex text) then .ok (.date (finite (readTime text)))
    else .error .invalidDate := by
  obtain ⟨-, years, months, days⟩ := written_of_layout layout
  have year : (JsNumber.ofText (text.take 4) : Whole) = finite (yearOf text) := ofText_digits fun c member => isDigit_range (years c member)
  have month : (JsNumber.ofText ((text.drop 5).take 2) : Whole) = finite (monthOf text) :=
    ofText_digits fun c member => isDigit_range (months c member)
  have day : (JsNumber.ofText (text.drop 8) : Whole) = finite (dayOf text) := ofText_digits fun c member => isDigit_range (days c member)
  have date : utc (yearOf text) ((monthOf text : Int) - 1) (dayOf text) 0 0 0 0 = some (readTime text) := by
    rw [← timeClip_readTime layout]
    have index : makeFullYear (yearOf text) * 12 + ((monthOf text : Int) - 1) = readIndex text := (Int.add_sub_assoc _ _ _).symm
    unfold utc readTime makeDay
    rw [index]
    rfl
  unfold readDay
  rw [year, month, day]
  change (if JsNumber.equal (JsDates.getUTCDate (Whole.ofTime (utc (yearOf text) ((monthOf text : Int) - 1) (dayOf text) 0 0 0 0))) (finite (dayOf text)) = true
    then Except.ok (Value.date (Whole.ofTime (utc (yearOf text) ((monthOf text : Int) - 1) (dayOf text) 0 0 0 0))) else _) = _
  rw [date]
  have found : dateFromTime (readTime text) = Calendar.dayOf (Calendar.monthFirst (readIndex text) + dayOf text - 1) := by
    unfold dateFromTime readTime
    rw [day_makeDate _ (Int.le_refl 0) (by decide)]
  have compared : JsNumber.equal (JsDates.getUTCDate (Whole.ofTime (some (readTime text)))) (finite (dayOf text)) =
      decide (1 ≤ (dayOf text : Int) ∧ (dayOf text : Int) ≤ Calendar.monthLength (readIndex text)) := by
    change (decide (finite (dateFromTime (readTime text)) = finite (dayOf text)) && decide (finite (dateFromTime (readTime text)) ≠ Whole.nan)) = _
    rw [found, Bool.eq_iff_iff, Bool.and_eq_true, decide_eq_true_eq, decide_eq_true_eq, decide_eq_true_eq, ← dayOf_iff]
    simp
  rw [compared]
  simp only [decide_eq_true_eq]
  rfl

theorem monthLength_indexOf (year : Int) {month : Nat} (first : 1 ≤ month) (last : month ≤ 12) :
    Calendar.monthLength (indexOf year month) = Calendar.monthDays (Calendar.isLeap year) (month - 1) := by
  have years : indexOf year month / 12 = year := by
    unfold indexOf
    omega
  have months : (indexOf year month % 12).toNat = month - 1 := by
    unfold indexOf
    omega
  unfold Calendar.monthLength
  rw [years, months]

theorem isLeap_early {year : Int} (first : 1 ≤ year) (early : year < 100) : Calendar.isLeap (1900 + year) = Calendar.isLeap year := by
  rw [Bool.eq_iff_iff, Calendar.isLeap_iff, Calendar.isLeap_iff]
  omega

theorem not_names (outside : ¬(1 ≤ monthOf text ∧ monthOf text ≤ 12)) : ¬NamesDay text := fun names => outside ⟨names.1, names.2.1⟩

theorem names_iff (first : 1 ≤ monthOf text) (last : monthOf text ≤ 12) : NamesDay text ↔
    1 ≤ (dayOf text : Int) ∧ (dayOf text : Int) ≤ Calendar.monthDays (Calendar.isLeap (yearOf text)) (monthOf text - 1) := by
  unfold NamesDay
  rw [monthLength_indexOf _ first last]
  omega

theorem has_iff (first : 1 ≤ monthOf text) (last : monthOf text ≤ 12) :
    (1 ≤ (dayOf text : Int) ∧ (dayOf text : Int) ≤ Calendar.monthLength (readIndex text)) ↔
      1 ≤ (dayOf text : Int) ∧ (dayOf text : Int) ≤ Calendar.monthDays (Calendar.isLeap (makeFullYear (yearOf text))) (monthOf text - 1) := by
  unfold readIndex
  rw [monthLength_indexOf _ first last]

theorem has_iff_names (late : 1 ≤ yearOf text) (first : 1 ≤ monthOf text) (last : monthOf text ≤ 12) :
    (1 ≤ (dayOf text : Int) ∧ (dayOf text : Int) ≤ Calendar.monthLength (readIndex text)) ↔ NamesDay text := by
  have leap : Calendar.isLeap (makeFullYear (yearOf text)) = Calendar.isLeap (yearOf text) := by
    by_cases early : (yearOf text : Int) < 100
    · rw [makeFullYear, if_pos (by omega)]
      exact isLeap_early (by omega) early
    · rw [DateUnits.makeFullYear_late (by omega)]
  rw [has_iff first last, names_iff first last, leap]

theorem has_iff_names_zero (zero : yearOf text = 0) (first : 1 ≤ monthOf text) (last : monthOf text ≤ 12) :
    ((1 ≤ (dayOf text : Int) ∧ (dayOf text : Int) ≤ Calendar.monthLength (readIndex text)) ↔ NamesDay text) ↔
      ¬(monthOf text = 2 ∧ dayOf text = 29) := by
  have taken : Calendar.isLeap (makeFullYear (yearOf text)) = false := by
    rw [zero]
    decide
  have leap : Calendar.isLeap (yearOf text) = true := by
    rw [zero]
    decide
  rw [has_iff first last, names_iff first last, taken, leap]
  unfold Calendar.monthDays
  by_cases february : monthOf text = 2
  · have second : monthOf text - 1 = 1 := by omega
    simp only [second, if_true, Bool.false_eq_true, if_false]
    omega
  · have other : monthOf text - 1 ≠ 1 := by omega
    simp only [other, february, if_false, false_and, not_false_eq_true]

end Reading

section Writing
variable {text : Text} {time : Int}

theorem yearText_inYears (inside : InYears time) : yearText (yearFromTime time) = zeroPadded 4 (yearFromTime time).toNat := by
  obtain ⟨first, last⟩ := inside
  exact if_pos ⟨by omega, last⟩

theorem take_isoText (inside : InYears time) : (isoText time).take 10 = dateText time := by
  have size : (dateText time).length = 10 := by
    unfold dateText
    rw [yearText_inYears inside]
    simp only [List.length_append, length_zeroPadded]
    rfl
  unfold isoText
  simp only [List.append_assoc]
  exact List.take_left' size

theorem finish_date (inside : InYears time) : (finish (.date (finite time)) (some .date) : Outcome (Value Whole)) = .ok (.text (dateText time)) := by
  have bounds := (inYears_iff time).mp inside
  have within : isBeyondYears (finite time) = false := by
    change (!((decide (-62135596800000 < time) || (decide (finite (-62135596800000) = finite time) && _)) && decide (time < 253402300800000))) = false
    rw [decide_eq_true bounds.2, Bool.and_true]
    rcases eq_or_lt_of_le bounds.1 with same | later
    · rw [← same]
      rfl
    · rw [decide_eq_true later]
      rfl
  unfold finish
  rw [← take_isoText inside]
  dsimp only
  rw [within, if_neg Bool.false_ne_true]
  rfl

theorem dateText_readTime (first : 1 ≤ monthOf text) (last : monthOf text ≤ 12) (has : 1 ≤ (dayOf text : Int) ∧ (dayOf text : Int) ≤ Calendar.monthLength (readIndex text))
    (inside : InYears (readTime text)) :
    dateText (readTime text) = written (makeFullYear (yearOf text)).toNat (monthOf text) (dayOf text) := by
  have number : day (readTime text) = Calendar.monthFirst (readIndex text) + dayOf text - 1 := day_makeDate _ (Int.le_refl 0) (by decide)
  have index : Calendar.monthIndex (day (readTime text)) = readIndex text := by
    rw [number]
    exact Calendar.monthIndex_of has.1 has.2
  have date : dateFromTime (readTime text) = dayOf text := by
    unfold dateFromTime
    rw [number]
    exact Calendar.dayOf_of has.1 has.2
  have year : yearFromTime (readTime text) = makeFullYear (yearOf text) := by
    rw [yearFromTime_eq, index]
    unfold readIndex indexOf
    omega
  have month : monthFromTime (readTime text) + 1 = monthOf text := by
    unfold monthFromTime
    rw [index]
    unfold readIndex indexOf
    omega
  unfold dateText
  rw [yearText_inYears inside, month, date, year]
  rfl

theorem written_year {first second month day : Nat} (small : first < 10000) (also : second < 10000) (same : written first month day = written second month day) :
    first = second := by
  have years : zeroPadded 4 first = zeroPadded 4 second := by
    have taken := congrArg (List.take 4) same
    unfold written at taken
    simp only [List.append_assoc] at taken
    rwa [List.take_left' (length_zeroPadded 4 first), List.take_left' (length_zeroPadded 4 second)] at taken
  have values := congrArg digitsValue years
  rw [digitsValue_zeroPadded, digitsValue_zeroPadded] at values
  omega

end Writing

section Claim
variable (realm : Realm Whole) (record : Members Whole) (env : FormulaEnvironment) (path text : Text)

structure StoresDate : Prop where
  typed : fieldTypes env path = some (.formula .date)
  stored : Evaluator.evalPath realm path record = .text text
  layout : hasLayout text (js "dddd-dd-dd") = true

/-- No month is counted on to a day it has, and no day lies in a year that is taken for another. -/
def SparedText : Prop :=
  if 1 ≤ monthOf text ∧ monthOf text ≤ 12 then
    100 ≤ yearOf text ∨ ¬NamesDay text ∨ (yearOf text = 0 ∧ ¬(monthOf text = 2 ∧ dayOf text = 29))
  else ¬(1 ≤ (dayOf text : Int) ∧ (dayOf text : Int) ≤ Calendar.monthLength (readIndex text))

variable {realm record env path text}

theorem readField_eq (stores : StoresDate realm record env path text) :
    readField realm path record (fieldTypes env) = readDay text := by
  unfold readField
  rw [stores.typed, stores.stored]
  change (if hasLayout text (js "dddd-dd-dd") = true then _ else _) = _
  rw [stores.layout, if_pos rfl]

theorem reads_iff (stores : StoresDate realm record env path text) : (∃ time, readField realm path record (fieldTypes env) = .ok (.date time)) ↔
    1 ≤ (dayOf text : Int) ∧ (dayOf text : Int) ≤ Calendar.monthLength (readIndex text) := by
  rw [readField_eq stores, readDay_eq stores.layout]
  constructor
  · rintro ⟨time, read⟩
    by_contra lacks
    rw [if_neg lacks] at read
    cases read
  · intro has
    exact ⟨_, if_pos has⟩

theorem inYears_readTime (layout : hasLayout text (js "dddd-dd-dd") = true) (late : 1 ≤ yearOf text) (first : 1 ≤ monthOf text) (last : monthOf text ≤ 12)
    (has : 1 ≤ (dayOf text : Int) ∧ (dayOf text : Int) ≤ Calendar.monthLength (readIndex text)) : InYears (readTime text) := by
  have bounds := (fields_lt layout).1
  have index : Calendar.monthIndex (day (readTime text)) = readIndex text := by
    unfold readTime
    rw [day_makeDate _ (Int.le_refl 0) (by decide)]
    exact Calendar.monthIndex_of has.1 has.2
  unfold InYears
  rw [yearFromTime_eq, index]
  unfold readIndex indexOf makeFullYear
  split_ifs <;> omega

variable [Unicode]

theorem evaluate_read (stores : StoresDate realm record env path text) (late : 1 ≤ yearOf text) (first : 1 ≤ monthOf text) (last : monthOf text ≤ 12)
    (has : 1 ≤ (dayOf text : Int) ∧ (dayOf text : Int) ≤ Calendar.monthLength (readIndex text)) :
    evaluate realm (.path path) record ⟨some env, some .date⟩ =
      .ok (.text (written (makeFullYear (yearOf text)).toNat (monthOf text) (dayOf text))) := by
  have inside := inYears_readTime stores.layout late first last has
  have read := readField_eq stores
  rw [readDay_eq stores.layout, if_pos has] at read
  unfold evaluate
  rw [run]
  change ((readField realm path record (fieldTypes env)).bind fun value => finish value (some .date)) = _
  rw [read, ← dateText_readTime first last has inside]
  exact finish_date inside

/-- Just the days of the calendar are read as dates, and a formula that is just the field gives back
those of the years 0001 to 9999. -/
def FaithfullyRead (realm : Realm Whole) (record : Members Whole) (env : FormulaEnvironment) (path text : Text) : Prop :=
  ((∃ time, readField realm path record (fieldTypes env) = .ok (.date time)) ↔ NamesDay text) ∧
    (NamesDay text → 1 ≤ yearOf text → evaluate realm (.path path) record ⟨some env, some .date⟩ = .ok (.text text))

/-- Stored dates are read faithfully exactly where no month is counted on and no year is moved. -/
theorem read_date_iff (stores : StoresDate realm record env path text) : FaithfullyRead realm record env path text ↔ SparedText text := by
  unfold FaithfullyRead SparedText
  rw [reads_iff stores]
  by_cases inside : 1 ≤ monthOf text ∧ monthOf text ≤ 12
  · obtain ⟨first, last⟩ := inside
    rw [if_pos ⟨first, last⟩]
    by_cases zero : yearOf text = 0
    · have leap : monthOf text = 2 ∧ dayOf text = 29 → NamesDay text := by
        rintro ⟨february, last⟩
        rw [names_iff first (by omega), zero, february, last]
        decide
      rw [has_iff_names_zero zero first last]
      constructor
      · rintro ⟨spared, -⟩
        exact .inr (.inr ⟨zero, spared⟩)
      · rintro (late | unnamed | ⟨-, spared⟩)
        · omega
        · exact ⟨fun leapDay => unnamed (leap leapDay), fun _ late => by omega⟩
        · exact ⟨spared, fun _ late => by omega⟩
    · have late : 1 ≤ yearOf text := Nat.pos_of_ne_zero zero
      have same := has_iff_names late first last
      have bounds := (fields_lt stores.layout).1
      constructor
      · rintro ⟨-, gives⟩
        by_contra moved
        have names : NamesDay text := by_contra fun unnamed => moved (.inr (.inl unnamed))
        have early : yearOf text < 100 := not_le.mp fun settled => moved (.inl settled)
        have read := gives names late
        rw [evaluate_read stores late first last (same.mpr names)] at read
        have texts : written (makeFullYear (yearOf text)).toNat (monthOf text) (dayOf text) = text := by
          injection read with value
          injection value
        have taken : makeFullYear (yearOf text) = 1900 + yearOf text := DateUnits.makeFullYear_early (by omega) (by omega)
        have year := written_year (by omega) bounds (texts.trans (written_of_layout stores.layout).1)
        omega
      · intro spared
        refine ⟨same, fun names _ => ?_⟩
        have settled : 100 ≤ yearOf text := by
          rcases spared with settled | unnamed | ⟨isZero, -⟩
          · exact settled
          · exact absurd names unnamed
          · exact absurd isZero zero
        rw [evaluate_read stores late first last (same.mpr names), DateUnits.makeFullYear_late (by omega), Int.toNat_natCast,
          ← (written_of_layout stores.layout).1]
  · rw [if_neg inside]
    have unnamed := not_names inside
    constructor
    · rintro ⟨same, -⟩ has
      exact unnamed (same.mp has)
    · intro lacks
      exact ⟨⟨fun has => absurd has lacks, fun names => absurd names unnamed⟩, fun names => absurd names unnamed⟩

end Claim

section Stored

def ownRealm : Realm Whole := ⟨.finite 0, fun _ _ => .undefined, fun _ _ => false⟩

def launch : FormulaField where
  id := js "f-launch"
  label := js "Launch date"
  key := js "launch"
  type := .formula .date
  scope := .self
  classified := false
  outOfScope := none
  kind := .stored
  depth := none
  dependencies := []

theorem stores_launch (text : Text) (layout : hasLayout text (js "dddd-dd-dd") = true) :
    StoresDate ownRealm [(js "f-launch", .text text)] [launch] (js "f-launch") text where
  typed := rfl
  stored := rfl
  layout := layout

/-- The leap day of a leap year. -/
theorem read_leap_day : @FaithfullyRead asciiTables ownRealm [(js "f-launch", .text (js "2024-02-29"))] [launch] (js "f-launch") (js "2024-02-29") := by
  have late : 1 ≤ monthOf (js "2024-02-29") ∧ monthOf (js "2024-02-29") ≤ 12 := by decide +kernel
  have spared : SparedText (js "2024-02-29") := by
    unfold SparedText
    rw [if_pos late]
    exact .inl (by decide +kernel)
  exact (@read_date_iff _ _ _ _ _ asciiTables (stores_launch _ (by decide +kernel))).mpr spared

/-- A thirteenth month is read as the next January. -/
theorem thirteenth_month : ¬∀ (realm : Realm Whole) (record : Members Whole) (env : FormulaEnvironment) (path text : Text),
    StoresDate realm record env path text → @FaithfullyRead asciiTables realm record env path text := by
  intro claimed
  have stores := stores_launch (js "2024-13-01") (by decide +kernel)
  have faithful := claimed _ _ _ _ _ stores
  have read : readField ownRealm (js "f-launch") [(js "f-launch", .text (js "2024-13-01"))] (fieldTypes [launch]) = .ok (.date (finite 1735689600000)) := by
    rw [readField_eq stores]
    rfl
  have names := faithful.1.mp ⟨_, read⟩
  exact absurd names (not_names (by decide +kernel))

end Stored

end OpenShapeForge.Formula.StoredDates
