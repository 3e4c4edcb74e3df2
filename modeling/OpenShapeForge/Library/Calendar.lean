import Mathlib.Data.Int.Basic
import Mathlib.Tactic.Linarith

/-! The Gregorian calendar, carried on before its introduction: days that are numbered from the
first of 1970 on, and days that are named by year, month and day of the month. -/

namespace OpenShapeForge.Library.Calendar

section Years

def isLeap (year : Int) : Bool := year % 4 = 0 && (year % 100 ≠ 0 || year % 400 = 0)

def yearDays (year : Int) : Int := if isLeap year then 366 else 365

def yearStart (year : Int) : Int := 365 * (year - 1970) + (year - 1969) / 4 - (year - 1901) / 100 + (year - 1601) / 400

theorem isLeap_iff (year : Int) : isLeap year = true ↔ year % 4 = 0 ∧ (year % 100 ≠ 0 ∨ year % 400 = 0) := by
  simp [isLeap]

theorem yearStart_succ (year : Int) : yearStart (year + 1) = yearStart year + yearDays year := by
  unfold yearStart yearDays
  by_cases leap : isLeap year = true
  · rw [if_pos leap]
    rw [isLeap_iff] at leap
    omega
  · rw [if_neg leap]
    rw [isLeap_iff] at leap
    omega

theorem yearStart_lt {first second : Int} (before : first < second) : yearStart first + 365 ≤ yearStart second := by
  unfold yearStart
  omega

def yearOf (number : Int) : Int :=
  let guess := number * 400 / 146097 + 1970
  if number < yearStart guess then guess - 1 else if yearStart (guess + 1) ≤ number then guess + 1 else guess

theorem yearOf_spec (number : Int) : yearStart (yearOf number) ≤ number ∧ number < yearStart (yearOf number + 1) := by
  unfold yearOf
  dsimp only
  split
  next early =>
    refine ⟨?_, by rw [Int.sub_add_cancel]; exact early⟩
    unfold yearStart
    omega
  next notEarly =>
    split
    next late =>
      refine ⟨late, ?_⟩
      unfold yearStart
      omega
    next notLate => exact ⟨Int.not_lt.mp notEarly, Int.not_le.mp notLate⟩

theorem le_yearOf {year number : Int} : year ≤ yearOf number ↔ yearStart year ≤ number := by
  obtain ⟨start, stop⟩ := yearOf_spec number
  constructor
  · intro reached
    rcases eq_or_lt_of_le reached with same | earlier
    · rw [same]
      exact start
    · have := yearStart_lt earlier
      omega
  · intro begun
    by_contra notYet
    rcases eq_or_lt_of_le (Int.add_one_le_of_lt (Int.not_le.mp notYet)) with same | earlier
    · rw [same] at stop
      omega
    · have := yearStart_lt earlier
      omega

end Years

section Months

def monthDays (leap : Bool) (month : Nat) : Int :=
  if month = 1 then (if leap then 29 else 28) else if month = 3 ∨ month = 5 ∨ month = 8 ∨ month = 10 then 30 else 31

theorem monthDays_pos (leap : Bool) (month : Nat) : 28 ≤ monthDays leap month := by
  unfold monthDays
  split_ifs <;> omega

theorem monthDays_le (leap : Bool) (month : Nat) : monthDays leap month ≤ 31 := by
  unfold monthDays
  split_ifs <;> omega

def monthStart (leap : Bool) : Nat → Int
  | 0 => 0
  | month + 1 => monthStart leap month + monthDays leap month

theorem monthStart_year (year : Int) : monthStart (isLeap year) 12 = yearDays year := by
  unfold yearDays
  cases isLeap year <;> rfl

/-- The month that a day of a year lies in: how many of them have passed. -/
def monthOf (leap : Bool) (offset : Int) : Nat := (List.range 11).countP fun month => monthStart leap (month + 1) ≤ offset

theorem monthOf_spec (year : Int) {offset : Int} (first : 0 ≤ offset) (last : offset < yearDays year) :
    monthOf (isLeap year) offset < 12 ∧ monthStart (isLeap year) (monthOf (isLeap year) offset) ≤ offset ∧
      offset < monthStart (isLeap year) (monthOf (isLeap year) offset + 1) := by
  have known : ∀ leap : Bool, ∀ day : Fin (if leap then 366 else 365), monthOf leap day.val < 12 ∧
      monthStart leap (monthOf leap day.val) ≤ day.val ∧ day.val < monthStart leap (monthOf leap day.val + 1) := by
    decide +kernel
  have below : offset.toNat < if isLeap year then 366 else 365 := by
    unfold yearDays at last
    split_ifs at last ⊢ <;> omega
  have found := known (isLeap year) ⟨offset.toNat, below⟩
  rw [show ((⟨offset.toNat, below⟩ : Fin _).val : Int) = offset from Int.toNat_of_nonneg first] at found
  exact found

/-! Months are counted on over the years: the month of a year stands 12 times the year further on. -/

def monthFirst (index : Int) : Int := yearStart (index / 12) + monthStart (isLeap (index / 12)) (index % 12).toNat

def monthLength (index : Int) : Int := monthDays (isLeap (index / 12)) (index % 12).toNat

theorem monthLength_pos (index : Int) : 28 ≤ monthLength index := monthDays_pos _ _

theorem monthLength_le (index : Int) : monthLength index ≤ 31 := monthDays_le _ _

theorem monthFirst_succ (index : Int) : monthFirst (index + 1) = monthFirst index + monthLength index := by
  unfold monthFirst monthLength
  by_cases final : index % 12 = 11
  · have year : (index + 1) / 12 = index / 12 + 1 := by omega
    have month : (index + 1) % 12 = 0 := by omega
    have whole : monthStart (isLeap (index / 12)) 11 + monthDays (isLeap (index / 12)) 11 = yearDays (index / 12) := monthStart_year _
    rw [year, month, final, yearStart_succ]
    change _ + 0 = _ + monthStart _ 11 + monthDays _ 11
    omega
  · have year : (index + 1) / 12 = index / 12 := by omega
    have month : ((index + 1) % 12).toNat = (index % 12).toNat + 1 := by omega
    rw [year, month, monthStart]
    omega

theorem monthFirst_lt {first second : Int} (before : first < second) : monthFirst first + monthLength first ≤ monthFirst second := by
  obtain ⟨gap, rfl⟩ := Int.le.dest (Int.add_one_le_of_lt before)
  induction gap with
  | zero => simp [monthFirst_succ]
  | succ gap ih =>
    have positive := monthLength_pos (first + 1 + gap)
    have step := monthFirst_succ (first + 1 + gap)
    have earlier := ih (by omega)
    rw [show first + 1 + ((gap + 1 : Nat) : Int) = first + 1 + gap + 1 by omega]
    omega

def monthIndex (number : Int) : Int := yearOf number * 12 + monthOf (isLeap (yearOf number)) (number - yearStart (yearOf number))

theorem monthIndex_spec (number : Int) :
    monthFirst (monthIndex number) ≤ number ∧ number < monthFirst (monthIndex number) + monthLength (monthIndex number) := by
  obtain ⟨start, stop⟩ := yearOf_spec number
  rw [yearStart_succ] at stop
  obtain ⟨below, first, last⟩ := monthOf_spec (yearOf number) (show 0 ≤ number - yearStart (yearOf number) by omega) (by omega)
  have year : monthIndex number / 12 = yearOf number := by
    unfold monthIndex
    omega
  have month : (monthIndex number % 12).toNat = monthOf (isLeap (yearOf number)) (number - yearStart (yearOf number)) := by
    unfold monthIndex
    omega
  unfold monthFirst monthLength
  rw [year, month]
  rw [monthStart] at last
  omega

theorem monthIndex_unique {number index : Int} (first : monthFirst index ≤ number) (last : number < monthFirst index + monthLength index) :
    monthIndex number = index := by
  obtain ⟨start, stop⟩ := monthIndex_spec number
  by_contra different
  rcases lt_or_gt_of_ne different with earlier | later
  · have := monthFirst_lt earlier
    omega
  · have := monthFirst_lt later
    omega

theorem yearOf_eq (number : Int) : yearOf number = monthIndex number / 12 := by
  obtain ⟨start, stop⟩ := yearOf_spec number
  rw [yearStart_succ] at stop
  have below := (monthOf_spec (yearOf number) (show 0 ≤ number - yearStart (yearOf number) by omega) (by omega)).1
  unfold monthIndex
  omega

def dayOf (number : Int) : Int := number - monthFirst (monthIndex number) + 1

theorem dayOf_bounds (number : Int) : 1 ≤ dayOf number ∧ dayOf number ≤ monthLength (monthIndex number) := by
  have spec := monthIndex_spec number
  unfold dayOf
  omega

theorem monthIndex_of {index day : Int} (first : 1 ≤ day) (last : day ≤ monthLength index) : monthIndex (monthFirst index + day - 1) = index :=
  monthIndex_unique (by omega) (by omega)

theorem dayOf_of {index day : Int} (first : 1 ≤ day) (last : day ≤ monthLength index) : dayOf (monthFirst index + day - 1) = day := by
  unfold dayOf
  rw [monthIndex_of first last]
  omega

theorem number_of (number : Int) : monthFirst (monthIndex number) + dayOf number - 1 = number := by
  unfold dayOf
  omega

end Months

end OpenShapeForge.Library.Calendar
