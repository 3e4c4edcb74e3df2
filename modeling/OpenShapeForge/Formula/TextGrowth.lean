import OpenShapeForge.Formula.Evaluate

/-! The length of a text is predicted before the text is built: exactly for texts that are joined, and
for texts that are substituted wherever they can grow. -/

namespace OpenShapeForge.Formula.TextGrowth
open Js Types Spreadsheet Evaluate
open Evaluator (argument evalFormula concatenate)
open Library.Occurrences (indexFrom split splitFrom splitFrom_ne_nil indexOf_bound indexOf_of_drop length_replaced)

variable {N : Type} [JsNumber N] [JsMath N] [JsDates N]

def isPlain : Value N → Bool
  | .null | .text _ | .number _ | .boolean _ => true
  | _ => false

section Joined

theorem length_join_nil (parts : List Text) : (join [] parts).length = (parts.map List.length).sum := by
  induction parts with
  | nil => rfl
  | cons first rest ih =>
    cases rest with
    | nil => simp [join]
    | cons second others =>
      have step : join [] (first :: second :: others) = first ++ join [] (second :: others) := by
        unfold join
        rw [List.intercalate_cons_cons, List.append_nil]
      rw [step, List.length_append, ih, List.map_cons (a := first), List.sum_cons]

theorem textOf_plain {value : Value N} (plain : isPlain value = true) : (if value.isNullish then [] else stringOf value) = textOf value := by
  cases value <;> first | rfl | cases plain

theorem length_concatenate {values : List (Value N)} (plain : ∀ value ∈ values, isPlain value = true) :
    builtLength .concat values = (concatenate values).length := by
  have texts : (values.map fun value => if value.isNullish then [] else stringOf value) = values.map textOf :=
    List.map_congr_left fun value member => textOf_plain (plain value member)
  unfold concatenate builtLength
  rw [texts, length_join_nil, List.map_map, List.sum_eq_foldl]
  rfl

end Joined

section Substituted
variable {text needle : Text}

theorem indexFrom_bound {start place : Nat} (filled : needle ≠ []) (found : indexFrom needle text start = some place) :
    place + needle.length ≤ text.length := by
  obtain ⟨offset, inRest, rfl⟩ := Option.map_eq_some_iff.mp found
  have bound := indexOf_bound inRest
  have positive := List.length_pos_of_ne_nil filled
  rw [List.length_drop] at bound
  omega

def Occurs (text needle : Text) (place : Option Nat) : Prop := ∀ found, place = some found → ∃ start, indexFrom needle text start = some found

omit [JsMath N] [JsDates N] in
theorem nthFrom_occurs {nth : N} {fuel : Nat} : ∀ {i start : Nat} {place : Option Nat}, Occurs text needle place →
    Occurs text needle (nthFrom text needle nth fuel i start place) := by
  induction fuel with
  | zero =>
    intro i start place _ found isFound
    cases isFound
  | succ fuel ih =>
    intro i start place occurs
    unfold nthFrom
    split
    next =>
      cases next : indexFrom needle text start with
      | none =>
        intro found isFound
        cases isFound
      | some place =>
        refine ih fun found isFound => ?_
        cases isFound
        exact ⟨start, next⟩
    next => exact occurs

theorem indexFrom_none (absent : indexFrom needle text 0 = none) (filled : needle ≠ []) (start : Nat) : indexFrom needle text start = none := by
  have nowhere : Library.Occurrences.indexOf needle text = none := Option.map_eq_none_iff.mp absent
  exact Option.map_eq_none_iff.mpr (indexOf_of_drop nowhere filled)

theorem matchCount_once (filled : needle ≠ []) {start place : Nat} (found : indexFrom needle text start = some place) (fuel : Nat) :
    matchCount text needle true (fuel + 1) 0 = 1 := by
  unfold matchCount
  cases first : indexFrom needle text 0 with
  | none => cases (indexFrom_none first filled start).symm.trans found
  | some _ => rfl

theorem matchCount_split (filled : needle ≠ []) {fuel : Nat} : ∀ {limit start : Nat}, (text.drop start).length ≤ limit → (text.drop start).length < fuel →
    matchCount text needle false fuel start + 1 = (splitFrom needle limit (text.drop start)).length := by
  induction fuel with
  | zero =>
    intro limit start _ short
    exact absurd short (Nat.not_lt_zero _)
  | succ fuel ih =>
    intro limit start within short
    cases found : Library.Occurrences.indexOf needle (text.drop start) with
    | none =>
      have counted : matchCount text needle false (fuel + 1) start = 0 := by
        rw [matchCount, indexFrom, found]
        rfl
      rw [counted]
      cases limit with
      | zero => rfl
      | succ limit =>
        rw [splitFrom, found]
        rfl
    | some place =>
      have positive := List.length_pos_of_ne_nil filled
      have bound := indexOf_bound found
      rw [List.length_drop] at bound within short
      have counted : matchCount text needle false (fuel + 1) start = matchCount text needle false fuel (start + place + needle.length) + 1 := by
        rw [matchCount, indexFrom, found]
        rfl
      cases limit with
      | zero => omega
      | succ limit =>
        have after := @ih limit (start + place + needle.length) (by rw [List.length_drop]; omega) (by rw [List.length_drop]; omega)
        rw [counted, after, splitFrom, found]
        simp only [List.length_cons, List.drop_drop, Nat.add_assoc]

theorem matchCount_text (filled : needle ≠ []) : matchCount text needle false (text.length + 1) 0 + 1 = (split needle text).length :=
  matchCount_split filled (Nat.le_refl _) (Nat.lt_succ_self _)

theorem length_replaceAll (filled : needle ≠ []) (replacement : Text) :
    (join replacement (split needle text)).length + matchCount text needle false (text.length + 1) 0 * needle.length =
      text.length + matchCount text needle false (text.length + 1) 0 * replacement.length := by
  have counted : matchCount text needle false (text.length + 1) 0 + 1 = (split needle text).length := matchCount_text filled
  have replaced : (join replacement (split needle text)).length + ((split needle text).length - 1) * needle.length =
      text.length + ((split needle text).length - 1) * replacement.length := length_replaced replacement text.length text
  rwa [← counted, Nat.add_sub_cancel] at replaced

theorem length_replaceOne {place : Nat} {replacement : Text} (within : place + needle.length ≤ text.length) :
    (text.take place ++ replacement ++ text.drop (place + needle.length)).length + needle.length = text.length + replacement.length := by
  rw [List.length_append, List.length_append, List.length_take, List.length_drop, Nat.min_eq_left (by omega)]
  omega

end Substituted

section Predicted
variable {text needle replacement : Text} {occurrence : Value N}

/-- What `builtLength` predicts for a substitution. -/
def substitutedLength (text needle replacement : Text) (once : Bool) : Nat :=
  if needle = [] ∨ replacement.length ≤ needle.length then 0
  else text.length + matchCount text needle once (text.length + 1) 0 * (replacement.length - needle.length)

theorem substitutedLength_grows {once : Bool} (filled : needle ≠ []) (longer : needle.length < replacement.length) :
    substitutedLength text needle replacement once =
      text.length + matchCount text needle once (text.length + 1) 0 * (replacement.length - needle.length) :=
  if_neg fun short => short.elim filled (Nat.not_le.mpr longer)

omit [JsDates N] in
theorem substitute_all (filled : needle ≠ []) (absent : occurrence.isNullish = true) :
    substitute text needle replacement occurrence = join replacement (split needle text) := by
  unfold substitute
  rw [if_neg filled, if_pos absent]

omit [JsDates N] in
theorem length_substitute_all (filled : needle ≠ []) (absent : occurrence.isNullish = true) (longer : needle.length < replacement.length) :
    (substitute text needle replacement occurrence).length = substitutedLength text needle replacement false := by
  have replaced : (join replacement (split needle text)).length + matchCount text needle false (text.length + 1) 0 * needle.length = _ :=
    length_replaceAll filled replacement
  have parts : matchCount text needle false (text.length + 1) 0 * (replacement.length - needle.length) +
      matchCount text needle false (text.length + 1) 0 * needle.length = matchCount text needle false (text.length + 1) 0 * replacement.length := by
    rw [← Nat.mul_add, Nat.sub_add_cancel longer.le]
  rw [substitute_all filled absent, substitutedLength_grows filled longer]
  omega

omit [JsDates N] in
theorem length_substitute_all_le (filled : needle ≠ []) (absent : occurrence.isNullish = true) (shorter : replacement.length ≤ needle.length) :
    (substitute text needle replacement occurrence).length ≤ text.length := by
  have replaced : (join replacement (split needle text)).length + matchCount text needle false (text.length + 1) 0 * needle.length = _ :=
    length_replaceAll filled replacement
  have parts := Nat.mul_le_mul_left (matchCount text needle false (text.length + 1) 0) shorter
  rw [substitute_all filled absent]
  omega

omit [JsDates N] in
theorem length_substitute_nth (filled : needle ≠ []) (named : occurrence.isNullish = false) :
    (substitute text needle replacement occurrence).length ≤ max text.length (substitutedLength text needle replacement true) := by
  unfold substitute
  rw [if_neg filled, if_neg (ne_true_of_eq_false named)]
  dsimp only
  split
  next =>
    split
    next => exact le_max_left _ _
    next place found =>
      obtain ⟨start, occurs⟩ := nthFrom_occurs (fun found isFound => by cases isFound) place found
      have replaced : (text.take place ++ replacement ++ text.drop (place + needle.length)).length + needle.length = _ :=
        length_replaceOne (indexFrom_bound filled occurs)
      by_cases longer : needle.length < replacement.length
      · refine le_max_of_le_right ?_
        rw [substitutedLength_grows filled longer, matchCount_once filled occurs, Nat.one_mul]
        omega
      · refine le_max_of_le_left ?_
        omega
  next => exact le_max_left _ _

omit [JsDates N] in
theorem length_substitute_le : (substitute text needle replacement occurrence).length ≤
    max text.length (substitutedLength text needle replacement (!occurrence.isNullish)) := by
  by_cases filled : needle = []
  · have unchanged : substitute text needle replacement occurrence = text := if_pos filled
    rw [unchanged]
    exact le_max_left _ _
  cases absent : occurrence.isNullish with
  | false => exact length_substitute_nth filled absent
  | true =>
    by_cases longer : needle.length < replacement.length
    · exact le_max_of_le_right (length_substitute_all filled absent longer).le
    · exact le_max_of_le_left (length_substitute_all_le filled absent (Nat.not_lt.mp longer))

variable [Unicode]

/-- Joined texts have the length that is predicted. Substituted ones are never longer than what they
are made from or what is predicted, and just as long where every occurrence grows. -/
theorem growth_predicted (values : List (Value N)) :
    ((∀ value ∈ values, isPlain value = true) →
      ∃ built, evalFormula .concat values = .text built ∧ builtLength .concat values = built.length) ∧
    ∃ built, evalFormula .substitute values = .text built ∧
      built.length ≤ max (textOf (argument values 0)).length (builtLength .substitute values) ∧
      ((argument values 3).isNullish = true → textOf (argument values 1) ≠ [] →
        (textOf (argument values 1)).length < (textOf (argument values 2)).length → built.length = builtLength .substitute values) := by
  have predicted : builtLength .substitute values = substitutedLength (textOf (argument values 0)) (textOf (argument values 1))
      (textOf (argument values 2)) (!(argument values 3).isNullish) := rfl
  refine ⟨fun plain => ⟨_, rfl, length_concatenate plain⟩, _, rfl, ?_, fun absent filled longer => ?_⟩
  · rw [predicted]
    exact length_substitute_le
  · rw [predicted, absent]
    exact length_substitute_all filled absent longer

/-- Occurrences that overlap one before them do not count. -/
example : builtLength .substitute [.text (js "aaaaa"), .text (js "aa"), .text (js "bbb"), (.null : Value Whole)] = 7 := by decide +kernel

end Predicted

end OpenShapeForge.Formula.TextGrowth
