import Mathlib.Data.List.Infix
import Mathlib.Tactic.Linarith

/-! Where one list stands within another, and what lies between: occurrences are taken from the front
on, and none begins within the one before it. -/

namespace OpenShapeForge.Library.Occurrences
variable {Symbol : Type} [DecidableEq Symbol] (needle : List Symbol)

def indexOf : List Symbol → Option Nat
  | [] => if needle = [] then some 0 else none
  | first :: rest => if needle.isPrefixOf (first :: rest) then some 0 else (indexOf rest).map (· + 1)

/-- The first occurrence at a place or after it. -/
def indexFrom (text : List Symbol) (start : Nat) : Option Nat := (indexOf needle (text.drop start)).map (start + ·)

def splitFrom : Nat → List Symbol → List (List Symbol)
  | 0, text => [text]
  | fuel + 1, text =>
    match indexOf needle text with
    | none => [text]
    | some place => text.take place :: splitFrom fuel (text.drop (place + needle.length))

/-- The parts of a list around the occurrences of another that is not empty. -/
def split (text : List Symbol) : List (List Symbol) := splitFrom needle text.length text

variable {needle}

theorem indexOf_bound {text : List Symbol} : ∀ {place : Nat}, indexOf needle text = some place → place + needle.length ≤ text.length := by
  induction text with
  | nil =>
    intro place found
    unfold indexOf at found
    split at found
    next empty =>
      cases found
      rw [empty]
      exact Nat.le_refl 0
    next => cases found
  | cons first rest ih =>
    intro place found
    unfold indexOf at found
    split at found
    next starts =>
      cases found
      rw [Nat.zero_add]
      exact (List.isPrefixOf_iff_prefix.mp starts).length_le
    next =>
      obtain ⟨before, inRest, rfl⟩ := Option.map_eq_some_iff.mp found
      have bound := ih inRest
      rw [List.length_cons]
      omega

theorem indexOf_of_drop {text : List Symbol} : ∀ {start : Nat}, indexOf needle text = none → needle ≠ [] → indexOf needle (text.drop start) = none := by
  induction text with
  | nil =>
    intro start absent _
    rw [List.drop_nil]
    exact absent
  | cons first rest ih =>
    intro start absent filled
    cases start with
    | zero => exact absent
    | succ start =>
      unfold indexOf at absent
      split at absent
      next => cases absent
      next => exact ih (Option.map_eq_none_iff.mp absent) filled

theorem splitFrom_ne_nil (fuel : Nat) (text : List Symbol) : splitFrom needle fuel text ≠ [] := by
  cases fuel with
  | zero => exact List.cons_ne_nil _ _
  | succ fuel =>
    unfold splitFrom
    split
    next => exact List.cons_ne_nil _ _
    next => exact List.cons_ne_nil _ _

omit [DecidableEq Symbol] in
theorem length_intercalate_cons (between first : List Symbol) {rest : List (List Symbol)} (filled : rest ≠ []) :
    (between.intercalate (first :: rest)).length = first.length + between.length + (between.intercalate rest).length := by
  rw [List.intercalate_cons_of_ne_nil filled, List.length_append, List.length_append]

theorem length_replaced (replacement : List Symbol) : ∀ (fuel : Nat) (text : List Symbol),
    (replacement.intercalate (splitFrom needle fuel text)).length + ((splitFrom needle fuel text).length - 1) * needle.length =
      text.length + ((splitFrom needle fuel text).length - 1) * replacement.length := by
  intro fuel
  induction fuel with
  | zero =>
    intro text
    simp [splitFrom]
  | succ fuel ih =>
    intro text
    unfold splitFrom
    split
    next => simp
    next place found =>
      have bound := indexOf_bound found
      have after := ih (text.drop (place + needle.length))
      have filled : splitFrom needle fuel (text.drop (place + needle.length)) ≠ [] := splitFrom_ne_nil _ _
      obtain ⟨count, counted⟩ : ∃ count, (splitFrom needle fuel (text.drop (place + needle.length))).length = count + 1 :=
        Nat.exists_eq_succ_of_ne_zero fun empty => filled (List.eq_nil_of_length_eq_zero empty)
      rw [counted, Nat.add_sub_cancel, List.length_drop] at after
      rw [length_intercalate_cons _ _ filled, List.length_take, Nat.min_eq_left (by omega), List.length_cons, counted, Nat.add_sub_cancel,
        Nat.succ_mul, Nat.succ_mul]
      omega

end OpenShapeForge.Library.Occurrences
