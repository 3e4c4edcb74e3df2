import Mathlib.Data.List.Basic

/-! Texts that are joined by a separator, and when the parts are told apart again. -/

namespace OpenShapeForge.Library.Delimited
variable {Symbol : Type} [DecidableEq Symbol] {separator : Symbol}

theorem not_mem_splitOn (list : List Symbol) : ∀ part ∈ list.splitOn separator, separator ∉ part := by
  induction list with
  | nil => simp
  | cons first rest ih =>
    rw [List.splitOn_cons_eq_if_modifyHead]
    split
    next =>
      intro part member
      rcases List.mem_cons.mp member with same | later
      · rw [same]
        exact List.not_mem_nil
      · exact ih part later
    next other =>
      cases pieces : rest.splitOn separator with
      | nil => simp
      | cons head tail =>
        rw [pieces] at ih
        intro part member
        rw [List.modifyHead_cons] at member
        rcases List.mem_cons.mp member with same | later
        · have fromRest := ih head List.mem_cons_self
          rw [same, List.mem_cons]
          intro inside
          rcases inside with isFirst | deeper
          · exact other (by rw [isFirst]; exact beq_self_eq_true _)
          · exact fromRest deeper
        · exact ih part (List.mem_cons_of_mem _ later)

theorem mem_splitOn {list : List Symbol} {symbol : Symbol} (member : symbol ∈ list) :
    symbol = separator ∨ ∃ part ∈ list.splitOn separator, symbol ∈ part := by
  have joined : symbol ∈ [separator].intercalate (list.splitOn separator) := by
    rw [List.intercalate_splitOn]
    exact member
  generalize list.splitOn separator = parts at joined ⊢
  induction parts with
  | nil => cases joined
  | cons part rest ih =>
    cases rest with
    | nil => exact .inr ⟨part, List.mem_cons_self, by simpa using joined⟩
    | cons next rest =>
      rw [List.intercalate_cons_cons, List.mem_append, List.mem_append, List.mem_singleton] at joined
      rcases joined with (inside | isSeparator) | later
      · exact .inr ⟨part, List.mem_cons_self, inside⟩
      · exact .inl isSeparator
      · exact (ih later).imp_right fun ⟨found, isPart, inside⟩ => ⟨found, List.mem_cons_of_mem part isPart, inside⟩

theorem parts_of_count : ∀ {first second later other : List Symbol}, first ++ separator :: later = second ++ separator :: other →
    first.count separator = second.count separator → first = second ∧ later = other
  | [], [], later, other, same, _ => ⟨rfl, (List.cons.inj same).2⟩
  | [], symbol :: second, later, other, same, counts => by
    have isSeparator : separator = symbol := (List.cons.inj same).1
    subst isSeparator
    simp at counts
  | symbol :: first, [], later, other, same, counts => by
    have isSeparator : symbol = separator := (List.cons.inj same).1
    subst isSeparator
    simp at counts
  | symbol :: first, head :: second, later, other, same, counts => by
    obtain ⟨isHead, rest⟩ := List.cons.inj same
    subst isHead
    have fewer : first.count separator = second.count separator := by
      rw [List.count_cons, List.count_cons] at counts
      exact Nat.add_right_cancel counts
    obtain ⟨sameFirst, sameLater⟩ := parts_of_count rest fewer
    exact ⟨congrArg (symbol :: ·) sameFirst, sameLater⟩

theorem intercalate_inj {parts others : List (List Symbol)} (clean : ∀ part ∈ parts, separator ∉ part) (filled : ∀ part ∈ parts, part ≠ [])
    (alsoClean : ∀ part ∈ others, separator ∉ part) (alsoFilled : ∀ part ∈ others, part ≠ [])
    (same : [separator].intercalate parts = [separator].intercalate others) : parts = others := by
  have nothing : ∀ {list : List (List Symbol)}, (∀ part ∈ list, part ≠ []) → [separator].intercalate list = [] → list = [] := by
    intro list filled empty
    cases list with
    | nil => rfl
    | cons part rest =>
      have isEmpty : part = [] := by
        cases rest with
        | nil => simpa using empty
        | cons next rest =>
          rw [List.intercalate_cons_cons] at empty
          exact (List.append_eq_nil_iff.mp (List.append_eq_nil_iff.mp empty).1).1
      exact absurd isEmpty (filled part List.mem_cons_self)
  by_cases some' : parts = []
  · subst some'
    exact (nothing alsoFilled same.symm).symm
  · by_cases also : others = []
    · subst also
      exact nothing filled same
    · rw [← List.splitOn_intercalate separator clean some', same, List.splitOn_intercalate separator alsoClean also]

end OpenShapeForge.Library.Delimited
