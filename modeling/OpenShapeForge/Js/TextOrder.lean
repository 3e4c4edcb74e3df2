import OpenShapeForge.Js.Json
import OpenShapeForge.Library.OrderedMap

/-! The order of texts is linear, so that sorting them depends on their members alone. -/

namespace OpenShapeForge.Js
open Library

theorem textLess_cons {a b : CodeUnit} {first second : Text} :
    textLess (a :: first) (b :: second) = true ↔ a < b ∨ (a = b ∧ textLess first second = true) := by
  simp [textLess]

theorem textLess_asymm : ∀ {first second : Text}, textLess first second = true → textLess second first = false
  | [], [], _ | [], _ :: _, _ => rfl
  | a :: first, b :: second, less => by
    rw [Bool.eq_false_iff, ne_eq, textLess_cons]
    rcases textLess_cons.mp less with lower | ⟨rfl, later⟩
    · rintro (higher | ⟨rfl, -⟩)
      · exact UInt16.lt_asymm lower higher
      · exact UInt16.lt_irrefl _ lower
    · rintro (higher | ⟨-, back⟩)
      · exact UInt16.lt_irrefl _ higher
      · rw [textLess_asymm later] at back
        exact nomatch back

theorem eq_of_textLess_false : ∀ {first second : Text}, textLess first second = false → textLess second first = false → first = second
  | [], [], _, _ => rfl
  | a :: first, b :: second, notLess, notMore => by
    rw [Bool.eq_false_iff, ne_eq, textLess_cons, not_or, not_and] at notLess notMore
    have same : a = b := UInt16.le_antisymm (UInt16.not_lt.mp notMore.1) (UInt16.not_lt.mp notLess.1)
    have rest := eq_of_textLess_false (Bool.eq_false_iff.mpr (notLess.2 same)) (Bool.eq_false_iff.mpr (notMore.2 same.symm))
    rw [same, rest]

theorem textLess_false_trans : ∀ {first second third : Text}, textLess second first = false → textLess third second = false →
    textLess third first = false
  | [], _, [], _, _ => rfl
  | [], [], _ :: _, _, notLess => rfl
  | [], _ :: _, _ :: _, _, notLess => rfl
  | _ :: _, [], _, notLess, _ => nomatch notLess
  | _ :: _, _ :: _, [], _, notLess => nomatch notLess
  | a :: first, b :: second, c :: third, notLess, notMore => by
    rw [Bool.eq_false_iff, ne_eq, textLess_cons, not_or, not_and] at notLess notMore ⊢
    have ab := UInt16.not_lt.mp notLess.1
    have bc := UInt16.not_lt.mp notMore.1
    refine ⟨UInt16.not_lt.mpr (UInt16.le_trans ab bc), fun same => ?_⟩
    have middle : b = a := UInt16.le_antisymm (same ▸ bc) ab
    have rest := textLess_false_trans (Bool.eq_false_iff.mpr (notLess.2 middle)) (Bool.eq_false_iff.mpr (notMore.2 (same.trans middle.symm)))
    exact Bool.eq_false_iff.mp rest

theorem sortTexts_sorted (texts : List Text) : (sortTexts texts).Pairwise fun a b => textLess b a = false := by
  let before := fun a b : Text => textLess b a = false
  have : Std.Total before := ⟨fun a b => by
    by_cases less : textLess b a = true
    · exact .inr (textLess_asymm less)
    · exact .inl (Bool.eq_false_iff.mpr less)⟩
  have : IsTrans Text before := ⟨fun a b c => textLess_false_trans⟩
  exact List.pairwise_insertionSort before texts

theorem sortTexts_eq {first second : List Text} (same : first.Perm second) : sortTexts first = sortTexts second := by
  have perm : (sortTexts first).Perm (sortTexts second) :=
    ((List.perm_insertionSort _ _).trans same).trans (List.perm_insertionSort _ _).symm
  refine perm.eq_of_pairwise (fun a b _ _ notLess notMore => ?_) (sortTexts_sorted first) (sortTexts_sorted second)
  exact eq_of_textLess_false notMore notLess

theorem sorted_distinct (names : List Text) : (sortTexts (distinct names)).Pairwise fun a b => textLess a b = true := by
  have nodup : (sortTexts (distinct names)).Nodup := (List.perm_insertionSort _ _).nodup_iff.mpr (distinct_nodup names)
  refine ((sortTexts_sorted _).and nodup).imp fun {a b} both => ?_
  by_contra notLess
  exact both.2 (eq_of_textLess_false (Bool.eq_false_iff.mpr notLess) both.1)

theorem mem_sorted_distinct (names : List Text) (name : Text) : name ∈ sortTexts (distinct names) ↔ name ∈ names :=
  (List.perm_insertionSort _ _).mem_iff.trans (mem_distinct names name)

end OpenShapeForge.Js
