import OpenShapeForge.Js.Whole
import Mathlib.Data.Nat.Digits.Lemmas

/-! The keys of the elements of an array as numbers: `Number` reads the index that a key names, and
`String` writes the key again. No other key of an array is a number. -/

namespace OpenShapeForge.Js

class LawfulIndexText (N : Type) [JsNumber N] : Prop where
  isFinite_element : ∀ {key : Text} {index : Nat}, elementKey key = some index → JsNumber.isFinite (JsNumber.ofText key : N) = true
  toText_element : ∀ {key : Text} {index : Nat}, elementKey key = some index → JsNumber.toText (JsNumber.ofText key : N) = key
  length_isNaN : JsNumber.isFinite (JsNumber.ofText (js "length") : N) = false

section Digits
variable {key : Text} {index : Nat}

theorem elementKey_digits (isKey : elementKey key = some index) :
    key ≠ [] ∧ (∀ c ∈ key, 48 ≤ c.toNat ∧ c.toNat ≤ 57) ∧ (key.head? ≠ some 48 ∨ key.length = 1) := by
  unfold elementKey at isKey
  dsimp only at isKey
  split at isKey
  next shape =>
    refine ⟨shape.1, fun c member => ?_, shape.2.2.1⟩
    have digit := List.all_eq_true.mp shape.2.1 c member
    simp only [isDigit, Bool.and_eq_true, decide_eq_true_eq] at digit
    exact ⟨UInt16.le_iff_toNat_le.mp digit.1, UInt16.le_iff_toNat_le.mp digit.2⟩
  next => cases isKey

theorem isWhitespace_digit {c : CodeUnit} (digit : 48 ≤ c.toNat ∧ c.toNat ≤ 57) : isWhitespace c = false := by
  have known : ∀ value : Fin 10, isWhitespace (UInt16.ofNat (value + 48)) = false := by decide
  have same : c = UInt16.ofNat (c.toNat - 48 + 48) := by
    rw [Nat.sub_add_cancel digit.1, UInt16.ofNat_toNat]
  rw [same]
  exact known ⟨c.toNat - 48, by omega⟩

theorem trim_of_inked {text : Text} (inked : ∀ c ∈ text, isWhitespace c = false) : trim text = text := by
  have kept : ∀ text : Text, (∀ c ∈ text, isWhitespace c = false) → text.dropWhile isWhitespace = text := by
    intro text all
    cases text with
    | nil => rfl
    | cons c rest =>
      rw [List.dropWhile_cons_of_neg]
      rw [all c List.mem_cons_self]
      exact Bool.false_ne_true
  unfold trim
  rw [kept text inked, kept text.reverse fun c member => inked c (List.mem_reverse.mp member), List.reverse_reverse]

theorem trim_digits (digits : ∀ c ∈ key, 48 ≤ c.toNat ∧ c.toNat ≤ 57) : trim key = key :=
  trim_of_inked fun c member => isWhitespace_digit (digits c member)

theorem digitsValue_eq (text : Text) : Whole.digitsValue text = Nat.ofDigits 10 (text.map fun c => c.toNat - 48).reverse := by
  rw [Nat.ofDigits_eq_foldr, List.foldr_reverse, List.foldl_map]
  unfold Whole.digitsValue
  congr 1
  funext total c
  exact Nat.add_comm _ _

theorem digitsText_digitsValue (digits : ∀ c ∈ key, 48 ≤ c.toNat ∧ c.toNat ≤ 57) (leading : key.head? ≠ some 48) :
    Whole.digitsText (Whole.digitsValue key) = key := by
  have small : ∀ digit ∈ (key.map fun c => c.toNat - 48).reverse, digit < 10 := by
    intro digit member
    obtain ⟨c, inKey, rfl⟩ := List.mem_map.mp (List.mem_reverse.mp member)
    have range := digits c inKey
    omega
  have nonzero : ∀ nonempty : (key.map fun c => c.toNat - 48).reverse ≠ [], (key.map fun c => c.toNat - 48).reverse.getLast nonempty ≠ 0 := by
    intro nonempty
    cases key with
    | nil => exact absurd rfl nonempty
    | cons c rest =>
      have range := digits c List.mem_cons_self
      simp only [List.map_cons, List.reverse_cons, List.getLast_append_singleton]
      intro zero
      have isZero : c.toNat = 48 := by omega
      exact leading (congrArg some (UInt16.toNat_inj.mp isZero))
  unfold Whole.digitsText
  rw [digitsValue_eq, Nat.digits_ofDigits 10 (by decide) _ small nonzero, List.reverse_reverse, List.map_map]
  conv_rhs => rw [← List.map_id key]
  apply List.map_congr_left
  intro c member
  have range := digits c member
  change UInt16.ofNat (c.toNat - 48 + 48) = c
  rw [Nat.sub_add_cancel range.1, UInt16.ofNat_toNat]

theorem ofText_digits (digits : ∀ c ∈ key, 48 ≤ c.toNat ∧ c.toNat ≤ 57) : Whole.ofText key = .finite (Whole.digitsValue key) := by
  unfold Whole.ofText
  rw [trim_digits digits]
  refine if_pos (List.all_eq_true.mpr fun c member => ?_)
  have range := digits c member
  rw [Bool.and_eq_true, decide_eq_true_eq, decide_eq_true_eq]
  exact ⟨UInt16.le_iff_toNat_le.mpr range.1, UInt16.le_iff_toNat_le.mpr range.2⟩

theorem ofText_element (isKey : elementKey key = some index) : (JsNumber.ofText key : Whole) = .finite (Whole.digitsValue key) := by
  obtain ⟨-, digits, -⟩ := elementKey_digits isKey
  exact ofText_digits digits

theorem digitsValue_pos (digits : ∀ c ∈ key, 48 ≤ c.toNat ∧ c.toNat ≤ 57) (nonempty : key ≠ []) (leading : key.head? ≠ some 48) :
    Whole.digitsValue key ≠ 0 := by
  intro zero
  have written := digitsText_digitsValue digits leading
  rw [zero] at written
  exact nonempty written.symm

theorem toText_element (isKey : elementKey key = some index) : JsNumber.toText (JsNumber.ofText key : Whole) = key := by
  rw [ofText_element isKey]
  obtain ⟨nonempty, digits, leading⟩ := elementKey_digits isKey
  change Whole.toText (.finite (Whole.digitsValue key)) = key
  unfold Whole.toText
  dsimp only
  by_cases zeroFirst : key.head? = some 48
  · have single := leading.resolve_left (fun different => different zeroFirst)
    have isZero : key = js "0" := by
      obtain ⟨c, rfl⟩ := List.length_eq_one_iff.mp single
      cases zeroFirst
      rfl
    subst isZero
    rfl
  · have positive := digitsValue_pos digits nonempty zeroFirst
    rw [if_neg (by omega), if_neg (by omega), Int.natAbs_natCast]
    exact digitsText_digitsValue digits zeroFirst

end Digits

instance lawfulIndexText_whole : LawfulIndexText Whole where
  isFinite_element isKey := by
    rw [ofText_element isKey]
    rfl
  toText_element := toText_element
  length_isNaN := by decide +kernel

end OpenShapeForge.Js
