import Mathlib.Data.List.Forall2

/-! Three-valued conjunction and disjunction. A verdict is true, false or not
decided; more information may decide a verdict and never changes a decided one. -/

namespace OpenShapeForge.Library.ThreeValued

abbrev Verdict := Option Bool

def allOf (verdicts : List Verdict) : Verdict :=
  if some false ∈ verdicts then some false else if none ∈ verdicts then none else some true

def anyOf (verdicts : List Verdict) : Verdict :=
  if some true ∈ verdicts then some true else if none ∈ verdicts then none else some false

/-- What `first` decides, `second` decides alike. -/
def Informs (first second : Verdict) : Prop := ∀ answer, first = some answer → second = some answer

/-- `answer` is what a decided verdict says. -/
def Agrees (verdict : Verdict) (answer : Bool) : Prop := ∀ decided, verdict = some decided → answer = decided

theorem allOf_false (verdicts : List Verdict) : allOf verdicts = some false ↔ some false ∈ verdicts := by
  unfold allOf
  split
  · simp [*]
  · split <;> simp [*]

theorem allOf_true (verdicts : List Verdict) : allOf verdicts = some true ↔ ∀ verdict ∈ verdicts, verdict = some true := by
  unfold allOf
  split
  case isTrue refuted =>
    simp only [Option.some.injEq, Bool.false_eq_true, false_iff, not_forall]
    exact ⟨some false, refuted, by simp⟩
  case isFalse held =>
    split
    case isTrue open_ =>
      simp only [reduceCtorEq, false_iff, not_forall]
      exact ⟨none, open_, by simp⟩
    case isFalse decided =>
      simp only [true_iff]
      intro verdict member
      cases verdict with
      | none => exact absurd member decided
      | some answer =>
        cases answer with
        | true => rfl
        | false => exact absurd member held

theorem anyOf_true (verdicts : List Verdict) : anyOf verdicts = some true ↔ some true ∈ verdicts := by
  unfold anyOf
  split
  · simp [*]
  · split <;> simp [*]

theorem anyOf_false (verdicts : List Verdict) :
    anyOf verdicts = some false ↔ ∀ verdict ∈ verdicts, verdict = some false := by
  unfold anyOf
  split
  case isTrue held =>
    simp only [Option.some.injEq, Bool.true_eq_false, false_iff, not_forall]
    exact ⟨some true, held, by simp⟩
  case isFalse refuted =>
    split
    case isTrue open_ =>
      simp only [reduceCtorEq, false_iff, not_forall]
      exact ⟨none, open_, by simp⟩
    case isFalse decided =>
      simp only [true_iff]
      intro verdict member
      cases verdict with
      | none => exact absurd member decided
      | some answer =>
        cases answer with
        | true => exact absurd member refuted
        | false => rfl

section Related
variable {α : Type*} {verdicts : List Verdict}

theorem related_left {relation : Verdict → α → Prop} {others : List α} (related : List.Forall₂ relation verdicts others)
    {verdict : Verdict} (member : verdict ∈ verdicts) : ∃ other ∈ others, relation verdict other := by
  induction related with
  | nil => cases member
  | cons head _ ih =>
    rcases List.mem_cons.mp member with same | later
    · exact ⟨_, List.mem_cons_self, same ▸ head⟩
    · obtain ⟨other, inside, holds⟩ := ih later
      exact ⟨other, List.mem_cons_of_mem _ inside, holds⟩

theorem related_right {relation : Verdict → α → Prop} {others : List α} (related : List.Forall₂ relation verdicts others)
    {other : α} (member : other ∈ others) : ∃ verdict ∈ verdicts, relation verdict other := by
  induction related with
  | nil => cases member
  | cons head _ ih =>
    rcases List.mem_cons.mp member with same | later
    · exact ⟨_, List.mem_cons_self, same ▸ head⟩
    · obtain ⟨verdict, inside, holds⟩ := ih later
      exact ⟨verdict, List.mem_cons_of_mem _ inside, holds⟩

theorem allOf_informs {others : List Verdict} (related : List.Forall₂ Informs verdicts others) :
    Informs (allOf verdicts) (allOf others) := by
  intro answer decided
  cases answer with
  | true =>
    rw [allOf_true] at decided ⊢
    intro other member
    obtain ⟨verdict, inside, informs⟩ := related_right related member
    exact informs true (decided verdict inside)
  | false =>
    rw [allOf_false] at decided ⊢
    obtain ⟨other, inside, informs⟩ := related_left related decided
    exact informs false rfl ▸ inside

theorem anyOf_informs {others : List Verdict} (related : List.Forall₂ Informs verdicts others) :
    Informs (anyOf verdicts) (anyOf others) := by
  intro answer decided
  cases answer with
  | true =>
    rw [anyOf_true] at decided ⊢
    obtain ⟨other, inside, informs⟩ := related_left related decided
    exact informs true rfl ▸ inside
  | false =>
    rw [anyOf_false] at decided ⊢
    intro other member
    obtain ⟨verdict, inside, informs⟩ := related_right related member
    exact informs false (decided verdict inside)

theorem allOf_agrees {answers : List Bool} (related : List.Forall₂ Agrees verdicts answers) :
    Agrees (allOf verdicts) (answers.all id) := by
  intro answer decided
  cases answer with
  | true =>
    rw [allOf_true] at decided
    rw [List.all_eq_true]
    intro other member
    obtain ⟨verdict, inside, agrees⟩ := related_right related member
    exact agrees true (decided verdict inside)
  | false =>
    rw [allOf_false] at decided
    obtain ⟨other, inside, agrees⟩ := related_left related decided
    rw [List.all_eq_false]
    exact ⟨other, inside, by simp [agrees false rfl]⟩

theorem anyOf_agrees {answers : List Bool} (related : List.Forall₂ Agrees verdicts answers) :
    Agrees (anyOf verdicts) (answers.any id) := by
  intro answer decided
  cases answer with
  | true =>
    rw [anyOf_true] at decided
    obtain ⟨other, inside, agrees⟩ := related_left related decided
    rw [List.any_eq_true]
    exact ⟨other, inside, agrees true rfl⟩
  | false =>
    rw [anyOf_false] at decided
    rw [List.any_eq_false]
    intro other member
    obtain ⟨verdict, inside, agrees⟩ := related_right related member
    simp [agrees false (decided verdict inside)]

end Related

end OpenShapeForge.Library.ThreeValued
