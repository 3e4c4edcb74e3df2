import Mathlib.Data.Fintype.Card
import Mathlib.Data.Set.Finite.List
import Mathlib.Logic.Relation
import OpenShapeForge.Library.Precedence

/-! Items put after what they need, by sweeps that repeat over those that are left. -/

namespace OpenShapeForge.Library.Sweeps
open Relation

variable {α κ : Type} [DecidableEq κ]

section Algorithm
variable (key : α → κ) (needs : α → List κ)

def ready (done : List κ) (item : α) : Bool := (needs item).all fun need => need ∈ done

/-- One sweep: the items it takes, and those it leaves. -/
def sweep : List α → List κ → List α × List α
  | [], _ => ([], [])
  | item :: rest, done =>
    if ready needs done item then (item :: (sweep rest (done ++ [key item])).1, (sweep rest (done ++ [key item])).2)
    else ((sweep rest done).1, item :: (sweep rest done).2)

/-- Sweeps until nothing is left, or one takes nothing. -/
def order : Nat → List α → List κ → Option (Option (List α))
  | _, [], _ => some (some [])
  | 0, _ :: _, _ => none
  | steps + 1, item :: rest, done =>
    let swept := sweep key needs (item :: rest) done
    if swept.1.isEmpty then some none else (order steps swept.2 (done ++ swept.1.map key)).map (Option.map (swept.1 ++ ·))

/-- Every item comes when what it needs is done. -/
def InTurn : List κ → List α → Prop
  | _, [] => True
  | done, item :: rest => needs item ⊆ done ∧ InTurn (done ++ [key item]) rest

end Algorithm

section Facts
variable {key : α → κ} {needs : α → List κ} {items : List α} {done : List κ}

theorem ready_iff {item : α} : ready needs done item = true ↔ needs item ⊆ done := by
  unfold ready
  rw [List.all_eq_true]
  exact ⟨fun each need member => of_decide_eq_true (each need member), fun within need member => decide_eq_true (within member)⟩

variable (key needs) in
theorem sweep_perm : ∀ (items : List α) (done : List κ), ((sweep key needs items done).1 ++ (sweep key needs items done).2).Perm items
  | [], _ => .nil
  | item :: rest, done => by
    unfold sweep
    split
    next => exact (sweep_perm rest _).cons item
    next => exact List.perm_middle.trans ((sweep_perm rest done).cons item)

theorem sweep_inTurn : ∀ (items : List α) (done : List κ), InTurn key needs done (sweep key needs items done).1
  | [], _ => trivial
  | item :: rest, done => by
    unfold sweep
    split
    next isReady => exact ⟨ready_iff.mp isReady, sweep_inTurn rest _⟩
    next => exact sweep_inTurn rest done

theorem sweep_stuck : ∀ (items : List α) (done : List κ), (sweep key needs items done).1 = [] → ∀ item ∈ items, ¬ needs item ⊆ done
  | [], _, _, _, never => absurd never List.not_mem_nil
  | first :: rest, done, nothing, item, member => by
    unfold sweep at nothing
    split at nothing
    next => cases nothing
    next notReady =>
      rcases List.mem_cons.mp member with rfl | later
      · exact fun within => notReady (ready_iff.mpr within)
      · exact sweep_stuck rest done nothing item later

omit [DecidableEq κ] in
theorem inTurn_append : ∀ {first second : List α} {done : List κ},
    InTurn key needs done (first ++ second) ↔ InTurn key needs done first ∧ InTurn key needs (done ++ first.map key) second
  | [], second, done => by
    rw [List.nil_append, List.map_nil, List.append_nil]
    exact (and_iff_right trivial).symm
  | item :: rest, second, done => by
    rw [List.cons_append, InTurn, InTurn, inTurn_append, List.map_cons, List.append_assoc, List.singleton_append, and_assoc]

omit [DecidableEq κ] in
theorem InTurn.needs_before {past future : List α} {item : α} (inTurn : InTurn key needs done (past ++ item :: future)) :
    needs item ⊆ done ++ past.map key :=
  (inTurn_append.mp inTurn).2.1

variable (key needs) in
theorem order_ends : ∀ (steps : Nat) (items : List α) (done : List κ), items.length ≤ steps → ∃ ordered, order key needs steps items done = some ordered
  | _, [], _, _ => by
    unfold order
    exact ⟨some [], rfl⟩
  | 0, item :: rest, _, bound => absurd bound (Nat.not_succ_le_zero _)
  | steps + 1, item :: rest, done, bound => by
    unfold order
    dsimp only
    split
    next => exact ⟨_, rfl⟩
    next some_taken =>
      have length := (sweep_perm key needs (item :: rest) done).length_eq
      rw [List.length_append] at length
      have taken : 0 < (sweep key needs (item :: rest) done).1.length :=
        List.length_pos_iff.mpr fun nothing => some_taken (List.isEmpty_iff.mpr nothing)
      obtain ⟨ordered, ends⟩ := order_ends steps (sweep key needs (item :: rest) done).2 (done ++ (sweep key needs (item :: rest) done).1.map key) (by omega)
      exact ⟨_, Option.map_eq_some_iff.mpr ⟨ordered, ends, rfl⟩⟩

theorem order_inTurn : ∀ {steps : Nat} {items : List α} {done : List κ} {ordered : List α},
    order key needs steps items done = some (some ordered) → ordered.Perm items ∧ InTurn key needs done ordered
  | _, [], _, ordered, ends => by
    unfold order at ends
    cases ends
    exact ⟨.nil, trivial⟩
  | 0, _ :: _, _, _, ends => by
    unfold order at ends
    cases ends
  | steps + 1, item :: rest, done, ordered, ends => by
    unfold order at ends
    dsimp only at ends
    split at ends
    next => cases ends
    next =>
      obtain ⟨later, orders, isLater⟩ := Option.map_eq_some_iff.mp ends
      obtain ⟨tail, rfl, rfl⟩ := Option.map_eq_some_iff.mp isLater
      obtain ⟨perm, inTurn⟩ := order_inTurn orders
      exact ⟨(perm.append_left _).trans (sweep_perm _ _ _ _), inTurn_append.mpr ⟨sweep_inTurn _ _, inTurn⟩⟩

theorem order_stuck : ∀ {steps : Nat} {items : List α} {done : List κ}, order key needs steps items done = some none →
    ∃ taken left, left ≠ [] ∧ (taken ++ left).Perm items ∧ ∀ item ∈ left, ∃ need ∈ needs item, need ∉ done ++ taken.map key
  | _, [], _, ends => by
    unfold order at ends
    cases ends
  | 0, _ :: _, _, ends => by
    unfold order at ends
    cases ends
  | steps + 1, item :: rest, done, ends => by
    unfold order at ends
    dsimp only at ends
    split at ends
    next nothing =>
      have stuck := sweep_stuck (item :: rest) done (List.isEmpty_iff.mp nothing)
      refine ⟨[], item :: rest, List.cons_ne_nil _ _, .refl _, fun other member => ?_⟩
      rw [List.map_nil, List.append_nil]
      obtain ⟨need, isNeed, missing⟩ := Set.not_subset.mp (stuck other member)
      exact ⟨need, isNeed, missing⟩
    next =>
      obtain ⟨later, orders, isLater⟩ := Option.map_eq_some_iff.mp ends
      obtain rfl := Option.map_eq_none_iff.mp isLater
      obtain ⟨taken, left, some_left, perm, needing⟩ := order_stuck orders
      refine ⟨(sweep key needs (item :: rest) done).1 ++ taken, left, some_left, ?_, fun other member => ?_⟩
      · rw [List.append_assoc]
        exact (perm.append_left _).trans (sweep_perm _ _ _ _)
      · rw [List.map_append, ← List.append_assoc]
        exact needing other member

omit [DecidableEq κ] in
theorem exists_cycle {leads : κ → κ → Prop} {points : List κ} (some_point : points ≠ []) (each : ∀ point ∈ points, ∃ next ∈ points, leads point next) :
    ∃ point, TransGen leads point point := by
  by_contra acyclic
  rw [not_exists] at acyclic
  let below : {point // point ∈ points} → {point // point ∈ points} → Prop := fun one two => TransGen leads two.1 one.1
  have trans : IsTrans _ below := ⟨fun _ _ _ one two => two.trans one⟩
  have irrefl : Std.Irrefl below := ⟨fun point cycle => acyclic point.1 cycle⟩
  have finite : Finite {point // point ∈ points} := (List.finite_toSet points).to_subtype
  have wellFounded : WellFounded below := Finite.wellFounded_of_trans_of_irrefl below
  obtain ⟨first, isFirst⟩ := List.exists_mem_of_ne_nil points some_point
  obtain ⟨least, -, isLeast⟩ := wellFounded.has_min Set.univ ⟨⟨first, isFirst⟩, trivial⟩
  obtain ⟨next, isNext, leadsOn⟩ := each least.1 least.2
  exact isLeast ⟨next, isNext⟩ trivial (.single leadsOn)

end Facts

end OpenShapeForge.Library.Sweeps
