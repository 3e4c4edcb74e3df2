import Mathlib.Data.List.Sort

/-! Choosing by criteria in an order of preference: the first criterion that
anything meets decides, and the choice is settled where one thing alone meets it. -/

namespace OpenShapeForge.Library

variable {α : Type*}

/-- What meets a criterion while nothing meets any of those before it. -/
inductive FirstOf : List (α → Prop) → α → Prop where
  | here {criterion : α → Prop} {rest : List (α → Prop)} {x : α} (meets : criterion x) : FirstOf (criterion :: rest) x
  | later {criterion : α → Prop} {rest : List (α → Prop)} {x : α} (unmet : ∀ y, ¬criterion y) (first : FirstOf rest x) : FirstOf (criterion :: rest) x

/-- One thing alone meets the first criterion that is met at all. -/
def Settled : List (α → Prop) → Prop
  | [] => True
  | criterion :: rest => (∀ x y, criterion x → criterion y → x = y) ∧ ((∀ x, ¬criterion x) → Settled rest)

theorem FirstOf.unique {criteria : List (α → Prop)} {x y : α} (settled : Settled criteria) (first : FirstOf criteria x)
    (other : FirstOf criteria y) : x = y := by
  induction first with
  | here meets =>
    cases other with
    | here also => exact settled.1 _ _ meets also
    | later unmet _ => exact absurd meets (unmet _)
  | later unmet _ ih =>
    cases other with
    | here also => exact absurd also (unmet _)
    | later _ other => exact ih (settled.2 unmet) other

structure Finds (criterion : α → Prop) (found : Option α) : Prop where
  sound : ∀ x, found = some x → criterion x
  complete : found = none → ∀ x, ¬criterion x

structure Picks (criteria : List (α → Prop)) (found : Option α) : Prop where
  sound : ∀ x, found = some x → FirstOf criteria x
  complete : found = none → ∀ criterion ∈ criteria, ∀ x, ¬criterion x

theorem Finds.congr {criterion other : α → Prop} {found : Option α} (finds : Finds criterion found) (same : ∀ x, criterion x ↔ other x) :
    Finds other found where
  sound x isFound := (same x).mp (finds.sound x isFound)
  complete nothing x meets := finds.complete nothing x ((same x).mpr meets)

theorem Finds.picks {criterion : α → Prop} {found : Option α} (finds : Finds criterion found) : Picks [criterion] found where
  sound x isFound := .here (finds.sound x isFound)
  complete nothing _ member := List.mem_singleton.mp member ▸ finds.complete nothing

theorem Picks.orElse {criterion : α → Prop} {rest : List (α → Prop)} {found more : Option α} (finds : Finds criterion found)
    (picks : Picks rest more) : Picks (criterion :: rest) (found <|> more) := by
  cases found with
  | some x =>
    exact ⟨fun y same => .here (finds.sound y same), fun nothing => by cases nothing⟩
  | none =>
    have unmet := finds.complete rfl
    refine ⟨fun y same => .later unmet (picks.sound y same), fun nothing other member => ?_⟩
    rcases List.mem_cons.mp member with rfl | later
    · exact unmet
    · exact picks.complete nothing other later

theorem FirstOf.met {criteria : List (α → Prop)} {x : α} (first : FirstOf criteria x) : ∃ criterion ∈ criteria, criterion x := by
  induction first with
  | here meets => exact ⟨_, List.mem_cons_self .., meets⟩
  | later _ _ ih =>
    obtain ⟨criterion, member, meets⟩ := ih
    exact ⟨criterion, List.mem_cons_of_mem _ member, meets⟩

theorem Picks.unique {criteria : List (α → Prop)} {found other : Option α} (settled : Settled criteria) (picks : Picks criteria found)
    (picks' : Picks criteria other) : found = other := by
  have apart : ∀ {x : α} {nothing : Option α}, Picks criteria nothing → nothing = none → ¬FirstOf criteria x := by
    intro x _ picks nothing first
    obtain ⟨criterion, member, meets⟩ := first.met
    exact picks.complete nothing criterion member x meets
  cases found with
  | some x =>
    cases other with
    | some y => rw [FirstOf.unique settled (picks.sound x rfl) (picks'.sound y rfl)]
    | none => exact absurd (picks.sound x rfl) (apart picks' rfl)
  | none =>
    cases other with
    | some y => exact absurd (picks'.sound y rfl) (apart picks rfl)
    | none => rfl

theorem finds_find? (xs : List α) (p : α → Bool) : Finds (fun x => x ∈ xs ∧ p x = true) (xs.find? p) where
  sound _ found := ⟨List.mem_of_find?_eq_some found, List.find?_some found⟩
  complete nothing x := fun ⟨member, meets⟩ => List.find?_eq_none.mp nothing x member meets

section Least
variable (r : α → α → Prop) [DecidableRel r]

theorem finds_least [Std.Total r] [IsTrans α r] (xs : List α) :
    Finds (fun x => x ∈ xs ∧ ∀ y ∈ xs, r x y) (xs.insertionSort r).head? where
  sound x isHead := by
    obtain ⟨rest, sorted⟩ := List.head?_eq_some_iff.mp isHead
    have ordered := List.pairwise_insertionSort r xs
    have members : ∀ {y : α}, y ∈ x :: rest ↔ y ∈ xs := by
      intro y
      rw [← sorted]
      exact (List.perm_insertionSort r xs).mem_iff
    rw [sorted, List.pairwise_cons] at ordered
    refine ⟨members.mp (List.mem_cons_self ..), fun y member => ?_⟩
    rcases List.mem_cons.mp (members.mpr member) with rfl | later
    · exact (Std.Total.total (r := r) y y).elim id id
    · exact ordered.1 y later
  complete nothing x := by
    rintro ⟨member, -⟩
    have sorted := (List.perm_insertionSort r xs).mem_iff.mpr member
    rw [List.head?_eq_none_iff.mp nothing] at sorted
    cases sorted

theorem head?_insertionSort {x : α} {xs : List α} (least : ∀ y ∈ xs, r x y) : ((x :: xs).insertionSort r).head? = some x := by
  rw [List.insertionSort_cons]
  cases sorted : xs.insertionSort r with
  | nil => rfl
  | cons y ys =>
    have member : y ∈ xs := by
      rw [← (List.perm_insertionSort r xs).mem_iff, sorted]
      exact List.mem_cons_self ..
    rw [List.orderedInsert_cons_of_le r ys (least y member)]
    rfl

end Least

end OpenShapeForge.Library
