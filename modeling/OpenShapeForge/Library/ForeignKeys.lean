import Mathlib.Data.List.Forall2
import Mathlib.Data.Set.Basic

/-! Rows that refer to rows, as SQL has it: a key with a null in it is not checked (MATCH SIMPLE). -/

namespace OpenShapeForge.Library.ForeignKeys
variable {Column Value : Type}

abbrev Row (Column Value : Type) := Column → Option Value

def Filled (columns : List Column) (row : Row Column Value) : Prop := ∀ column ∈ columns, row column ≠ none

def Matches (columns targets : List Column) (row other : Row Column Value) : Prop :=
  List.Forall₂ (fun column target => row column = other target) columns targets

def Enforced (columns targets : List Column) (rows : Set (Row Column Value)) (row : Row Column Value) : Prop :=
  Filled columns row → ∃ other ∈ rows, Matches columns targets row other

theorem matches_at : ∀ {columns targets : List Column} {row other : Row Column Value} {position : Nat} {column target : Column},
    Matches columns targets row other → columns[position]? = some column → targets[position]? = some target → row column = other target
  | [], _, _, _, _, _, _, _, isColumn, _ => by simp at isColumn
  | _ :: _, [], _, _, _, _, _, _, _, isTarget => by simp at isTarget
  | first :: columns, head :: targets, row, other, position, column, target, pairs, isColumn, isTarget => by
    obtain ⟨here, later⟩ := List.forall₂_cons.mp pairs
    cases position with
    | zero =>
      obtain rfl := Option.some.inj isColumn
      obtain rfl := Option.some.inj isTarget
      exact here
    | succ position =>
      have nextColumn : columns[position]? = some column := isColumn
      have nextTarget : targets[position]? = some target := isTarget
      exact matches_at later nextColumn nextTarget

end OpenShapeForge.Library.ForeignKeys
