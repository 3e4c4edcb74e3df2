import Mathlib

/-! Slices of a list, as `offset` and `limit` cut them out, and what consecutive ones add up to. -/

namespace OpenShapeForge.Library

variable {α : Type*}

/-- `offset` and `limit`. -/
def slice (xs : List α) (offset fetch : Nat) : List α := (xs.drop offset).take fetch

theorem slice_append (xs ys : List α) (offset fetch : Nat) :
    slice (xs ++ ys) offset fetch = slice xs offset fetch ++ slice ys (offset - xs.length) (fetch - (slice xs offset fetch).length) := by
  unfold slice
  rw [List.drop_append, List.take_append, List.length_take]
  congr 2
  omega

theorem slice_map {β : Type*} (f : α → β) (xs : List α) (offset fetch : Nat) : slice (xs.map f) offset fetch = (slice xs offset fetch).map f := by
  rw [slice, slice, List.map_take, List.map_drop]

theorem slice_sublist (xs : List α) (offset fetch : Nat) : (slice xs offset fetch).Sublist xs :=
  (List.take_sublist ..).trans (List.drop_sublist ..)

theorem lt_of_slice {xs : List α} {offset fetch : Nat} (some : 0 < (slice xs offset fetch).length) : offset < xs.length := by
  rw [slice, List.length_take, List.length_drop] at some
  omega

/-- Pages read one after the other, each from where the one before it ended. -/
def consecutive (page : Nat → Nat → List α) (offset : Nat) : List Nat → List (List α)
  | [] => []
  | fetch :: rest => page offset fetch :: consecutive page (offset + fetch) rest

theorem flatten_consecutive {xs : List α} {page : Nat → Nat → List α} (isSlice : ∀ offset fetch, page offset fetch = slice xs offset fetch)
    (sizes : List Nat) (offset : Nat) : (consecutive page offset sizes).flatten = slice xs offset sizes.sum := by
  induction sizes generalizing offset with
  | nil => simp [consecutive, slice]
  | cons fetch rest ih =>
    calc (consecutive page offset (fetch :: rest)).flatten
        = slice xs offset fetch ++ slice xs (offset + fetch) rest.sum := by
          rw [consecutive, List.flatten_cons, isSlice, ih]
      _ = slice xs offset (fetch :: rest).sum := by
        unfold slice
        rw [List.sum_cons, List.take_add, List.drop_drop]

theorem slice_whole {xs : List α} {fetch : Nat} (enough : xs.length ≤ fetch) : slice xs 0 fetch = xs := by
  rw [slice, List.drop_zero, List.take_of_length_le enough]

end OpenShapeForge.Library
