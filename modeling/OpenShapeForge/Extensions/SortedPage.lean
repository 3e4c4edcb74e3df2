import Mathlib.Data.List.ProdSigma
import Mathlib.Data.List.Sort
import Mathlib.Data.Prod.Lex
import Mathlib.Order.WithBot
import OpenShapeForge.Library.Slices

/-! A page of a list sorted by a tenant field (extensionSortedPage in
apps/api/src/operations/entity/extensions/query.ts): two bounded parts, glued
together, are one slice of all the records in their order. -/

namespace OpenShapeForge.Extensions.SortedPage
open Library

inductive Direction where
  | asc
  | desc
deriving DecidableEq

/-- `order by key direction`, of two keys. -/
def Direction.Before {K : Type*} [LE K] (direction : Direction) (a b : K) : Prop :=
  match direction with
  | asc => a ≤ b
  | desc => b ≤ a

instance Direction.decidableBefore {K : Type*} [LinearOrder K] (direction : Direction) : DecidableRel (direction.Before (K := K)) :=
  fun _ _ => match direction with
    | asc => inferInstanceAs (Decidable (_ ≤ _))
    | desc => inferInstanceAs (Decidable (_ ≤ _))

structure ExtensionSortPlan (I : Type) where
  fieldId : I
  direction : Direction

structure EntityRow (I R : Type) where
  tenantId : I
  id : I
  row : R

/-- A row of the typed index, with the column that the plan reads. -/
structure ValueRow (I V : Type) where
  tenantId : I
  fieldId : I
  recordId : I
  value : Option V

structure EntityTable (I R : Type) where
  rows : List (EntityRow I R)
  keyed : (rows.map fun row => (row.tenantId, row.id)).Nodup

/-- The index of a field that takes one value: a record has at most one row. -/
structure ValuesTable (I V : Type) where
  rows : List (ValueRow I V)
  single : (rows.map fun row => (row.tenantId, row.fieldId, row.recordId)).Nodup

structure ListPredicate (I R : Type) (tenantId : I) where
  holds : EntityRow I R → Bool
  ofTenant : ∀ row, holds row = true → row.tenantId = tenantId

structure PageRow (I V : Type) where
  part : Nat
  id : I
  sortValue : Option V

section Page
variable {I V R : Type} [LinearOrder I] [LinearOrder V]
variable (plan : ExtensionSortPlan I) (entityTable : EntityTable I R) (values : ValuesTable I V)

def sortKey (value : Option V) (id : I) : WithTop V ×ₗ I := toLex (value, id)

def PageRow.Before (a b : PageRow I V) : Prop :=
  a.part < b.part ∨ a.part = b.part ∧ plan.direction.Before (sortKey a.sortValue a.id) (sortKey b.sortValue b.id)

instance PageRow.decidableBefore : DecidableRel (PageRow.Before (V := V) plan) := fun _ _ => inferInstanceAs (Decidable (_ ∨ _))

variable {tenantId : I} (matching : ListPredicate I R tenantId)

def valuedRows : List (I × V) :=
  (values.rows ×ˢ entityTable.rows).filterMap fun (value, row) =>
    if row.tenantId = value.tenantId ∧ row.id = value.recordId ∧ value.tenantId = tenantId ∧ value.fieldId = plan.fieldId ∧ matching.holds row then
      value.value.map fun sortValue => (value.recordId, sortValue)
    else none

def valued : List (I × V) :=
  (valuedRows plan entityTable values matching).insertionSort fun a b => plan.direction.Before (sortKey (some a.2) a.1) (sortKey (some b.2) b.1)

def hasValue (row : EntityRow I R) : Bool :=
  values.rows.any fun value => value.tenantId = row.tenantId && value.recordId = row.id && value.fieldId = plan.fieldId && value.value.isSome

def unvalued : List I :=
  ((entityTable.rows.filter fun row => matching.holds row && !hasValue plan values row).map (·.id)).insertionSort plan.direction.Before

def pageRows (offset fetch : Nat) : List (PageRow I V) :=
  let first := slice (valued plan entityTable values matching) offset fetch
  let count := (valuedRows plan entityTable values matching).length
  -- `greatest(offset - count, 0)` is the difference of natural numbers.
  let second := slice (unvalued plan entityTable values matching) (if 0 < first.length then 0 else offset - count) (fetch - first.length)
  first.map (fun (id, sortValue) => ⟨0, id, some sortValue⟩) ++ second.map fun id => ⟨1, id, none⟩

def extensionSortedPage (offset fetch : Nat) : List (EntityRow I R) :=
  let page := pageRows plan entityTable values matching offset fetch
  let joined := (page ×ˢ entityTable.rows).filter fun (page, row) => row.tenantId = tenantId && row.id = page.id
  (joined.insertionSort fun a b => PageRow.Before plan a.1 b.1).map Prod.snd

end Page

section Order
variable {K : Type*} [LinearOrder K]

instance Direction.total (direction : Direction) : Std.Total (direction.Before (K := K)) where
  total a b := match direction with
    | asc => le_total a b
    | desc => le_total b a

instance Direction.trans (direction : Direction) : IsTrans K direction.Before where
  trans _ _ _ before after := match direction with
    | asc => le_trans before after
    | desc => le_trans after before

theorem Direction.antisymm {direction : Direction} {a b : K} (before : direction.Before a b) (after : direction.Before b a) : a = b := by
  cases direction with
  | asc => exact le_antisymm before after
  | desc => exact le_antisymm after before

variable {I V : Type} [LinearOrder I] [LinearOrder V] (direction : Direction)

theorem before_some (value other : V) (id id' : I) :
    direction.Before (sortKey (some value) id) (sortKey (some other) id') ↔ direction.Before (toLex (value, id)) (toLex (other, id')) := by
  have coe : ∀ (value other : V) (id id' : I), sortKey (some value) id ≤ sortKey (some other) id' ↔ toLex (value, id) ≤ toLex (other, id') := by
    intro value other id id'
    rw [sortKey, sortKey, Prod.Lex.toLex_le_toLex, Prod.Lex.toLex_le_toLex]
    exact or_congr WithTop.coe_lt_coe (and_congr_left' WithTop.coe_inj)
  cases direction with
  | asc => exact coe value other id id'
  | desc => exact coe other value id' id

theorem before_none (id id' : I) : direction.Before (sortKey (none : Option V) id) (sortKey none id') ↔ direction.Before id id' := by
  have top : ∀ id id' : I, sortKey (none : Option V) id ≤ sortKey none id' ↔ id ≤ id' := by
    intro id id'
    rw [sortKey, sortKey, Prod.Lex.toLex_le_toLex]
    exact ⟨fun before => before.elim (fun less => absurd less (lt_irrefl (⊤ : WithTop V))) And.right, fun below => .inr ⟨rfl, below⟩⟩
  cases direction with
  | asc => exact top id id'
  | desc => exact top id' id

variable {plan : ExtensionSortPlan I}

theorem PageRow.Before.antisymm {a b : PageRow I V} (before : PageRow.Before plan a b) (after : PageRow.Before plan b a) : a = b := by
  rcases before with lower | ⟨part, before⟩
  · rcases after with higher | ⟨same, -⟩
    · exact absurd (lower.trans higher) (lt_irrefl _)
    · exact absurd (same ▸ lower) (lt_irrefl _)
  · rcases after with higher | ⟨-, after⟩
    · exact absurd (part ▸ higher) (lt_irrefl _)
    · have key := toLex_inj.mp (Direction.antisymm before after)
      obtain ⟨value, id⟩ := Prod.mk.inj key
      cases a
      cases b
      congr

end Order

section Slice
variable {I V R : Type} [LinearOrder I] [LinearOrder V]
variable (plan : ExtensionSortPlan I) (entityTable : EntityTable I R) (values : ValuesTable I V)

def valueOf (row : EntityRow I R) : Option V :=
  (values.rows.find? fun value => value.tenantId = row.tenantId && value.recordId = row.id && value.fieldId = plan.fieldId).bind (·.value)

/-- By value in the direction, records without one last, and by id in the direction. -/
def RowBefore (a b : EntityRow I R) : Prop :=
  match valueOf plan values a, valueOf plan values b with
  | some value, some other => plan.direction.Before (toLex (value, a.id)) (toLex (other, b.id))
  | some _, none => True
  | none, some _ => False
  | none, none => plan.direction.Before a.id b.id

instance decidableRowBefore : DecidableRel (RowBefore (R := R) plan values) := fun a b => by
  unfold RowBefore
  split <;> infer_instance

variable {tenantId : I} (matching : ListPredicate I R tenantId)

def ordered : List (EntityRow I R) := (entityTable.rows.filter matching.holds).insertionSort (RowBefore plan values)

def pageRow (row : EntityRow I R) : PageRow I V :=
  match valueOf plan values row with
  | some value => ⟨0, row.id, some value⟩
  | none => ⟨1, row.id, none⟩

end Slice

section Proofs
variable {I V R : Type} [LinearOrder I] [LinearOrder V]
variable {plan : ExtensionSortPlan I} {entityTable : EntityTable I R} {values : ValuesTable I V} {tenantId : I} {matching : ListPredicate I R tenantId}

omit [LinearOrder V] in
theorem pageRow_id (row : EntityRow I R) : (pageRow plan values row).id = row.id := by
  unfold pageRow
  split <;> rfl

theorem before_pageRow (a b : EntityRow I R) : PageRow.Before plan (pageRow plan values a) (pageRow plan values b) ↔ RowBefore plan values a b := by
  unfold pageRow RowBefore PageRow.Before
  cases valueOf plan values a with
  | some value =>
    cases valueOf plan values b with
    | some other => simp [before_some]
    | none => simp
  | none =>
    cases valueOf plan values b with
    | some other => simp
    | none => simp [before_none]

omit [LinearOrder I] [LinearOrder V] in
theorem value_unique {value other : ValueRow I V} (member : value ∈ values.rows) (member' : other ∈ values.rows) (tenant : value.tenantId = other.tenantId)
    (field : value.fieldId = other.fieldId) (record : value.recordId = other.recordId) : value = other :=
  List.inj_on_of_nodup_map values.single member member' (by rw [tenant, field, record])

omit [LinearOrder V] in
theorem valueOf_eq_some {row : EntityRow I R} {sortValue : V} :
    valueOf plan values row = some sortValue ↔ ∃ value ∈ values.rows, value.tenantId = row.tenantId ∧ value.recordId = row.id ∧
      value.fieldId = plan.fieldId ∧ value.value = some sortValue := by
  unfold valueOf
  constructor
  · intro found
    obtain ⟨value, isFound, isValue⟩ := Option.bind_eq_some_iff.mp found
    have keyed := List.find?_some isFound
    simp only [Bool.and_eq_true, decide_eq_true_eq] at keyed
    exact ⟨value, List.mem_of_find?_eq_some isFound, keyed.1.1, keyed.1.2, keyed.2, isValue⟩
  · rintro ⟨value, member, tenant, record, field, isValue⟩
    cases found : values.rows.find? fun value => value.tenantId = row.tenantId && value.recordId = row.id && value.fieldId = plan.fieldId with
    | none =>
      have unkeyed := List.find?_eq_none.mp found value member
      simp [tenant, record, field] at unkeyed
    | some other =>
      have keyed := List.find?_some found
      simp only [Bool.and_eq_true, decide_eq_true_eq] at keyed
      have same := value_unique member (List.mem_of_find?_eq_some found) (tenant.trans keyed.1.1.symm) (field.trans keyed.2.symm)
        (record.trans keyed.1.2.symm)
      exact same ▸ isValue

omit [LinearOrder V] in
theorem hasValue_eq (row : EntityRow I R) : hasValue plan values row = (valueOf plan values row).isSome := by
  rw [Bool.eq_iff_iff, Option.isSome_iff_exists]
  simp only [valueOf_eq_some, hasValue, List.any_eq_true, Bool.and_eq_true, decide_eq_true_eq, Option.isSome_iff_exists]
  constructor
  · rintro ⟨value, member, ⟨⟨tenant, record⟩, field⟩, sortValue, isValue⟩
    exact ⟨sortValue, value, member, tenant, record, field, isValue⟩
  · rintro ⟨sortValue, value, member, tenant, record, field, isValue⟩
    exact ⟨value, member, ⟨⟨tenant, record⟩, field⟩, sortValue, isValue⟩

omit [LinearOrder I] [LinearOrder V] in
theorem row_unique {row other : EntityRow I R} (member : row ∈ entityTable.rows) (member' : other ∈ entityTable.rows)
    (tenant : row.tenantId = other.tenantId) (id : row.id = other.id) : row = other :=
  List.inj_on_of_nodup_map entityTable.keyed member member' (by rw [tenant, id])

omit [LinearOrder V] in
theorem valuedRows_perm : (valuedRows plan entityTable values matching).Perm
    ((entityTable.rows.filter fun row => matching.holds row && hasValue plan values row).filterMap fun row =>
      (valueOf plan values row).map fun sortValue => (row.id, sortValue)) := by
  have entities : entityTable.rows.Nodup := entityTable.keyed.of_map
  have indexRows : values.rows.Nodup := values.single.of_map
  refine (List.perm_ext_iff_of_nodup ?_ ?_).mpr fun (id, sortValue) => ?_
  · refine List.pairwise_filterMap.mpr ((indexRows.product entities).imp_of_mem ?_)
    rintro ⟨value, row⟩ ⟨other, row'⟩ member member' apart one isOne two isTwo rfl
    obtain ⟨inValues, inRows⟩ := List.mem_product.mp member
    obtain ⟨inValues', inRows'⟩ := List.mem_product.mp member'
    dsimp only at isOne isTwo
    split at isOne
    next keyed =>
      split at isTwo
      next keyed' =>
        obtain ⟨sortValue, -, rfl⟩ := Option.map_eq_some_iff.mp isOne
        obtain ⟨sortValue', -, same⟩ := Option.map_eq_some_iff.mp isTwo
        obtain ⟨record, -⟩ := Prod.mk.inj same
        have sameValue : value = other := value_unique inValues inValues' (keyed.2.2.1.trans keyed'.2.2.1.symm)
          (keyed.2.2.2.1.trans keyed'.2.2.2.1.symm) record.symm
        have sameRow : row = row' := row_unique inRows inRows' (keyed.1.trans (sameValue ▸ keyed'.1.symm)) (keyed.2.1.trans (sameValue ▸ keyed'.2.1.symm))
        exact apart (by rw [sameValue, sameRow])
      next => cases isTwo
    next => cases isOne
  · refine List.pairwise_filterMap.mpr ((entities.filter _).imp_of_mem ?_)
    rintro row row' member member' apart one isOne two isTwo rfl
    obtain ⟨inRows, matches'⟩ := List.mem_filter.mp member
    obtain ⟨inRows', matches''⟩ := List.mem_filter.mp member'
    obtain ⟨sortValue, -, rfl⟩ := Option.map_eq_some_iff.mp isOne
    obtain ⟨sortValue', -, same⟩ := Option.map_eq_some_iff.mp isTwo
    obtain ⟨id, -⟩ := Prod.mk.inj same
    have tenant : row.tenantId = row'.tenantId :=
      (matching.ofTenant row (Bool.and_eq_true_iff.mp matches').1).trans (matching.ofTenant row' (Bool.and_eq_true_iff.mp matches'').1).symm
    exact apart (row_unique inRows inRows' tenant id.symm)
  · simp only [valuedRows, List.mem_filterMap, List.mem_filter, Bool.and_eq_true, hasValue_eq]
    constructor
    · rintro ⟨⟨value, row⟩, member, isRow⟩
      obtain ⟨inValues, inRows⟩ := List.mem_product.mp member
      dsimp only at isRow
      split at isRow
      next keyed =>
        obtain ⟨tenant, record, ofTenant, field, holds⟩ := keyed
        obtain ⟨found, isValue, same⟩ := Option.map_eq_some_iff.mp isRow
        have isValueOf : valueOf plan values row = some found := valueOf_eq_some.mpr ⟨value, inValues, tenant.symm, record.symm, field, isValue⟩
        exact ⟨row, ⟨inRows, holds, Option.isSome_iff_exists.mpr ⟨found, isValueOf⟩⟩, by rw [isValueOf, ← same, record]; rfl⟩
      next => cases isRow
    · rintro ⟨row, ⟨inRows, holds, -⟩, isRow⟩
      obtain ⟨found, isValueOf, same⟩ := Option.map_eq_some_iff.mp isRow
      obtain ⟨value, inValues, tenant, record, field, isValue⟩ := valueOf_eq_some.mp isValueOf
      refine ⟨(value, row), List.mem_product.mpr ⟨inValues, inRows⟩, ?_⟩
      dsimp only
      rw [if_pos ⟨tenant.symm, record.symm, tenant.trans (matching.ofTenant row holds), field, holds⟩, isValue, ← same, ← record]
      rfl

instance total_rowBefore : Std.Total (RowBefore (R := R) plan values) where
  total a b := by
    unfold RowBefore
    cases valueOf plan values a with
    | some value =>
      cases valueOf plan values b with
      | some other => exact Std.Total.total (r := plan.direction.Before) _ _
      | none => exact .inl trivial
    | none =>
      cases valueOf plan values b with
      | some other => exact .inr trivial
      | none => exact Std.Total.total (r := plan.direction.Before) _ _

instance trans_rowBefore : IsTrans (EntityRow I R) (RowBefore plan values) where
  trans a b c := by
    unfold RowBefore
    cases valueOf plan values a <;> cases valueOf plan values b <;> cases valueOf plan values c <;> simp
    · exact Trans.trans
    · exact Trans.trans

instance total_valued : Std.Total fun a b : I × V => plan.direction.Before (sortKey (some a.2) a.1) (sortKey (some b.2) b.1) where
  total _ _ := Std.Total.total (r := plan.direction.Before) _ _

instance trans_valued : IsTrans (I × V) fun a b => plan.direction.Before (sortKey (some a.2) a.1) (sortKey (some b.2) b.1) where
  trans _ _ _ := Trans.trans

def valuedPart : I × V → PageRow I V := fun (id, sortValue) => ⟨0, id, some sortValue⟩

def unvaluedPart : I → PageRow I V := fun id => ⟨1, id, none⟩

theorem ordered_parts : (ordered plan entityTable values matching).map (pageRow plan values) =
    (valued plan entityTable values matching).map valuedPart ++ (unvalued plan entityTable values matching).map unvaluedPart := by
  have antisymm : ∀ a b : PageRow I V, PageRow.Before plan a b → PageRow.Before plan b a → a = b := fun _ _ => PageRow.Before.antisymm
  refine List.Perm.eq_of_pairwise (fun a b _ _ => antisymm a b) ?_ ?_ ?_
  · refine List.pairwise_map.mpr ((List.pairwise_insertionSort _ _).imp fun before => ?_)
    exact (before_pageRow ..).mpr before
  · refine List.pairwise_append.mpr ⟨List.pairwise_map.mpr ?_, List.pairwise_map.mpr ?_, ?_⟩
    · exact (List.pairwise_insertionSort _ _).imp fun before => .inr ⟨rfl, before⟩
    · exact (List.pairwise_insertionSort _ _).imp fun before => .inr ⟨rfl, (before_none ..).mpr before⟩
    · intro first isFirst second isSecond
      obtain ⟨_, -, rfl⟩ := List.mem_map.mp isFirst
      obtain ⟨_, -, rfl⟩ := List.mem_map.mp isSecond
      exact .inl Nat.zero_lt_one
  · refine ((List.perm_insertionSort _ _).map _).trans ?_
    have parts : (entityTable.rows.filter matching.holds).Perm ((entityTable.rows.filter fun row => matching.holds row && hasValue plan values row) ++
        entityTable.rows.filter fun row => matching.holds row && !hasValue plan values row) := by
      have split := List.filter_append_perm (hasValue plan values) (entityTable.rows.filter matching.holds)
      simp only [List.filter_filter] at split
      simpa only [Bool.and_comm] using split.symm
    have withValue : ((entityTable.rows.filter fun row => matching.holds row && hasValue plan values row).map (pageRow plan values)).Perm
        ((valued plan entityTable values matching).map valuedPart) := by
      refine List.Perm.trans ?_ (((List.perm_insertionSort _ _).trans valuedRows_perm).map valuedPart).symm
      rw [List.map_filterMap, ← List.filterMap_eq_map]
      refine .of_eq (List.filterMap_congr fun row member => ?_)
      have has := (Bool.and_eq_true_iff.mp (List.mem_filter.mp member).2).2
      rw [hasValue_eq] at has
      obtain ⟨sortValue, isValue⟩ := Option.isSome_iff_exists.mp has
      simp [pageRow, isValue, valuedPart]
    have without : ((entityTable.rows.filter fun row => matching.holds row && !hasValue plan values row).map (pageRow plan values)).Perm
        ((unvalued plan entityTable values matching).map unvaluedPart) := by
      refine List.Perm.trans ?_ ((List.perm_insertionSort _ _).map unvaluedPart).symm
      rw [List.map_map]
      refine .of_eq (List.map_congr_left fun row member => ?_)
      have hasNot := (Bool.and_eq_true_iff.mp (List.mem_filter.mp member).2).2
      rw [hasValue_eq, Bool.not_eq_true', Option.isSome_eq_false_iff, Option.isNone_iff_eq_none] at hasNot
      simp [pageRow, hasNot, unvaluedPart]
    exact ((parts.map (pageRow plan values)).trans (.of_eq List.map_append)).trans (withValue.append without)

theorem pageRows_eq (offset fetch : Nat) : pageRows plan entityTable values matching offset fetch =
    slice ((ordered plan entityTable values matching).map (pageRow plan values)) offset fetch := by
  have count : (valuedRows plan entityTable values matching).length = (valued plan entityTable values matching).length :=
    (List.perm_insertionSort _ _).length_eq.symm
  have start : (if 0 < (slice (valued plan entityTable values matching) offset fetch).length then 0
      else offset - (valuedRows plan entityTable values matching).length) = offset - (valued plan entityTable values matching).length := by
    split
    next some => exact (Nat.sub_eq_zero_of_le (Nat.le_of_lt (lt_of_slice some))).symm
    next => rw [count]
  rw [ordered_parts, slice_append, slice_map, slice_map, List.length_map, List.length_map]
  dsimp only [pageRows]
  rw [start]
  rfl

omit [LinearOrder V] in
theorem filter_key {row : EntityRow I R} (member : row ∈ entityTable.rows) :
    (entityTable.rows.filter fun other => other.tenantId = row.tenantId && other.id = row.id) = [row] := by
  refine List.perm_singleton.mp ((List.perm_ext_iff_of_nodup (entityTable.keyed.of_map.filter _) (List.nodup_singleton _)).mpr fun other => ?_)
  simp only [List.mem_filter, List.mem_singleton, Bool.and_eq_true, decide_eq_true_eq]
  constructor
  · rintro ⟨inRows, tenant, id⟩
    exact row_unique inRows member tenant id
  · rintro rfl
    exact ⟨member, rfl, rfl⟩

omit [LinearOrder V] in
theorem joined_eq : ∀ {found : List (EntityRow I R)}, (∀ row ∈ found, row ∈ entityTable.rows ∧ matching.holds row = true) →
    ((found.map (pageRow plan values)) ×ˢ entityTable.rows).filter (fun (page, row) => row.tenantId = tenantId && row.id = page.id) =
      found.map fun row => (pageRow plan values row, row)
  | [], _ => rfl
  | row :: rest, members => by
    obtain ⟨inRows, holds⟩ := members row (List.mem_cons_self ..)
    have ofRow : (entityTable.rows.map (Prod.mk (pageRow plan values row))).filter (fun (page, row) => row.tenantId = tenantId && row.id = page.id) =
        [(pageRow plan values row, row)] := by
      have keyed : entityTable.rows.filter (fun other => other.tenantId = tenantId && other.id = (pageRow plan values row).id) = [row] := by
        rw [pageRow_id, ← matching.ofTenant row holds]
        exact filter_key inRows
      rw [List.filter_map]
      exact congrArg (List.map (Prod.mk (pageRow plan values row))) keyed
    rw [List.map_cons, List.product_cons, List.filter_append, ofRow, joined_eq fun row member => members row (List.mem_cons_of_mem _ member)]
    rfl

theorem page_eq_slice (offset fetch : Nat) : extensionSortedPage plan entityTable values matching offset fetch =
    slice (ordered plan entityTable values matching) offset fetch := by
  have found : ∀ row ∈ slice (ordered plan entityTable values matching) offset fetch, row ∈ entityTable.rows ∧ matching.holds row = true :=
    fun row member => List.mem_filter.mp ((List.perm_insertionSort _ _).mem_iff.mp ((slice_sublist ..).mem member))
  have inOrder : ((slice (ordered plan entityTable values matching) offset fetch).map fun row => (pageRow plan values row, row)).Pairwise
      fun a b => PageRow.Before plan a.1 b.1 :=
    List.pairwise_map.mpr (((List.pairwise_insertionSort _ _).sublist (slice_sublist ..)).imp fun before => (before_pageRow ..).mpr before)
  dsimp only [extensionSortedPage]
  rw [pageRows_eq, slice_map, joined_eq found, inOrder.insertionSort_eq, List.map_map]
  exact List.map_id _

/-- Pages of any sizes that are read one after the other are the records in their order, each of them once. -/
theorem sorted_pages : (∀ offset fetch, extensionSortedPage plan entityTable values matching offset fetch =
      slice (ordered plan entityTable values matching) offset fetch) ∧
    ∀ sizes : List Nat, (entityTable.rows.filter matching.holds).length ≤ sizes.sum →
      (consecutive (extensionSortedPage plan entityTable values matching) 0 sizes).flatten = ordered plan entityTable values matching ∧
      (ordered plan entityTable values matching).Perm (entityTable.rows.filter matching.holds) ∧ (ordered plan entityTable values matching).Nodup := by
  refine ⟨page_eq_slice, fun sizes enough => ?_⟩
  have perm : (ordered plan entityTable values matching).Perm (entityTable.rows.filter matching.holds) := List.perm_insertionSort _ _
  refine ⟨?_, perm, perm.nodup_iff.mpr (entityTable.keyed.of_map.filter _)⟩
  rw [flatten_consecutive page_eq_slice, slice_whole (perm.length_eq ▸ enough)]

end Proofs

end OpenShapeForge.Extensions.SortedPage
