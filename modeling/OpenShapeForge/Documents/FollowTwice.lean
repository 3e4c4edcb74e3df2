import OpenShapeForge.Documents.FollowPlaces

/-! The rows of a variant after it followed its template, and when following again leaves them. -/

namespace OpenShapeForge.Documents
open Js Library

def nextKeys (next : List FollowTemplateBlock) (id : Text) : Option Text := (nextById next id).map FollowTemplateBlock.key

/-- A row after the plan's writes: re-seeded content is the new one without an edit, a kept edit is flagged. -/
def carriedRow (plan : FollowPlan) (next : List FollowTemplateBlock) (block : FollowBlock) : FollowBlock :=
  match plan.reseed.find? fun entry => entry.1 = block.id with
  | some entry => { block with key := (nextKeys next entry.2).getD block.key, diverged := false }
  | none => if block.id ∈ plan.diverge then { block with diverged := true } else block

def insertedRow (fresh : Text → Text) (next : List FollowTemplateBlock) (id : Text) : FollowBlock :=
  ⟨fresh id, js "template", some id, false, (nextKeys next id).getD []⟩

def carriedSlot (fresh : Text → Text) (current : List FollowBlock) (next : List FollowTemplateBlock) (plan : FollowPlan) : FollowSlot → Option FollowBlock
  | .existing id => (current.find? fun block => block.id = id).map (carriedRow plan next)
  | .insert id => some (insertedRow fresh next id)

/-- The rows of the variant after the plan is carried out, in its order; `fresh` gives the ids of new rows. -/
def carriedOut (fresh : Text → Text) (current : List FollowBlock) (next : List FollowTemplateBlock) (plan : FollowPlan) : List FollowBlock :=
  plan.order.filterMap (carriedSlot fresh current next plan)

def places (next : List FollowTemplateBlock) : List (Option Text) := none :: next.map fun block => some block.templateBlockId

/-- Where rows go at a place: into it, and behind it. -/
def seatsAt : Option Text → List (Option (Option Text × Bool))
  | none => [some (none, false)]
  | some id => [some (some id, true), some (some id, false)]

def seats (next : List FollowTemplateBlock) : List (Option (Option Text × Bool)) := (places next).flatMap seatsAt

theorem groups_seats (next : List FollowTemplateBlock) : groups next = none :: seats next := by
  unfold groups seats places
  rw [List.flatMap_cons, List.flatMap_map]
  rfl

def settled (next : List FollowTemplateBlock) (row : FollowBlock × Fate) : FollowBlock :=
  match row.2 with
  | .placed id true => { row.1 with key := (nextKeys next id).getD row.1.key, diverged := false }
  | .placed _ false | .kept _ _ => { row.1 with diverged := true }
  | _ => row.1

@[simp] theorem settled_id (next : List FollowTemplateBlock) (row : FollowBlock × Fate) : (settled next row).id = row.1.id := by
  unfold settled
  split <;> rfl

theorem settled_claims (next : List FollowTemplateBlock) (row : FollowBlock × Fate) (id : Text) : (settled next row).Claims id ↔ row.1.Claims id := by
  unfold settled FollowBlock.Claims
  split <;> rfl

theorem settled_inserted (fresh : Text → Text) (next : List FollowTemplateBlock) (id : Text) :
    settled next (insertedRow fresh next id, .placed id true) = insertedRow fresh next id := by
  have once : (nextKeys next id).getD ((nextKeys next id).getD []) = (nextKeys next id).getD [] := by
    cases nextKeys next id <;> rfl
  unfold settled insertedRow
  dsimp only
  rw [once]

section Outcome
variable (fresh : Text → Text) (current : List FollowBlock) (previous : Text → Option Text) (next : List FollowTemplateBlock)

/-- The rows to insert, as if each had its place already. -/
def additions : List (FollowBlock × Fate) :=
  ((next.map FollowTemplateBlock.templateBlockId).filter fun id => ((passOver previous next current).existing id).isNone).map fun id =>
    (insertedRow fresh next id, .placed id true)

def items : List (FollowBlock × Fate) := fatesOf previous next current ++ additions fresh current previous next

variable {fresh current previous next}

theorem additions_trailing (anchor : Option Text) :
    (additions fresh current previous next).filter (fun row => row.2.group = some (anchor, false)) = [] := by
  unfold additions
  rw [List.filter_map, List.map_eq_nil_iff]
  exact List.filter_eq_nil_iff.mpr fun id _ => by simp [Fate.group]

theorem additions_placed {id : Text} (nextDistinct : (next.map FollowTemplateBlock.templateBlockId).Nodup)
    (listed : id ∈ next.map FollowTemplateBlock.templateBlockId) :
    (additions fresh current previous next).filter (fun row => row.2.group = some (some id, true)) =
      if ((passOver previous next current).existing id).isNone then [(insertedRow fresh next id, .placed id true)] else [] := by
  have one : (next.map FollowTemplateBlock.templateBlockId).filter (fun other => decide (other = id)) = [id] := by
    rw [List.filter_eq, List.count_eq_one_of_mem nextDistinct listed]
    rfl
  unfold additions
  rw [List.filter_map, List.filter_filter]
  have own : (next.map FollowTemplateBlock.templateBlockId).filter (fun other =>
      ((fun row : FollowBlock × Fate => decide (row.2.group = some (some id, true))) ∘ fun id => (insertedRow fresh next id, Fate.placed id true)) other &&
        ((passOver previous next current).existing other).isNone) =
      ((next.map FollowTemplateBlock.templateBlockId).filter fun other => decide (other = id)).filter
        fun other => ((passOver previous next current).existing other).isNone := by
    rw [List.filter_filter]
    refine List.filter_congr fun other _ => ?_
    simp [Fate.group, Bool.and_comm]
  rw [own, one, List.filter_singleton]
  cases ((passOver previous next current).existing id).isNone <;> rfl

theorem carriedRow_settled (distinct : (current.map FollowBlock.id).Nodup) {row : FollowBlock × Fate} (member : row ∈ fatesOf previous next current) :
    carriedRow (planFollow current previous next) next row.1 = settled next row := by
  obtain ⟨front, back, split, isFate⟩ := mem_fatesOf member
  have seeded := mem_reseed previous next distinct split
  have flagged := mem_kind previous next distinct split Fate.isDiverged
  unfold carriedRow settled
  rw [isFate]
  cases found : (planFollow current previous next).reseed.find? fun entry => entry.1 = row.1.id with
  | some entry =>
    have sameId : entry.1 = row.1.id := of_decide_eq_true (List.find?_some (p := fun entry : Text × Text => decide (entry.1 = row.1.id)) found)
    have isEntry : (row.1.id, entry.2) ∈ (planFollow current previous next).reseed := sameId ▸ List.mem_of_find?_eq_some found
    rw [(seeded entry.2).mp isEntry]
  | none =>
    have notSeeded : ∀ id, fateAfter previous next front row.1 ≠ .placed id true := fun id isPlaced =>
      List.find?_eq_none.mp found _ ((seeded id).mpr isPlaced) (decide_eq_true rfl)
    have isFlagged : row.1.id ∈ (planFollow current previous next).diverge ↔ (fateAfter previous next front row.1).isDiverged = true := by
      rw [plan_diverge]
      exact flagged
    dsimp only
    cases own : fateAfter previous next front row.1 with
    | follows anchor => rw [if_neg fun never => by rw [isFlagged, own] at never; cases never]
    | placed id reseeds =>
      cases reseeds with
      | true => exact absurd own (notSeeded id)
      | false => rw [if_pos (by rw [isFlagged, own]; rfl)]
    | kept id anchor => rw [if_pos (by rw [isFlagged, own]; rfl)]
    | removed id => rw [if_neg fun never => by rw [isFlagged, own] at never; cases never]

theorem carriedSlot_row (distinct : (current.map FollowBlock.id).Nodup) {row : FollowBlock × Fate} (member : row ∈ fatesOf previous next current) :
    carriedSlot fresh current next (planFollow current previous next) (.existing row.1.id) = some (settled next row) := by
  obtain ⟨front, back, split, -⟩ := mem_fatesOf member
  have found : current.find? (fun block => block.id = row.1.id) = some row.1 := by
    have own : (row.1 :: back).find? (fun block => block.id = row.1.id) = some row.1 := by simp
    rw [split, List.find?_append, own]
    rw [split, List.map_append, List.map_cons] at distinct
    refine Option.or_eq_some_iff.mpr (.inr ⟨List.find?_eq_none.mpr fun other isOther same => ?_, rfl⟩)
    have apart := List.disjoint_of_nodup_append distinct
    exact apart (List.mem_map_of_mem isOther) (of_decide_eq_true same ▸ List.mem_cons_self)
  change (current.find? fun block => block.id = row.1.id).map _ = _
  rw [found, Option.map_some, carriedRow_settled distinct member]

theorem carried_trailing (distinct : (current.map FollowBlock.id).Nodup) (anchor : Option Text) :
    ((idsIn (some (anchor, false)) (fatesOf previous next current)).map FollowSlot.existing).filterMap
        (carriedSlot fresh current next (planFollow current previous next)) =
      ((items fresh current previous next).filter fun row => row.2.group = some (anchor, false)).map (settled next) := by
  unfold items idsIn
  rw [List.filter_append, additions_trailing, List.append_nil, List.map_map, List.filterMap_map, ← List.filterMap_eq_map]
  refine List.filterMap_congr fun row member => ?_
  exact carriedSlot_row distinct (List.mem_filter.mp member).1

theorem carried_placed (distinct : (current.map FollowBlock.id).Nodup) (named : ∀ block ∈ current, block.id ≠ [])
    (nextDistinct : (next.map FollowTemplateBlock.templateBlockId).Nodup) {id : Text} (listed : id ∈ next.map FollowTemplateBlock.templateBlockId) :
    (carriedSlot fresh current next (planFollow current previous next) ((passOver previous next current).slot id)).toList =
      ((items fresh current previous next).filter fun row => row.2.group = some (some id, true)).map (settled next) := by
  have place := existing_placed previous next named id
  unfold items idsIn at *
  rw [List.filter_append, additions_placed nextDistinct listed]
  unfold FollowPass.slot
  cases found : (passOver previous next current).existing id with
  | none =>
    rw [found] at place
    rw [List.map_eq_nil_iff.mp place.symm]
    exact congrArg (fun row => [row]) (settled_inserted fresh next id).symm
  | some own =>
    rw [found] at place
    obtain ⟨row, isRow, isOwn⟩ := List.map_eq_singleton_iff.mp place.symm
    have member : row ∈ fatesOf previous next current := (List.mem_filter.mp (isRow ▸ List.mem_singleton_self row)).1
    rw [isRow, ← isOwn]
    dsimp only
    rw [carriedSlot_row distinct member]
    rfl

theorem carriedOut_grouped (distinct : (current.map FollowBlock.id).Nodup) (named : ∀ block ∈ current, block.id ≠ [])
    (nextDistinct : (next.map FollowTemplateBlock.templateBlockId).Nodup) :
    carriedOut fresh current next (planFollow current previous next) =
      (grouped (seats next) (fun row => row.2.group) (items fresh current previous next)).map (settled next) := by
  unfold carriedOut grouped seats places
  rw [plan_order, List.filterMap_append, carried_trailing distinct, List.filterMap_flatMap, List.flatMap_cons, List.flatMap_append, List.map_append,
    List.flatMap_map, List.flatMap_assoc]
  refine congrArg₂ (· ++ ·) (by rw [seatsAt, List.flatMap_singleton]) ?_
  rw [List.map_flatMap]
  refine List.flatMap_congr fun block member => ?_
  rw [seatsAt, List.flatMap_cons, List.flatMap_singleton, List.map_append, ← carried_trailing distinct,
    ← carried_placed distinct named nextDistinct (List.mem_map_of_mem member), List.filterMap_cons]
  cases carriedSlot fresh current next (planFollow current previous next) ((passOver previous next current).slot block.templateBlockId) with
  | none => rfl
  | some row => rfl

end Outcome

end OpenShapeForge.Documents
