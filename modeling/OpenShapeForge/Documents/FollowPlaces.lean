import OpenShapeForge.Documents.FollowPlan

/-! Following a template loses no row and no template block, and puts local rows where they were. -/

namespace OpenShapeForge.Documents
open Js Library

def FollowBlock.Claims (block : FollowBlock) (templateBlockId : Text) : Prop :=
  block.origin = js "template" ∧ block.templateBlockId = some templateBlockId ∧ templateBlockId ≠ []

def FirstClaimant (front : List FollowBlock) (block : FollowBlock) (templateBlockId : Text) : Prop :=
  block.Claims templateBlockId ∧ ∀ other ∈ front, ¬ other.Claims templateBlockId

def Placed (next : List FollowTemplateBlock) (front : List FollowBlock) (block : FollowBlock) (templateBlockId : Text) : Prop :=
  FirstClaimant front block templateBlockId ∧ templateBlockId ∈ next.map FollowTemplateBlock.templateBlockId

def Nearest (next : List FollowTemplateBlock) (rows : List FollowBlock) : Option Text → Prop
  | none => ∀ front block back, rows = front ++ block :: back → ∀ id, ¬ Placed next front block id
  | some id => ∃ front block back, rows = front ++ block :: back ∧ Placed next front block id ∧
      ∀ between other rest, back = between ++ other :: rest → ∀ id, ¬ Placed next (front ++ block :: between) other id

/-- The row holds no edit against what it was seeded from, or its new block is locked. -/
def Replaceable (previous : Text → Option Text) (next : List FollowTemplateBlock) (block : FollowBlock) (templateBlockId : Text) : Prop :=
  block.diverged = false ∧ previous templateBlockId = some block.key ∨ ∃ upcoming, nextById next templateBlockId = some upcoming ∧ upcoming.locked = true

section Rows
variable {previous : Text → Option Text} {next : List FollowTemplateBlock}

def passOver (previous : Text → Option Text) (next : List FollowTemplateBlock) (rows : List FollowBlock) : FollowPass :=
  rows.foldl (FollowPass.follow previous next) FollowPass.start

def fatesOf (previous : Text → Option Text) (next : List FollowTemplateBlock) (rows : List FollowBlock) : List (FollowBlock × Fate) :=
  fates previous next [] none rows

def fateAfter (previous : Text → Option Text) (next : List FollowTemplateBlock) (front : List FollowBlock) (block : FollowBlock) : Fate :=
  fate previous next (passOver previous next front).seen (passOver previous next front).anchor block

theorem passOver_concat (front : List FollowBlock) (block : FollowBlock) :
    passOver previous next (front ++ [block]) = (passOver previous next front).follow previous next block := by
  unfold passOver
  rw [List.foldl_append]
  rfl

variable (previous next) in
theorem fates_append : ∀ (front rest : List FollowBlock) (pass : FollowPass), fates previous next pass.seen pass.anchor (front ++ rest) =
    fates previous next pass.seen pass.anchor front ++
      fates previous next (front.foldl (FollowPass.follow previous next) pass).seen (front.foldl (FollowPass.follow previous next) pass).anchor rest
  | [], rest, pass => rfl
  | block :: front, rest, pass => by
    have adds := follow_adds previous next pass block
    have later := fates_append front rest (pass.follow previous next block)
    rw [adds.seen, adds.anchor] at later
    rw [List.cons_append, fates, fates, List.foldl_cons, later, List.cons_append]

variable (previous next) in
theorem fatesOf_split (front back : List FollowBlock) (block : FollowBlock) : ∃ later,
    fatesOf previous next (front ++ block :: back) = fatesOf previous next front ++ (block, fateAfter previous next front block) :: later :=
  ⟨_, fates_append _ _ front (block :: back) FollowPass.start⟩

theorem fates_rows : ∀ (rows : List FollowBlock) (seen : List Text) (anchor : Option Text),
    (fates previous next seen anchor rows).map Prod.fst = rows
  | [], _, _ => rfl
  | block :: rest, _, _ => congrArg (List.cons block) (fates_rows rest _ _)

variable (previous next) in
theorem fates_ids (rows : List FollowBlock) :
    (fatesOf previous next rows).map (fun row => row.1.id) = rows.map FollowBlock.id :=
  List.map_map.symm.trans (congrArg (List.map FollowBlock.id) (fates_rows rows [] none))

theorem claimed_some {seen : List Text} {block : FollowBlock} {id : Text} :
    claimed seen block = some id ↔ block.Claims id ∧ id ∉ seen := by
  unfold claimed FollowBlock.Claims
  split
  next isTemplate =>
    rw [Option.filter_eq_some_iff, Bool.and_eq_true, decide_eq_true_eq, Bool.not_eq_true', ← Bool.not_eq_true, List.contains_iff_mem]
    tauto
  next other => exact iff_of_false (by rintro ⟨⟩) fun both => other both.1.1

theorem fate_claim (seen : List Text) (anchor : Option Text) (block : FollowBlock) :
    (fate previous next seen anchor block).claim? = claimed seen block := by
  unfold fate
  cases claimed seen block with
  | none => rfl
  | some id =>
    dsimp only
    split
    next => rfl
    next =>
      split
      next => rfl
      next => rfl

theorem mem_seen (front : List FollowBlock) (id : Text) : id ∈ (passOver previous next front).seen ↔ ∃ block ∈ front, block.Claims id := by
  induction front using List.reverseRecOn with
  | nil => simp [passOver, FollowPass.start]
  | append_singleton front block ih =>
    rw [passOver_concat, (follow_adds _ _ _ block).seen, fate_claim, List.mem_append, Option.mem_toList, claimed_some, ih]
    simp only [List.mem_append, List.mem_singleton]
    constructor
    · rintro (⟨other, member, claims⟩ | ⟨claims, -⟩)
      · exact ⟨other, .inl member, claims⟩
      · exact ⟨block, .inr rfl, claims⟩
    · rintro ⟨other, member | rfl, claims⟩
      · exact .inl ⟨other, member, claims⟩
      · by_cases known : ∃ block ∈ front, block.Claims id
        · exact .inl known
        · exact .inr ⟨claims, known⟩

variable (previous next) in
theorem claimed_iff (front : List FollowBlock) (block : FollowBlock) (id : Text) :
    claimed (passOver previous next front).seen block = some id ↔ FirstClaimant front block id := by
  rw [claimed_some, mem_seen]
  refine and_congr_right fun _ => ?_
  rw [not_exists]
  exact forall_congr' fun other => not_and

theorem nextById_isSome (id : Text) : (nextById next id).isSome = true ↔ id ∈ next.map FollowTemplateBlock.templateBlockId := by
  unfold nextById
  rw [List.find?_isSome, List.mem_map]
  simp

theorem edited_iff (block : FollowBlock) (id : Text) : isEdited previous (nextById next id) block id = false ↔ Replaceable previous next block id := by
  unfold isEdited Replaceable
  cases nextById next id with
  | none => cases block.diverged <;> simp
  | some upcoming => cases isLocked : upcoming.locked <;> cases block.diverged <;> simp [isLocked]

theorem fateAfter_cases (previous : Text → Option Text) (next : List FollowTemplateBlock) (front : List FollowBlock) (block : FollowBlock) :
    fateAfter previous next front block = .follows (passOver previous next front).anchor ∧ (∀ id, ¬ FirstClaimant front block id) ∨
    (∃ id reseeds, fateAfter previous next front block = .placed id reseeds ∧ Placed next front block id ∧
      (reseeds = true ↔ Replaceable previous next block id)) ∨
    (∃ id, fateAfter previous next front block = .kept id (passOver previous next front).anchor ∧ FirstClaimant front block id ∧
      id ∉ next.map FollowTemplateBlock.templateBlockId ∧ ¬ Replaceable previous next block id) ∨
    ∃ id, fateAfter previous next front block = .removed id ∧ FirstClaimant front block id ∧
      id ∉ next.map FollowTemplateBlock.templateBlockId ∧ Replaceable previous next block id := by
  unfold fateAfter fate
  have first := claimed_iff previous next front block
  cases claims : claimed (passOver previous next front).seen block with
  | none => exact .inl ⟨rfl, fun id isFirst => by cases claims.symm.trans ((first id).mpr isFirst)⟩
  | some id =>
    have isFirst := (first id).mp claims
    dsimp only
    split
    next isNext =>
      refine .inr (.inl ⟨id, _, rfl, ⟨isFirst, (nextById_isSome id).mp isNext⟩, ?_⟩)
      rw [Bool.not_eq_true', edited_iff]
    next isGone =>
      have gone : id ∉ next.map FollowTemplateBlock.templateBlockId := fun member => isGone ((nextById_isSome id).mpr member)
      split
      next edited =>
        refine .inr (.inr (.inl ⟨id, rfl, isFirst, gone, fun replaceable => ?_⟩))
        exact Bool.noConfusion (edited.symm.trans ((edited_iff block id).mpr replaceable))
      next unedited => exact .inr (.inr (.inr ⟨id, rfl, isFirst, gone, (edited_iff block id).mp (Bool.eq_false_iff.mpr unedited)⟩))

theorem FirstClaimant.unique {front : List FollowBlock} {block : FollowBlock} {one two : Text} (isOne : FirstClaimant front block one)
    (isTwo : FirstClaimant front block two) : one = two :=
  Option.some.inj (isOne.1.2.1.symm.trans isTwo.1.2.1)

theorem split_concat {α : Type} {rows front back : List α} {last item : α} (split : rows ++ [last] = front ++ item :: back) :
    front = rows ∧ item = last ∧ back = [] ∨ ∃ rest, back = rest ++ [last] ∧ rows = front ++ item :: rest := by
  rcases List.eq_nil_or_concat back with rfl | ⟨rest, other, rfl⟩
  · obtain ⟨isFront, isItem⟩ := List.append_inj' split rfl
    exact .inl ⟨isFront.symm, (List.cons.inj isItem).1.symm, rfl⟩
  · rw [List.concat_eq_append, ← List.cons_append, ← List.append_assoc] at split
    obtain ⟨isRows, isLast⟩ := List.append_inj' split rfl
    rw [List.concat_eq_append, (List.cons.inj isLast).1]
    exact .inr ⟨rest, rfl, isRows⟩

theorem Nearest.concat {front : List FollowBlock} {block : FollowBlock} {anchor : Option Text} (nearest : Nearest next front anchor)
    (notPlaced : ∀ id, ¬ Placed next front block id) : Nearest next (front ++ [block]) anchor := by
  cases anchor with
  | none =>
    intro before other after split
    rcases split_concat split with ⟨rfl, rfl, -⟩ | ⟨rest, -, within⟩
    · exact notPlaced
    · exact nearest before other rest within
  | some id =>
    obtain ⟨before, other, after, rfl, placed, last⟩ := nearest
    refine ⟨before, other, after ++ [block], by rw [List.append_assoc, List.cons_append], placed, ?_⟩
    intro between one rest split
    rcases split_concat split with ⟨rfl, rfl, -⟩ | ⟨rest, -, within⟩
    · exact notPlaced
    · exact last between one rest within

variable (previous next) in
theorem anchor_nearest (front : List FollowBlock) : Nearest next front (passOver previous next front).anchor := by
  induction front using List.reverseRecOn with
  | nil =>
    intro before block back split
    exact absurd split (by simp)
  | append_singleton front block ih =>
    rw [passOver_concat, (follow_adds _ _ _ block).anchor]
    change Nearest next _ ((fateAfter previous next front block).leads _)
    rcases fateAfter_cases previous next front block with ⟨isFate, local'⟩ | ⟨id, reseeds, isFate, placed, -⟩ |
      ⟨id, isFate, first, gone, -⟩ | ⟨id, isFate, first, gone, -⟩
    · rw [isFate]
      exact ih.concat fun id placed => local' id placed.1
    · rw [isFate]
      exact ⟨front, block, [], rfl, placed, fun between other rest split => absurd split (by simp)⟩
    · rw [isFate]
      exact ih.concat fun other placed => gone (placed.1.unique first ▸ placed.2)
    · rw [isFate]
      exact ih.concat fun other placed => gone (placed.1.unique first ▸ placed.2)

theorem Nearest.mem {rows : List FollowBlock} {id : Text} (nearest : Nearest next rows (some id)) :
    id ∈ next.map FollowTemplateBlock.templateBlockId := by
  obtain ⟨_, _, _, _, placed, _⟩ := nearest
  exact placed.2

variable (previous next) in
theorem claims_nodup : ∀ (rows : List FollowBlock) (seen : List Text) (anchor : Option Text),
    ((fates previous next seen anchor rows).filterMap fun row => row.2.claim?).Nodup ∧
      ∀ id ∈ (fates previous next seen anchor rows).filterMap fun row => row.2.claim?, id ∉ seen
  | [], seen, anchor => ⟨List.nodup_nil, fun id never => absurd never List.not_mem_nil⟩
  | block :: rest, seen, anchor => by
    have later := claims_nodup rest (seen ++ (fate previous next seen anchor block).claim?.toList) ((fate previous next seen anchor block).leads anchor)
    have unseen : ∀ id ∈ (fates previous next (seen ++ (fate previous next seen anchor block).claim?.toList)
        ((fate previous next seen anchor block).leads anchor) rest).filterMap fun row => row.2.claim?, id ∉ seen :=
      fun id member isSeen => later.2 id member (List.mem_append_left _ isSeen)
    unfold fates
    rw [List.filterMap_cons]
    dsimp only
    cases claims : (fate previous next seen anchor block).claim? with
    | none =>
      rw [claims] at later unseen
      exact ⟨later.1, unseen⟩
    | some id =>
      have fresh : id ∉ seen := by
        rw [fate_claim, claimed_some] at claims
        exact claims.2
      rw [claims] at later unseen
      refine ⟨List.nodup_cons.mpr ⟨fun again => ?_, later.1⟩, List.forall_mem_cons.mpr ⟨fresh, unseen⟩⟩
      exact later.2 id again (List.mem_append_right _ List.mem_cons_self)

/-- Where a row goes: to no place, behind one, or into one. -/
def Fate.group : Fate → Option (Option Text × Bool)
  | follows anchor | kept _ anchor => some (anchor, false)
  | placed templateBlockId _ => some (some templateBlockId, true)
  | removed _ => none

/-- The groups in the plan's order, with the removed rows before. -/
def groups (next : List FollowTemplateBlock) : List (Option (Option Text × Bool)) :=
  none :: some (none, false) :: next.flatMap fun block => [some (some block.templateBlockId, true), some (some block.templateBlockId, false)]

def idsIn (group : Option (Option Text × Bool)) (fated : List (FollowBlock × Fate)) : List Text :=
  (fated.filter fun row => row.2.group = group).map fun row => row.1.id

theorem ids_trailing (anchor : Option Text) (fated : List (FollowBlock × Fate)) : idsOf (Fate.trails anchor) fated = idsIn (some (anchor, false)) fated := by
  unfold idsOf idsIn
  congr 2
  funext row
  cases row.2 <;> simp [Fate.trails, Fate.group]

theorem ids_placed (id : Text) (fated : List (FollowBlock × Fate)) : idsOf (Fate.placedAt id) fated = idsIn (some (some id, true)) fated := by
  unfold idsOf idsIn
  congr 2
  funext row
  cases row.2 <;> simp [Fate.placedAt, Fate.group]

theorem ids_removed (fated : List (FollowBlock × Fate)) : idsOf Fate.isRemoved fated = idsIn none fated := by
  unfold idsOf idsIn
  congr 2
  funext row
  cases row.2 <;> simp [Fate.isRemoved, Fate.group]

theorem groups_nodup (nextDistinct : (next.map FollowTemplateBlock.templateBlockId).Nodup) : (groups next).Nodup := by
  have inTurn : (next.flatMap fun block => [some (some block.templateBlockId, true), some (some block.templateBlockId, false)]).Nodup := by
    rw [List.nodup_flatMap]
    refine ⟨fun block _ => by simp, ?_⟩
    refine (List.pairwise_map.mp nextDistinct).imp fun different => ?_
    intro group inOne inTwo
    simp only [List.mem_cons, List.not_mem_nil, or_false] at inOne inTwo
    rcases inOne with rfl | rfl <;> rcases inTwo with same | same <;> simp_all
  refine List.nodup_cons.mpr ⟨by simp, List.nodup_cons.mpr ⟨by simp, inTurn⟩⟩

theorem mem_groups {id : Text} (listed : id ∈ next.map FollowTemplateBlock.templateBlockId) (isPlace : Bool) :
    some (some id, isPlace) ∈ groups next := by
  obtain ⟨block, member, rfl⟩ := List.mem_map.mp listed
  refine List.mem_cons_of_mem _ (List.mem_cons_of_mem _ (List.mem_flatMap.mpr ⟨block, member, ?_⟩))
  cases isPlace <;> simp

theorem mem_fatesOf {rows : List FollowBlock} {row : FollowBlock × Fate} (member : row ∈ fatesOf previous next rows) :
    ∃ front back, rows = front ++ row.1 :: back ∧ row.2 = fateAfter previous next front row.1 := by
  induction rows using List.reverseRecOn with
  | nil => exact absurd member List.not_mem_nil
  | append_singleton rows block ih =>
    have whole := fates_append previous next rows [block] FollowPass.start
    change fatesOf previous next (rows ++ [block]) = fatesOf previous next rows ++ [(block, fateAfter previous next rows block)] at whole
    rw [whole] at member
    rcases List.mem_append.mp member with earlier | here
    · obtain ⟨front, back, isRows, isFate⟩ := ih earlier
      exact ⟨front, back ++ [block], by rw [isRows, List.append_assoc, List.cons_append], isFate⟩
    · rw [List.mem_singleton.mp here]
      exact ⟨rows, [], rfl, rfl⟩

theorem group_listed {rows : List FollowBlock} {row : FollowBlock × Fate} (member : row ∈ fatesOf previous next rows) :
    row.2.group ∈ groups next := by
  obtain ⟨front, back, -, isFate⟩ := mem_fatesOf member
  have nearest := anchor_nearest previous next front
  have behind : some ((passOver previous next front).anchor, false) ∈ groups next := by
    cases isAnchor : (passOver previous next front).anchor with
    | none => exact List.mem_cons_of_mem _ List.mem_cons_self
    | some id => exact mem_groups (isAnchor ▸ nearest : Nearest next front (some id)).mem false
  rw [isFate]
  rcases fateAfter_cases previous next front row.1 with ⟨same, -⟩ | ⟨id, reseeds, same, placed, -⟩ | ⟨id, same, -⟩ | ⟨id, same, -⟩
  · rw [same]
    exact behind
  · rw [same]
    exact mem_groups placed.2 true
  · rw [same]
    exact behind
  · rw [same]
    exact List.mem_cons_self

variable (previous next) in
theorem placed_once (rows : List FollowBlock) (id : Text) :
    ((idsIn (some (some id, true)) (fatesOf previous next rows)).getLast?).toList = idsIn (some (some id, true)) (fatesOf previous next rows) := by
  have placedRows : ∀ row ∈ (fatesOf previous next rows).filter fun row => row.2.group = some (some id, true), row.2.claim? = some id := by
    intro row member
    have isGroup : row.2.group = some (some id, true) := of_decide_eq_true (List.mem_filter.mp member).2
    cases isFate : row.2 with
    | placed own reseeds =>
      rw [isFate] at isGroup
      exact congrArg some (Option.some.inj (Prod.mk.inj (Option.some.inj isGroup)).1)
    | follows _ | kept _ _ | removed _ =>
      rw [isFate] at isGroup
      cases isGroup
  have claims : (((fatesOf previous next rows).filter fun row => row.2.group = some (some id, true)).filterMap fun row => row.2.claim?).Nodup :=
    (claims_nodup _ _ rows [] none).1.sublist (List.filter_sublist.filterMap _)
  unfold idsIn
  generalize (fatesOf previous next rows).filter (fun row => row.2.group = some (some id, true)) = placed at placedRows claims
  match placed with
  | [] => rfl
  | [row] => rfl
  | first :: second :: rest =>
    rw [List.filterMap_cons_some (f := fun row : FollowBlock × Fate => row.2.claim?) (placedRows first List.mem_cons_self),
      List.filterMap_cons_some (f := fun row : FollowBlock × Fate => row.2.claim?)
        (placedRows second (List.mem_cons_of_mem _ List.mem_cons_self))] at claims
    exact absurd List.mem_cons_self (List.nodup_cons.mp claims).1

variable (previous next) in
theorem existing_placed {rows : List FollowBlock} (named : ∀ block ∈ rows, block.id ≠ []) (id : Text) :
    ((passOver previous next rows).existing id).toList = idsIn (some (some id, true)) (fatesOf previous next rows) := by
  have leaves := pass_leaves previous next rows FollowPass.start
  have isSlot : (passOver previous next rows).slotFor id = (idsIn (some (some id, true)) (fatesOf previous next rows)).getLast? := by
    have fromPass := leaves.slotFor id
    rw [ids_placed] at fromPass
    exact fromPass.trans (Option.or_none)
  have once := placed_once previous next rows id
  unfold FollowPass.existing
  rw [isSlot]
  cases last : (idsIn (some (some id, true)) (fatesOf previous next rows)).getLast? with
  | none =>
    rw [last] at once
    exact once
  | some found =>
    rw [last] at once
    obtain ⟨row, member, rfl⟩ := List.mem_map.mp (List.mem_of_getLast? last)
    obtain ⟨front, back, isRows, -⟩ := mem_fatesOf (List.mem_filter.mp member).1
    have kept : row.1.id ≠ [] := named row.1 (isRows ▸ List.mem_append_right _ List.mem_cons_self)
    rw [show Option.filter (fun id => decide (id ≠ [])) (some row.1.id) = some row.1.id from if_pos (decide_eq_true kept)]
    exact once

end Rows

def FollowSlot.existing? : FollowSlot → Option Text
  | existing id => some id
  | insert _ => none

section Plans
variable {current : List FollowBlock} {previous : Text → Option Text} {next : List FollowTemplateBlock}

theorem plan_remove : (planFollow current previous next).remove = idsIn none (fatesOf previous next current) :=
  (pass_leaves _ _ current FollowPass.start).remove.trans (ids_removed _)

theorem plan_reseed : (planFollow current previous next).reseed = (fatesOf previous next current).filterMap reseedOf :=
  (pass_leaves _ _ current FollowPass.start).reseed

theorem plan_diverge : (planFollow current previous next).diverge = idsOf Fate.isDiverged (fatesOf previous next current) :=
  (pass_leaves _ _ current FollowPass.start).diverge

theorem pass_trailers (anchor : Option Text) :
    (passOver previous next current).trailers anchor = idsIn (some (anchor, false)) (fatesOf previous next current) :=
  ((pass_leaves _ _ current FollowPass.start).trailers anchor).trans (ids_trailing anchor _)

theorem plan_order : (planFollow current previous next).order =
    (idsIn (some (none, false)) (fatesOf previous next current)).map .existing ++ next.flatMap fun block =>
      (passOver previous next current).slot block.templateBlockId ::
        (idsIn (some (some block.templateBlockId, false)) (fatesOf previous next current)).map .existing := by
  rw [← pass_trailers]
  simp only [← pass_trailers]
  rfl

theorem slot_existing (pass : FollowPass) (id : Text) : (pass.slot id).existing?.toList = (pass.existing id).toList := by
  unfold FollowPass.slot
  cases pass.existing id with
  | none => rfl
  | some found => rfl

theorem existing_map (ids : List Text) : (ids.map FollowSlot.existing).filterMap FollowSlot.existing? = ids := by
  rw [List.filterMap_map]
  exact List.filterMap_some

theorem filterMap_slot (slot : FollowSlot) (rest : List FollowSlot) :
    (slot :: rest).filterMap FollowSlot.existing? = slot.existing?.toList ++ rest.filterMap FollowSlot.existing? := by
  cases slot with
  | existing id => rfl
  | insert id => rfl

variable (previous next) in
theorem order_grouped (named : ∀ block ∈ current, block.id ≠ []) :
    (planFollow current previous next).remove ++ (planFollow current previous next).order.filterMap FollowSlot.existing? =
      (grouped (groups next) (fun row => row.2.group) (fatesOf previous next current)).map fun row => row.1.id := by
  rw [plan_remove, plan_order, List.filterMap_append, existing_map, List.filterMap_flatMap]
  unfold grouped groups
  rw [List.flatMap_cons, List.flatMap_cons, List.map_append, List.map_append, List.map_flatMap]
  refine congrArg₂ (· ++ ·) rfl (congrArg₂ (· ++ ·) rfl ?_)
  rw [List.flatMap_assoc]
  refine List.flatMap_congr fun block _ => ?_
  have place := existing_placed previous next named block.templateBlockId
  rw [← slot_existing] at place
  simp only [List.flatMap_cons, List.flatMap_nil, List.append_nil]
  change _ = idsIn (some (some block.templateBlockId, true)) _ ++ idsIn (some (some block.templateBlockId, false)) _
  rw [← place, filterMap_slot, existing_map]

theorem idsIn_sublist (group : Option (Option Text × Bool)) : (idsIn group (fatesOf previous next current)).Sublist (current.map FollowBlock.id) := by
  exact fates_ids previous next current ▸ List.filter_sublist.map _

theorem order_perm (named : ∀ block ∈ current, block.id ≠ []) (nextDistinct : (next.map FollowTemplateBlock.templateBlockId).Nodup) :
    ((planFollow current previous next).remove ++ (planFollow current previous next).order.filterMap FollowSlot.existing?).Perm
      (current.map FollowBlock.id) := by
  rw [order_grouped _ _ named, ← fates_ids previous next current]
  exact (grouped_perm _ (groups_nodup nextDistinct) fun row => group_listed).map _

variable (previous next) in
theorem mem_kind (distinct : (current.map FollowBlock.id).Nodup) {front back : List FollowBlock} {block : FollowBlock}
    (split : current = front ++ block :: back) (kind : Fate → Bool) :
    block.id ∈ ((fatesOf previous next current).filter fun row => kind row.2).map (fun row => row.1.id) ↔
      kind (fateAfter previous next front block) = true := by
  obtain ⟨later, whole⟩ := fatesOf_split previous next front back block
  have own : (block, fateAfter previous next front block) ∈ fatesOf previous next current := by
    rw [split, whole]
    exact List.mem_append_right _ List.mem_cons_self
  constructor
  · intro member
    obtain ⟨row, isRow, same⟩ := List.mem_map.mp member
    obtain ⟨inFates, isKind⟩ := List.mem_filter.mp isRow
    have isOwn : row = (block, fateAfter previous next front block) :=
      List.inj_on_of_nodup_map (fates_ids previous next current ▸ distinct) inFates own same
    rw [isOwn] at isKind
    exact isKind
  · intro isKind
    exact List.mem_map.mpr ⟨_, List.mem_filter.mpr ⟨own, isKind⟩, rfl⟩

theorem mem_idsIn (distinct : (current.map FollowBlock.id).Nodup) {front back : List FollowBlock} {block : FollowBlock}
    (split : current = front ++ block :: back) (group : Option (Option Text × Bool)) :
    block.id ∈ idsIn group (fatesOf previous next current) ↔ (fateAfter previous next front block).group = group := by
  unfold idsIn
  rw [mem_kind _ _ distinct split fun own => decide (own.group = group), decide_eq_true_eq]

variable (previous next) in
theorem mem_reseed (distinct : (current.map FollowBlock.id).Nodup) {front back : List FollowBlock} {block : FollowBlock}
    (split : current = front ++ block :: back) (id : Text) :
    (block.id, id) ∈ (planFollow current previous next).reseed ↔ fateAfter previous next front block = .placed id true := by
  rw [plan_reseed, List.mem_filterMap]
  have kinds := mem_kind previous next distinct split fun own => decide (own = .placed id true)
  rw [decide_eq_true_eq] at kinds
  rw [← kinds, List.mem_map]
  constructor
  · rintro ⟨⟨row, own⟩, member, isEntry⟩
    unfold reseedOf at isEntry
    split at isEntry
    next isPlaced =>
      obtain ⟨sameId, sameBlock⟩ := Prod.mk.inj (Option.some.inj isEntry)
      exact ⟨_, List.mem_filter.mpr ⟨member, decide_eq_true (sameBlock ▸ isPlaced)⟩, sameId⟩
    next => cases isEntry
  · rintro ⟨row, isRow, same⟩
    obtain ⟨member, isPlaced⟩ := List.mem_filter.mp isRow
    refine ⟨row, member, ?_⟩
    unfold reseedOf
    rw [of_decide_eq_true isPlaced, same]

theorem exists_first {id : Text} : ∀ {rows : List FollowBlock}, (∃ block ∈ rows, block.Claims id) →
    ∃ front block back, rows = front ++ block :: back ∧ FirstClaimant front block id := by
  intro rows
  induction rows using List.reverseRecOn with
  | nil => exact fun ⟨_, never, _⟩ => absurd never List.not_mem_nil
  | append_singleton rows last ih =>
    rintro ⟨block, member, claims⟩
    by_cases earlier : ∃ block ∈ rows, block.Claims id
    · obtain ⟨front, block, back, isRows, first⟩ := ih earlier
      exact ⟨front, block, back ++ [last], by rw [isRows, List.append_assoc, List.cons_append], first⟩
    · rcases List.mem_append.mp member with before | here
      · exact absurd ⟨block, before, claims⟩ earlier
      · rw [List.mem_singleton.mp here] at claims
        exact ⟨rows, last, [], rfl, claims, fun other before claimsToo => earlier ⟨other, before, claimsToo⟩⟩

def Holds (current : List FollowBlock) (id : Text) (slot : FollowSlot) : Prop :=
  slot = .insert id ∧ (∀ block ∈ current, ¬ block.Claims id) ∨
    ∃ front block back, current = front ++ block :: back ∧ FirstClaimant front block id ∧ slot = .existing block.id

variable (previous) in
theorem slot_holds (named : ∀ block ∈ current, block.id ≠ []) {id : Text} (listed : id ∈ next.map FollowTemplateBlock.templateBlockId) :
    Holds current id ((passOver previous next current).slot id) := by
  have placed := existing_placed previous next named id
  by_cases some_row : ∃ block ∈ current, block.Claims id
  · obtain ⟨front, block, back, isCurrent, first⟩ := exists_first some_row
    refine .inr ⟨front, block, back, isCurrent, first, ?_⟩
    have isIn : block.id ∈ idsIn (some (some id, true)) (fatesOf previous next current) := by
      obtain ⟨later, whole⟩ := fatesOf_split previous next front back block
      refine List.mem_map.mpr ⟨(block, fateAfter previous next front block), List.mem_filter.mpr ⟨?_, ?_⟩, rfl⟩
      · rw [isCurrent, whole]
        exact List.mem_append_right _ List.mem_cons_self
      · rcases fateAfter_cases previous next front block with ⟨-, never⟩ | ⟨own, reseeds, isFate, isPlaced, -⟩ |
          ⟨own, -, ownFirst, gone, -⟩ | ⟨own, -, ownFirst, gone, -⟩
        · exact absurd first (never id)
        · rw [isFate, isPlaced.1.unique first]
          exact decide_eq_true rfl
        · exact absurd listed (ownFirst.unique first ▸ gone)
        · exact absurd listed (ownFirst.unique first ▸ gone)
    rw [← placed, Option.mem_toList] at isIn
    unfold FollowPass.slot
    rw [isIn]
  · refine .inl ⟨?_, fun block member claims => some_row ⟨block, member, claims⟩⟩
    have noRow : idsIn (some (some id, true)) (fatesOf previous next current) = [] := by
      refine List.eq_nil_iff_forall_not_mem.mpr fun found member => ?_
      obtain ⟨row, isRow, -⟩ := List.mem_map.mp member
      obtain ⟨inFates, isGroup⟩ := List.mem_filter.mp isRow
      obtain ⟨front, back, isCurrent, isFate⟩ := mem_fatesOf inFates
      have isPlaced : (fateAfter previous next front row.1).group = some (some id, true) := isFate ▸ of_decide_eq_true isGroup
      rcases fateAfter_cases previous next front row.1 with ⟨same, -⟩ | ⟨own, reseeds, same, isPlace, -⟩ | ⟨own, same, -⟩ | ⟨own, same, -⟩
      · rw [same] at isPlaced
        exact Bool.noConfusion (Prod.mk.inj (Option.some.inj isPlaced)).2
      · rw [same] at isPlaced
        have isOwn : own = id := Option.some.inj (Prod.mk.inj (Option.some.inj isPlaced)).1
        exact some_row ⟨row.1, isCurrent ▸ List.mem_append_right _ List.mem_cons_self, isOwn ▸ isPlace.1.1⟩
      · rw [same] at isPlaced
        exact Bool.noConfusion (Prod.mk.inj (Option.some.inj isPlaced)).2
      · rw [same] at isPlaced
        cases isPlaced
    rw [noRow] at placed
    unfold FollowPass.slot
    rw [Option.toList_eq_nil_iff.mp placed]

end Plans

/-- The plan, for rows and template blocks with ids that are not empty. -/
theorem planFollow_keeps {current : List FollowBlock} (previous : Text → Option Text) {next : List FollowTemplateBlock}
    (distinct : (current.map FollowBlock.id).Nodup) (named : ∀ block ∈ current, block.id ≠ [])
    (nextDistinct : (next.map FollowTemplateBlock.templateBlockId).Nodup) :
    ((planFollow current previous next).remove ++ (planFollow current previous next).order.filterMap FollowSlot.existing?).Perm
      (current.map FollowBlock.id) ∧
    (∃ (place : Text → FollowSlot) (trailing : Option Text → List Text),
      (planFollow current previous next).order = (trailing none).map .existing ++
        next.flatMap (fun block => place block.templateBlockId :: (trailing (some block.templateBlockId)).map .existing) ∧
      (∀ block ∈ next, Holds current block.templateBlockId (place block.templateBlockId)) ∧
      (∀ anchor, (trailing anchor).Sublist (current.map FollowBlock.id)) ∧
      ∀ front block back, current = front ++ block :: back →
        (∀ anchor, block.id ∈ trailing anchor → (∀ id, ¬ Placed next front block id) ∧ Nearest next front anchor) ∧
        ((∀ id, ¬ Placed next front block id) → block.id ∉ (planFollow current previous next).remove →
          ∃ anchor, Nearest next front anchor ∧ block.id ∈ trailing anchor)) ∧
    ∀ front block back, current = front ++ block :: back →
      (block.id ∈ (planFollow current previous next).remove → ∃ id, FirstClaimant front block id ∧ Replaceable previous next block id) ∧
      (∀ id, (block.id, id) ∈ (planFollow current previous next).reseed → Placed next front block id ∧ Replaceable previous next block id) ∧
      ∀ id, FirstClaimant front block id → block.id ∉ (planFollow current previous next).remove →
        block.id ∉ (planFollow current previous next).reseed.map Prod.fst → block.id ∈ (planFollow current previous next).diverge := by
  refine ⟨order_perm named nextDistinct, ⟨(passOver previous next current).slot, fun anchor =>
    idsIn (some (anchor, false)) (fatesOf previous next current), plan_order, ?_, fun anchor => idsIn_sublist _, ?_⟩, ?_⟩
  · exact fun block member => slot_holds _ named (List.mem_map_of_mem member)
  · intro front block back split
    have nearest := anchor_nearest previous next front
    rw [plan_remove]
    simp only [mem_idsIn distinct split]
    rcases fateAfter_cases previous next front block with ⟨same, never⟩ | ⟨own, reseeds, same, placed, -⟩ |
      ⟨own, same, first, gone, -⟩ | ⟨own, same, first, gone, -⟩
    · rw [same]
      refine ⟨fun anchor isGroup => ?_, fun _ _ => ⟨_, nearest, rfl⟩⟩
      cases isGroup
      exact ⟨fun id placed => never id placed.1, nearest⟩
    · rw [same]
      refine ⟨fun anchor isGroup => ?_, fun never _ => absurd placed (never own)⟩
      cases isGroup
    · rw [same]
      refine ⟨fun anchor isGroup => ?_, fun _ _ => ⟨_, nearest, rfl⟩⟩
      cases isGroup
      exact ⟨fun id placed => gone (placed.1.unique first ▸ placed.2), nearest⟩
    · rw [same]
      exact ⟨fun anchor isGroup => (by cases isGroup), fun _ kept => absurd rfl kept⟩
  · intro front block back split
    rw [plan_remove, plan_diverge, mem_idsIn distinct split]
    simp only [mem_reseed _ _ distinct split]
    have flagged := mem_kind previous next distinct split Fate.isDiverged
    have seeded : block.id ∈ (planFollow current previous next).reseed.map Prod.fst ↔ ∃ id, fateAfter previous next front block = .placed id true := by
      simp only [← mem_reseed _ _ distinct split]
      rw [List.mem_map]
      constructor
      · rintro ⟨⟨_, id⟩, member, rfl⟩
        exact ⟨id, member⟩
      · rintro ⟨id, member⟩
        exact ⟨_, member, rfl⟩
    rw [seeded]
    unfold idsOf
    rw [flagged]
    rcases fateAfter_cases previous next front block with ⟨same, never⟩ | ⟨own, reseeds, same, placed, replaceable⟩ |
      ⟨own, same, first, gone, edited⟩ | ⟨own, same, first, gone, replaceable⟩
    · rw [same]
      exact ⟨fun isGroup => (by cases isGroup), fun id isPlaced => (by cases isPlaced), fun id first => absurd first (never id)⟩
    · rw [same]
      refine ⟨fun isGroup => (by cases isGroup), fun id isPlaced => ?_, fun id _ _ notSeeded => ?_⟩
      · cases isPlaced
        exact ⟨placed, replaceable.mp rfl⟩
      · cases reseeds with
        | false => rfl
        | true => exact absurd ⟨own, rfl⟩ notSeeded
    · rw [same]
      exact ⟨fun isGroup => (by cases isGroup), fun id isPlaced => (by cases isPlaced), fun _ _ _ _ => rfl⟩
    · rw [same]
      exact ⟨fun _ => ⟨own, first, replaceable⟩, fun id isPlaced => (by cases isPlaced), fun _ _ kept => absurd rfl kept⟩

/-- Two rows claim one template block: the first takes its place, the second follows it, and the last template block is new. -/
theorem planFollow_keeps_two : ((planFollow [⟨js "a", js "template", some (js "s"), false, js "old"⟩, ⟨js "b", js "template", some (js "s"), true, js "own"⟩]
      (fun _ => some (js "old")) [⟨js "t", js "new", false⟩, ⟨js "s", js "new", false⟩]).remove ++
    (planFollow [⟨js "a", js "template", some (js "s"), false, js "old"⟩, ⟨js "b", js "template", some (js "s"), true, js "own"⟩]
      (fun _ => some (js "old")) [⟨js "t", js "new", false⟩, ⟨js "s", js "new", false⟩]).order.filterMap FollowSlot.existing?).Perm [js "a", js "b"] :=
  (planFollow_keeps (fun _ => some (js "old")) (by decide) (by decide) (by decide)).1

/-- A row with an empty id is in no list of the plan but the re-seeded ones: its template block is inserted beside it. -/
theorem empty_id_unplaced : ∃ (current : List FollowBlock) (previous : Text → Option Text) (next : List FollowTemplateBlock),
    (current.map FollowBlock.id).Nodup ∧ (next.map FollowTemplateBlock.templateBlockId).Nodup ∧
      ∃ block ∈ current, block.id ∉ (planFollow current previous next).remove ∧ .existing block.id ∉ (planFollow current previous next).order :=
  ⟨[⟨[], js "template", some (js "t"), false, js "old"⟩], fun _ => some (js "old"), [⟨js "t", js "new", false⟩], by decide, by decide,
    ⟨[], js "template", some (js "t"), false, js "old"⟩, by decide, by decide, by decide⟩

end OpenShapeForge.Documents
