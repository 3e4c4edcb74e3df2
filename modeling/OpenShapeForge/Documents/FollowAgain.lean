import OpenShapeForge.Documents.FollowTwice

/-! When following a template again leaves a variant as it is. -/

namespace OpenShapeForge.Documents
open Js Library

/-- New rows get ids that no row has. -/
def Fresh (fresh : Text → Text) (current : List FollowBlock) : Prop :=
  Function.Injective fresh ∧ ∀ id, fresh id ≠ [] ∧ ∀ block ∈ current, fresh id ≠ block.id

structure Apart (fresh : Text → Text) (current : List FollowBlock) (next : List FollowTemplateBlock) : Prop where
  distinct : (current.map FollowBlock.id).Nodup
  named : ∀ block ∈ current, block.id ≠ []
  isFresh : Fresh fresh current
  nextDistinct : (next.map FollowTemplateBlock.templateBlockId).Nodup

def Local (front : List FollowBlock) (block : FollowBlock) : Prop := ∀ id, ¬ FirstClaimant front block id

def StaysLocal (current rows : List FollowBlock) : Prop :=
  ∀ front block back, current = front ++ block :: back → Local front block →
    ∀ front' row back', rows = front' ++ row :: back' → row.id = block.id → Local front' row

/-- The first row that claims a template block is kept, and at no later place than another row that claims it. -/
def FirstStays (current : List FollowBlock) (previous : Text → Option Text) (next : List FollowTemplateBlock) : Prop :=
  ∀ front first between second back, current = front ++ first :: (between ++ second :: back) → ∀ id, FirstClaimant front first id → second.Claims id →
    (id ∈ next.map FollowTemplateBlock.templateBlockId ∨ ¬ Replaceable previous next first id) ∧
      ∀ own other, (id ∈ next.map FollowTemplateBlock.templateBlockId ∧ own = some id ∨
          id ∉ next.map FollowTemplateBlock.templateBlockId ∧ Nearest next front own) →
        Nearest next (front ++ first :: between) other → own = other ∨ Before (places next) own other

def outcome (fresh : Text → Text) (current : List FollowBlock) (previous : Text → Option Text) (next : List FollowTemplateBlock) : List FollowBlock :=
  carriedOut fresh current next (planFollow current previous next)

def followAgain (fresh : Text → Text) (current : List FollowBlock) (previous : Text → Option Text) (next : List FollowTemplateBlock) : FollowPlan :=
  planFollow (outcome fresh current previous next) (nextKeys next) next

structure OnceEnough (fresh : Text → Text) (current : List FollowBlock) (previous : Text → Option Text) (next : List FollowTemplateBlock) : Prop where
  removes : (followAgain fresh current previous next).remove = []
  inserts : (followAgain fresh current previous next).insert = []
  order : (followAgain fresh current previous next).order = (outcome fresh current previous next).map fun row => .existing row.id
  reseeds : ∀ entry ∈ (followAgain fresh current previous next).reseed,
    ∃ row ∈ outcome fresh current previous next, row.id = entry.1 ∧ nextKeys next entry.2 = some row.key
  stays : StaysLocal current (outcome fresh current previous next)

section Seats
variable {next : List FollowTemplateBlock} {one two : Option Text}

theorem mem_places {id : Text} : some id ∈ places next ↔ id ∈ next.map FollowTemplateBlock.templateBlockId := by
  unfold places
  simp

theorem seats_nodup (nextDistinct : (next.map FollowTemplateBlock.templateBlockId).Nodup) : (seats next).Nodup :=
  (List.nodup_cons.mp (groups_seats next ▸ groups_nodup nextDistinct)).2

theorem seats_before (before : Before (places next) one two) {first second : Option (Option Text × Bool)} (inOne : first ∈ seatsAt one)
    (inTwo : second ∈ seatsAt two) : Before (seats next) first second := by
  have both : Before ([one, two].flatMap seatsAt) first second := by
    rw [List.flatMap_cons, List.flatMap_singleton]
    exact before_append inOne inTwo
  exact both.mono (List.Sublist.flatMap before seatsAt)

theorem seat_before_behind {id : Text} (listed : some id ∈ places next) : Before (seats next) (some (some id, true)) (some (some id, false)) := by
  have own : (seatsAt (some id)).Sublist (seats next) := by
    unfold seats
    rw [List.flatMap_def]
    exact List.sublist_flatten_of_mem (List.mem_map_of_mem listed)
  exact own

theorem seat_mem_of {place : Option Text} {isPlace : Bool} (listed : some (place, isPlace) ∈ seats next) :
    place ∈ places next ∧ some (place, isPlace) ∈ seatsAt place := by
  obtain ⟨own, isPlaceOf, member⟩ := List.mem_flatMap.mp listed
  cases own with
  | none =>
    obtain ⟨rfl, rfl⟩ := Prod.mk.inj (Option.some.inj (List.mem_singleton.mp member))
    exact ⟨isPlaceOf, member⟩
  | some id =>
    rcases List.mem_cons.mp member with same | same
    · obtain ⟨rfl, rfl⟩ := Prod.mk.inj (Option.some.inj same)
      exact ⟨isPlaceOf, member⟩
    · obtain ⟨rfl, rfl⟩ := Prod.mk.inj (Option.some.inj (List.mem_singleton.mp same))
      exact ⟨isPlaceOf, member⟩

end Seats

section Nearness
variable {next : List FollowTemplateBlock}

theorem Nearest.unique {rows : List FollowBlock} {one two : Option Text} (isOne : Nearest next rows one) (isTwo : Nearest next rows two) : one = two := by
  cases one with
  | none =>
    cases two with
    | none => rfl
    | some id =>
      obtain ⟨front, block, back, isRows, placed, -⟩ := isTwo
      exact absurd placed (isOne front block back isRows id)
  | some id =>
    obtain ⟨front, block, back, rfl, placed, last⟩ := isOne
    cases two with
    | none => exact absurd placed (isTwo front block back rfl id)
    | some other =>
      obtain ⟨front', block', back', split, placed', last'⟩ := isTwo
      rcases splits_ordered split with ⟨rfl, rfl, -⟩ | ⟨between, rfl, isBack⟩ | ⟨between, rfl, isBack⟩
      · exact congrArg some (placed.1.unique placed'.1)
      · exact absurd placed' (last between block' back' isBack other)
      · exact absurd placed (last' between block back isBack id)

end Nearness

theorem group_placed {row : FollowBlock × Fate} {id : Text} {reseeds : Bool} (placed : row.2 = .placed id reseeds) :
    row.2.group = some (some id, true) := by
  rw [placed]
  rfl

theorem claim_placed {row : FollowBlock × Fate} {id : Text} {reseeds : Bool} (placed : row.2 = .placed id reseeds) : row.2.claim? = some id := by
  rw [placed]
  rfl

section Items
variable {fresh : Text → Text} {current : List FollowBlock} {previous : Text → Option Text} {next : List FollowTemplateBlock}

def seated (fresh : Text → Text) (current : List FollowBlock) (previous : Text → Option Text) (next : List FollowTemplateBlock) :
    List (FollowBlock × Fate) :=
  grouped (seats next) (fun row => row.2.group) (items fresh current previous next)

theorem mem_additions {row : FollowBlock × Fate} (member : row ∈ additions fresh current previous next) :
    ∃ id ∈ next.map FollowTemplateBlock.templateBlockId, (passOver previous next current).existing id = none ∧
      row = (insertedRow fresh next id, .placed id true) := by
  obtain ⟨id, isId, rfl⟩ := List.mem_map.mp member
  obtain ⟨listed, isNone⟩ := List.mem_filter.mp isId
  exact ⟨id, listed, Option.isNone_iff_eq_none.mp isNone, rfl⟩

theorem items_group {row : FollowBlock × Fate} (member : row ∈ items fresh current previous next) : row.2.group ∈ groups next := by
  rcases List.mem_append.mp member with fated | added
  · exact group_listed fated
  · obtain ⟨id, listed, -, rfl⟩ := mem_additions added
    exact mem_groups listed true

theorem mem_seated {row : FollowBlock × Fate} :
    row ∈ seated fresh current previous next ↔ row ∈ items fresh current previous next ∧ row.2.group ≠ none := by
  unfold seated
  rw [mem_grouped]
  refine and_congr_right fun member => ?_
  constructor
  · intro listed isNone
    rw [isNone] at listed
    obtain ⟨place, -, never⟩ := List.mem_flatMap.mp listed
    cases place <;> simp [seatsAt] at never
  · intro isSome
    have listed := items_group member
    rw [groups_seats] at listed
    exact (List.mem_cons.mp listed).resolve_left isSome

variable (previous) in
theorem items_ids (distinct : (current.map FollowBlock.id).Nodup) (isFresh : Fresh fresh current)
    (nextDistinct : (next.map FollowTemplateBlock.templateBlockId).Nodup) :
    ((items fresh current previous next).map fun row => row.1.id).Nodup := by
  unfold items
  rw [List.map_append, fates_ids]
  refine List.Nodup.append distinct ?_ ?_
  · unfold additions
    rw [List.map_map]
    exact (nextDistinct.filter _).map isFresh.1
  · intro id inCurrent inAdded
    obtain ⟨block, isBlock, rfl⟩ := List.mem_map.mp inCurrent
    obtain ⟨row, isRow, same⟩ := List.mem_map.mp inAdded
    obtain ⟨id, -, -, rfl⟩ := mem_additions isRow
    exact (isFresh.2 id).2 block isBlock same

theorem seated_ids (distinct : (current.map FollowBlock.id).Nodup) (isFresh : Fresh fresh current)
    (nextDistinct : (next.map FollowTemplateBlock.templateBlockId).Nodup) :
    ((seated fresh current previous next).map fun row => row.1.id).Nodup := by
  have whole := grouped_perm (fun row : FollowBlock × Fate => row.2.group) (groups_nodup nextDistinct)
    fun row (member : row ∈ items fresh current previous next) => items_group member
  rw [groups_seats, grouped_cons] at whole
  have ids := (whole.map fun row => row.1.id).nodup_iff.mpr (items_ids previous distinct isFresh nextDistinct)
  rw [List.map_append] at ids
  exact (List.nodup_append'.mp ids).2.1

theorem claim_of {row : FollowBlock × Fate} (member : row ∈ items fresh current previous next) {id : Text} (claims : row.2.claim? = some id) :
    row.1.origin = js "template" ∧ row.1.templateBlockId = some id := by
  rcases List.mem_append.mp member with fated | added
  · obtain ⟨front, back, -, isFate⟩ := mem_fatesOf fated
    rw [isFate, fateAfter, fate_claim, claimed_some] at claims
    exact ⟨claims.1.1, claims.1.2.1⟩
  · obtain ⟨own, -, -, rfl⟩ := mem_additions added
    obtain rfl := Option.some.inj claims
    exact ⟨rfl, rfl⟩

theorem claim_is {row : FollowBlock × Fate} (member : row ∈ items fresh current previous next) {id own : Text} (isClaimed : row.1.Claims id)
    (claims : row.2.claim? = some own) : own = id :=
  Option.some.inj ((claim_of member claims).2.symm.trans isClaimed.2.1)

theorem claim_unique (named : ∀ block ∈ current, block.id ≠ []) {one two : FollowBlock × Fate} (inOne : one ∈ items fresh current previous next)
    (inTwo : two ∈ items fresh current previous next) {id : Text} (isOne : one.2.claim? = some id) (isTwo : two.2.claim? = some id) : one = two := by
  have apart : ∀ row ∈ fatesOf previous next current, row.2.claim? = some id → ∀ other ∈ additions fresh current previous next,
      other.2.claim? ≠ some id := by
    intro row member claims other isAdded isOther
    obtain ⟨own, listed, isNone, rfl⟩ := mem_additions isAdded
    obtain rfl := Option.some.inj isOther
    obtain ⟨front, back, split, isFate⟩ := mem_fatesOf member
    rw [isFate, fateAfter, fate_claim, claimed_some] at claims
    rcases slot_holds previous named listed with ⟨-, never⟩ | ⟨_, _, _, _, _, isExisting⟩
    · exact never row.1 (split ▸ List.mem_append_right _ List.mem_cons_self) claims.1
    · unfold FollowPass.slot at isExisting
      rw [isNone] at isExisting
      cases isExisting
  rcases List.mem_append.mp inOne with fated | added
  · rcases List.mem_append.mp inTwo with fated' | added'
    · have claims := (claims_nodup previous next current [] none).1
      exact named_once claims fated fated' isOne isTwo
    · exact absurd isTwo (apart one fated isOne two added')
  · rcases List.mem_append.mp inTwo with fated' | added'
    · exact absurd isOne (apart two fated' isTwo one added)
    · obtain ⟨own, -, -, rfl⟩ := mem_additions added
      obtain ⟨own', -, -, rfl⟩ := mem_additions added'
      obtain rfl := Option.some.inj isOne
      obtain rfl := Option.some.inj isTwo
      rfl

end Items

section Again
variable {fresh : Text → Text} {current : List FollowBlock} {previous : Text → Option Text} {next : List FollowTemplateBlock}

theorem split_settled {fronts backs : List FollowBlock} {row : FollowBlock} {rows : List (FollowBlock × Fate)}
    (split : rows.map (settled next) = fronts ++ row :: backs) :
    ∃ front item back, rows = front ++ item :: back ∧ front.map (settled next) = fronts ∧ settled next item = row ∧ back.map (settled next) = backs := by
  obtain ⟨front, rest, isRows, isFront, isRest⟩ := List.map_eq_append_iff.mp split
  obtain ⟨item, back, isItem, isRow, isBack⟩ := List.map_eq_cons_iff.mp isRest
  exact ⟨front, item, back, isItem ▸ isRows, isFront, isRow, isBack⟩

theorem follows_local {item : FollowBlock × Fate} (member : item ∈ items fresh current previous next) {anchor : Option Text}
    (follows : item.2 = .follows anchor) : ∃ front back, current = front ++ item.1 :: back ∧ Local front item.1 ∧ Nearest next front anchor := by
  rcases List.mem_append.mp member with fated | added
  · obtain ⟨front, back, split, isFate⟩ := mem_fatesOf fated
    have nearest := anchor_nearest previous next front
    rcases fateAfter_cases previous next front item.1 with ⟨same, isLocal⟩ | ⟨_, _, same, -⟩ | ⟨_, same, -⟩ | ⟨_, same, -⟩
    · obtain rfl : (passOver previous next front).anchor = anchor := Fate.follows.inj (same.symm.trans (isFate.symm.trans follows))
      exact ⟨front, back, split, isLocal, nearest⟩
    all_goals cases same.symm.trans (isFate.symm.trans follows)
  · obtain ⟨_, _, _, rfl⟩ := mem_additions added
    cases follows

theorem first_claims (stays : StaysLocal current ((seated fresh current previous next).map (settled next))) {front back : List (FollowBlock × Fate)}
    {item : FollowBlock × Fate} (split : seated fresh current previous next = front ++ item :: back) {id : Text}
    (first : FirstClaimant (front.map (settled next)) (settled next item) id) : item.2.claim? = some id := by
  have member := mem_seated.mp (split ▸ List.mem_append_right front (List.mem_cons_self (a := item) (l := back)))
  have isClaimed : item.1.Claims id := (settled_claims next item id).mp first.1
  cases isFate : item.2 with
  | follows anchor =>
    obtain ⟨before, after, isCurrent, isLocal, -⟩ := follows_local member.1 isFate
    have again := stays before item.1 after isCurrent isLocal (front.map (settled next)) (settled next item) (back.map (settled next))
      (by rw [split, List.map_append, List.map_cons]) (settled_id next item)
    exact absurd first (again id)
  | placed own reseeds =>
    have claims : item.2.claim? = some own := isFate ▸ rfl
    exact congrArg some (claim_is member.1 isClaimed claims)
  | kept own anchor =>
    have claims : item.2.claim? = some own := isFate ▸ rfl
    exact congrArg some (claim_is member.1 isClaimed claims)
  | removed own => exact absurd (isFate ▸ rfl) member.2

variable (previous) in
theorem seated_nodup (apart : Apart fresh current next) : (seated fresh current previous next).Nodup :=
  (seated_ids apart.distinct apart.isFresh apart.nextDistinct).of_map _

theorem claims_first (apart : Apart fresh current next)
    (stays : StaysLocal current ((seated fresh current previous next).map (settled next))) {front back : List (FollowBlock × Fate)}
    {item : FollowBlock × Fate} (split : seated fresh current previous next = front ++ item :: back) {id : Text} (claims : item.2.claim? = some id)
    (isNamed : id ≠ []) : FirstClaimant (front.map (settled next)) (settled next item) id := by
  have member := mem_seated.mp (split ▸ List.mem_append_right front (List.mem_cons_self (a := item) (l := back)))
  obtain ⟨isTemplate, isId⟩ := claim_of member.1 claims
  refine ⟨(settled_claims next item id).mpr ⟨isTemplate, isId, isNamed⟩, fun other inFront isOther => ?_⟩
  obtain ⟨_, _, _, isFront, first⟩ := exists_first ⟨other, inFront, isOther⟩
  obtain ⟨before, earlier, between, rfl, rfl, rfl, rfl⟩ := split_settled isFront
  rw [List.append_assoc, List.cons_append] at split
  have earlierMember := mem_seated.mp (split ▸ List.mem_append_right before (List.mem_cons_self (a := earlier) (l := between ++ item :: back)))
  obtain rfl := claim_unique apart.named earlierMember.1 member.1 (first_claims stays split first) claims
  have nodup := seated_nodup previous apart
  rw [split] at nodup
  exact (List.nodup_cons.mp (List.nodup_append'.mp nodup).2.1).1 (List.mem_append_right _ List.mem_cons_self)

theorem kept_first {item : FollowBlock × Fate} (member : item ∈ items fresh current previous next) {id : Text} {anchor : Option Text}
    (kept : item.2 = .kept id anchor) : id ∉ next.map FollowTemplateBlock.templateBlockId ∧
      ∃ front back, current = front ++ item.1 :: back ∧ FirstClaimant front item.1 id ∧ ¬ Replaceable previous next item.1 id ∧ Nearest next front anchor := by
  rcases List.mem_append.mp member with fated | added
  · obtain ⟨front, back, split, isFate⟩ := mem_fatesOf fated
    have nearest := anchor_nearest previous next front
    rcases fateAfter_cases previous next front item.1 with ⟨same, -⟩ | ⟨_, _, same, -⟩ | ⟨own, same, first, gone, edited⟩ | ⟨_, same, -⟩
    · cases same.symm.trans (isFate.symm.trans kept)
    · cases same.symm.trans (isFate.symm.trans kept)
    · obtain ⟨rfl, rfl⟩ := Fate.kept.inj (same.symm.trans (isFate.symm.trans kept))
      exact ⟨gone, front, back, split, first, edited, nearest⟩
    · cases same.symm.trans (isFate.symm.trans kept)
  · obtain ⟨_, _, _, rfl⟩ := mem_additions added
    cases kept

theorem placed_listed {item : FollowBlock × Fate} (member : item ∈ items fresh current previous next) {id : Text} {reseeds : Bool}
    (placed : item.2 = .placed id reseeds) :
    id ∈ next.map FollowTemplateBlock.templateBlockId ∧ (reseeds = false → ¬ Replaceable previous next item.1 id) := by
  rcases List.mem_append.mp member with fated | added
  · obtain ⟨front, back, split, isFate⟩ := mem_fatesOf fated
    rcases fateAfter_cases previous next front item.1 with ⟨same, -⟩ | ⟨own, _, same, isPlaced, replaceable⟩ | ⟨_, same, -⟩ | ⟨_, same, -⟩
    · cases same.symm.trans (isFate.symm.trans placed)
    · obtain ⟨rfl, rfl⟩ := Fate.placed.inj (same.symm.trans (isFate.symm.trans placed))
      exact ⟨isPlaced.2, fun isKept isReplaceable => Bool.noConfusion (isKept.symm.trans (replaceable.mpr isReplaceable))⟩
    · cases same.symm.trans (isFate.symm.trans placed)
    · cases same.symm.trans (isFate.symm.trans placed)
  · obtain ⟨own, listed, -, rfl⟩ := mem_additions added
    obtain ⟨rfl, rfl⟩ := Fate.placed.inj placed
    exact ⟨listed, fun never => Bool.noConfusion never⟩

theorem placed_again (apart : Apart fresh current next) (listedNamed : [] ∉ next.map FollowTemplateBlock.templateBlockId)
    (stays : StaysLocal current ((seated fresh current previous next).map (settled next))) {front back : List (FollowBlock × Fate)}
    {item : FollowBlock × Fate} (split : seated fresh current previous next = front ++ item :: back) (id : Text) :
    Placed next (front.map (settled next)) (settled next item) id ↔ ∃ reseeds, item.2 = .placed id reseeds := by
  have member := mem_seated.mp (split ▸ List.mem_append_right front (List.mem_cons_self (a := item) (l := back)))
  constructor
  · intro placed
    have claims := first_claims stays split placed.1
    cases isFate : item.2 with
    | follows anchor =>
      rw [isFate] at claims
      cases claims
    | placed own reseeds =>
      rw [isFate] at claims
      obtain rfl := Option.some.inj claims
      exact ⟨reseeds, rfl⟩
    | kept own anchor =>
      rw [isFate] at claims
      obtain rfl := Option.some.inj claims
      exact absurd placed.2 (kept_first member.1 isFate).1
    | removed own => exact absurd (isFate ▸ rfl) member.2
  · rintro ⟨reseeds, isPlaced⟩
    have listed := (placed_listed member.1 isPlaced).1
    exact ⟨claims_first apart stays split (claim_placed isPlaced) fun isEmpty => listedNamed (isEmpty ▸ listed), listed⟩

theorem seated_places {one two : FollowBlock × Fate} {placeOne placeTwo : Option Text} {isOne isTwo : Bool}
    (inOne : one ∈ seated fresh current previous next) (inTwo : two ∈ seated fresh current previous next) (atOne : one.2.group = some (placeOne, isOne))
    (atTwo : two.2.group = some (placeTwo, isTwo)) (before : Before (places next) placeOne placeTwo) :
    Before (seated fresh current previous next) one two := by
  have listedOne := (mem_grouped.mp inOne).2
  have listedTwo := (mem_grouped.mp inTwo).2
  refine grouped_apart (mem_seated.mp inOne).1 (mem_seated.mp inTwo).1 ?_
  rw [atOne, atTwo] at *
  exact seats_before before (seat_mem_of listedOne).2 (seat_mem_of listedTwo).2

theorem seated_behind {one two : FollowBlock × Fate} {id : Text} (inOne : one ∈ seated fresh current previous next)
    (inTwo : two ∈ seated fresh current previous next) (atOne : one.2.group = some (some id, true)) (atTwo : two.2.group = some (some id, false)) :
    Before (seated fresh current previous next) one two := by
  have listed := (mem_grouped.mp inOne).2
  refine grouped_apart (mem_seated.mp inOne).1 (mem_seated.mp inTwo).1 ?_
  rw [atOne, atTwo] at *
  exact seat_before_behind (seat_mem_of listed).1

theorem seated_stable {one two : FollowBlock × Fate} (before : Before (items fresh current previous next) one two)
    (same : one.2.group = two.2.group) (seat : one.2.group ≠ none) : Before (seated fresh current previous next) one two :=
  grouped_stable before same (mem_grouped.mp (mem_seated.mpr ⟨before.mem.1, seat⟩)).2

variable (previous) in
theorem seat_taken (apart : Apart fresh current next) {id : Text} (listed : id ∈ next.map FollowTemplateBlock.templateBlockId) :
    ∃ row ∈ seated fresh current previous next, ∃ reseeds, row.2 = .placed id reseeds := by
  have place := existing_placed previous next apart.named id
  cases found : (passOver previous next current).existing id with
  | none =>
    have added : (insertedRow fresh next id, Fate.placed id true) ∈ additions fresh current previous next :=
      List.mem_map.mpr ⟨id, List.mem_filter.mpr ⟨listed, Option.isNone_iff_eq_none.mpr found⟩, rfl⟩
    exact ⟨_, mem_seated.mpr ⟨List.mem_append_right _ added, Option.some_ne_none _⟩, true, rfl⟩
  | some own =>
    rw [found] at place
    have inSeat : own ∈ idsIn (some (some id, true)) (fatesOf previous next current) := place ▸ List.mem_singleton_self own
    obtain ⟨row, isRow, -⟩ := List.mem_map.mp inSeat
    obtain ⟨fated, isGroup⟩ := List.mem_filter.mp isRow
    have group : row.2.group = some (some id, true) := of_decide_eq_true isGroup
    refine ⟨row, mem_seated.mpr ⟨List.mem_append_left _ fated, group ▸ Option.some_ne_none _⟩, ?_⟩
    cases isFate : row.2 with
    | placed other reseeds =>
      rw [isFate] at group
      obtain rfl := Option.some.inj (Prod.mk.inj (Option.some.inj group)).1
      exact ⟨reseeds, rfl⟩
    | follows _ | kept _ _ | removed _ =>
      rw [isFate] at group
      cases group

theorem nearest_again (apart : Apart fresh current next) (listedNamed : [] ∉ next.map FollowTemplateBlock.templateBlockId)
    (stays : StaysLocal current ((seated fresh current previous next).map (settled next))) {front back : List (FollowBlock × Fate)}
    {item : FollowBlock × Fate} (split : seated fresh current previous next = front ++ item :: back) {anchor : Option Text}
    (behind : item.2.group = some (anchor, false)) : Nearest next (front.map (settled next)) anchor := by
  have nodup := seated_nodup previous apart
  have member : item ∈ seated fresh current previous next := split ▸ List.mem_append_right front List.mem_cons_self
  -- a placed row in front is at a place before
  have inFront : ∀ {before between : List (FollowBlock × Fate)} {earlier : FollowBlock × Fate} {id : Text}, front = before ++ earlier :: between →
      Placed next (before.map (settled next)) (settled next earlier) id →
      (∃ reseeds, earlier.2 = .placed id reseeds) ∧ Before (seated fresh current previous next) earlier item ∧ ¬ Before (places next) anchor (some id) := by
    intro before between earlier id isFront placed
    have whole : seated fresh current previous next = before ++ earlier :: (between ++ item :: back) := by
      rw [split, isFront, List.append_assoc, List.cons_append]
    obtain ⟨reseeds, isPlaced⟩ := (placed_again apart listedNamed stays whole id).mp placed
    have earlierFirst : Before (seated fresh current previous next) earlier item :=
      split ▸ before_split front back (isFront ▸ List.mem_append_right before List.mem_cons_self)
    refine ⟨⟨reseeds, isPlaced⟩, earlierFirst, fun after => earlierFirst.asymm nodup ?_⟩
    have earlierMember : earlier ∈ seated fresh current previous next := earlierFirst.mem.1
    exact seated_places member earlierMember behind (group_placed isPlaced) after
  cases anchor with
  | none =>
    intro fronts row backs isFront id placed
    obtain ⟨before, earlier, between, split', rfl, rfl, -⟩ := split_settled isFront
    have listed : some id ∈ places next := mem_places.mpr placed.2
    exact (inFront split' placed).2.2 (before_cons ((List.mem_cons.mp listed).resolve_left (Option.some_ne_none id)))
  | some id =>
    have listed : some id ∈ places next := (seat_mem_of (behind ▸ (mem_grouped.mp member).2)).1
    obtain ⟨holder, isHolder, reseeds, holds⟩ := seat_taken previous apart (mem_places.mp listed)
    have first := seated_behind isHolder member (group_placed holds) behind
    obtain ⟨before, between, isFront⟩ := List.append_of_mem (Before.in_front (split ▸ first) (split ▸ nodup))
    have whole : seated fresh current previous next = before ++ holder :: (between ++ item :: back) := by
      rw [split, isFront, List.append_assoc, List.cons_append]
    refine ⟨before.map (settled next), settled next holder, between.map (settled next), by rw [isFront, List.map_append, List.map_cons],
      (placed_again apart listedNamed stays whole id).mpr ⟨reseeds, holds⟩, ?_⟩
    intro middles row rests isBetween other placed
    obtain ⟨middle, later, rest, rfl, rfl, rfl, -⟩ := split_settled isBetween
    have isFront' : front = (before ++ holder :: middle) ++ later :: rest := by
      rw [isFront, List.append_assoc, List.cons_append]
    rw [← List.map_cons, ← List.map_append] at placed
    obtain ⟨⟨reseeds', isPlaced⟩, laterFirst, notAfter⟩ := inFront isFront' placed
    have holderFirst : Before (seated fresh current previous next) holder later := by
      rw [split, isFront', List.append_assoc, List.append_assoc, List.cons_append]
      exact (before_cons (List.mem_append_right _ List.mem_cons_self)).mono (List.sublist_append_right _ _)
    by_cases same : other = id
    · subst same
      obtain rfl := claim_unique apart.named (mem_seated.mp isHolder).1 (mem_seated.mp laterFirst.mem.1).1 (claim_placed holds) (claim_placed isPlaced)
      exact Before.irrefl nodup holderFirst
    · have otherListed : some other ∈ places next := mem_places.mpr placed.2
      rcases before_total listed otherListed fun isSame => same (Option.some.inj isSame).symm with before' | after
      · exact notAfter before'
      · exact holderFirst.asymm nodup (seated_places laterFirst.mem.1 isHolder (group_placed isPlaced) (group_placed holds) after)

theorem gone_kept {block : FollowBlock} {id : Text} (gone : id ∉ next.map FollowTemplateBlock.templateBlockId) :
    ¬ Replaceable (nextKeys next) next block id := by
  have none : nextById next id = none := Option.not_isSome_iff_eq_none.mp fun isSome => gone ((nextById_isSome id).mp isSome)
  rintro (⟨-, same⟩ | ⟨upcoming, found, -⟩)
  · rw [nextKeys, none] at same
    cases same
  · cases none.symm.trans found

theorem behind_of {row : FollowBlock × Fate} (seat : row.2.group ≠ none) (noPlace : ∀ id reseeds, row.2 ≠ .placed id reseeds) :
    ∃ anchor, row.2.group = some (anchor, false) := by
  cases isFate : row.2 with
  | follows anchor | kept _ anchor => exact ⟨anchor, rfl⟩
  | placed id reseeds => exact absurd isFate (noPlace id reseeds)
  | removed id => exact absurd (isFate ▸ rfl) seat

theorem group_again (apart : Apart fresh current next) (listedNamed : [] ∉ next.map FollowTemplateBlock.templateBlockId)
    (stays : StaysLocal current ((seated fresh current previous next).map (settled next))) {front back : List (FollowBlock × Fate)}
    {item : FollowBlock × Fate} (split : seated fresh current previous next = front ++ item :: back) :
    (fateAfter (nextKeys next) next (front.map (settled next)) (settled next item)).group = item.2.group := by
  have member := mem_seated.mp (split ▸ List.mem_append_right front (List.mem_cons_self (a := item) (l := back)))
  have again := placed_again apart listedNamed stays split
  have nearest := anchor_nearest (nextKeys next) next (front.map (settled next))
  have behind : (∀ id, ¬ Placed next (front.map (settled next)) (settled next item) id) →
      some ((passOver (nextKeys next) next (front.map (settled next))).anchor, false) = item.2.group := by
    intro noPlace
    obtain ⟨anchor, isBehind⟩ := behind_of member.2 fun id reseeds isPlaced => noPlace id ((again id).mpr ⟨reseeds, isPlaced⟩)
    rw [isBehind, nearest.unique (nearest_again apart listedNamed stays split isBehind)]
  rcases fateAfter_cases (nextKeys next) next (front.map (settled next)) (settled next item) with ⟨same, isLocal⟩ |
    ⟨id, _, same, placed, -⟩ | ⟨id, same, first, gone, -⟩ | ⟨id, -, -, gone, replaceable⟩
  · rw [same]
    exact behind fun id placed => isLocal id placed.1
  · obtain ⟨reseeds, isPlaced⟩ := (again id).mp placed
    rw [same, isPlaced]
    rfl
  · rw [same]
    exact behind fun other placed => gone (placed.1.unique first ▸ placed.2)
  · exact absurd replaceable (gone_kept gone)

theorem fates_again (apart : Apart fresh current next) (listedNamed : [] ∉ next.map FollowTemplateBlock.templateBlockId)
    (stays : StaysLocal current ((seated fresh current previous next).map (settled next))) : ∀ front back : List (FollowBlock × Fate),
      seated fresh current previous next = front ++ back →
      (fatesOf (nextKeys next) next (front.map (settled next))).map (fun row => (row.1.id, row.2.group)) = front.map fun item => (item.1.id, item.2.group) := by
  intro front
  induction front using List.reverseRecOn with
  | nil => exact fun _ _ => rfl
  | append_singleton front item ih =>
    intro back split
    rw [List.append_assoc, List.singleton_append] at split
    have whole := fates_append (nextKeys next) next (front.map (settled next)) [settled next item] FollowPass.start
    change fatesOf (nextKeys next) next (front.map (settled next) ++ [settled next item]) = fatesOf (nextKeys next) next (front.map (settled next)) ++
      [(settled next item, fateAfter (nextKeys next) next (front.map (settled next)) (settled next item))] at whole
    rw [List.map_append, List.map_singleton, whole, List.map_append, List.map_append, ih _ split, List.map_singleton, List.map_singleton,
      group_again apart listedNamed stays split, settled_id]

theorem ids_again (apart : Apart fresh current next) (listedNamed : [] ∉ next.map FollowTemplateBlock.templateBlockId)
    (stays : StaysLocal current ((seated fresh current previous next).map (settled next))) (group : Option (Option Text × Bool)) :
    idsIn group (fatesOf (nextKeys next) next ((seated fresh current previous next).map (settled next))) =
      ((seated fresh current previous next).filter fun item => item.2.group = group).map fun item => item.1.id := by
  have pairs := fates_again apart listedNamed stays (seated fresh current previous next) [] (List.append_nil _).symm
  have kept := congrArg (fun rows : List (Text × Option (Option Text × Bool)) => (rows.filter fun row => row.2 = group).map Prod.fst) pairs
  simp only [List.filter_map, List.map_map] at kept
  exact kept

variable (previous next) in
theorem again_named (isFresh : Fresh fresh current) (named : ∀ block ∈ current, block.id ≠ []) :
    ∀ row ∈ (seated fresh current previous next).map (settled next), row.id ≠ [] := by
  intro row member
  obtain ⟨item, isItem, rfl⟩ := List.mem_map.mp member
  rw [settled_id]
  rcases List.mem_append.mp (mem_seated.mp isItem).1 with fated | added
  · obtain ⟨front, back, split, -⟩ := mem_fatesOf fated
    exact named item.1 (split ▸ List.mem_append_right _ List.mem_cons_self)
  · obtain ⟨id, -, -, rfl⟩ := mem_additions added
    exact (isFresh.2 id).1

theorem order_again (apart : Apart fresh current next) (listedNamed : [] ∉ next.map FollowTemplateBlock.templateBlockId)
    (stays : StaysLocal current ((seated fresh current previous next).map (settled next))) :
    (planFollow ((seated fresh current previous next).map (settled next)) (nextKeys next) next).remove = [] ∧
      (planFollow ((seated fresh current previous next).map (settled next)) (nextKeys next) next).order.filterMap FollowSlot.existing? =
        ((seated fresh current previous next).map (settled next)).map FollowBlock.id := by
  have ids := ids_again apart listedNamed stays
  have removes : (planFollow ((seated fresh current previous next).map (settled next)) (nextKeys next) next).remove = [] := by
    rw [plan_remove, ids, List.map_eq_nil_iff, List.filter_eq_nil_iff]
    exact fun item member isNone => (mem_seated.mp member).2 (of_decide_eq_true isNone)
  refine ⟨removes, ?_⟩
  have whole := order_grouped (nextKeys next) next (again_named previous next apart.isFresh apart.named)
  rw [groups_seats, grouped_cons, List.map_append] at whole
  change _ = idsIn none (fatesOf (nextKeys next) next _) ++ _ at whole
  rw [← plan_remove, removes, List.nil_append, List.nil_append] at whole
  have seatIds : ∀ seat ∈ seats next, idsIn seat (fatesOf (nextKeys next) next ((seated fresh current previous next).map (settled next))) =
      ((items fresh current previous next).filter fun item => item.2.group = seat).map fun item => item.1.id := by
    intro seat listed
    rw [ids seat]
    exact congrArg _ (grouped_group _ _ (seats_nodup apart.nextDistinct) listed)
  calc
    _ = (seats next).flatMap fun seat => idsIn seat (fatesOf (nextKeys next) next ((seated fresh current previous next).map (settled next))) :=
      whole.trans List.map_flatMap
    _ = (seats next).flatMap fun seat => ((items fresh current previous next).filter fun item => item.2.group = seat).map fun item => item.1.id :=
      List.flatMap_congr seatIds
    _ = (seated fresh current previous next).map fun item => item.1.id := List.map_flatMap.symm
    _ = _ := by
      rw [List.map_map]
      exact List.map_congr_left fun item _ => (settled_id next item).symm

theorem slot_existing_of {rows : List FollowBlock} {keys : Text → Option Text} (named : ∀ block ∈ rows, block.id ≠ []) {id : Text}
    (listed : id ∈ next.map FollowTemplateBlock.templateBlockId) {row : FollowBlock} (member : row ∈ rows) (claims : row.Claims id) :
    ∃ own, (passOver keys next rows).existing id = some own := by
  rcases slot_holds keys named listed with ⟨-, never⟩ | ⟨_, _, _, _, _, isExisting⟩
  · exact absurd claims (never row member)
  · unfold FollowPass.slot at isExisting
    cases found : (passOver keys next rows).existing id with
    | none =>
      rw [found] at isExisting
      cases isExisting
    | some own => exact ⟨own, rfl⟩

theorem insert_none {rows : List FollowBlock} {keys : Text → Option Text} (taken : ∀ block ∈ next, ∃ own, (passOver keys next rows).existing block.templateBlockId = some own) :
    (planFollow rows keys next).insert = [] ∧ ∀ slot ∈ (planFollow rows keys next).order, ∃ id, slot = .existing id := by
  constructor
  · refine List.map_eq_nil_iff.mpr (List.filter_eq_nil_iff.mpr fun block member isNone => ?_)
    obtain ⟨own, found⟩ := taken block member
    change ((passOver keys next rows).existing block.templateBlockId).isNone = true at isNone
    rw [found] at isNone
    cases isNone
  · intro slot member
    rw [plan_order] at member
    rcases List.mem_append.mp member with trailing | inTurn
    · obtain ⟨id, -, rfl⟩ := List.mem_map.mp trailing
      exact ⟨id, rfl⟩
    · obtain ⟨block, isBlock, inBlock⟩ := List.mem_flatMap.mp inTurn
      rcases List.mem_cons.mp inBlock with rfl | trailing
      · obtain ⟨own, found⟩ := taken block isBlock
        unfold FollowPass.slot
        rw [found]
        exact ⟨own, rfl⟩
      · obtain ⟨id, -, rfl⟩ := List.mem_map.mp trailing
        exact ⟨id, rfl⟩

theorem all_existing {order : List FollowSlot} (each : ∀ slot ∈ order, ∃ id, slot = .existing id) :
    (order.filterMap FollowSlot.existing?).map .existing = order := by
  induction order with
  | nil => rfl
  | cons slot rest ih =>
    obtain ⟨id, rfl⟩ := each slot List.mem_cons_self
    exact congrArg (List.cons (FollowSlot.existing id)) (ih fun other member => each other (List.mem_cons_of_mem _ member))

variable (previous) in
theorem taken_again (apart : Apart fresh current next) (listedNamed : [] ∉ next.map FollowTemplateBlock.templateBlockId) :
    ∀ block ∈ next, ∃ own,
      (passOver (nextKeys next) next ((seated fresh current previous next).map (settled next))).existing block.templateBlockId = some own := by
  intro block isBlock
  have listed : block.templateBlockId ∈ next.map FollowTemplateBlock.templateBlockId := List.mem_map_of_mem isBlock
  obtain ⟨row, member, reseeds, placed⟩ := seat_taken previous apart listed
  obtain ⟨isTemplate, isId⟩ := claim_of (mem_seated.mp member).1 (claim_placed placed)
  have claims : (settled next row).Claims block.templateBlockId :=
    (settled_claims next row _).mpr ⟨isTemplate, isId, fun isEmpty => listedNamed (isEmpty ▸ listed)⟩
  exact slot_existing_of (again_named previous next apart.isFresh apart.named) listed (List.mem_map_of_mem member) claims

theorem reseed_again (apart : Apart fresh current next) (listedNamed : [] ∉ next.map FollowTemplateBlock.templateBlockId)
    (stays : StaysLocal current ((seated fresh current previous next).map (settled next))) {entry : Text × Text}
    (isEntry : entry ∈ (planFollow ((seated fresh current previous next).map (settled next)) (nextKeys next) next).reseed) :
    ∃ row ∈ (seated fresh current previous next).map (settled next), row.id = entry.1 ∧ nextKeys next entry.2 = some row.key := by
  rw [plan_reseed, List.mem_filterMap] at isEntry
  obtain ⟨⟨row, own⟩, fated, isReseed⟩ := isEntry
  unfold reseedOf at isReseed
  split at isReseed
  next id isPlaced =>
    obtain rfl := Option.some.inj isReseed
    obtain ⟨fronts, backs, isRows, isFate⟩ := mem_fatesOf fated
    obtain ⟨front, item, back, split, rfl, isRow, -⟩ := split_settled isRows
    dsimp only at isPlaced isRow isFate
    subst isRow
    rw [isFate] at isPlaced
    refine ⟨settled next item, isRows ▸ List.mem_append_right _ List.mem_cons_self, rfl, ?_⟩
    rcases fateAfter_cases (nextKeys next) next (front.map (settled next)) (settled next item) with ⟨same, -⟩ |
      ⟨own', reseeds, same, placed, replaceable⟩ | ⟨_, same, -⟩ | ⟨_, same, -⟩
    · cases same.symm.trans isPlaced
    · obtain ⟨rfl, rfl⟩ := Fate.placed.inj (same.symm.trans isPlaced)
      obtain ⟨first, was⟩ := (placed_again apart listedNamed stays split own').mp placed
      have member := (mem_seated.mp (split ▸ List.mem_append_right front List.mem_cons_self)).1
      have upcoming : ∃ block, nextById next own' = some block := Option.isSome_iff_exists.mp ((nextById_isSome own').mpr placed.2)
      obtain ⟨block, found⟩ := upcoming
      cases first with
      | true =>
        unfold settled nextKeys
        rw [was]
        dsimp only
        rw [found]
        rfl
      | false =>
        have notReplaceable := (placed_listed member was).2 rfl
        rcases replaceable.mp rfl with ⟨unedited, -⟩ | locked
        · unfold settled at unedited
          rw [was] at unedited
          cases unedited
        · exact absurd (.inr locked) notReplaceable
    · cases same.symm.trans isPlaced
    · cases same.symm.trans isPlaced
  next => cases isReseed

theorem mem_items_of_split {front back : List FollowBlock} {block : FollowBlock} (split : current = front ++ block :: back) :
    (block, fateAfter previous next front block) ∈ items fresh current previous next := by
  obtain ⟨later, whole⟩ := fatesOf_split previous next front back block
  refine List.mem_append_left _ ?_
  rw [split, whole]
  exact List.mem_append_right _ List.mem_cons_self

theorem items_before {front between back : List FollowBlock} {first second : FollowBlock}
    (split : current = front ++ first :: (between ++ second :: back)) :
    Before (items fresh current previous next) (first, fateAfter previous next front first)
      (second, fateAfter previous next (front ++ first :: between) second) := by
  have split' : current = (front ++ first :: between) ++ second :: back := by
    rw [split, List.append_assoc, List.cons_append]
  obtain ⟨later, whole⟩ := fatesOf_split previous next (front ++ first :: between) back second
  obtain ⟨later', whole'⟩ := fatesOf_split previous next front between first
  have both : Before (fatesOf previous next current) (first, fateAfter previous next front first)
      (second, fateAfter previous next (front ++ first :: between) second) := by
    rw [split', whole]
    exact before_split _ _ (whole' ▸ List.mem_append_right _ List.mem_cons_self)
  exact both.mono (List.sublist_append_left _ _)

variable (previous next) in
theorem local_seat {front : List FollowBlock} {block : FollowBlock} (isLocal : Local front block) :
    ∃ anchor, fateAfter previous next front block = .follows anchor ∧ Nearest next front anchor := by
  rcases fateAfter_cases previous next front block with ⟨same, -⟩ | ⟨id, _, -, placed, -⟩ | ⟨id, -, first, -⟩ | ⟨id, -, first, -⟩
  · exact ⟨_, same, anchor_nearest previous next front⟩
  · exact absurd placed.1 (isLocal id)
  · exact absurd first (isLocal id)
  · exact absurd first (isLocal id)

variable (previous next) in
theorem first_seat {front : List FollowBlock} {block : FollowBlock} {id : Text} (first : FirstClaimant front block id) :
    (fateAfter previous next front block).group = some (some id, true) ∧ id ∈ next.map FollowTemplateBlock.templateBlockId ∨
      (∃ anchor, (fateAfter previous next front block).group = some (anchor, false) ∧ Nearest next front anchor) ∧
        id ∉ next.map FollowTemplateBlock.templateBlockId ∧ ¬ Replaceable previous next block id ∨
      (fateAfter previous next front block).group = none := by
  rcases fateAfter_cases previous next front block with ⟨-, isLocal⟩ | ⟨own, _, same, placed, -⟩ | ⟨own, same, isFirst, gone, edited⟩ | ⟨own, same, -⟩
  · exact absurd first (isLocal id)
  · obtain rfl := placed.1.unique first
    exact .inl ⟨same ▸ rfl, placed.2⟩
  · obtain rfl := isFirst.unique first
    exact .inr (.inl ⟨⟨_, same ▸ rfl, anchor_nearest previous next front⟩, gone, edited⟩)
  · exact .inr (.inr (same ▸ rfl))

theorem not_removed {front : List FollowBlock} {block : FollowBlock} {id : Text} (first : FirstClaimant front block id)
    (kept : id ∈ next.map FollowTemplateBlock.templateBlockId ∨ ¬ Replaceable previous next block id) :
    (fateAfter previous next front block).group ≠ none := by
  rcases fateAfter_cases previous next front block with ⟨same, -⟩ | ⟨_, _, same, -⟩ | ⟨_, same, -⟩ | ⟨own, -, isFirst, gone, replaceable⟩
  · exact same ▸ Option.some_ne_none _
  · exact same ▸ Option.some_ne_none _
  · exact same ▸ Option.some_ne_none _
  · obtain rfl := isFirst.unique first
    exact absurd kept (not_or.mpr ⟨gone, not_not.mpr replaceable⟩)

theorem stays_of_first (apart : Apart fresh current next) (firstStays : FirstStays current previous next) :
    StaysLocal current ((seated fresh current previous next).map (settled next)) := by
  intro front block back split isLocal fronts row backs isRows sameId id first
  obtain ⟨front', item, back', isSeated, rfl, rfl, rfl⟩ := split_settled isRows
  have member : item ∈ seated fresh current previous next := isSeated ▸ List.mem_append_right front' List.mem_cons_self
  have isOwn : item = (block, fateAfter previous next front block) :=
    List.inj_on_of_nodup_map (items_ids previous apart.distinct apart.isFresh apart.nextDistinct) (mem_seated.mp member).1
      (mem_items_of_split split) ((settled_id next item).symm.trans sameId)
  have isBlock : item.1 = block := congrArg Prod.fst isOwn
  have claims : block.Claims id := isBlock ▸ (settled_claims next item id).mp first.1
  have earlier : ∃ other ∈ front, other.Claims id := by
    by_contra none
    exact isLocal id ⟨claims, fun other inFront isOther => none ⟨other, inFront, isOther⟩⟩
  obtain ⟨before, holder, between, rfl, holds⟩ := exists_first earlier
  rw [List.append_assoc, List.cons_append] at split
  obtain ⟨kept, order⟩ := firstStays before holder between block back split id holds claims
  obtain ⟨anchor, follows, nearest⟩ := local_seat previous next isLocal
  have atAnchor : item.2.group = some (anchor, false) := by
    rw [isOwn, follows]
    rfl
  have isSeatedHolder : (holder, fateAfter previous next before holder) ∈ seated fresh current previous next :=
    mem_seated.mpr ⟨mem_items_of_split split, not_removed holds kept⟩
  have inItems : Before (items fresh current previous next) (holder, fateAfter previous next before holder) item := isOwn ▸ items_before split
  have holderFirst : Before (seated fresh current previous next) (holder, fateAfter previous next before holder) item := by
    rcases first_seat previous next holds with ⟨group, listed⟩ | ⟨⟨own, group, isNearest⟩, gone, -⟩ | isRemoved
    · rcases order (some id) anchor (.inl ⟨listed, rfl⟩) nearest with rfl | isBefore
      · exact seated_behind isSeatedHolder member group atAnchor
      · exact seated_places isSeatedHolder member group atAnchor isBefore
    · rcases order own anchor (.inr ⟨gone, isNearest⟩) nearest with rfl | isBefore
      · exact seated_stable inItems (group.trans atAnchor.symm) (mem_seated.mp isSeatedHolder).2
      · exact seated_places isSeatedHolder member group atAnchor isBefore
    · exact absurd isRemoved (not_removed holds kept)
  have inFront : (holder, fateAfter previous next before holder) ∈ front' :=
    Before.in_front (isSeated ▸ holderFirst) (isSeated ▸ seated_nodup previous apart)
  exact first.2 _ (List.mem_map_of_mem inFront) ((settled_claims next _ id).mpr holds.1)

theorem first_of_stays (apart : Apart fresh current next) (stays : StaysLocal current ((seated fresh current previous next).map (settled next))) :
    FirstStays current previous next := by
  intro front first between second back split id isFirst claims
  have split' : current = (front ++ first :: between) ++ second :: back := by
    rw [split, List.append_assoc, List.cons_append]
  have isLocal : Local (front ++ first :: between) second := by
    intro own isOwn
    have same : own = id := Option.some.inj (isOwn.1.2.1.symm.trans claims.2.1)
    exact isOwn.2 first (List.mem_append_right _ List.mem_cons_self) (same ▸ isFirst.1)
  obtain ⟨anchor, follows, nearest⟩ := local_seat previous next isLocal
  have atAnchor : (fateAfter previous next (front ++ first :: between) second).group = some (anchor, false) := follows ▸ rfl
  have member : (second, fateAfter previous next (front ++ first :: between) second) ∈ seated fresh current previous next :=
    mem_seated.mpr ⟨mem_items_of_split split', atAnchor ▸ Option.some_ne_none _⟩
  obtain ⟨front', back', isSeated⟩ := List.append_of_mem member
  -- the second row has an earlier one before it again, which is the first
  have earlier : ∃ other ∈ front'.map (settled next), other.Claims id := by
    by_contra none
    have again := stays _ second back split' isLocal (front'.map (settled next)) (settled next (second, _)) (back'.map (settled next))
      (by rw [isSeated, List.map_append, List.map_cons]) (settled_id next _)
    exact again id ⟨(settled_claims next _ id).mpr claims, fun other inFront isOther => none ⟨other, inFront, isOther⟩⟩
  obtain ⟨_, _, _, isFront, holds⟩ := exists_first earlier
  obtain ⟨before, holder, rest, rfl, rfl, rfl, rfl⟩ := split_settled isFront
  have whole := isSeated
  rw [List.append_assoc, List.cons_append] at whole
  have holderMember := (mem_seated.mp (whole ▸ List.mem_append_right before List.mem_cons_self : holder ∈ seated fresh current previous next))
  have isClaim : (fateAfter previous next front first).claim? = some id := by
    rw [fateAfter, fate_claim, claimed_iff]
    exact isFirst
  obtain rfl : holder = (first, fateAfter previous next front first) :=
    claim_unique apart.named holderMember.1 (mem_items_of_split split) (first_claims stays whole holds) isClaim
  have holderFirst : Before (seated fresh current previous next) (first, fateAfter previous next front first)
      (second, fateAfter previous next (front ++ first :: between) second) :=
    isSeated ▸ before_split _ back' (List.mem_append_right before List.mem_cons_self)
  have notAfter : ∀ own, ∀ isPlace, (fateAfter previous next front first).group = some (own, isPlace) → own = anchor ∨ Before (places next) own anchor := by
    intro own isPlace group
    by_cases same : own = anchor
    · exact .inl same
    · have ownListed := (seat_mem_of (group ▸ (mem_grouped.mp holderFirst.mem.1).2)).1
      have anchorListed := (seat_mem_of (atAnchor ▸ (mem_grouped.mp member).2)).1
      refine .inr ((before_total ownListed anchorListed same).resolve_right fun after => ?_)
      exact holderFirst.asymm (seated_nodup previous apart) (seated_places member holderFirst.mem.1 atAnchor group after)
  rcases first_seat previous next isFirst with ⟨group, listed⟩ | ⟨⟨place, group, isNearest⟩, gone, edited⟩ | isRemoved
  · refine ⟨.inl listed, fun own other goes isOther => ?_⟩
    obtain rfl := isOther.unique nearest
    rcases goes with ⟨-, rfl⟩ | ⟨gone, -⟩
    · exact notAfter _ _ group
    · exact absurd listed gone
  · refine ⟨.inr edited, fun own other goes isOther => ?_⟩
    obtain rfl := isOther.unique nearest
    rcases goes with ⟨listed, -⟩ | ⟨-, isOwn⟩
    · exact absurd listed gone
    · obtain rfl := isOwn.unique isNearest
      exact notAfter _ _ group
  · exact absurd isRemoved holderMember.2

end Again

theorem empty_inserted {rows : List FollowBlock} {keys : Text → Option Text} {next : List FollowTemplateBlock} (named : ∀ block ∈ rows, block.id ≠ [])
    (inserts : (planFollow rows keys next).insert = []) : [] ∉ next.map FollowTemplateBlock.templateBlockId := by
  intro listed
  obtain ⟨block, isBlock, isEmpty⟩ := List.mem_map.mp listed
  have taken := List.filter_eq_nil_iff.mp (List.map_eq_nil_iff.mp inserts) block isBlock
  change ¬ ((passOver keys next rows).existing block.templateBlockId).isNone = true at taken
  rw [isEmpty] at taken
  rcases slot_holds keys named listed with ⟨isInsert, -⟩ | ⟨_, _, _, _, first, -⟩
  · unfold FollowPass.slot at isInsert
    cases found : (passOver keys next rows).existing [] with
    | none => exact taken (found ▸ rfl)
    | some own =>
      rw [found] at isInsert
      cases isInsert
  · exact first.1.2.2 rfl

/-- Following a template twice is following it once exactly where no template block has the empty id
and each first row that claims a template block stays before the others that do. -/
theorem follow_twice_iff {fresh : Text → Text} {current : List FollowBlock} (previous : Text → Option Text) {next : List FollowTemplateBlock}
    (distinct : (current.map FollowBlock.id).Nodup) (named : ∀ block ∈ current, block.id ≠ []) (isFresh : Fresh fresh current)
    (nextDistinct : (next.map FollowTemplateBlock.templateBlockId).Nodup) :
    OnceEnough fresh current previous next ↔ [] ∉ next.map FollowTemplateBlock.templateBlockId ∧ FirstStays current previous next := by
  have apart : Apart fresh current next := ⟨distinct, named, isFresh, nextDistinct⟩
  have rows : outcome fresh current previous next = (seated fresh current previous next).map (settled next) :=
    carriedOut_grouped distinct named nextDistinct
  constructor
  · intro once
    have stays := once.stays
    have inserts := once.inserts
    unfold followAgain at inserts
    rw [rows] at stays inserts
    exact ⟨empty_inserted (again_named previous next isFresh named) inserts, first_of_stays apart stays⟩
  · rintro ⟨listedNamed, firstStays⟩
    have stays := stays_of_first apart firstStays
    obtain ⟨removes, order⟩ := order_again apart listedNamed stays
    obtain ⟨inserts, existing⟩ := insert_none (taken_again previous apart listedNamed)
    have again : followAgain fresh current previous next = planFollow ((seated fresh current previous next).map (settled next)) (nextKeys next) next := by
      unfold followAgain
      rw [rows]
    refine ⟨again ▸ removes, again ▸ inserts, ?_, fun entry isEntry => ?_, rows ▸ stays⟩
    · rw [again, rows, ← all_existing existing, order, List.map_map]
      rfl
    · rw [again] at isEntry
      exact rows ▸ reseed_again apart listedNamed stays isEntry

theorem follow_twice_iff_two : OnceEnough (js "new-" ++ ·)
      [⟨js "a", js "template", some (js "s"), false, js "old"⟩, ⟨js "b", js "template", some (js "s"), true, js "own"⟩] (fun _ => some (js "old"))
      [⟨js "t", js "new", false⟩, ⟨js "s", js "new", false⟩] ↔
    [] ∉ [js "t", js "s"] ∧ FirstStays [⟨js "a", js "template", some (js "s"), false, js "old"⟩, ⟨js "b", js "template", some (js "s"), true, js "own"⟩]
      (fun _ => some (js "old")) [⟨js "t", js "new", false⟩, ⟨js "s", js "new", false⟩] :=
  follow_twice_iff (fun _ => some (js "old")) (by decide) (by decide)
    ⟨List.append_right_injective (js "new-"), fun id => ⟨List.append_ne_nil_of_left_ne_nil (by decide) id, fun block member same => by
      simp only [List.mem_cons, List.not_mem_nil, or_false] at member
      rcases member with rfl | rfl <;> exact absurd (List.cons.inj same).1 (by decide)⟩⟩ (by decide)

/-- The template gives its two blocks the other order: a second row of one, edited in the document, comes
before the first and is taken for it the next time, which overwrites it, the block being locked. -/
theorem local_overwritten : ∃ (fresh : Text → Text) (current : List FollowBlock) (previous : Text → Option Text) (next : List FollowTemplateBlock),
    (current.map FollowBlock.id).Nodup ∧ (∀ block ∈ current, block.id ≠ []) ∧ Fresh fresh current ∧
      (next.map FollowTemplateBlock.templateBlockId).Nodup ∧ ¬ OnceEnough fresh current previous next := by
  refine ⟨(js "new-" ++ ·), [⟨js "a", js "template", some (js "s"), false, js "old"⟩, ⟨js "b", js "template", some (js "t"), false, js "old"⟩,
    ⟨js "c", js "template", some (js "s"), true, js "own"⟩], fun _ => some (js "old"), [⟨js "t", js "new", false⟩, ⟨js "s", js "new", true⟩],
    by decide, by decide, ⟨List.append_right_injective (js "new-"), fun id => ⟨List.append_ne_nil_of_left_ne_nil (by decide) id, ?_⟩⟩, by decide, ?_⟩
  · intro block member same
    simp only [List.mem_cons, List.not_mem_nil, or_false] at member
    rcases member with rfl | rfl | rfl <;> exact absurd (List.cons.inj same).1 (by decide)
  · intro once
    exact absurd (once.reseeds (js "c", js "s") (by decide)) (by decide)

end OpenShapeForge.Documents
