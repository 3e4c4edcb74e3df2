import OpenShapeForge.Js.Text
import OpenShapeForge.Library.Grouping

/-! What becomes of the blocks of a document variant when its template is published again
(packages/documents/src/document-follow.ts). -/

namespace OpenShapeForge.Documents
open Js Library

structure FollowBlock where
  id : Text
  origin : Text
  templateBlockId : Option Text
  diverged : Bool
  key : Text
  deriving DecidableEq

structure FollowTemplateBlock where
  templateBlockId : Text
  key : Text
  locked : Bool
  deriving DecidableEq

inductive FollowSlot
  | existing (id : Text)
  | insert (templateBlockId : Text)
  deriving DecidableEq

structure FollowPlan where
  /-- Final collection order: existing rows and template blocks to insert. -/
  order : List FollowSlot
  /-- Existing blocks whose content is replaced, with the template block that replaces it. -/
  reseed : List (Text × Text)
  /-- Existing blocks that keep a local edit and are flagged. -/
  diverge : List Text
  remove : List Text
  insert : List Text
  deriving DecidableEq

def nextById (next : List FollowTemplateBlock) (templateBlockId : Text) : Option FollowTemplateBlock :=
  next.reverse.find? fun block => block.templateBlockId = templateBlockId

def claimed (seen : List Text) (block : FollowBlock) : Option Text :=
  if block.origin = js "template" then block.templateBlockId.filter fun id => id ≠ [] && !seen.contains id else none

def isEdited (previous : Text → Option Text) (upcoming : Option FollowTemplateBlock) (block : FollowBlock) (templateBlockId : Text) : Bool :=
  !(upcoming.any FollowTemplateBlock.locked) && (block.diverged || previous templateBlockId ≠ some block.key)

structure FollowPass where
  trailers : Option Text → List Text
  slotFor : Text → Option Text
  reseed : List (Text × Text)
  diverge : List Text
  remove : List Text
  seen : List Text
  anchor : Option Text

namespace FollowPass

def start : FollowPass := ⟨fun _ => [], fun _ => none, [], [], [], [], none⟩

def trail (pass : FollowPass) (id : Text) : FollowPass :=
  { pass with trailers := fun anchor => if anchor = pass.anchor then pass.trailers anchor ++ [id] else pass.trailers anchor }

def place (pass : FollowPass) (templateBlockId id : Text) : FollowPass :=
  { pass with
    slotFor := fun other => if other = templateBlockId then some id else pass.slotFor other
    anchor := some templateBlockId }

def follow (previous : Text → Option Text) (next : List FollowTemplateBlock) (pass : FollowPass) (block : FollowBlock) : FollowPass :=
  match claimed pass.seen block with
  | none => pass.trail block.id
  | some templateBlockId =>
    let met := { pass with seen := pass.seen ++ [templateBlockId] }
    let upcoming := nextById next templateBlockId
    let edited := isEdited previous upcoming block templateBlockId
    if upcoming.isSome && !edited then { met with reseed := met.reseed ++ [(block.id, templateBlockId)] }.place templateBlockId block.id
    else if upcoming.isSome then { met with diverge := met.diverge ++ [block.id] }.place templateBlockId block.id
    else if !edited then { met with remove := met.remove ++ [block.id] }
    else { met with diverge := met.diverge ++ [block.id] }.trail block.id

def existing (pass : FollowPass) (templateBlockId : Text) : Option Text := (pass.slotFor templateBlockId).filter fun id => id ≠ []

def slot (pass : FollowPass) (templateBlockId : Text) : FollowSlot :=
  match pass.existing templateBlockId with
  | some id => .existing id
  | none => .insert templateBlockId

end FollowPass

/-- The decision for one variant: the first pass decides on each row, the second puts the rows and
the new blocks in order. -/
def planFollow (current : List FollowBlock) (previous : Text → Option Text) (next : List FollowTemplateBlock) : FollowPlan :=
  let pass := current.foldl (FollowPass.follow previous next) FollowPass.start
  { order := (pass.trailers none).map .existing ++ next.flatMap fun block =>
      pass.slot block.templateBlockId :: (pass.trailers (some block.templateBlockId)).map .existing
    reseed := pass.reseed
    diverge := pass.diverge
    remove := pass.remove
    insert := (next.filter fun block => (pass.existing block.templateBlockId).isNone).map FollowTemplateBlock.templateBlockId }

section Fates
variable {previous : Text → Option Text} {next : List FollowTemplateBlock}

/-- What becomes of one row. -/
inductive Fate
  /-- A local block, after the place of a new one or before all of them. -/
  | follows (anchor : Option Text)
  /-- In the place of a new block, with its content or its own. -/
  | placed (templateBlockId : Text) (reseeds : Bool)
  /-- Edited, of a template block that is gone. -/
  | kept (templateBlockId : Text) (anchor : Option Text)
  | removed (templateBlockId : Text)
  deriving DecidableEq

/-- The place of a row among the new blocks; a removed row has none. -/
def Fate.at? : Fate → Option (Option Text)
  | follows anchor => some anchor
  | placed templateBlockId _ => some (some templateBlockId)
  | kept _ anchor => some anchor
  | removed _ => none

/-- What later rows follow. -/
def Fate.leads (anchor : Option Text) : Fate → Option Text
  | placed templateBlockId _ => some templateBlockId
  | _ => anchor

def Fate.claim? : Fate → Option Text
  | follows _ => none
  | placed templateBlockId _ | kept templateBlockId _ | removed templateBlockId => some templateBlockId

def Fate.trails (anchor : Option Text) : Fate → Bool
  | follows own | kept _ own => own = anchor
  | _ => false

def Fate.placedAt (templateBlockId : Text) : Fate → Bool
  | placed own _ => own = templateBlockId
  | _ => false

def fate (previous : Text → Option Text) (next : List FollowTemplateBlock) (seen : List Text) (anchor : Option Text) (block : FollowBlock) : Fate :=
  match claimed seen block with
  | none => .follows anchor
  | some templateBlockId =>
    let edited := isEdited previous (nextById next templateBlockId) block templateBlockId
    if (nextById next templateBlockId).isSome then .placed templateBlockId (!edited)
    else if edited then .kept templateBlockId anchor
    else .removed templateBlockId

def fates (previous : Text → Option Text) (next : List FollowTemplateBlock) :
    List Text → Option Text → List FollowBlock → List (FollowBlock × Fate)
  | _, _, [] => []
  | seen, anchor, block :: rest =>
    let own := fate previous next seen anchor block
    (block, own) :: fates previous next (seen ++ own.claim?.toList) (own.leads anchor) rest

def idsOf (kind : Fate → Bool) (fated : List (FollowBlock × Fate)) : List Text :=
  (fated.filter fun row => kind row.2).map fun row => row.1.id

def Fate.isRemoved : Fate → Bool
  | removed _ => true
  | _ => false

def Fate.isDiverged : Fate → Bool
  | placed _ reseeds => !reseeds
  | kept _ _ => true
  | _ => false

def reseedOf (row : FollowBlock × Fate) : Option (Text × Text) :=
  match row.2 with
  | .placed templateBlockId true => some (row.1.id, templateBlockId)
  | _ => none

theorem idsOf_cons (kind : Fate → Bool) (block : FollowBlock) (own : Fate) (rest : List (FollowBlock × Fate)) :
    idsOf kind ((block, own) :: rest) = (if kind own then [block.id] else []) ++ idsOf kind rest := by
  unfold idsOf
  rw [List.filter_cons]
  split
  next is => rfl
  next => rfl

structure Adds (pass after : FollowPass) (block : FollowBlock) (own : Fate) : Prop where
  seen : after.seen = pass.seen ++ own.claim?.toList
  anchor : after.anchor = own.leads pass.anchor
  trailers : ∀ anchor, after.trailers anchor = pass.trailers anchor ++ if own.trails anchor then [block.id] else []
  slotFor : ∀ id, after.slotFor id = if own.placedAt id then some block.id else pass.slotFor id
  reseed : after.reseed = pass.reseed ++ (reseedOf (block, own)).toList
  diverge : after.diverge = pass.diverge ++ if own.isDiverged then [block.id] else []
  remove : after.remove = pass.remove ++ if own.isRemoved then [block.id] else []

theorem trail_trailers (pass : FollowPass) (id : Text) (anchor : Option Text) :
    (pass.trail id).trailers anchor = pass.trailers anchor ++ if decide (pass.anchor = anchor) then [id] else [] := by
  unfold FollowPass.trail
  dsimp only
  split
  next same => rw [if_pos (decide_eq_true same.symm)]
  next different => rw [if_neg fun same => different (of_decide_eq_true same).symm, List.append_nil]

theorem place_slotFor (pass : FollowPass) (templateBlockId id other : Text) :
    (pass.place templateBlockId id).slotFor other = if decide (templateBlockId = other) then some id else pass.slotFor other := by
  unfold FollowPass.place
  dsimp only
  split
  next same => rw [if_pos (decide_eq_true same.symm)]
  next different => rw [if_neg fun same => different (of_decide_eq_true same).symm]

variable (previous next) in
theorem follow_adds (pass : FollowPass) (block : FollowBlock) :
    Adds pass (pass.follow previous next block) block (fate previous next pass.seen pass.anchor block) := by
  unfold FollowPass.follow fate
  cases claimed pass.seen block with
  | none =>
    refine ⟨?_, rfl, trail_trailers pass block.id, fun _ => rfl, ?_, ?_, ?_⟩
    all_goals exact (List.append_nil _).symm
  | some templateBlockId =>
    dsimp only
    cases nextById next templateBlockId with
    | none =>
      cases isEdited previous none block templateBlockId with
      | false => exact ⟨rfl, rfl, fun _ => (List.append_nil _).symm, fun _ => rfl, (List.append_nil _).symm, (List.append_nil _).symm, rfl⟩
      | true => exact ⟨rfl, rfl, trail_trailers _ block.id, fun _ => rfl, (List.append_nil _).symm, rfl, (List.append_nil _).symm⟩
    | some upcoming =>
      cases isEdited previous (some upcoming) block templateBlockId with
      | false =>
        exact ⟨rfl, rfl, fun _ => (List.append_nil _).symm, place_slotFor _ templateBlockId block.id, rfl, (List.append_nil _).symm,
          (List.append_nil _).symm⟩
      | true =>
        exact ⟨rfl, rfl, fun _ => (List.append_nil _).symm, place_slotFor _ templateBlockId block.id, (List.append_nil _).symm, rfl,
          (List.append_nil _).symm⟩

structure Leaves (pass after : FollowPass) (fated : List (FollowBlock × Fate)) : Prop where
  trailers : ∀ anchor, after.trailers anchor = pass.trailers anchor ++ idsOf (Fate.trails anchor) fated
  slotFor : ∀ id, after.slotFor id = ((idsOf (Fate.placedAt id) fated).getLast?).or (pass.slotFor id)
  reseed : after.reseed = pass.reseed ++ fated.filterMap reseedOf
  diverge : after.diverge = pass.diverge ++ idsOf Fate.isDiverged fated
  remove : after.remove = pass.remove ++ idsOf Fate.isRemoved fated

variable (previous next) in
theorem pass_leaves : ∀ (current : List FollowBlock) (pass : FollowPass),
    Leaves pass (current.foldl (FollowPass.follow previous next) pass) (fates previous next pass.seen pass.anchor current)
  | [], pass =>
    ⟨fun _ => (List.append_nil _).symm, fun _ => rfl, (List.append_nil _).symm, (List.append_nil _).symm, (List.append_nil _).symm⟩
  | block :: rest, pass => by
    have adds := follow_adds previous next pass block
    have later := pass_leaves rest (pass.follow previous next block)
    rw [adds.seen, adds.anchor] at later
    unfold fates
    refine ⟨fun anchor => ?_, fun id => ?_, ?_, ?_, ?_⟩
    · rw [List.foldl_cons, later.trailers, adds.trailers, idsOf_cons, List.append_assoc]
    · rw [List.foldl_cons, later.slotFor, adds.slotFor, idsOf_cons]
      split
      next => rw [List.getLast?_append, List.getLast?_singleton, Option.or_assoc, Option.some_or]
      next => rw [List.nil_append]
    · rw [List.foldl_cons, later.reseed, adds.reseed, List.filterMap_cons, List.append_assoc]
      cases reseedOf (block, fate previous next pass.seen pass.anchor block) with
      | none => rfl
      | some entry => rfl
    · rw [List.foldl_cons, later.diverge, adds.diverge, idsOf_cons, List.append_assoc]
    · rw [List.foldl_cons, later.remove, adds.remove, idsOf_cons, List.append_assoc]

end Fates

end OpenShapeForge.Documents
