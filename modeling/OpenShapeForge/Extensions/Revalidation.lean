import OpenShapeForge.Extensions.LinkedResolution

/-! The revalidation of a tenant's computed fields: each proved again, and what no longer
holds followed down the graph (revalidateLinkedFields in
apps/api/src/operations/entity/extensions/linked.ts). -/

namespace OpenShapeForge.Extensions.Revalidation
open Js FieldModel LinkedResolution

structure Suspension where
  entity : Text
  key : Text
  reason : Text
deriving DecidableEq

section Reasons
variable (contract : Contract) (managed : List Text) (tenant : Tenant) (entity : Text) (entry : ExtensibleEntity)

/-- Why a formula or a linked field no longer holds by itself: its proof, or its sensitivity. -/
def ownFailure (field : ExtensionField) : Option Text :=
  match field.definition.spec with
  | .stored => none
  | .formula reads _ => sensitivityShortfall field.definition (formulaInputs contract tenant entity entry reads)
  | .lookup .. | .rollup .. =>
    match resolveSpec contract tenant true entity entry field.definition.spec with
    | .error reason => some reason
    | .ok resolved =>
      match proofOf contract managed entity resolved with
      | some reason => some reason
      | none => sensitivityShortfall field.definition (linkedInputs contract entity resolved)

def suspendedRead (field : ExtensionField) : Option (Status × Text) :=
  match field.definition.spec with
  | .stored => none
  | .formula reads _ =>
    ((selfReads tenant entity reads).find? fun input => tenant.state entity input = .suspended).map fun input =>
      (tenant.status entity input.fieldId, entity ++ js "." ++ input.key)
  | .lookup .. | .rollup .. =>
    match resolveSpec contract tenant true entity entry field.definition.spec with
    | .error _ => none
    | .ok resolved =>
      (suspendedInput tenant resolved).bind fun input =>
        input.field.map fun read => (tenant.status input.entity read.fieldId, input.label)

/-- The reason a live field is suspended for, with what is said of it. A formula looks at what it
reads first, a linked field at its own proof. -/
def suspensionOf (field : ExtensionField) : Option (SuspendedReason × Text) :=
  let inherited := (suspendedRead contract tenant entity entry field).map fun input =>
    (inheritedSuspension input.1, input.2 ++ js " is suspended.")
  let own := (ownFailure contract managed tenant entity entry field).map fun reason => (SuspendedReason.authorizationProofLost, reason)
  if field.definition.spec.isLinked then own.or inherited else inherited.or own

end Reasons

section Rounds
variable (contract : Contract) (managed : List Text)

/-- `suspendField`, on the definition. -/
def suspendField (tenant : Tenant) (entity id : Text) (code : SuspendedReason) : Tenant :=
  { tenant with
    status := fun e i =>
      if e = entity ∧ i = id ∧ isLive (tenant.status e i).state = true then ⟨.suspended, some code⟩ else tenant.status e i }

def failing (tenant : Tenant) (entity : Text) (entry : ExtensibleEntity) : List (ExtensionField × SuspendedReason × Text) :=
  (tenant.fields entity).filterMap fun field =>
    if field.definition.spec.isStored || !isLive (tenant.state entity field) then none
    else (suspensionOf contract managed tenant entity entry field).map fun found => (field, found.1, found.2)

def suspendAll (tenant : Tenant) (entity : Text) (failed : List (ExtensionField × SuspendedReason × Text)) : Tenant :=
  failed.foldl (fun tenant entry => suspendField tenant entity entry.1.fieldId entry.2.1) tenant

/-- One entity's turn: its field set is read once, and so is each other set it looks at. -/
def entityTurn (progress : Tenant × List Suspension) (extensible : Text × ExtensibleEntity) : Tenant × List Suspension :=
  let failed := failing contract managed progress.1 extensible.1 extensible.2
  (suspendAll progress.1 extensible.1 failed,
    progress.2 ++ failed.map fun entry => { entity := extensible.1, key := entry.1.key, reason := entry.2.2 })

def revalidationRound (tenant : Tenant) : Tenant × List Suspension :=
  contract.entities.foldl (entityTurn contract managed) (tenant, [])

def revalidationRounds : Nat → Tenant → Tenant × List Suspension
  | 0, tenant => (tenant, [])
  | rounds + 1, tenant =>
    match (revalidationRound contract managed tenant).2 with
    | [] => (tenant, [])
    | found =>
      let rest := revalidationRounds rounds (revalidationRound contract managed tenant).1
      (rest.1, found ++ rest.2)

def maxRounds : Nat := 16

def revalidateLinkedFields (tenant : Tenant) : Tenant × List Suspension := revalidationRounds contract managed maxRounds tenant

end Rounds

end OpenShapeForge.Extensions.Revalidation
