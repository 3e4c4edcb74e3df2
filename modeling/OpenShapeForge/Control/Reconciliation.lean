import OpenShapeForge.Control.OrganizationNaming

/-! The drift report: what the registry derives beside what the realm lists
(apps/api/src/control/reconciliation.ts). -/

namespace OpenShapeForge.Control.Reconciliation
open Js OrganizationNaming

structure KeycloakOrganizationSnapshot where
  id : Text
  alias' : Text
  enabled : Bool
  organizationLevel : Option Text
  organizationPath : Option Text
  parentOrganizationId : Option Text
  rootOrganizationId : Option Text
deriving DecidableEq

structure ScannedTenant where
  id : Text
  slug : Text
  status : Text
  keycloakOrganizationId : Option Text
deriving DecidableEq

structure ScannedOrgUnit where
  id : Text
  tenantId : Text
  parentId : Option Text
  slug : Option Text
  keycloakOrganizationId : Option Text
  /-- The parent unit's Organization; null at the top level and when unlinked. -/
  parentOrganizationId : Option Text
  /-- Root-to-self slug chain of units; the tenant slug is not in it. -/
  chain : List (Option Text)
deriving DecidableEq

structure RegistryScan where
  tenants : List ScannedTenant
  orgUnits : List ScannedOrgUnit
  truncatedTenants : Bool
  truncatedOrgUnits : Bool

inductive DriftCode where
  | tenantOrganizationMissing
  | orgUnitOrganizationMissing
  | organizationOrphaned
  | organizationAliasMismatch
  | organizationLevelMismatch
  | organizationPathMismatch
  | organizationParentMismatch
  | organizationRootMismatch
  | organizationEnabledMismatch
  | targetNotProjectable
deriving DecidableEq

structure FindingSubject where
  tenantSlug : Option Text
  tenantId : Option Text
  orgUnitId : Option Text

structure DriftFinding extends FindingSubject where
  code : DriftCode
  organizationId : Option Text
  expected : Option Text
  actual : Option Text
  repairable : Bool
  message : Text

structure DriftReport where
  scannedAt : Text
  countTenants : Nat
  countOrgUnits : Nat
  countOrganizations : Nat
  truncatedTenants : Bool
  truncatedOrgUnits : Bool
  truncatedOrganizations : Bool
  /-- False when any side was truncated. -/
  orphansEvaluated : Bool
  findings : List DriftFinding

def present (link : Option Text) : Option Text := link.filter (· ≠ [])

def organizationEnabledFor (status : Text) : Bool := decide (status = js "active")

abbrev Expectation := Except Text OrganizationIdentifiers

def expectedRootIdentifiers (tenant : ScannedTenant) : Expectation := rootOrganizationIdentifiers tenant.slug

def expectedUnitIdentifiers (tenantSlug : Text) (unit : ScannedOrgUnit) : Expectation :=
  if unit.chain.any fun segment => (present segment).isNone then
    .error (js "This unit or one of its ancestors has no slug, so no organizationPath can be derived for it.")
  else subOrganizationIdentifiers tenantSlug unit.id (tenantSlug :: unit.chain.reduceOption)

inductive OrganizationLevel where
  | root
  | sub

def OrganizationLevel.name : OrganizationLevel → Text
  | root => js "root"
  | sub => js "sub"

def truth (value : Bool) : Text := if value then js "true" else js "false"

def ability (value : Bool) : Text := if value then js "enabled" else js "disabled"

/-- `value ?? "unset"`. -/
def unsetOr (value : Option Text) : Text := value.getD (js "unset")

structure Comparison where
  subject : FindingSubject
  organization : KeycloakOrganizationSnapshot
  identifiers : OrganizationIdentifiers
  expectedLevel : OrganizationLevel
  expectedParentOrganizationId : Option Text
  expectedRootOrganizationId : Text
  /-- Null where the property is not projected for the target. -/
  expectedEnabled : Option Bool

def mismatch (input : Comparison) (code : DriftCode) (expected actual : Option Text) (message : Text) : DriftFinding where
  toFindingSubject := input.subject
  code := code
  organizationId := some input.organization.id
  expected := expected
  actual := actual
  repairable := true
  message := message

def aliasMismatch (input : Comparison) : DriftFinding :=
  mismatch input .organizationAliasMismatch (some input.identifiers.alias') (some input.organization.alias')
    (js "The linked Organization carries alias \"" ++ input.organization.alias' ++ js "\" while the registry derives \"" ++
      input.identifiers.alias' ++ js "\". A link is pointing at a different Organization than the one this row names.")

def levelMismatch (input : Comparison) : DriftFinding :=
  mismatch input .organizationLevelMismatch (some input.expectedLevel.name) input.organization.organizationLevel
    (js "The Organization is marked as " ++ unsetOr input.organization.organizationLevel ++ js " where the registry says " ++
      input.expectedLevel.name ++ js ".")

def pathMismatch (input : Comparison) : DriftFinding :=
  mismatch input .organizationPathMismatch (some input.identifiers.organizationPath) input.organization.organizationPath
    (js "organizationPath is \"" ++ unsetOr input.organization.organizationPath ++ js "\" where the registry derives \"" ++
      input.identifiers.organizationPath ++ js "\".")

def parentMismatch (input : Comparison) : DriftFinding :=
  mismatch input .organizationParentMismatch input.expectedParentOrganizationId input.organization.parentOrganizationId
    (match input.expectedParentOrganizationId with
      | none => js "A root Organization must carry no parentOrganizationId; this one names \"" ++
          input.organization.parentOrganizationId.getD (js "null") ++ js "\"."
      | some parent => js "parentOrganizationId is \"" ++ unsetOr input.organization.parentOrganizationId ++
          js "\" where the registry's parent is \"" ++ parent ++ js "\".")

def rootMismatch (input : Comparison) : DriftFinding :=
  mismatch input .organizationRootMismatch (some input.expectedRootOrganizationId) input.organization.rootOrganizationId
    (js "rootOrganizationId is \"" ++ unsetOr input.organization.rootOrganizationId ++ js "\" where the tenant's root Organization is \"" ++
      input.expectedRootOrganizationId ++ js "\". The whole tree shares one root at every depth.")

def enabledMismatch (input : Comparison) (expected : Bool) : DriftFinding :=
  mismatch input .organizationEnabledMismatch (some (truth expected)) (some (truth input.organization.enabled))
    (js "The Organization is " ++ ability input.organization.enabled ++
      js " where the tenant's lifecycle state requires it to be " ++ ability expected ++ js ".")

/-- One linked Organization against what the registry says it should be. -/
def compareOrganization (input : Comparison) : List DriftFinding :=
  let organization := input.organization
  (if organization.alias' ≠ input.identifiers.alias' then [aliasMismatch input] else []) ++
  (if organization.organizationLevel ≠ some input.expectedLevel.name then [levelMismatch input] else []) ++
  (if organization.organizationPath ≠ some input.identifiers.organizationPath then [pathMismatch input] else []) ++
  (if organization.parentOrganizationId ≠ input.expectedParentOrganizationId then [parentMismatch input] else []) ++
  (if organization.rootOrganizationId ≠ some input.expectedRootOrganizationId then [rootMismatch input] else []) ++
  match input.expectedEnabled with
  | some expected => if organization.enabled ≠ expected then [enabledMismatch input expected] else []
  | none => []

def organizationOf (organizations : List KeycloakOrganizationSnapshot) (id : Text) : Option KeycloakOrganizationSnapshot :=
  organizations.reverse.find? (·.id = id)

def tenantOf (tenants : List ScannedTenant) (id : Text) : Option ScannedTenant := tenants.reverse.find? (·.id = id)

def notProjectable (subject : FindingSubject) (link : Option Text) (message : Text) : DriftFinding where
  toFindingSubject := subject
  code := .targetNotProjectable
  organizationId := link
  expected := none
  actual := link
  repairable := false
  message := message

def missing (subject : FindingSubject) (code : DriftCode) (link : Option Text) (expected message : Text) : DriftFinding where
  toFindingSubject := subject
  code := code
  organizationId := link
  expected := some expected
  actual := none
  repairable := true
  message := message

def tenantFindings (organizations : List KeycloakOrganizationSnapshot) (tenant : ScannedTenant) : List DriftFinding :=
  let subject : FindingSubject := ⟨some tenant.slug, some tenant.id, none⟩
  match expectedRootIdentifiers tenant with
  | .error reason => [notProjectable subject tenant.keycloakOrganizationId reason]
  | .ok identifiers =>
    match present tenant.keycloakOrganizationId with
    | none => [missing subject .tenantOrganizationMissing none identifiers.alias'
        (js "Tenant \"" ++ tenant.slug ++ js "\" has no Keycloak Organization. Provisioning is DB-first, so this is the half-applied state a replay of its create heals.")]
    | some link =>
      match organizationOf organizations link with
      | none => [missing subject .tenantOrganizationMissing (some link) identifiers.alias'
          (js "The registry links tenant \"" ++ tenant.slug ++ js "\" to Organization \"" ++ link ++ js "\", which the realm no longer holds.")]
      | some organization => compareOrganization {
          subject, organization, identifiers
          expectedLevel := .root
          expectedParentOrganizationId := none
          expectedRootOrganizationId := organization.id
          expectedEnabled := some (organizationEnabledFor tenant.status) }

/-- The Organization a unit hangs off, as the registry has it. -/
def expectedParent (tenant : ScannedTenant) (unit : ScannedOrgUnit) : Option Text :=
  if unit.parentId = none then tenant.keycloakOrganizationId else unit.parentOrganizationId

def unitFindings (tenants : List ScannedTenant) (organizations : List KeycloakOrganizationSnapshot) (unit : ScannedOrgUnit) :
    List DriftFinding :=
  match tenantOf tenants unit.tenantId with
  | none => []
  | some tenant =>
    let subject : FindingSubject := ⟨some tenant.slug, some unit.tenantId, some unit.id⟩
    match expectedUnitIdentifiers tenant.slug unit with
    | .error reason =>
      match present unit.keycloakOrganizationId with
      | none => []
      | some link => [notProjectable subject (some link) (reason ++ js " It is nevertheless linked to Organization \"" ++ link ++
          js "\", so that link cannot be verified or restored. Give every ancestor a slug, or unlink the row.")]
    | .ok identifiers =>
      match present unit.keycloakOrganizationId with
      | none => [missing subject .orgUnitOrganizationMissing none identifiers.organizationPath
          (js "Sub-organisation \"" ++ identifiers.organizationPath ++ js "\" has no Keycloak Organization. Replaying its create makes one and stamps the link.")]
      | some link =>
        match organizationOf organizations link with
        | none => [missing subject .orgUnitOrganizationMissing (some link) identifiers.organizationPath
            (js "The registry links sub-organisation \"" ++ identifiers.organizationPath ++ js "\" to Organization \"" ++ link ++
              js "\", which the realm no longer holds.")]
        | some organization =>
          -- an ancestor that is itself unprovisioned leaves nothing to compare with
          match present tenant.keycloakOrganizationId, expectedParent tenant unit with
          | some root, some parent => compareOrganization {
              subject, organization, identifiers
              expectedLevel := .sub
              expectedParentOrganizationId := some parent
              expectedRootOrganizationId := root
              expectedEnabled := none }
          | _, _ => []

/-- The Organizations that registry rows point at, row by row. -/
def claims (scan : RegistryScan) : List Text :=
  (scan.tenants.filterMap fun tenant => present tenant.keycloakOrganizationId) ++
    scan.orgUnits.filterMap fun unit => present unit.keycloakOrganizationId

def orphaned (organization : KeycloakOrganizationSnapshot) : DriftFinding where
  tenantSlug := none
  tenantId := none
  orgUnitId := none
  code := .organizationOrphaned
  organizationId := some organization.id
  expected := none
  actual := some organization.alias'
  repairable := false
  message := js "Organization \"" ++ organization.alias' ++ js "\" (" ++ organization.id ++
    js ") is claimed by no tenant and no sub-organisation. Reconciliation never deletes an Organization — it may hold members, identity providers and domains this system did not create. Decide whether the registry row is missing or the Organization is."

def orphanFindings (scan : RegistryScan) (organizations : List KeycloakOrganizationSnapshot) : List DriftFinding :=
  (organizations.filter fun organization => organization.id ∉ claims scan).map orphaned

def compareRegistryToRealm (scan : RegistryScan) (organizations : List KeycloakOrganizationSnapshot) (truncatedOrganizations : Bool)
    (scannedAt : Text) : DriftReport :=
  let orphansEvaluated := !scan.truncatedTenants && !scan.truncatedOrgUnits && !truncatedOrganizations
  { scannedAt
    countTenants := scan.tenants.length
    countOrgUnits := scan.orgUnits.length
    countOrganizations := organizations.length
    truncatedTenants := scan.truncatedTenants
    truncatedOrgUnits := scan.truncatedOrgUnits
    truncatedOrganizations
    orphansEvaluated
    findings := scan.tenants.flatMap (tenantFindings organizations) ++
      scan.orgUnits.flatMap (unitFindings scan.tenants organizations) ++
      if orphansEvaluated then orphanFindings scan organizations else [] }

end OpenShapeForge.Control.Reconciliation
