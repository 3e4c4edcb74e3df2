import OpenShapeForge.Js.Json
import OpenShapeForge.Library.Failing

/-! The identifiers Keycloak is given for a tenant and its units
(apps/api/src/control/organization-naming.ts). -/

namespace OpenShapeForge.Control.OrganizationNaming
open Js Library.Failing

def slugMinLength : Nat := 2

def slugMaxLength : Nat := 63

def isSlugUnit (c : CodeUnit) : Bool := isDigit c || (97 ≤ c && c ≤ 122)

/-- `SLUG_PATTERN`: groups of lowercase alphanumerics between single hyphens. -/
def isSlug (value : Text) : Bool :=
  (value.splitOn (unit '-')).all fun group => decide (group ≠ []) && group.all isSlugUnit

/-- Refused with the message of a ControlInputError. -/
def assertSlug (value label : Text) : Except Text Unit :=
  if trim value = [] then .error (label ++ js " is required.")
  else if value.length < slugMinLength ∨ slugMaxLength < value.length then
    .error (label ++ js " must be between " ++ decimal slugMinLength ++ js " and " ++ decimal slugMaxLength ++ js " characters.")
  else if isSlug value then .ok ()
  else .error (label ++ js " must be lowercase alphanumerics separated by single hyphens (e.g. \"acme-holding\"); got " ++
    quoteJson value ++ js ".")

def isHex (c : CodeUnit) : Bool := isDigit c || (65 ≤ c && c ≤ 70) || (97 ≤ c && c ≤ 102)

/-- `UUID_PATTERN`: five groups of hexadecimal digits, with a version from 1 to 5. -/
def isUuid (value : Text) : Bool :=
  match value.splitOn (unit '-') with
  | [first, second, version :: third, variant :: fourth, node] =>
    [first, second, third, fourth, node].all (·.all isHex) &&
      decide (first.length = 8 ∧ second.length = 4 ∧ third.length = 3 ∧ fourth.length = 3 ∧ node.length = 12) &&
      (49 ≤ version && version ≤ 53) && [56, 57, 65, 66, 97, 98].contains variant
  | _ => false

def assertUuid (value label : Text) : Except Text Unit :=
  if isUuid value then .ok () else .error (label ++ js " must be a UUID.")

structure OrganizationIdentifiers where
  organizationPath : Text
  alias' : Text
  name : Text
deriving DecidableEq

/-- Every segment of a chain is a slug; the index is its place in the chain. -/
def assertSegments : Nat → List Text → Except Text Unit
  | _, [] => .ok ()
  | index, slug :: rest => do
    assertSlug slug (js "organization slug chain segment " ++ decimal index)
    assertSegments (index + 1) rest

def organizationPathFor (chain : List Text) : Except Text Text :=
  if chain = [] then .error (js "An organization slug chain cannot be empty.")
  else do
    assertSegments 0 chain
    return join (js "/") chain

def rootOrganizationIdentifiers (tenantSlug : Text) : Except Text OrganizationIdentifiers := do
  assertSlug tenantSlug (js "tenant slug")
  return { organizationPath := tenantSlug, alias' := tenantSlug, name := tenantSlug }

def subAlias (tenantSlug orgUnitId : Text) : Text := tenantSlug ++ js "--" ++ orgUnitId

def subOrganizationIdentifiers (tenantSlug orgUnitId : Text) (chain : List Text) : Except Text OrganizationIdentifiers := do
  assertSlug tenantSlug (js "tenant slug")
  assertUuid orgUnitId (js "org unit id")
  if chain.length < 2 then
    .error (js "A sub-organisation slug chain must contain the tenant slug and at least one unit slug.")
  else do
    let organizationPath ← organizationPathFor chain
    return { organizationPath, alias' := subAlias tenantSlug orgUnitId, name := subAlias tenantSlug orgUnitId }

/-- What `assertSlug` takes, whatever the label. -/
def takesSlug (value : Text) : Bool :=
  decide (trim value ≠ [] ∧ slugMinLength ≤ value.length ∧ value.length ≤ slugMaxLength) && isSlug value

theorem assertSlug_ok {value label : Text} : assertSlug value label = .ok () ↔ takesSlug value = true := by
  unfold assertSlug takesSlug
  split
  next blank => simp [blank]
  next filled =>
    split
    next outside =>
      have : ¬(slugMinLength ≤ value.length ∧ value.length ≤ slugMaxLength) := by omega
      simp [this]
    next inside =>
      have : slugMinLength ≤ value.length ∧ value.length ≤ slugMaxLength := by omega
      split
      next slug => simp [filled, this, slug]
      next other => simp [other]

theorem assertUuid_ok {value label : Text} : assertUuid value label = .ok () ↔ isUuid value = true := by
  unfold assertUuid
  split
  next uuid => simp [uuid]
  next other => simp [other]

theorem assertSegments_ok {chain : List Text} {index : Nat} : assertSegments index chain = .ok () ↔ ∀ slug ∈ chain, takesSlug slug = true := by
  induction chain generalizing index with
  | nil => simp [assertSegments]
  | cons slug rest ih =>
    unfold assertSegments
    rw [List.forall_mem_cons]
    cases checked : assertSlug slug (js "organization slug chain segment " ++ decimal index) with
    | error message =>
      have refused : ¬takesSlug slug = true := fun takes => by
        rw [assertSlug_ok.mpr takes] at checked
        cases checked
      constructor
      · intro ended
        cases ended
      · exact fun both => absurd both.1 refused
    | ok =>
      have takes := assertSlug_ok.mp checked
      exact ih.trans ⟨fun others => ⟨takes, others⟩, And.right⟩

theorem organizationPathFor_ok {chain : List Text} {path : Text} :
    organizationPathFor chain = .ok path ↔ chain ≠ [] ∧ (∀ slug ∈ chain, takesSlug slug = true) ∧ path = join (js "/") chain := by
  unfold organizationPathFor
  split
  next empty => exact ⟨nofun, fun given => absurd empty given.1⟩
  next filled =>
    rw [attempt_bind_ok]
    constructor
    · rintro ⟨_, checked, same⟩
      cases same
      exact ⟨filled, assertSegments_ok.mp checked, rfl⟩
    · rintro ⟨-, slugs, rfl⟩
      exact ⟨(), assertSegments_ok.mpr slugs, rfl⟩

theorem rootOrganizationIdentifiers_ok {tenantSlug : Text} {identifiers : OrganizationIdentifiers} :
    rootOrganizationIdentifiers tenantSlug = .ok identifiers ↔
      takesSlug tenantSlug = true ∧ identifiers = ⟨tenantSlug, tenantSlug, tenantSlug⟩ := by
  unfold rootOrganizationIdentifiers
  rw [attempt_bind_ok]
  constructor
  · rintro ⟨_, checked, same⟩
    cases same
    exact ⟨assertSlug_ok.mp checked, rfl⟩
  · rintro ⟨slug, rfl⟩
    exact ⟨(), assertSlug_ok.mpr slug, rfl⟩

theorem subOrganizationIdentifiers_ok {tenantSlug orgUnitId : Text} {chain : List Text} {identifiers : OrganizationIdentifiers} :
    subOrganizationIdentifiers tenantSlug orgUnitId chain = .ok identifiers ↔
      takesSlug tenantSlug = true ∧ isUuid orgUnitId = true ∧ 2 ≤ chain.length ∧ (∀ slug ∈ chain, takesSlug slug = true) ∧
        identifiers = ⟨join (js "/") chain, subAlias tenantSlug orgUnitId, subAlias tenantSlug orgUnitId⟩ := by
  unfold subOrganizationIdentifiers
  simp only [attempt_bind_ok]
  constructor
  · rintro ⟨_, slug, _, uuid, derived⟩
    split at derived
    next => cases derived
    next long =>
      obtain ⟨path, isPath, same⟩ := attempt_bind_ok.mp derived
      obtain ⟨-, slugs, rfl⟩ := organizationPathFor_ok.mp isPath
      cases same
      exact ⟨assertSlug_ok.mp slug, assertUuid_ok.mp uuid, by omega, slugs, rfl⟩
  · rintro ⟨slug, uuid, long, slugs, rfl⟩
    have filled : chain ≠ [] := by
      rintro rfl
      exact absurd long (by simp)
    refine ⟨(), assertSlug_ok.mpr slug, (), assertUuid_ok.mpr uuid, ?_⟩
    rw [if_neg (by omega), attempt_bind_ok]
    exact ⟨_, organizationPathFor_ok.mpr ⟨filled, slugs, rfl⟩, rfl⟩

end OpenShapeForge.Control.OrganizationNaming
