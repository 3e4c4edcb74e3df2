import OpenShapeForge.Control.Reconciliation
import Mathlib.Data.List.Pairwise
import Mathlib.Data.List.ReduceOption

/-! What a drift report without findings says: the realm is the registry's projection, unless
a unit hangs under one that cannot be projected. -/

namespace OpenShapeForge.Control.ProjectionExact
open Js OrganizationNaming Reconciliation

structure HangsOff (parent unit : ScannedOrgUnit) : Prop where
  tenant : parent.tenantId = unit.tenantId
  chain : unit.chain = parent.chain ++ [unit.slug]
  link : unit.parentOrganizationId = parent.keycloakOrganizationId

/-- What the tables promise of a scan that has read them to the end. A unit with neither slug
nor link is not read. -/
structure Complete (scan : RegistryScan) : Prop where
  tenantsRead : scan.truncatedTenants = false
  unitsRead : scan.truncatedOrgUnits = false
  tenantIds : (scan.tenants.map (·.id)).Nodup
  unitIds : (scan.orgUnits.map (·.id)).Nodup
  ofTenant : ∀ unit ∈ scan.orgUnits, ∃ tenant ∈ scan.tenants, tenant.id = unit.tenantId
  top : ∀ unit ∈ scan.orgUnits, unit.parentId = none → unit.chain = [unit.slug] ∧ unit.parentOrganizationId = none
  below : ∀ unit ∈ scan.orgUnits, ∀ parentId, unit.parentId = some parentId →
    (∃ parent ∈ scan.orgUnits, parent.id = parentId ∧ HangsOff parent unit) ∨
      ((∀ other ∈ scan.orgUnits, other.id ≠ parentId) ∧ unit.parentOrganizationId = none ∧ ∃ above, unit.chain = above ++ [none, unit.slug])

def Linked (organizations : List KeycloakOrganizationSnapshot) (link : Option Text) (organization : KeycloakOrganizationSnapshot) : Prop :=
  organization ∈ organizations ∧ present link = some organization.id

structure Carries (organization : KeycloakOrganizationSnapshot) (identifiers : OrganizationIdentifiers) (level : OrganizationLevel)
    (parent : Option Text) (root : Text) : Prop where
  alias' : organization.alias' = identifiers.alias'
  level : organization.organizationLevel = some level.name
  path : organization.organizationPath = some identifiers.organizationPath
  parent : organization.parentOrganizationId = parent
  root : organization.rootOrganizationId = some root

def TenantProjected (organizations : List KeycloakOrganizationSnapshot) (tenant : ScannedTenant) : Prop :=
  ∃ identifiers organization, expectedRootIdentifiers tenant = .ok identifiers ∧
    Linked organizations tenant.keycloakOrganizationId organization ∧ Carries organization identifiers .root none organization.id ∧
    organization.enabled = organizationEnabledFor tenant.status

structure Projected (scan : RegistryScan) (organizations : List KeycloakOrganizationSnapshot) : Prop where
  tenants : ∀ tenant ∈ scan.tenants, TenantProjected organizations tenant
  units : ∀ unit ∈ scan.orgUnits, ∀ tenant ∈ scan.tenants, tenant.id = unit.tenantId →
    ∀ identifiers, expectedUnitIdentifiers tenant.slug unit = .ok identifiers →
      ∃ organization parent root, Linked organizations unit.keycloakOrganizationId organization ∧ expectedParent tenant unit = some parent ∧
        present tenant.keycloakOrganizationId = some root ∧ Carries organization identifiers .sub (some parent) root
  unprojectable : ∀ unit ∈ scan.orgUnits, ∀ tenant ∈ scan.tenants, tenant.id = unit.tenantId →
    ∀ reason, expectedUnitIdentifiers tenant.slug unit = .error reason → present unit.keycloakOrganizationId = none
  once : (claims scan).Nodup
  claimed : ∀ organization ∈ organizations, organization.id ∈ claims scan

/-- The same, but for a unit whose parent has no Organization only that its link is listed,
and without a word on double claims. -/
structure Accounted (scan : RegistryScan) (organizations : List KeycloakOrganizationSnapshot) : Prop where
  tenants : ∀ tenant ∈ scan.tenants, TenantProjected organizations tenant
  units : ∀ unit ∈ scan.orgUnits, ∀ tenant ∈ scan.tenants, tenant.id = unit.tenantId →
    ∀ identifiers, expectedUnitIdentifiers tenant.slug unit = .ok identifiers →
      ∃ organization, Linked organizations unit.keycloakOrganizationId organization ∧
        ∀ parent root, expectedParent tenant unit = some parent → present tenant.keycloakOrganizationId = some root →
          Carries organization identifiers .sub (some parent) root
  unprojectable : ∀ unit ∈ scan.orgUnits, ∀ tenant ∈ scan.tenants, tenant.id = unit.tenantId →
    ∀ reason, expectedUnitIdentifiers tenant.slug unit = .error reason → present unit.keycloakOrganizationId = none
  claimed : ∀ organization ∈ organizations, organization.id ∈ claims scan

/-- A unit that can be projected, under one that cannot for its own id and has no link. -/
def Unhung (scan : RegistryScan) : Prop :=
  ∃ unit ∈ scan.orgUnits, ∃ parent ∈ scan.orgUnits, ∃ tenant ∈ scan.tenants, ∃ identifiers,
    tenant.id = unit.tenantId ∧ unit.parentId = some parent.id ∧ expectedUnitIdentifiers tenant.slug unit = .ok identifiers ∧
      parent.keycloakOrganizationId = none ∧ isUuid parent.id = false

/-- Two tenants of one slug, linked to one Organization. -/
def Twins (scan : RegistryScan) : Prop :=
  ∃ one ∈ scan.tenants, ∃ two ∈ scan.tenants, ∃ link, one.id ≠ two.id ∧ one.slug = two.slug ∧
    present one.keycloakOrganizationId = some link ∧ present two.keycloakOrganizationId = some link

section Rows
variable {scan : RegistryScan} {organizations : List KeycloakOrganizationSnapshot}

theorem find?_reverse_iff {α : Type} {items : List α} {key : α → Text} (distinct : (items.map key).Nodup) {id : Text} {item : α} :
    items.reverse.find? (fun other => key other = id) = some item ↔ item ∈ items ∧ key item = id := by
  constructor
  · intro found
    exact ⟨List.mem_reverse.mp (List.mem_of_find?_eq_some found), by simpa using List.find?_some found⟩
  · rintro ⟨member, rfl⟩
    cases found : items.reverse.find? (fun other => key other = key item) with
    | none => exact absurd (decide_eq_true rfl) (List.find?_eq_none.mp found item (List.mem_reverse.mpr member))
    | some other =>
      have same : key other = key item := by simpa using List.find?_some found
      rw [List.inj_on_of_nodup_map distinct (List.mem_reverse.mp (List.mem_of_find?_eq_some found)) member same]

theorem compareOrganization_nil {input : Comparison} : compareOrganization input = [] ↔
    Carries input.organization input.identifiers input.expectedLevel input.expectedParentOrganizationId input.expectedRootOrganizationId ∧
      ∀ expected, input.expectedEnabled = some expected → input.organization.enabled = expected := by
  have noFinding (wrong : Prop) [Decidable wrong] (finding : DriftFinding) : (if wrong then [finding] else []) = [] ↔ ¬wrong := by
    split <;> simp_all
  unfold compareOrganization
  cases input.expectedEnabled with
  | none =>
    simp only [List.append_eq_nil_iff, noFinding, not_not]
    constructor
    · rintro ⟨⟨⟨⟨⟨sameAlias, level⟩, path⟩, parent⟩, root⟩, -⟩
      exact ⟨⟨sameAlias, level, path, parent, root⟩, nofun⟩
    · rintro ⟨carries, -⟩
      exact ⟨⟨⟨⟨⟨carries.alias', carries.level⟩, carries.path⟩, carries.parent⟩, carries.root⟩, trivial⟩
  | some expected =>
    simp only [List.append_eq_nil_iff, noFinding, not_not]
    constructor
    · rintro ⟨⟨⟨⟨⟨sameAlias, level⟩, path⟩, parent⟩, root⟩, state⟩
      refine ⟨⟨sameAlias, level, path, parent, root⟩, fun other same => ?_⟩
      rw [state, Option.some.inj same]
    · rintro ⟨carries, state⟩
      exact ⟨⟨⟨⟨⟨carries.alias', carries.level⟩, carries.path⟩, carries.parent⟩, carries.root⟩, state expected rfl⟩

theorem linked_iff (distinct : (organizations.map (·.id)).Nodup) {link : Option Text} {organization : KeycloakOrganizationSnapshot} :
    Linked organizations link organization ↔ ∃ id, present link = some id ∧ organizationOf organizations id = some organization := by
  unfold Linked organizationOf
  constructor
  · rintro ⟨member, isLink⟩
    exact ⟨_, isLink, (find?_reverse_iff distinct).mpr ⟨member, rfl⟩⟩
  · rintro ⟨id, isLink, found⟩
    obtain ⟨member, rfl⟩ := (find?_reverse_iff distinct).mp found
    exact ⟨member, isLink⟩

theorem tenantFindings_nil (distinct : (organizations.map (·.id)).Nodup) (tenant : ScannedTenant) :
    tenantFindings organizations tenant = [] ↔ TenantProjected organizations tenant := by
  unfold TenantProjected tenantFindings
  simp only [linked_iff distinct]
  cases expectedRootIdentifiers tenant with
  | error reason => simp
  | ok identifiers =>
    cases present tenant.keycloakOrganizationId with
    | none => simp
    | some link =>
      cases isListed : organizationOf organizations link with
      | none => simp [isListed]
      | some organization => simp [isListed, compareOrganization_nil]

def UnitAccounted (organizations : List KeycloakOrganizationSnapshot) (tenant : ScannedTenant) (unit : ScannedOrgUnit) : Prop :=
  (∀ identifiers, expectedUnitIdentifiers tenant.slug unit = .ok identifiers →
    ∃ organization, Linked organizations unit.keycloakOrganizationId organization ∧
      ∀ parent root, expectedParent tenant unit = some parent → present tenant.keycloakOrganizationId = some root →
        Carries organization identifiers .sub (some parent) root) ∧
    ∀ reason, expectedUnitIdentifiers tenant.slug unit = .error reason → present unit.keycloakOrganizationId = none

theorem unitFindings_nil (distinct : (organizations.map (·.id)).Nodup) {tenants : List ScannedTenant} {tenant : ScannedTenant}
    {unit : ScannedOrgUnit} (found : tenantOf tenants unit.tenantId = some tenant) :
    unitFindings tenants organizations unit = [] ↔ UnitAccounted organizations tenant unit := by
  unfold UnitAccounted unitFindings
  simp only [linked_iff distinct, found]
  cases expectedUnitIdentifiers tenant.slug unit with
  | error reason => cases present unit.keycloakOrganizationId <;> simp
  | ok identifiers =>
    cases present unit.keycloakOrganizationId with
    | none => simp
    | some link =>
      cases isListed : organizationOf organizations link with
      | none => simp [isListed]
      | some organization =>
        cases present tenant.keycloakOrganizationId <;> cases expectedParent tenant unit <;> simp [isListed, compareOrganization_nil]

theorem clean_iff_accounted (complete : Complete scan) (distinct : (organizations.map (·.id)).Nodup) (scannedAt : Text) :
    (compareRegistryToRealm scan organizations false scannedAt).findings = [] ↔ Accounted scan organizations := by
  have evaluated : (!scan.truncatedTenants && !scan.truncatedOrgUnits && !false) = true := by
    rw [complete.tenantsRead, complete.unitsRead]
    rfl
  have rows : ∀ unit ∈ scan.orgUnits, unitFindings scan.tenants organizations unit = [] ↔
      ∀ tenant ∈ scan.tenants, tenant.id = unit.tenantId → UnitAccounted organizations tenant unit := by
    intro unit member
    obtain ⟨tenant, isTenant, isIts⟩ := complete.ofTenant unit member
    rw [unitFindings_nil distinct ((find?_reverse_iff complete.tenantIds).mpr ⟨isTenant, isIts⟩)]
    constructor
    · intro accounted other isOther same
      rwa [List.inj_on_of_nodup_map complete.tenantIds isOther isTenant (same.trans isIts.symm)]
    · exact fun all => all tenant isTenant isIts
  have orphans : orphanFindings scan organizations = [] ↔ ∀ organization ∈ organizations, organization.id ∈ claims scan := by
    simp [orphanFindings]
  simp only [compareRegistryToRealm, evaluated, ↓reduceIte, List.append_eq_nil_iff, List.flatMap_eq_nil_iff, orphans,
    tenantFindings_nil distinct]
  constructor
  · rintro ⟨⟨tenants, units⟩, claimed⟩
    refine ⟨tenants, fun unit member tenant isTenant isIts => ?_, fun unit member tenant isTenant isIts => ?_, claimed⟩
    · exact ((rows unit member).mp (units unit member) tenant isTenant isIts).1
    · exact ((rows unit member).mp (units unit member) tenant isTenant isIts).2
  · intro accounted
    refine ⟨⟨accounted.tenants, fun unit member => (rows unit member).mpr fun tenant isTenant isIts => ?_⟩, accounted.claimed⟩
    exact ⟨accounted.units unit member tenant isTenant isIts, accounted.unprojectable unit member tenant isTenant isIts⟩

end Rows

section Identifiers

theorem takesSlug_filled {slug : Text} (takes : takesSlug slug = true) : slug ≠ [] := by
  rintro rfl
  exact absurd takes (by decide)

theorem present_some {link : Option Text} {id : Text} : present link = some id ↔ link = some id ∧ id ≠ [] := by
  simp [present, Option.filter_eq_some_iff]

theorem map_some_reduceOption {chain : List (Option Text)} (filled : ∀ segment ∈ chain, segment ≠ none) :
    chain.reduceOption.map some = chain := by
  induction chain with
  | nil => rfl
  | cons segment rest ih =>
    obtain ⟨slug, rfl⟩ := Option.ne_none_iff_exists'.mp (filled segment List.mem_cons_self)
    rw [List.reduceOption_cons_of_some, List.map_cons, ih fun other member => filled other (List.mem_cons_of_mem _ member)]

theorem expectedUnitIdentifiers_ok {tenantSlug : Text} {unit : ScannedOrgUnit} {identifiers : OrganizationIdentifiers} :
    expectedUnitIdentifiers tenantSlug unit = .ok identifiers ↔
      takesSlug tenantSlug = true ∧ isUuid unit.id = true ∧ unit.chain ≠ [] ∧
        (∀ segment ∈ unit.chain, ∃ slug, segment = some slug ∧ takesSlug slug = true) ∧
        identifiers = ⟨join (js "/") (tenantSlug :: unit.chain.reduceOption), subAlias tenantSlug unit.id, subAlias tenantSlug unit.id⟩ := by
  unfold expectedUnitIdentifiers
  split
  next gap =>
    obtain ⟨segment, member, isGap⟩ := List.any_eq_true.mp gap
    refine ⟨nofun, fun given => ?_⟩
    obtain ⟨slug, rfl, takes⟩ := given.2.2.2.1 segment member
    have there : present (some slug) = some slug := present_some.mpr ⟨rfl, takesSlug_filled takes⟩
    rw [there] at isGap
    cases isGap
  next whole =>
    have filled : ∀ segment ∈ unit.chain, segment ≠ none := by
      rintro segment member rfl
      exact whole (List.any_eq_true.mpr ⟨none, member, rfl⟩)
    have isChain := map_some_reduceOption filled
    have slugs : (∀ slug ∈ unit.chain.reduceOption, takesSlug slug = true) ↔
        ∀ segment ∈ unit.chain, ∃ slug, segment = some slug ∧ takesSlug slug = true := by
      constructor
      · intro all segment member
        obtain ⟨slug, rfl⟩ := Option.ne_none_iff_exists'.mp (filled segment member)
        exact ⟨slug, rfl, all slug (List.reduceOption_mem_iff.mpr member)⟩
      · intro all slug member
        obtain ⟨other, same, takes⟩ := all (some slug) (List.reduceOption_mem_iff.mp member)
        exact Option.some.inj same ▸ takes
    have long : 2 ≤ (tenantSlug :: unit.chain.reduceOption).length ↔ unit.chain ≠ [] := by
      rw [List.length_cons, ← List.length_pos_iff, ← congrArg List.length isChain, List.length_map]
      omega
    rw [subOrganizationIdentifiers_ok, long, List.forall_mem_cons, slugs]
    constructor
    · rintro ⟨slug, uuid, filled, ⟨-, segments⟩, same⟩
      exact ⟨slug, uuid, filled, segments, same⟩
    · rintro ⟨slug, uuid, filled, segments, same⟩
      exact ⟨slug, uuid, filled, ⟨slug, segments⟩, same⟩

theorem expectedRootIdentifiers_ok {tenant : ScannedTenant} {identifiers : OrganizationIdentifiers} :
    expectedRootIdentifiers tenant = .ok identifiers ↔
      takesSlug tenant.slug = true ∧ identifiers = ⟨tenant.slug, tenant.slug, tenant.slug⟩ := rootOrganizationIdentifiers_ok

theorem isUuid_length {id : Text} (uuid : isUuid id = true) : id.length = 36 := by
  unfold isUuid at uuid
  split at uuid
  next first second version third variant fourth node groups =>
    simp only [Bool.and_eq_true, decide_eq_true_eq] at uuid
    obtain ⟨⟨⟨-, isFirst, isSecond, isThird, isFourth, isNode⟩, -⟩, -⟩ := uuid
    have whole : [unit '-'].intercalate (id.splitOn (unit '-')) = id := List.intercalate_splitOn (unit '-')
    rw [groups] at whole
    rw [← whole]
    simp [List.intercalate, List.intersperse, isFirst, isSecond, isThird, isFourth, isNode]
  next => cases uuid

theorem subAlias_inj {oneSlug one twoSlug two : Text} (oneId : isUuid one = true) (twoId : isUuid two = true)
    (same : subAlias oneSlug one = subAlias twoSlug two) : one = two := by
  unfold subAlias at same
  exact (List.append_inj' same (by rw [isUuid_length oneId, isUuid_length twoId])).2

end Identifiers

section Exactness
variable {scan : RegistryScan} {organizations : List KeycloakOrganizationSnapshot}

theorem Projected.accounted (projected : Projected scan organizations) : Accounted scan organizations where
  tenants := projected.tenants
  units unit member tenant isTenant isIts identifiers derived := by
    obtain ⟨organization, parent, root, linked, isParent, isRoot, carries⟩ := projected.units unit member tenant isTenant isIts identifiers derived
    refine ⟨organization, linked, fun otherParent otherRoot isOther isOtherRoot => ?_⟩
    cases Option.some.inj (isParent.symm.trans isOther)
    cases Option.some.inj (isRoot.symm.trans isOtherRoot)
    exact carries
  unprojectable := projected.unprojectable
  claimed := projected.claimed

theorem hangsOff_of_id (complete : Complete scan) {unit parent : ScannedOrgUnit} (member : unit ∈ scan.orgUnits)
    (isParent : parent ∈ scan.orgUnits) (hangs : unit.parentId = some parent.id) : HangsOff parent unit := by
  rcases complete.below unit member parent.id hangs with ⟨row, isRow, same, hangsOff⟩ | ⟨unscanned, -, -⟩
  · rwa [List.inj_on_of_nodup_map complete.unitIds isRow isParent same] at hangsOff
  · exact absurd rfl (unscanned parent isParent)

theorem Projected.not_unhung (complete : Complete scan) (projected : Projected scan organizations) : ¬Unhung scan := by
  rintro ⟨unit, member, parent, isParent, tenant, isTenant, identifiers, isIts, hangs, derived, unlinked, -⟩
  obtain ⟨-, known, -, -, isKnown, -⟩ := projected.units unit member tenant isTenant isIts identifiers derived
  have hangsOff := hangsOff_of_id complete member isParent hangs
  rw [expectedParent, if_neg (by rw [hangs]; exact Option.some_ne_none _), hangsOff.link, unlinked] at isKnown
  cases isKnown

theorem same_of_nodup {α : Type} {rows : List α} {link : α → Option Text} (once : (rows.filterMap link).Nodup) {one two : α}
    (isOne : one ∈ rows) (isTwo : two ∈ rows) {id : Text} (linkOne : link one = some id) (linkTwo : link two = some id) : one = two := by
  by_contra different
  have apart := List.pairwise_filterMap.mp once
  have symmetric : Std.Symm fun one two => ∀ b ∈ link one, ∀ c ∈ link two, b ≠ c :=
    ⟨fun _ _ apart b isB c isC same => apart c isC b isB same.symm⟩
  exact apart.forall isOne isTwo different id linkOne id linkTwo rfl

theorem Projected.not_twins (projected : Projected scan organizations) : ¬Twins scan := by
  rintro ⟨one, isOne, two, isTwo, link, different, -, linkOne, linkTwo⟩
  have once := (List.nodup_append.mp projected.once).1
  exact different (congrArg _ (same_of_nodup once isOne isTwo linkOne linkTwo))

theorem nodup_filterMap {α : Type} {rows : List α} {key : α → Text} {link : α → Option Text} (distinct : (rows.map key).Nodup)
    (apart : ∀ one ∈ rows, ∀ two ∈ rows, key one ≠ key two → ∀ id, link one = some id → link two ≠ some id) : (rows.filterMap link).Nodup := by
  refine List.pairwise_filterMap.mpr ((List.pairwise_map.mp distinct).imp_of_mem fun {one two} isOne isTwo different id linkOne other linkTwo same => ?_)
  subst same
  exact apart one isOne two isTwo different id linkOne linkTwo

theorem Accounted.hangs (complete : Complete scan) (accounted : Accounted scan organizations) (noneUnhung : ¬Unhung scan)
    {unit : ScannedOrgUnit} {tenant : ScannedTenant} {identifiers : OrganizationIdentifiers} (member : unit ∈ scan.orgUnits)
    (isTenant : tenant ∈ scan.tenants) (isIts : tenant.id = unit.tenantId)
    (derived : expectedUnitIdentifiers tenant.slug unit = .ok identifiers) :
    ∃ parent root, expectedParent tenant unit = some parent ∧ present tenant.keycloakOrganizationId = some root := by
  obtain ⟨-, organization, -, ⟨-, isRoot⟩, -, -⟩ := accounted.tenants tenant isTenant
  cases isParentId : unit.parentId with
  | none => exact ⟨_, _, by rw [expectedParent, if_pos isParentId, (present_some.mp isRoot).1], isRoot⟩
  | some parentId =>
    have known : expectedParent tenant unit = unit.parentOrganizationId := by
      rw [expectedParent, if_neg (by rw [isParentId]; exact Option.some_ne_none _)]
    rw [known]
    obtain ⟨slug, -, -, segments, -⟩ := expectedUnitIdentifiers_ok.mp derived
    rcases complete.below unit member parentId isParentId with ⟨parent, isParent, sameId, hangsOff⟩ | ⟨-, -, above, isChain⟩
    · by_contra none
      have unlinked : parent.keycloakOrganizationId = .none := by
        rw [← hangsOff.link]
        cases isLink : unit.parentOrganizationId with
        | none => rfl
        | some link => exact absurd ⟨link, _, isLink, isRoot⟩ none
      have uuid : isUuid parent.id = true := by
        by_contra other
        exact noneUnhung ⟨unit, member, parent, isParent, tenant, isTenant, identifiers, isIts, sameId ▸ isParentId, derived, unlinked,
          Bool.eq_false_iff.mpr other⟩
      have filled : parent.chain ≠ [] := by
        cases isGrand : parent.parentId with
        | none => simp [(complete.top parent isParent isGrand).1]
        | some grandId =>
          rcases complete.below parent isParent grandId isGrand with ⟨_, _, _, grand⟩ | ⟨_, _, _, isAbove⟩
          · simp [grand.chain]
          · simp [isAbove]
      have slugs : ∀ segment ∈ parent.chain, ∃ slug, segment = some slug ∧ takesSlug slug = true :=
        fun segment inside => segments segment (hangsOff.chain ▸ List.mem_append_left _ inside)
      obtain ⟨other, ⟨-, isLinked⟩, -⟩ := accounted.units parent isParent tenant isTenant (isIts.trans hangsOff.tenant.symm) _
        (expectedUnitIdentifiers_ok.mpr ⟨slug, uuid, filled, slugs, rfl⟩)
      rw [unlinked] at isLinked
      cases isLinked
    · obtain ⟨_, gap, -⟩ := segments none (by simp [isChain])
      cases gap

theorem Accounted.projected (complete : Complete scan) (distinct : (organizations.map (·.id)).Nodup)
    (accounted : Accounted scan organizations) (noneUnhung : ¬Unhung scan) (noTwins : ¬Twins scan) : Projected scan organizations := by
  have units : ∀ unit ∈ scan.orgUnits, ∀ tenant ∈ scan.tenants, tenant.id = unit.tenantId →
      ∀ identifiers, expectedUnitIdentifiers tenant.slug unit = .ok identifiers →
        ∃ organization parent root, Linked organizations unit.keycloakOrganizationId organization ∧ expectedParent tenant unit = some parent ∧
          present tenant.keycloakOrganizationId = some root ∧ Carries organization identifiers .sub (some parent) root := by
    intro unit member tenant isTenant isIts identifiers derived
    obtain ⟨organization, linked, carries⟩ := accounted.units unit member tenant isTenant isIts identifiers derived
    obtain ⟨parent, root, isParent, isRoot⟩ := accounted.hangs complete noneUnhung member isTenant isIts derived
    exact ⟨organization, parent, root, linked, isParent, isRoot, carries parent root isParent isRoot⟩
  -- what a linked unit's Organization carries, from the link alone
  have carried : ∀ unit ∈ scan.orgUnits, ∀ id, present unit.keycloakOrganizationId = some id →
      ∃ organization ∈ organizations, organization.id = id ∧ organization.organizationLevel = some OrganizationLevel.sub.name ∧
        isUuid unit.id = true ∧ ∃ slug, organization.alias' = subAlias slug unit.id := by
    intro unit member id isLink
    obtain ⟨tenant, isTenant, isIts⟩ := complete.ofTenant unit member
    cases derived : expectedUnitIdentifiers tenant.slug unit with
    | error reason =>
      rw [accounted.unprojectable unit member tenant isTenant isIts reason derived] at isLink
      cases isLink
    | ok identifiers =>
      obtain ⟨organization, parent, root, linked, -, -, carries⟩ := units unit member tenant isTenant isIts identifiers derived
      obtain ⟨-, uuid, -, -, rfl⟩ := expectedUnitIdentifiers_ok.mp derived
      exact ⟨organization, linked.1, Option.some.inj (linked.2.symm.trans isLink), carries.level, uuid, tenant.slug, carries.alias'⟩
  have rooted : ∀ tenant ∈ scan.tenants, ∀ id, present tenant.keycloakOrganizationId = some id →
      ∃ organization ∈ organizations, organization.id = id ∧ organization.organizationLevel = some OrganizationLevel.root.name ∧
        organization.alias' = tenant.slug := by
    intro tenant isTenant id isLink
    obtain ⟨identifiers, organization, derived, linked, carries, -⟩ := accounted.tenants tenant isTenant
    obtain ⟨-, rfl⟩ := expectedRootIdentifiers_ok.mp derived
    exact ⟨organization, linked.1, Option.some.inj (linked.2.symm.trans isLink), carries.level, carries.alias'⟩
  refine ⟨accounted.tenants, units, accounted.unprojectable, List.nodup_append.mpr ⟨?_, ?_, ?_⟩, accounted.claimed⟩
  · refine nodup_filterMap complete.tenantIds fun one isOne two isTwo different id linkOne linkTwo => ?_
    obtain ⟨first, isFirst, idFirst, -, aliasFirst⟩ := rooted one isOne id linkOne
    obtain ⟨second, isSecond, idSecond, -, aliasSecond⟩ := rooted two isTwo id linkTwo
    have same : first = second := List.inj_on_of_nodup_map distinct isFirst isSecond (idFirst.trans idSecond.symm)
    exact noTwins ⟨one, isOne, two, isTwo, id, different, aliasFirst.symm.trans (same ▸ aliasSecond), linkOne, linkTwo⟩
  · refine nodup_filterMap complete.unitIds fun one isOne two isTwo different id linkOne linkTwo => ?_
    obtain ⟨first, isFirst, idFirst, -, uuidOne, slugOne, aliasFirst⟩ := carried one isOne id linkOne
    obtain ⟨second, isSecond, idSecond, -, uuidTwo, slugTwo, aliasSecond⟩ := carried two isTwo id linkTwo
    have same : first = second := List.inj_on_of_nodup_map distinct isFirst isSecond (idFirst.trans idSecond.symm)
    exact different (subAlias_inj uuidOne uuidTwo (aliasFirst.symm.trans (same ▸ aliasSecond)))
  · intro id isTenant other isUnit same
    subst same
    obtain ⟨tenant, member, linkTenant⟩ := List.mem_filterMap.mp isTenant
    obtain ⟨unit, memberUnit, linkUnit⟩ := List.mem_filterMap.mp isUnit
    obtain ⟨first, isFirst, idFirst, isRoot, -⟩ := rooted tenant member id linkTenant
    obtain ⟨second, isSecond, idSecond, isSub, -⟩ := carried unit memberUnit id linkUnit
    have same : first = second := List.inj_on_of_nodup_map distinct isFirst isSecond (idFirst.trans idSecond.symm)
    rw [same, isSub] at isRoot
    exact absurd isRoot (by decide)

/-- A report without findings means an exact projection, exactly where no unit that can be
projected hangs under an unlinked one that cannot, or something else is amiss. -/
theorem clean_iff_projected (scan : RegistryScan) (complete : Complete scan) (organizations : List KeycloakOrganizationSnapshot)
    (distinct : (organizations.map (·.id)).Nodup) (scannedAt : Text) :
    ((compareRegistryToRealm scan organizations false scannedAt).findings = [] ↔ Projected scan organizations) ↔
      (Accounted scan organizations → ¬Unhung scan ∧ ¬Twins scan) := by
  rw [clean_iff_accounted complete distinct]
  constructor
  · intro exact accounted
    have projected := exact.mp accounted
    exact ⟨projected.not_unhung complete, projected.not_twins⟩
  · intro kept
    refine ⟨fun accounted => ?_, Projected.accounted⟩
    obtain ⟨noneUnhung, noTwins⟩ := kept accounted
    exact accounted.projected complete distinct noneUnhung noTwins

end Exactness

section Examples

def acmeTenant : ScannedTenant := ⟨js "11111111-1111-4111-8111-111111111111", js "acme", js "active", some (js "o1")⟩

def acmeRoot : KeycloakOrganizationSnapshot := ⟨js "o1", js "acme", true, some (js "root"), some (js "acme"), none, some (js "o1")⟩

def emea (id : Text) (link : Option Text) : ScannedOrgUnit := ⟨id, acmeTenant.id, none, some (js "emea"), link, none, [some (js "emea")]⟩

def emeaId : Text := js "550e8400-e29b-41d4-a716-446655440000"

def acmeScan : RegistryScan := ⟨[acmeTenant], [emea emeaId (some (js "o2"))], false, false⟩

def acmeRealm : List KeycloakOrganizationSnapshot :=
  [acmeRoot, ⟨js "o2", subAlias (js "acme") emeaId, true, some (js "sub"), some (js "acme/emea"), some (js "o1"), some (js "o1")⟩]

theorem acmeScan_complete : Complete acmeScan where
  tenantsRead := rfl
  unitsRead := rfl
  tenantIds := List.nodup_singleton _
  unitIds := List.nodup_singleton _
  ofTenant := by decide
  top := by decide
  below unit member parentId hangs := by
    rw [List.mem_singleton.mp member] at hangs
    cases hangs

theorem clean_iff_projected_acme :
    (compareRegistryToRealm acmeScan acmeRealm false []).findings = [] ∧
    (((compareRegistryToRealm acmeScan acmeRealm false []).findings = [] ↔ Projected acmeScan acmeRealm) ↔
      (Accounted acmeScan acmeRealm → ¬Unhung acmeScan ∧ ¬Twins acmeScan)) :=
  ⟨by decide +kernel, clean_iff_projected acmeScan acmeScan_complete acmeRealm (by decide) []⟩

/-- A unit whose id is a UUID of version 7, without an Organization, and one beneath it that is
linked to an Organization of another name. -/
def unhungScan : RegistryScan :=
  let parentId := js "01890a5d-ac96-774b-bcce-b302099a8057"
  ⟨[acmeTenant], [emea parentId none, ⟨js "6ba7b810-9dad-41d1-80b4-00c04fd430c8", acmeTenant.id, some parentId, some (js "nl"), some (js "o2"),
    none, [some (js "emea"), some (js "nl")]⟩], false, false⟩

def unhungRealm : List KeycloakOrganizationSnapshot := [acmeRoot, ⟨js "o2", js "other", true, none, none, none, none⟩]

theorem unhungScan_complete : Complete unhungScan where
  tenantsRead := rfl
  unitsRead := rfl
  tenantIds := List.nodup_singleton _
  unitIds := by decide
  ofTenant := by decide
  top := by decide
  below := by
    intro unit member parentId hangs
    rcases List.mem_cons.mp member with rfl | later
    · cases hangs
    · rw [List.mem_singleton.mp later] at hangs ⊢
      cases hangs
      exact .inl ⟨_, List.mem_cons_self, rfl, rfl, rfl, rfl⟩

theorem clean_not_projected : Complete unhungScan ∧ (unhungRealm.map (·.id)).Nodup ∧ (unhungRealm.map (·.alias')).Nodup ∧
    ¬((compareRegistryToRealm unhungScan unhungRealm false []).findings = [] ↔ Projected unhungScan unhungRealm) := by
  refine ⟨unhungScan_complete, by decide, by decide, fun exact => ?_⟩
  have projected := exact.mp (by decide +kernel)
  refine projected.not_unhung unhungScan_complete ⟨_, List.mem_cons_of_mem _ List.mem_cons_self, _, List.mem_cons_self, _, List.mem_cons_self,
    _, rfl, rfl, expectedUnitIdentifiers_ok.mpr ⟨by decide, by decide, by decide, ?_, rfl⟩, rfl, by decide⟩
  intro segment member
  rcases List.mem_cons.mp member with rfl | later
  · exact ⟨_, rfl, by decide⟩
  · exact ⟨_, List.mem_singleton.mp later, by decide⟩

end Examples

end OpenShapeForge.Control.ProjectionExact
