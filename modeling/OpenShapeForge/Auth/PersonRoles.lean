import OpenShapeForge.Js.TextOrder
import OpenShapeForge.Library.OrderedMap
import OpenShapeForge.Library.Worklist

/-! A person's roles through the composites of a realm (apps/api/src/auth/person-roles.ts). -/

namespace OpenShapeForge.Auth.PersonRoles
open Js Library

inductive RoleCompositeMember where
  | realm (role : Text)
  | client (client role : Text)
deriving DecidableEq

structure RealmRoleComposites where
  realm : OrderedMap Text (List RoleCompositeMember)
  clients : OrderedMap Text (OrderedMap Text (List RoleCompositeMember))

abbrev RoleComposites := OrderedMap Text RealmRoleComposites

/-- What the host adds to a record: the names it answers to without owning them, and the
names such an answer itself has something under. None of it is a list of members. -/
structure Inherited where
  answers : Text → Bool
  beneath : Text → Text → Bool

def RoleCompositeMember.name : RoleCompositeMember → Text
  | .realm role | .client _ role => role

def memberKey : RoleCompositeMember → Text
  | .realm role => js "realm/" ++ role
  | .client client role => js "client/" ++ client ++ js "/" ++ role

/-- `record[name] ?? []`; nothing where that cannot be gone through. -/
def listed (host : Inherited) (record : OrderedMap Text (List RoleCompositeMember)) (name : Text) : Option (List RoleCompositeMember) :=
  match record.get? name with
  | some members => some members
  | none => if host.answers name then none else some []

def owned (host : Inherited) (table : RealmRoleComposites) : RoleCompositeMember → Option (List RoleCompositeMember)
  | .realm role => listed host table.realm role
  | .client client role =>
    match table.clients.get? client with
    | some roles => listed host roles role
    | none => if host.answers client && host.beneath client role then none else some []

def allMembers (table : RealmRoleComposites) : List RoleCompositeMember :=
  (table.realm.entries ++ table.clients.entries.flatMap fun client => client.2.entries).flatMap Prod.snd

def startOf (audience : Text) (roles : List Text) : List RoleCompositeMember := roles.map (.client audience)

/-- The steps the loop can take: one for each role asked for, and one for each member of
a list it adds. -/
def stepsOf (host : Inherited) (table : RealmRoleComposites) (audience : Text) (roles : List Text) : Nat :=
  let start := startOf audience roles
  start.length + Worklist.debt memberKey (owned host table) (start ++ allMembers table) []

/-- The members the loop expands. -/
def walk (host : Inherited) (table : RealmRoleComposites) (audience : Text) (roles : List Text) :
    Except Worklist.Stopped (List RoleCompositeMember) :=
  Worklist.expand memberKey (owned host table) (stepsOf host table audience roles) [] (startOf audience roles)

def expandRoleComposites (host : Inherited) (composites : RoleComposites) (realm : Option Text) (roles : List Text) (audience : Text) :
    Except Worklist.Stopped (List Text) :=
  match realm.filter (· ≠ []) with
  | none => .ok (sortTexts (distinct roles))
  | some realm =>
    match composites.get? realm with
    | some table => (walk host table audience roles).map fun expanded =>
        sortTexts (distinct (roles ++ expanded.map RoleCompositeMember.name))
    | none =>
      if host.answers realm ∧ roles ≠ [] then .error .refused
      else .ok (sortTexts (distinct roles))

def membersOf (table : RealmRoleComposites) : RoleCompositeMember → List RoleCompositeMember
  | .realm role => (table.realm.get? role).getD []
  | .client client role => ((table.clients.get? client).bind fun roles => roles.get? role).getD []

def Held (table : RealmRoleComposites) (audience : Text) (roles : List Text) (member : RoleCompositeMember) : Prop :=
  ∃ role ∈ roles, Digraph.Reaches (membersOf table) (.client audience role) member

def Shadowed (host : Inherited) (table : RealmRoleComposites) : RoleCompositeMember → Prop
  | .realm role => table.realm.get? role = none ∧ host.answers role = true
  | .client client role =>
    match table.clients.get? client with
    | some roles => roles.get? role = none ∧ host.answers role = true
    | none => host.answers client = true ∧ host.beneath client role = true

/-- The names of exactly what is held, sorted and each once. -/
structure Expansion (table : RealmRoleComposites) (audience : Text) (roles result : List Text) : Prop where
  sorted : result.Pairwise fun a b => textLess a b = true
  exact : ∀ name, name ∈ result ↔ name ∈ roles ∨ ∃ member, Held table audience roles member ∧ member.name = name

variable {host : Inherited} {table : RealmRoleComposites} {audience : Text} {roles : List Text} {member : RoleCompositeMember}

theorem listed_getD (record : OrderedMap Text (List RoleCompositeMember)) (name : Text) :
    (listed host record name).getD [] = (record.get? name).getD [] := by
  unfold listed
  split
  next members found => rw [found]
  next absent =>
    rw [absent]
    split <;> rfl

theorem direct_owned (host : Inherited) (table : RealmRoleComposites) (member : RoleCompositeMember) :
    Worklist.direct (owned host table) member = membersOf table member := by
  unfold Worklist.direct
  cases member with
  | realm role => exact listed_getD table.realm role
  | client client role =>
    simp only [owned, membersOf]
    cases found : table.clients.get? client with
    | some record => exact listed_getD record role
    | none =>
      show (if host.answers client && host.beneath client role then none else some []).getD [] = []
      split <;> rfl

theorem reached_iff : Worklist.Reached (owned host table) (startOf audience roles) member ↔ Held table audience roles member := by
  have same : Worklist.direct (owned host table) = membersOf table := funext (direct_owned host table)
  unfold Worklist.Reached Held startOf
  rw [same]
  simp only [List.mem_map, exists_exists_and_eq_and]

theorem listed_isSome (record : OrderedMap Text (List RoleCompositeMember)) (name : Text) :
    (listed host record name).isSome = true ↔ ¬(record.get? name = none ∧ host.answers name = true) := by
  unfold listed
  split
  next members found => simp [found]
  next absent =>
    split
    next answers => simp [absent, answers]
    next silent => simp [silent]

theorem owned_isSome : (owned host table member).isSome = true ↔ ¬Shadowed host table member := by
  cases member with
  | realm role => exact listed_isSome table.realm role
  | client client role =>
    simp only [owned, Shadowed]
    cases found : table.clients.get? client with
    | some record => exact listed_isSome record role
    | none =>
      simp only
      split
      next answers => simpa using answers
      next silent => simpa using silent

theorem mem_allMembers (inside : member ∈ membersOf table other) : member ∈ allMembers table := by
  unfold allMembers
  cases other with
  | realm role =>
    cases found : table.realm.get? role with
    | none => simp [membersOf, found] at inside
    | some members =>
      rw [membersOf, found, Option.getD_some] at inside
      exact List.mem_flatMap.mpr ⟨_, List.mem_append_left _ (OrderedMap.mem_of_get? found), inside⟩
  | client client role =>
    cases found : (table.clients.get? client).bind fun record => record.get? role with
    | none => simp [membersOf, found] at inside
    | some members =>
      rw [membersOf, found, Option.getD_some] at inside
      obtain ⟨record, isRecord, isList⟩ := Option.bind_eq_some_iff.mp found
      exact List.mem_flatMap.mpr ⟨_, List.mem_append_right _
        (List.mem_flatMap.mpr ⟨_, OrderedMap.mem_of_get? isRecord, OrderedMap.mem_of_get? isList⟩), inside⟩

theorem walk_exact (host : Inherited) (table : RealmRoleComposites) (audience : Text) (roles : List Text) :
    (∃ expanded, walk host table audience roles = .ok expanded ∧ ∀ member, member ∈ expanded ↔ Held table audience roles member) ↔
      (∀ one two, Held table audience roles one → Held table audience roles two → memberKey one = memberKey two → one = two) ∧
        ∀ member, Held table audience roles member → ¬Shadowed host table member := by
  have closed : Digraph.Closed (Worklist.direct (owned host table)) {member | member ∈ startOf audience roles ++ allMembers table} := by
    intro one _ two edge
    rw [direct_owned] at edge
    exact List.mem_append_right _ (mem_allMembers edge)
  have exact := Worklist.expand_exact closed (fun _ => List.mem_append_left _) (le_refl (stepsOf host table audience roles))
  simpa only [reached_iff, owned_isSome, walk] using exact

/-- All that is held is expanded, and its names are returned, exactly where no two roles
that are held have one key and no role that is held is read off the host. -/
theorem expandRoleComposites_exact (host : Inherited) (composites : RoleComposites) (realm : Text) (named : realm ≠ [])
    (table : RealmRoleComposites) (exported : composites.get? realm = some table) (roles : List Text) (audience : Text) :
    (∃ expanded result, walk host table audience roles = .ok expanded ∧ (∀ member, member ∈ expanded ↔ Held table audience roles member) ∧
      expandRoleComposites host composites (some realm) roles audience = .ok result ∧ Expansion table audience roles result) ↔
      (∀ one two, Held table audience roles one → Held table audience roles two → memberKey one = memberKey two → one = two) ∧
        ∀ member, Held table audience roles member → ¬Shadowed host table member := by
  have isTable : expandRoleComposites host composites (some realm) roles audience =
      (walk host table audience roles).map fun expanded => sortTexts (distinct (roles ++ expanded.map RoleCompositeMember.name)) := by
    simp [expandRoleComposites, Option.filter, named, exported]
  rw [← walk_exact]
  constructor
  · rintro ⟨expanded, -, walked, all, -⟩
    exact ⟨expanded, walked, all⟩
  · rintro ⟨expanded, walked, all⟩
    refine ⟨expanded, _, walked, all, by rw [isTable, walked]; rfl, sorted_distinct _, fun name => ?_⟩
    rw [mem_sorted_distinct, List.mem_append, List.mem_map]
    simp only [all]

def objectHost : Inherited where
  answers name := [js "constructor", js "toString", js "valueOf", js "hasOwnProperty"].contains name
  beneath _ name := [js "length", js "name", js "constructor"].contains name

/-- An administrator is a reader in the realm, and each of the two lists the other. -/
def orgTable : RealmRoleComposites where
  realm := OrderedMap.empty.set (js "reader") [.client (js "osf") (js "org_admin")]
  clients := OrderedMap.empty.set (js "osf") (OrderedMap.empty.set (js "org_admin") [.realm (js "reader"), .client (js "crm") (js "x")])

theorem expandRoleComposites_exact_org :
    expandRoleComposites objectHost (OrderedMap.empty.set (js "t") orgTable) (some (js "t")) [js "org_admin"] (js "osf") =
      .ok [js "org_admin", js "reader", js "x"] ∧
    ((∃ expanded result, walk objectHost orgTable (js "osf") [js "org_admin"] = .ok expanded ∧
        (∀ member, member ∈ expanded ↔ Held orgTable (js "osf") [js "org_admin"] member) ∧
        expandRoleComposites objectHost (OrderedMap.empty.set (js "t") orgTable) (some (js "t")) [js "org_admin"] (js "osf") = .ok result ∧
        Expansion orgTable (js "osf") [js "org_admin"] result) ↔
      (∀ one two, Held orgTable (js "osf") [js "org_admin"] one → Held orgTable (js "osf") [js "org_admin"] two →
          memberKey one = memberKey two → one = two) ∧
        ∀ member, Held orgTable (js "osf") [js "org_admin"] member → ¬Shadowed objectHost orgTable member) :=
  ⟨by rfl, expandRoleComposites_exact objectHost (OrderedMap.empty.set (js "t") orgTable) (js "t") (by decide) orgTable
    (OrderedMap.get?_set_self _ _ _) [js "org_admin"] (js "osf")⟩

/-- Two clients' roles that flatten to one key: `web/read` of `crm`, and `read` of `crm/web`. -/
def slashTable : RealmRoleComposites where
  realm := OrderedMap.empty
  clients := OrderedMap.empty.set (js "osf") (OrderedMap.empty.set (js "admin") [.client (js "crm") (js "web/read"), .client (js "crm/web") (js "read")])

theorem role_missed : ¬∃ result,
    expandRoleComposites objectHost (OrderedMap.empty.set (js "t") slashTable) (some (js "t")) [js "admin"] (js "osf") = .ok result ∧
      Expansion slashTable (js "osf") [js "admin"] result := by
  rintro ⟨result, ended, expansion⟩
  have given : expandRoleComposites objectHost (OrderedMap.empty.set (js "t") slashTable) (some (js "t")) [js "admin"] (js "osf") =
      .ok [js "admin", js "web/read"] := by rfl
  have edge : Digraph.Edge (membersOf slashTable) (.client (js "osf") (js "admin")) (.client (js "crm/web") (js "read")) := by
    unfold Digraph.Edge
    decide
  have held : Held slashTable (js "osf") [js "admin"] (.client (js "crm/web") (js "read")) := ⟨js "admin", List.mem_singleton_self _, .single edge⟩
  have named := (expansion.exact (js "read")).mpr (.inr ⟨_, held, rfl⟩)
  obtain rfl := Except.ok.inj (given.symm.trans ended)
  exact absurd named (by decide)

end OpenShapeForge.Auth.PersonRoles
