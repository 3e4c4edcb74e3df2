import OpenShapeForge.Control.OrganizationNaming
import OpenShapeForge.Js.JsonText
import OpenShapeForge.Js.TextOrder
import OpenShapeForge.Js.Unicode

/-! The record ACL: its two axes, who may change which of them, and who is in it
(apps/api/src/operations/entity/record-permissions.ts, operations/record-action-operations.ts,
db/migrations/app-helpers.ts). -/

namespace OpenShapeForge.Operations.RecordActions
open Js Library
open Control.OrganizationNaming

inductive SubjectKind where
  | users | groups | roles | integrations
deriving DecidableEq

def SubjectKind.name : SubjectKind → Text
  | users => js "users"
  | groups => js "groups"
  | roles => js "roles"
  | integrations => js "integrations"

/-- `SUBJECTS` -/
def humanKinds : List SubjectKind := [.users, .groups, .roles]

/-- `SUBJECT_KINDS` -/
def subjectKinds : List SubjectKind := humanKinds ++ [.integrations]

theorem mem_subjectKinds (kind : SubjectKind) : kind ∈ subjectKinds := by
  cases kind <;> decide

theorem SubjectKind.name_injective {one two : SubjectKind} (same : one.name = two.name) : one = two := by
  revert same
  cases one <;> cases two <;> decide

abbrev Subjects := SubjectKind → List Text

def nobody : Subjects := fun _ => []

structure RecordPermissionsDocument where
  view : Subjects
  edit : Subjects
  delete : Subjects
  actions : OrderedMap Text Subjects

/-- `view`, `edit` and `delete` are never names of an action. -/
def permissionNames : List Text := [js "view", js "edit", js "delete"]

/-- `RECORD_ACTION_NAME`: `/^[a-z][A-Za-z0-9]*$/` -/
def isRecordActionName : Text → Bool
  | [] => false
  | first :: rest => isLowerLetter first && rest.all fun c => isLowerLetter c || isUpperLetter c || isDigit c

def isActionName (name : Text) : Bool := isRecordActionName name && !permissionNames.contains name

section Parsing

def nonEmptyText : Json → Option Text
  | .text value => if value = [] then none else some value
  | _ => none

def stringArray : Option Json → Option (List Text)
  | none => some []
  | some (.array items) => items.mapM nonEmptyText
  | some _ => none

def readSubjects (kinds : List SubjectKind) : Json → Option Subjects
  | .object members =>
    let object := OrderedMap.ofList members
    if object.keys.any (fun key => !(kinds.map SubjectKind.name).contains key) then none
    else if kinds.all fun kind => (stringArray (object.get? kind.name)).isSome then
      some fun kind => (stringArray (object.get? kind.name)).getD []
    else none
  | _ => none

def humanSubjects : Json → Option Subjects := readSubjects humanKinds

def actionSubjects : Json → Option Subjects := readSubjects subjectKinds

def permissionSubjects : Option Json → Option Subjects
  | none => some nobody
  | some subjects => humanSubjects subjects

def actionsAxis : Option Json → Option (OrderedMap Text Subjects)
  | none => some .empty
  | some (.object members) =>
    let named := OrderedMap.ofList members
    if named.entries.all fun entry => isActionName entry.1 && (actionSubjects entry.2).isSome then
      some (named.mapValues fun subjects => (actionSubjects subjects).getD nobody)
    else none
  | some _ => none

/-- Strict: a document with a member that is not known is none. -/
def parseRecordPermissions : Json → Option RecordPermissionsDocument
  | .object members =>
    let raw := OrderedMap.ofList members
    if raw.keys.any fun key => key ≠ js "actions" && !permissionNames.contains key then none
    else do
      let view ← permissionSubjects (raw.get? (js "view"))
      let edit ← permissionSubjects (raw.get? (js "edit"))
      let delete ← permissionSubjects (raw.get? (js "delete"))
      let actions ← actionsAxis (raw.get? (js "actions"))
      return ⟨view, edit, delete, actions⟩
  | _ => none

end Parsing

section Axes

abbrev RecordActionAxis := OrderedMap Text Subjects

/-- `[...new Set(subjects)].sort()` of each kind -/
def normalized (subjects : Subjects) : Subjects := fun kind => sortTexts (distinct (subjects kind))

def namesSomeone (subjects : Subjects) : Bool := subjectKinds.any fun kind => subjects kind ≠ []

/-- The entries in the order of their names. -/
def sortedAxis (axis : RecordActionAxis) : RecordActionAxis where
  entries := sortMembers axis.entries
  nodup := ((List.perm_insertionSort _ _).map Prod.fst).nodup_iff.mpr axis.nodup

def canonicalRecordActionAxis (axis : RecordActionAxis) : RecordActionAxis :=
  ((sortedAxis axis).mapValues normalized).filter fun _ subjects => namesSomeone subjects

def storedSubjects (subjects : Subjects) : Json :=
  .object ((subjectKinds.filter fun kind => subjects kind ≠ []).map fun kind => (kind.name, .array ((subjects kind).map .text)))

def storedRecordActionAxis (axis : RecordActionAxis) : OrderedMap Text Json := (canonicalRecordActionAxis axis).mapValues storedSubjects

/-- The axis that is in force; of a document that does not parse, none. -/
def recordActionAxisOf (value : Json) : RecordActionAxis :=
  canonicalRecordActionAxis (((parseRecordPermissions value).map RecordPermissionsDocument.actions).getD .empty)

def sameRecordActionAxis (left right : RecordActionAxis) : Bool :=
  decide (left.keys.length = right.keys.length) &&
    left.entries.all fun entry => (right.get? entry.1).any fun theirs => subjectKinds.all fun kind => entry.2 kind = theirs kind

def withAxis (stored : Json) (axis : RecordActionAxis) : Json :=
  let document : OrderedMap Text Json := match stored with
    | .object members => .ofList members
    | _ => .empty
  let canonical := storedRecordActionAxis axis
  .object (if canonical.keys = [] then document.delete (js "actions") else document.set (js "actions") (.object canonical.entries)).entries

def statesActionAxis : Json → Bool
  | .object members => (OrderedMap.ofList members).has (js "actions")
  | _ => false

/-- What an ordinary write stores: the document with the axis that is in force, where it does not state another one. -/
def assertRecordActionAxisUnchanged (submitted inForce : Json) : Option Json :=
  if (parseRecordPermissions submitted).isNone then some submitted
  else if statesActionAxis submitted && !sameRecordActionAxis (recordActionAxisOf submitted) (recordActionAxisOf inForce) then none
  else some (withAxis submitted (recordActionAxisOf inForce))

end Axes

section Deltas

structure Refusal where
  code : Text
  message : Text
deriving DecidableEq

def deltaList (side : Text) (kind : SubjectKind) : Option Json → Except Refusal (List Text)
  | none => .ok []
  | some (.array items) =>
    match items.mapM nonEmptyText with
    | none => .error ⟨js "BAD_USER_INPUT", side ++ js "." ++ kind.name ++ js " must be an array of non-empty strings."⟩
    | some entries =>
      if kind ≠ .roles ∧ (distinct entries).any (fun entry => !isUuid entry) then
        .error ⟨js "VALIDATION", side ++ js "." ++ kind.name ++ js " holds record ids, not names or keys."⟩
      else .ok (distinct entries)
  | some _ => .error ⟨js "BAD_USER_INPUT", side ++ js "." ++ kind.name ++ js " must be an array of non-empty strings."⟩

def subjectDelta (side : Text) : Option Json → Except Refusal Subjects
  | none | some .null => .ok nobody
  | some (.object members) => do
    let input := OrderedMap.ofList members
    if input.keys.any fun key => !(subjectKinds.map SubjectKind.name).contains key then
      .error ⟨js "BAD_USER_INPUT", side ++ js " may only name users, groups, roles and integrations."⟩
    let users ← deltaList side .users (input.get? SubjectKind.users.name)
    let groups ← deltaList side .groups (input.get? SubjectKind.groups.name)
    let roles ← deltaList side .roles (input.get? SubjectKind.roles.name)
    let integrations ← deltaList side .integrations (input.get? SubjectKind.integrations.name)
    return fun
      | .users => users
      | .groups => groups
      | .roles => roles
      | .integrations => integrations
  | some _ => .error ⟨js "BAD_USER_INPUT", side ++ js " must be an object of subject lists."⟩

def touchedKinds (grant revoke : Subjects) : List SubjectKind := subjectKinds.filter fun kind => grant kind ≠ [] ∨ revoke kind ≠ []

def applyDelta (current : Option Subjects) (grant revoke : Subjects) : Subjects := fun kind =>
  sortTexts ((distinct ((current.getD nobody) kind ++ grant kind)).filter fun subject => !(revoke kind).contains subject)

/-- Names that any object answers to: reading one that was not stored does not find nothing. -/
def inheritedNames : List Text := [js "constructor", js "hasOwnProperty", js "isPrototypeOf", js "propertyIsEnumerable",
  js "toLocaleString", js "toString", js "valueOf"]

def delegatedDocument (stored : Json) (action : Text) (grant revoke : Subjects) : Option Json :=
  let current := recordActionAxisOf stored
  if (current.get? action).isNone ∧ action ∈ inheritedNames then none
  else some (withAxis stored (current.set action (applyDelta (current.get? action) grant revoke)))

end Deltas

section Matching

def isStrings : Json → Bool
  | .array items => items.all fun item => (nonEmptyText item).isSome
  | _ => false

def recordSubjectSetsValid (allowIntegrations : Bool) : Json → Bool
  | .object members => (OrderedMap.ofList members).entries.all fun entry => isStrings entry.2 &&
      ((humanKinds.map SubjectKind.name).contains entry.1 || (allowIntegrations && entry.1 = SubjectKind.integrations.name))
  | _ => false

def actionsValid : Json → Bool
  | .object members => (OrderedMap.ofList members).entries.all fun entry => isActionName entry.1 && recordSubjectSetsValid true entry.2
  | _ => false

def recordPermissionsValid : Json → Bool
  | .object members => (OrderedMap.ofList members).entries.all fun entry =>
      if entry.1 = js "actions" then actionsValid entry.2 else permissionNames.contains entry.1 && recordSubjectSetsValid false entry.2
  | _ => false

/-- `json -> key` -/
def member? (key : Text) : Json → Option Json
  | .object members => (OrderedMap.ofList members).get? key
  | _ => none

/-- The texts of an array; of anything else, none. -/
def listed : Option Json → List Text
  | some (.array items) => items.filterMap fun item => match item with
    | .text value => some value
    | _ => none
  | _ => []

abbrev RowId := { text : Text // isUuid text = true ∧ text.map asciiLower = text }

inductive PrincipalClass where
  | person | application | service | unknown
deriving DecidableEq

structure DbSession where
  principalClass : PrincipalClass
  userId : Option RowId
  roles : List Text
  relationGroups : List RowId
  appPrincipal : Option RowId

def namedPerson (session : DbSession) (subjects : Json) : Bool :=
  session.userId.any (fun id => (listed (member? SubjectKind.users.name subjects)).contains id.1) ||
    session.roles.any (fun role => (listed (member? SubjectKind.roles.name subjects)).contains role) ||
    session.relationGroups.any (fun group => (listed (member? SubjectKind.groups.name subjects)).contains group.1)

def recordPermissionSubjectAllows (session : DbSession) (emptyIsPublic : Bool) (subjects : Json) : Bool :=
  if humanKinds.all fun kind => listed (member? kind.name subjects) = [] then emptyIsPublic else namedPerson session subjects

/-- `app.record_permission_allows` -/
def recordPermissionAllows (session : DbSession) (emptyIsPublic : Bool) (document : Json) (permission : Text) : Bool :=
  let allows (name : Text) := recordPermissionSubjectAllows session emptyIsPublic ((member? name document).getD (.object []))
  permissionNames.contains permission && recordPermissionsValid document && allows (js "view") &&
    (permission = js "view" || allows permission)

def recordActionSubjectAllows (session : DbSession) (subjects : Option Json) : Bool :=
  subjects.any fun subjects => recordSubjectSetsValid true subjects &&
    !(subjectKinds.all fun kind => listed (member? kind.name subjects) = []) &&
    match session.principalClass with
    | .person => namedPerson session subjects
    | .application => session.appPrincipal.any fun id => (listed (member? SubjectKind.integrations.name subjects)).contains id.1
    | _ => false

/-- What `app.record_action_allows` answers from a document. -/
def recordActionAllows (session : DbSession) (document : Json) (action : Text) : Bool :=
  isActionName action && recordPermissionsValid document &&
    recordActionSubjectAllows session ((member? (js "actions") document).bind (member? action))

end Matching

end OpenShapeForge.Operations.RecordActions
