import OpenShapeForge.Operations.ActionDeltas

/-! What an ordinary write of a record's ACL stores, and who holds a named action by it
(apps/api/src/operations/entity/record-permissions.ts). -/

namespace OpenShapeForge.Operations.OrdinaryWrites
open Js Library Library.Failing
open Control.OrganizationNaming
open RecordActions ActionDeltas

section Model

/-- What a table with record permissions is read for. -/
structure Policy where
  field : Text

inductive Failure
  | forbidden (message detail : Text)
  | typeError
  deriving DecidableEq

def axisForbidden (policy : Policy) : Failure :=
  .forbidden (js "Not authorized to change the record's named actions.")
    (policy.field ++ js ".actions grants an Operation to a person or an application and is not writable through an ordinary update. " ++
      js "Use the entity.record-action.delegate Operation, which checks the authority each subject kind needs. " ++
      js "If the record's actions changed since you loaded it, reload before saving.")

/-- Entries against the other axis, one after the other. What an object inherits is read as an
entry there, and has no lists to compare. -/
def sameEntries (right : RecordActionAxis) : List (Text × Subjects) → Except Failure Bool
  | [] => .ok true
  | (name, ours) :: rest =>
    match right.get? name with
    | none => if name ∈ inheritedNames then .error .typeError else .ok false
    | some theirs => if subjectKinds.all fun kind => ours kind = theirs kind then sameEntries right rest else .ok false

def sameRecordActionAxis (left right : RecordActionAxis) : Except Failure Bool :=
  if left.keys.length ≠ right.keys.length then .ok false else sameEntries right left.entries

def checkAxis (policy : Policy) (submitted : Json) (current : RecordActionAxis) : Except Failure Unit := do
  if statesActionAxis submitted then
    let same ← sameRecordActionAxis (recordActionAxisOf submitted) current
    if same then .ok () else .error (axisForbidden policy)
  else .ok ()

def assertRecordActionAxisUnchanged (policy : Option Policy) (submitted inForce : Json) : Except Failure Json :=
  match policy with
  | none => .ok submitted
  | some policy =>
    if (parseRecordPermissions submitted).isNone then .ok submitted
    else do
      checkAxis policy submitted (recordActionAxisOf inForce)
      return withAxis submitted (recordActionAxisOf inForce)

inductive PrincipalKind
  | person
  | service
  deriving DecidableEq

structure Session where
  userId : Text
  roles : List Text
  relationGroupIds : List Text
  integrationId : Option Text
  principalKind : Option PrincipalKind

def resolvePrincipalClass (session : Session) : PrincipalClass :=
  if session.integrationId.isSome then .application
  else match session.principalKind with
    | some .service => .service
    | some .person => .person
    | none => .unknown

def admits (session : Session) (subjects : Subjects) : Bool :=
  match resolvePrincipalClass session with
  | .person =>
    session.userId ≠ [] && (subjects .users).contains session.userId ||
      session.roles.any (fun role => (subjects .roles).contains role) ||
      (session.relationGroupIds.filter isUuid).any fun group => (subjects .groups).contains group
  | .application => session.integrationId.any fun id => id ≠ [] && (subjects .integrations).contains id
  | _ => false

def recordActionAllows (session : Session) (value : Json) (action : Text) : Except Failure Bool :=
  if !isActionName action then .ok false
  else match parseRecordPermissions value with
    | none => .ok false
    | some document =>
      match document.actions.get? action with
      | none => if action ∈ inheritedNames then .error .typeError else .ok false
      | some subjects => .ok (namesSomeone subjects && admits session subjects)

end Model

def axisOf (value : Json) : RecordActionAxis := ((parseRecordPermissions value).map RecordPermissionsDocument.actions).getD .empty

/-- Two documents name the same subjects for every action. -/
def SameGrants (one two : Json) : Prop :=
  ∀ action kind subject, subject ∈ named (axisOf one) action kind ↔ subject ∈ named (axisOf two) action kind

def Holds (session : Session) (value : Json) (action : Text) : Prop := recordActionAllows session value action = .ok true

section Axes

theorem axis_axisOf (value : Json) : Axis (axisOf value) := by
  unfold axisOf
  cases parsed : parseRecordPermissions value with
  | none => exact ⟨fun name member => absurd member List.not_mem_nil, fun name kind subject member => absurd member List.not_mem_nil⟩
  | some document => exact axis_of_parsed parsed

theorem axisOf_parsed {value : Json} {document : RecordPermissionsDocument} (parsed : parseRecordPermissions value = some document) :
    axisOf value = document.actions := by
  unfold axisOf
  rw [parsed]
  rfl

theorem recordActionAxisOf_canonical (value : Json) : recordActionAxisOf value = canonicalRecordActionAxis (axisOf value) := rfl

theorem normalized_congr {one two : Subjects} (same : ∀ kind subject, subject ∈ one kind ↔ subject ∈ two kind) :
    normalized one = normalized two := by
  funext kind
  refine sortTexts_eq ((List.perm_ext_iff_of_nodup (distinct_nodup _) (distinct_nodup _)).mpr fun subject => ?_)
  rw [mem_distinct, mem_distinct]
  exact same kind subject

theorem get?_canonical_named (axis : RecordActionAxis) (name : Text) :
    (canonicalRecordActionAxis axis).get? name = (some (normalized (named axis name))).filter namesSomeone := by
  rw [get?_canonical]
  unfold named
  cases axis.get? name with
  | some subjects => rfl
  | none => rfl

theorem canonical_reads_iff {one two : RecordActionAxis} :
    (∀ name, (canonicalRecordActionAxis one).get? name = (canonicalRecordActionAxis two).get? name) ↔
      ∀ name kind subject, subject ∈ named one name kind ↔ subject ∈ named two name kind := by
  constructor
  · intro same name kind subject
    rw [← mem_named_canonical one, ← mem_named_canonical two]
    unfold named
    rw [same name]
  · intro same name
    rw [get?_canonical_named, get?_canonical_named, normalized_congr (same name)]

theorem sameKinds_iff {ours theirs : Subjects} : (subjectKinds.all fun kind => ours kind = theirs kind) = true ↔ ours = theirs := by
  constructor
  · intro same
    funext kind
    exact of_decide_eq_true (List.all_eq_true.mp same kind (mem_subjectKinds kind))
  · intro same
    exact List.all_eq_true.mpr fun kind _ => decide_eq_true (congrFun same kind)

theorem sameEntries_iff (right : RecordActionAxis) : ∀ entries : List (Text × Subjects),
    sameEntries right entries = .ok true ↔ ∀ entry ∈ entries, right.get? entry.1 = some entry.2
  | [] => iff_of_true rfl fun entry member => absurd member List.not_mem_nil
  | (name, ours) :: rest => by
    rw [List.forall_mem_cons, sameEntries]
    cases found : right.get? name with
    | none =>
      refine iff_of_false ?_ fun both => ?_
      · dsimp only
        split
        next => rintro ⟨⟩
        next => rintro ⟨⟩
      · cases both.1
    | some theirs =>
      dsimp only
      split
      next same =>
        rw [sameEntries_iff right rest, sameKinds_iff.mp same]
        exact (and_iff_right rfl).symm
      next different =>
        refine iff_of_false (by rintro ⟨⟩) fun both => different ?_
        exact sameKinds_iff.mpr (Option.some.inj both.1).symm

theorem sameRecordActionAxis_iff (left right : RecordActionAxis) :
    sameRecordActionAxis left right = .ok true ↔ ∀ name, left.get? name = right.get? name := by
  rw [← OrderedMap.same_reads_iff, ← sameEntries_iff]
  unfold sameRecordActionAxis
  split
  next different => exact iff_of_false (by rintro ⟨⟩) fun both => different both.1
  next size => exact (and_iff_right (not_not.mp size)).symm

theorem canonical_absent_iff (axis : RecordActionAxis) (name : Text) :
    (canonicalRecordActionAxis axis).get? name = none ↔ ∀ kind, named axis name kind = [] := by
  have nobodyNamed : ∀ kind, normalized (named axis name) kind = [] ↔ named axis name kind = [] := fun kind => by
    rw [List.eq_nil_iff_forall_not_mem, List.eq_nil_iff_forall_not_mem]
    exact forall_congr' fun subject => not_congr (mem_sorted_distinct _ _)
  rw [get?_canonical_named, Option.filter_eq_none_iff]
  constructor
  · intro noOne kind
    rw [← nobodyNamed kind]
    by_contra someone
    exact noOne _ rfl (List.any_eq_true.mpr ⟨kind, mem_subjectKinds kind, decide_eq_true someone⟩)
  · rintro noOne subjects same someone
    obtain ⟨kind, -, isSomeone⟩ := List.any_eq_true.mp someone
    rw [← Option.some.inj same, decide_eq_true_eq] at isSomeone
    exact isSomeone ((nobodyNamed kind).mpr (noOne kind))

theorem sameEntries_error {right : RecordActionAxis} {failure : Failure} : ∀ {entries : List (Text × Subjects)},
    sameEntries right entries = .error failure →
      failure = .typeError ∧ ∃ entry ∈ entries, entry.1 ∈ inheritedNames ∧ right.get? entry.1 = none
  | [], fails => by cases fails
  | (name, ours) :: rest, fails => by
    rw [sameEntries] at fails
    split at fails
    next absent =>
      split at fails
      next inherited => exact ⟨(Except.error.inj fails).symm, (name, ours), List.mem_cons_self, inherited, absent⟩
      next => cases fails
    next =>
      split at fails
      next =>
        obtain ⟨isType, entry, member, found⟩ := sameEntries_error fails
        exact ⟨isType, entry, List.mem_cons_of_mem _ member, found⟩
      next => cases fails

end Axes

section Writes
variable {policy : Policy} {submitted inForce : Json} {document : RecordPermissionsDocument}

theorem same_iff_grants : sameRecordActionAxis (recordActionAxisOf submitted) (recordActionAxisOf inForce) = .ok true ↔
    SameGrants submitted inForce := by
  rw [sameRecordActionAxis_iff, recordActionAxisOf_canonical, recordActionAxisOf_canonical]
  exact canonical_reads_iff

theorem checkAxis_iff : checkAxis policy submitted (recordActionAxisOf inForce) = .ok () ↔
    (statesActionAxis submitted = true → SameGrants submitted inForce) := by
  unfold checkAxis
  split
  next states =>
    rw [attempt_bind_ok, ← same_iff_grants]
    constructor
    · rintro ⟨same, compared, passes⟩ _
      cases same with
      | true => exact compared
      | false => cases passes
    · exact fun same => ⟨true, same states, rfl⟩
  next silent => exact iff_of_true rfl fun states => absurd states silent

theorem write_iff (parses : parseRecordPermissions submitted = some document) {result : Json} :
    assertRecordActionAxisUnchanged (some policy) submitted inForce = .ok result ↔
      (statesActionAxis submitted = true → SameGrants submitted inForce) ∧ result = withAxis submitted (recordActionAxisOf inForce) := by
  unfold assertRecordActionAxisUnchanged
  dsimp only
  rw [parses, Option.isNone_some, if_neg Bool.false_ne_true, attempt_bind_ok, ← checkAxis_iff]
  constructor
  · rintro ⟨⟨⟩, passes, isResult⟩
    exact ⟨passes, (Except.ok.inj isResult).symm⟩
  · rintro ⟨passes, rfl⟩
    exact ⟨(), passes, rfl⟩

theorem parse_result (parses : parseRecordPermissions submitted = some document) :
    parseRecordPermissions (withAxis submitted (recordActionAxisOf inForce)) =
      some { document with actions := canonicalRecordActionAxis (recordActionAxisOf inForce) } :=
  parse_withAxis parses (recordActionAxisOf_canonical inForce ▸ (axis_axisOf inForce).canonical)

theorem result_grants (parses : parseRecordPermissions submitted = some document) :
    SameGrants (withAxis submitted (recordActionAxisOf inForce)) inForce := by
  intro action kind subject
  rw [axisOf_parsed (parse_result parses), mem_named_canonical, recordActionAxisOf_canonical, mem_named_canonical]

theorem refuses (parses : parseRecordPermissions submitted = some document) (states : statesActionAxis submitted = true)
    (other : ¬ SameGrants submitted inForce) :
    assertRecordActionAxisUnchanged (some policy) submitted inForce = .error (axisForbidden policy) ∨
      assertRecordActionAxisUnchanged (some policy) submitted inForce = .error .typeError ∧
        ∃ name ∈ inheritedNames, (∃ kind subject, subject ∈ named document.actions name kind) ∧ ∀ kind, named (axisOf inForce) name kind = [] := by
  unfold assertRecordActionAxisUnchanged
  dsimp only
  rw [parses, Option.isNone_some, if_neg Bool.false_ne_true]
  unfold checkAxis
  rw [if_pos states]
  cases compared : sameRecordActionAxis (recordActionAxisOf submitted) (recordActionAxisOf inForce) with
  | ok same =>
    cases same with
    | true => exact absurd (same_iff_grants.mp compared) other
    | false => exact .inl rfl
  | error failure =>
    unfold sameRecordActionAxis at compared
    split at compared
    next => cases compared
    next =>
      obtain ⟨isType, entry, member, inherited, absent⟩ := sameEntries_error compared
      rw [isType]
      refine .inr ⟨rfl, entry.1, inherited, ?_, (canonical_absent_iff (axisOf inForce) entry.1).mp absent⟩
      have present : (canonicalRecordActionAxis (axisOf submitted)).get? entry.1 ≠ none := by
        rw [← recordActionAxisOf_canonical, OrderedMap.get?_of_mem _ member]
        exact Option.some_ne_none _
      rw [Ne, canonical_absent_iff, axisOf_parsed parses, not_forall] at present
      obtain ⟨kind, someone⟩ := present
      obtain ⟨subject, isNamed⟩ := List.exists_mem_of_ne_nil _ someone
      exact ⟨kind, subject, isNamed⟩

theorem withAxis_twice (json : Json) (axis : RecordActionAxis) : withAxis (withAxis json axis) axis = withAxis json axis := by
  unfold withAxis
  dsimp only
  split
  next isNone =>
    rw [OrderedMap.ofList_entries, OrderedMap.delete_of_absent]
    rw [OrderedMap.keys_delete]
    exact fun member => of_decide_eq_true (List.mem_filter.mp member).2 rfl
  next => rw [OrderedMap.ofList_entries, OrderedMap.set_of_get? (OrderedMap.get?_set_self _ _ _)]

theorem holds_iff (session : Session) (value : Json) (action : Text) :
    Holds session value action ↔ isActionName action = true ∧ admits session (named (axisOf value) action) = true := by
  have admitted : ∀ subjects, admits session subjects = true → namesSomeone subjects = true := by
    intro subjects admitted
    have member : ∃ kind subject, subject ∈ subjects kind := by
      unfold admits at admitted
      split at admitted
      next =>
        rw [Bool.or_eq_true, Bool.or_eq_true, Bool.and_eq_true, List.any_eq_true, List.any_eq_true] at admitted
        rcases admitted with (⟨-, user⟩ | ⟨role, -, isRole⟩) | ⟨group, -, isGroup⟩
        · exact ⟨_, _, List.contains_iff_mem.mp user⟩
        · exact ⟨_, role, List.contains_iff_mem.mp isRole⟩
        · exact ⟨_, group, List.contains_iff_mem.mp isGroup⟩
      next =>
        obtain ⟨id, -, isId⟩ := (Option.any_eq_true _ _).mp admitted
        rw [Bool.and_eq_true] at isId
        exact ⟨_, id, List.contains_iff_mem.mp isId.2⟩
      next => cases admitted
    obtain ⟨kind, subject, isNamed⟩ := member
    exact List.any_eq_true.mpr ⟨kind, mem_subjectKinds kind, decide_eq_true (List.ne_nil_of_mem isNamed)⟩
  have noBody : admits session nobody = true → False := fun never => absurd (admitted nobody never) (by decide)
  unfold Holds recordActionAllows axisOf named
  split
  next notName =>
    rw [Bool.not_eq_true'] at notName
    exact iff_of_false (by rintro ⟨⟩) fun both => absurd (notName.symm.trans both.1) Bool.false_ne_true
  next isName =>
    rw [Bool.not_eq_true', Bool.not_eq_false] at isName
    cases parseRecordPermissions value with
    | none => exact iff_of_false (by rintro ⟨⟩) fun both => noBody both.2
    | some document =>
      dsimp only [Option.map_some, Option.getD_some]
      cases document.actions.get? action with
      | none =>
        refine iff_of_false ?_ fun both => noBody both.2
        dsimp only
        split
        next => rintro ⟨⟩
        next => rintro ⟨⟩
      | some subjects =>
        dsimp only [Option.getD_some]
        constructor
        · intro allowed
          exact ⟨isName, (Bool.and_eq_true _ _ ▸ Except.ok.inj allowed).2⟩
        · rintro ⟨-, admits⟩
          rw [admits, admitted subjects admits]
          rfl

theorem admits_named_congr (session : Session) {one two : Subjects} (same : ∀ kind subject, subject ∈ one kind ↔ subject ∈ two kind) :
    admits session one = admits session two := by
  have contained : ∀ kind subject, (one kind).contains subject = (two kind).contains subject := fun kind subject => by
    rw [Bool.eq_iff_iff, List.contains_iff_mem, List.contains_iff_mem]
    exact same kind subject
  unfold admits
  simp only [contained]

theorem holds_congr {one two : Json} (same : SameGrants one two) (session : Session) (action : Text) :
    Holds session one action ↔ Holds session two action := by
  rw [holds_iff, holds_iff, admits_named_congr session (same action)]

/-- An ordinary write of a document the parser accepts. What it stores parses, with the submitted
permissions, and grants each action as the document in force does; written again it is the same.
It is stored when it does not state the axis or names whom the axis in force names, and otherwise
it fails: with the refusal, or on a stated name that every object answers to. -/
theorem write_keeps_grants (policy : Policy) (inForce : Json) {submitted : Json} {document : RecordPermissionsDocument}
    (parses : parseRecordPermissions submitted = some document) :
    (∀ result, assertRecordActionAxisUnchanged (some policy) submitted inForce = .ok result →
      (∃ kept, parseRecordPermissions result = some kept ∧ kept.view = document.view ∧ kept.edit = document.edit ∧
        kept.delete = document.delete) ∧
      (∀ session action, Holds session result action ↔ Holds session inForce action) ∧
      assertRecordActionAxisUnchanged (some policy) result inForce = .ok result) ∧
    (statesActionAxis submitted = false ∨ SameGrants submitted inForce →
      ∃ result, assertRecordActionAxisUnchanged (some policy) submitted inForce = .ok result) ∧
    (statesActionAxis submitted = true → ¬ SameGrants submitted inForce →
      assertRecordActionAxisUnchanged (some policy) submitted inForce = .error (axisForbidden policy) ∨
        assertRecordActionAxisUnchanged (some policy) submitted inForce = .error .typeError ∧
          ∃ name ∈ inheritedNames, (∃ kind subject, subject ∈ named document.actions name kind) ∧
            ∀ kind, named (axisOf inForce) name kind = []) := by
  refine ⟨fun result isWritten => ?_, fun allowed => ?_, refuses parses⟩
  · obtain ⟨-, rfl⟩ := (write_iff parses).mp isWritten
    have same : SameGrants (withAxis submitted (recordActionAxisOf inForce)) inForce := result_grants parses
    refine ⟨⟨_, parse_result parses, rfl, rfl, rfl⟩, holds_congr same, ?_⟩
    exact (write_iff (parse_result parses)).mpr ⟨fun _ => same, (withAxis_twice _ _).symm⟩
  · refine ⟨_, (write_iff parses).mpr ⟨fun states => ?_, rfl⟩⟩
    rcases allowed with silent | same
    · exact absurd (silent.symm.trans states) Bool.false_ne_true
    · exact same

/-- A document that grants `start` to the editors. -/
def editorsStart : Json :=
  .object [(js "actions", .object [(js "start", .object [(js "roles", .array [.text (js "editor")])])])]

def editor : Session := ⟨js "u", [js "editor"], [], none, some .person⟩

theorem write_keeps_grants_start : ∃ result,
    assertRecordActionAxisUnchanged (some ⟨js "permissions"⟩) (.object []) editorsStart = .ok result ∧ Holds editor result (js "start") := by
  have parses : parseRecordPermissions (.object []) = some ⟨nobody, nobody, nobody, .empty⟩ := rfl
  have write := write_keeps_grants ⟨js "permissions"⟩ editorsStart parses
  obtain ⟨result, isWritten⟩ := write.2.1 (.inl rfl)
  have held : Holds editor editorsStart (js "start") := by
    unfold Holds
    decide +kernel
  exact ⟨result, isWritten, ((write.1 result isWritten).2.1 editor (js "start")).mpr held⟩

end Writes

end OpenShapeForge.Operations.OrdinaryWrites
