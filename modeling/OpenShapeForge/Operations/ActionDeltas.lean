import OpenShapeForge.Operations.RecordActions

/-! What a written ACL parses to, and that the database reads from it whom the parser found in it. -/

namespace OpenShapeForge.Operations.ActionDeltas
open Js Library
open RecordActions

section Lists

theorem mapM_texts (texts : List Text) (filled : ∀ text ∈ texts, text ≠ []) : (texts.map Json.text).mapM nonEmptyText = some texts := by
  induction texts with
  | nil => rfl
  | cons text rest ih =>
    have isText : nonEmptyText (.text text) = some text := if_neg (filled text List.mem_cons_self)
    rw [List.map_cons, List.mapM_cons, isText, ih fun other member => filled other (List.mem_cons_of_mem _ member)]
    rfl

theorem texts_of_mapM : ∀ {items : List Json} {texts : List Text}, items.mapM nonEmptyText = some texts →
    listed (some (.array items)) = texts ∧ isStrings (.array items) = true ∧ ∀ text ∈ texts, text ≠ []
  | [], texts, read => by
    cases read
    exact ⟨rfl, rfl, fun text member => absurd member List.not_mem_nil⟩
  | item :: rest, texts, read => by
    rw [List.mapM_cons] at read
    obtain ⟨text, isText, read⟩ := Option.bind_eq_some_iff.mp read
    obtain ⟨others, readRest, read⟩ := Option.bind_eq_some_iff.mp read
    cases read
    obtain ⟨restListed, restStrings, restFilled⟩ := texts_of_mapM readRest
    cases item with
    | text value =>
      by_cases filled : value = []
      · cases isText.symm.trans (if_pos filled)
      · have same : text = value := Option.some.inj (isText.symm.trans (if_neg filled))
        subst same
        refine ⟨congrArg (List.cons text) restListed, ?_, ?_⟩
        · change ((nonEmptyText (.text text)).isSome && isStrings (.array rest)) = true
          rw [isText, restStrings]
          rfl
        · intro other member
          rcases List.mem_cons.mp member with rfl | later
          · exact filled
          · exact restFilled other later
    | _ => cases isText

theorem stringArray_listed {list : Option Json} {texts : List Text} (read : stringArray list = some texts) :
    listed list = texts ∧ ∀ text ∈ texts, text ≠ [] := by
  unfold stringArray at read
  split at read
  next =>
    cases read
    exact ⟨rfl, fun text member => absurd member List.not_mem_nil⟩
  next => exact ⟨(texts_of_mapM read).1, (texts_of_mapM read).2.2⟩
  next => cases read

theorem isStrings_of_stringArray {list : Json} (read : (stringArray (some list)).isSome = true) : isStrings list = true := by
  obtain ⟨texts, isTexts⟩ := Option.isSome_iff_exists.mp read
  cases list with
  | array items => exact (texts_of_mapM isTexts).2.1
  | _ => cases isTexts

end Lists

def Filled (subjects : Subjects) : Prop := ∀ kind, ∀ subject ∈ subjects kind, subject ≠ []

section Reading

theorem known_of_not_any {keys names : List Text} (known : ¬(keys.any fun key => !names.contains key) = true) : ∀ key ∈ keys, key ∈ names := by
  intro key member
  by_contra unknown
  exact known (List.any_eq_true.mpr ⟨key, member, by simpa using unknown⟩)

theorem readSubjects_listed {kinds : List SubjectKind} {value : Json} {subjects : Subjects}
    (read : readSubjects kinds value = some subjects) :
    (∀ kind : SubjectKind, listed (member? kind.name value) = subjects kind) ∧ Filled subjects := by
  unfold readSubjects at read
  split at read
  next members =>
    dsimp only at read
    split at read
    next => cases read
    next known =>
      split at read
      next readable =>
        cases read
        have each : ∀ kind : SubjectKind, ∃ texts, stringArray ((OrderedMap.ofList members).get? kind.name) = some texts := by
          intro kind
          by_cases isKind : kind ∈ kinds
          · exact Option.isSome_iff_exists.mp (List.all_eq_true.mp readable kind isKind)
          · refine ⟨[], ?_⟩
            have absent : (OrderedMap.ofList members).get? kind.name = none := by
              by_contra present
              obtain ⟨found, isFound⟩ := Option.ne_none_iff_exists'.mp present
              have isKey := ((OrderedMap.ofList members).mem_keys_iff_get? kind.name).mpr ⟨found, isFound⟩
              obtain ⟨other, isOther, same⟩ := List.mem_map.mp (known_of_not_any known kind.name isKey)
              exact isKind (SubjectKind.name_injective same ▸ isOther)
            rw [absent]
            rfl
        constructor
        · intro kind
          obtain ⟨texts, isTexts⟩ := each kind
          dsimp only
          rw [isTexts]
          exact (stringArray_listed isTexts).1
        · intro kind
          obtain ⟨texts, isTexts⟩ := each kind
          dsimp only
          rw [isTexts]
          exact (stringArray_listed isTexts).2
      next => cases read
  next => cases read

theorem actionSubjects_listed {value : Json} {subjects : Subjects} (read : actionSubjects value = some subjects) :
    (∀ kind : SubjectKind, listed (member? kind.name value) = subjects kind) ∧ Filled subjects :=
  readSubjects_listed read

theorem readSubjects_valid {kinds : List SubjectKind} {value : Json} {allowIntegrations : Bool}
    (allowed : ∀ kind ∈ kinds, kind ∈ humanKinds ∨ allowIntegrations = true ∧ kind = .integrations)
    (read : (readSubjects kinds value).isSome = true) : recordSubjectSetsValid allowIntegrations value = true := by
  unfold readSubjects at read
  split at read
  next members =>
    dsimp only at read
    split at read
    next => cases read
    next known =>
      split at read
      next readable =>
        unfold recordSubjectSetsValid
        refine List.all_eq_true.mpr fun entry member => ?_
        have isKey : entry.1 ∈ (OrderedMap.ofList members).keys := List.mem_map_of_mem member
        obtain ⟨kind, isKind, same⟩ := List.mem_map.mp (known_of_not_any known entry.1 isKey)
        have found : (OrderedMap.ofList members).get? kind.name = some entry.2 := by
          rw [same]
          exact OrderedMap.get?_of_mem _ member
        have strings : isStrings entry.2 = true := by
          have readKind := List.all_eq_true.mp readable kind isKind
          rw [found] at readKind
          exact isStrings_of_stringArray readKind
        rw [strings, Bool.true_and, ← same]
        rcases allowed kind isKind with human | ⟨allows, rfl⟩
        · exact Bool.or_eq_true_iff.mpr (.inl (List.contains_iff_mem.mpr (List.mem_map_of_mem human)))
        · rw [allows]
          exact Bool.or_eq_true_iff.mpr (.inr (by decide))
      next => cases read
  next => cases read

theorem actionSubjects_valid {value : Json} (read : (actionSubjects value).isSome = true) : recordSubjectSetsValid true value = true :=
  readSubjects_valid (fun kind _ => by cases kind <;> simp [humanKinds]) read

end Reading

def named (axis : RecordActionAxis) (action : Text) : Subjects := (axis.get? action).getD nobody

section Documents

structure Reads (members : List (Text × Json)) (document : RecordPermissionsDocument) : Prop where
  known : ∀ key ∈ (OrderedMap.ofList members).keys, key = js "actions" ∨ key ∈ permissionNames
  view : permissionSubjects ((OrderedMap.ofList members).get? (js "view")) = some document.view
  edit : permissionSubjects ((OrderedMap.ofList members).get? (js "edit")) = some document.edit
  delete : permissionSubjects ((OrderedMap.ofList members).get? (js "delete")) = some document.delete
  actions : actionsAxis ((OrderedMap.ofList members).get? (js "actions")) = some document.actions

theorem parse_iff {members : List (Text × Json)} {document : RecordPermissionsDocument} :
    parseRecordPermissions (.object members) = some document ↔ Reads members document := by
  unfold parseRecordPermissions
  dsimp only
  constructor
  · intro parsed
    split at parsed
    next => cases parsed
    next known =>
      obtain ⟨view, isView, parsed⟩ := Option.bind_eq_some_iff.mp parsed
      obtain ⟨edit, isEdit, parsed⟩ := Option.bind_eq_some_iff.mp parsed
      obtain ⟨delete, isDelete, parsed⟩ := Option.bind_eq_some_iff.mp parsed
      obtain ⟨actions, isActions, parsed⟩ := Option.bind_eq_some_iff.mp parsed
      cases parsed
      refine ⟨?_, isView, isEdit, isDelete, isActions⟩
      intro key member
      by_contra unknown
      obtain ⟨notActions, notPermission⟩ := not_or.mp unknown
      exact known (List.any_eq_true.mpr ⟨key, member, by simp [notActions, notPermission]⟩)
  · intro reads
    rw [if_neg, reads.view, reads.edit, reads.delete, reads.actions]
    · rfl
    · intro unknown
      obtain ⟨key, member, isUnknown⟩ := List.any_eq_true.mp unknown
      rcases reads.known key member with isActions | isPermission
      · simp [isActions] at isUnknown
      · simp [isPermission] at isUnknown

theorem parse_object {json : Json} {document : RecordPermissionsDocument} (parsed : parseRecordPermissions json = some document) :
    ∃ members, json = .object members ∧ Reads members document := by
  cases json with
  | object members => exact ⟨members, rfl, parse_iff.mp parsed⟩
  | _ => cases parsed

theorem actionsAxis_reads {value : Option Json} {axis : RecordActionAxis} (read : actionsAxis value = some axis) :
    (∀ name ∈ axis.keys, isActionName name = true) ∧ (∀ name, Filled (named axis name)) ∧
      (∀ name (kind : SubjectKind), listed ((value.bind (member? name)).bind (member? kind.name)) = named axis name kind) ∧
      ∀ name subjects, value.bind (member? name) = some subjects → isActionName name = true ∧ recordSubjectSetsValid true subjects = true := by
  unfold actionsAxis at read
  split at read
  next =>
    cases read
    refine ⟨fun name member => absurd member List.not_mem_nil, fun name kind subject member => absurd member List.not_mem_nil,
      fun name kind => rfl, ?_⟩
    intro name subjects found
    cases found
  next members =>
    dsimp only at read
    split at read
    next readable =>
      cases read
      have each : ∀ name subjects, (OrderedMap.ofList members).get? name = some subjects →
          isActionName name = true ∧ ∃ read, actionSubjects subjects = some read := by
        intro name subjects found
        have both := List.all_eq_true.mp readable _ (OrderedMap.mem_of_get? found)
        rw [Bool.and_eq_true] at both
        exact ⟨both.1, Option.isSome_iff_exists.mp both.2⟩
      have isNamed : ∀ name, named ((OrderedMap.ofList members).mapValues fun subjects => (actionSubjects subjects).getD nobody) name =
          (((OrderedMap.ofList members).get? name).map fun subjects => (actionSubjects subjects).getD nobody).getD nobody := by
        intro name
        unfold named
        rw [OrderedMap.get?_mapValues]
      refine ⟨?_, ?_, ?_, ?_⟩
      · intro name member
        obtain ⟨subjects, found⟩ := (OrderedMap.mem_keys_iff_get? _ name).mp member
        rw [OrderedMap.get?_mapValues] at found
        obtain ⟨json, isJson, -⟩ := Option.map_eq_some_iff.mp found
        exact (each name json isJson).1
      · intro name
        rw [isNamed]
        cases found : (OrderedMap.ofList members).get? name with
        | none => exact fun kind subject member => absurd member List.not_mem_nil
        | some json =>
          obtain ⟨-, subjects, isRead⟩ := each name json found
          rw [Option.map_some, Option.getD_some, isRead]
          exact (actionSubjects_listed isRead).2
      · intro name kind
        rw [isNamed]
        change listed (((OrderedMap.ofList members).get? name).bind (member? kind.name)) = _
        cases found : (OrderedMap.ofList members).get? name with
        | none => rfl
        | some json =>
          obtain ⟨-, subjects, isRead⟩ := each name json found
          rw [Option.map_some, Option.getD_some, isRead]
          exact (actionSubjects_listed isRead).1 kind
      · intro name subjects found
        obtain ⟨isAction, read, isRead⟩ := each name subjects found
        exact ⟨isAction, actionSubjects_valid (Option.isSome_iff_exists.mpr ⟨read, isRead⟩)⟩
    next => cases read
  next => cases read

theorem parsed_valid {json : Json} {document : RecordPermissionsDocument} (parsed : parseRecordPermissions json = some document) :
    recordPermissionsValid json = true := by
  obtain ⟨members, rfl, reads⟩ := parse_object parsed
  have human : ∀ (name : Text) (subjects : Subjects) (value : Json), permissionSubjects ((OrderedMap.ofList members).get? name) = some subjects →
      (OrderedMap.ofList members).get? name = some value → recordSubjectSetsValid false value = true := by
    intro name subjects value read found
    rw [found] at read
    exact readSubjects_valid (fun kind member => .inl member) (Option.isSome_iff_exists.mpr ⟨subjects, read⟩)
  unfold recordPermissionsValid
  refine List.all_eq_true.mpr fun entry member => ?_
  have found : (OrderedMap.ofList members).get? entry.1 = some entry.2 := OrderedMap.get?_of_mem _ member
  by_cases isActions : entry.1 = js "actions"
  · rw [if_pos isActions]
    rw [isActions] at found
    have read := reads.actions
    rw [found] at read
    unfold actionsAxis at read
    split at read
    next absent => cases absent
    next others isObject =>
      rw [Option.some.inj isObject]
      dsimp only at read
      split at read
      next readable =>
        unfold actionsValid
        refine List.all_eq_true.mpr fun action isAction => ?_
        have both := List.all_eq_true.mp readable action isAction
        rw [Bool.and_eq_true] at both ⊢
        exact ⟨both.1, actionSubjects_valid both.2⟩
      next => cases read
    next => cases read
  · rw [if_neg isActions, Bool.and_eq_true]
    have isPermission : entry.1 ∈ permissionNames := (reads.known entry.1 (List.mem_map_of_mem member)).resolve_left isActions
    refine ⟨List.contains_iff_mem.mpr isPermission, ?_⟩
    have which : entry.1 = js "view" ∨ entry.1 = js "edit" ∨ entry.1 = js "delete" := by simpa [permissionNames] using isPermission
    rcases which with same | same | same
    · exact human _ _ _ reads.view (same ▸ found)
    · exact human _ _ _ reads.edit (same ▸ found)
    · exact human _ _ _ reads.delete (same ▸ found)

theorem listed_named {json : Json} {document : RecordPermissionsDocument} (parsed : parseRecordPermissions json = some document)
    (action : Text) (kind : SubjectKind) :
    listed (((member? (js "actions") json).bind (member? action)).bind (member? kind.name)) = named document.actions action kind := by
  obtain ⟨members, rfl, reads⟩ := parse_object parsed
  exact (actionsAxis_reads reads.actions).2.2.1 action kind

end Documents

section Written

structure Axis (axis : RecordActionAxis) : Prop where
  names : ∀ name ∈ axis.keys, isActionName name = true
  filled : ∀ name, Filled (named axis name)

theorem axis_of_parsed {json : Json} {document : RecordPermissionsDocument} (parsed : parseRecordPermissions json = some document) :
    Axis document.actions := by
  obtain ⟨members, rfl, reads⟩ := parse_object parsed
  exact ⟨(actionsAxis_reads reads.actions).1, (actionsAxis_reads reads.actions).2.1⟩

theorem get?_sortedAxis (axis : RecordActionAxis) (name : Text) : (sortedAxis axis).get? name = axis.get? name := by
  apply Option.ext
  intro subjects
  have member : (name, subjects) ∈ (sortedAxis axis).entries ↔ (name, subjects) ∈ axis.entries := (List.perm_insertionSort _ _).mem_iff
  constructor
  · intro found
    exact OrderedMap.get?_of_mem _ (member.mp (OrderedMap.mem_of_get? found))
  · intro found
    exact OrderedMap.get?_of_mem _ (member.mpr (OrderedMap.mem_of_get? found))

theorem get?_canonical (axis : RecordActionAxis) (name : Text) :
    (canonicalRecordActionAxis axis).get? name = ((axis.get? name).map normalized).filter namesSomeone := by
  unfold canonicalRecordActionAxis
  rw [OrderedMap.get?_filter, OrderedMap.get?_mapValues, get?_sortedAxis]

theorem mem_named_canonical (axis : RecordActionAxis) (name : Text) (kind : SubjectKind) (subject : Text) :
    subject ∈ named (canonicalRecordActionAxis axis) name kind ↔ subject ∈ named axis name kind := by
  unfold named
  rw [get?_canonical]
  cases axis.get? name with
  | none => rfl
  | some subjects =>
    rw [Option.map_some, Option.getD_some]
    have normal : subject ∈ normalized subjects kind ↔ subject ∈ subjects kind := mem_sorted_distinct _ _
    by_cases someone : namesSomeone (normalized subjects) = true
    · rw [Option.filter_some_pos someone, Option.getD_some]
      exact normal
    · rw [Option.filter_some_neg (Bool.eq_false_iff.mpr someone)]
      refine iff_of_false List.not_mem_nil fun member => someone ?_
      refine List.any_eq_true.mpr ⟨kind, mem_subjectKinds kind, decide_eq_true ?_⟩
      exact List.ne_nil_of_mem (normal.mpr member)

theorem Axis.canonical {axis : RecordActionAxis} (isAxis : Axis axis) : Axis (canonicalRecordActionAxis axis) where
  names name member := by
    obtain ⟨subjects, found⟩ := (OrderedMap.mem_keys_iff_get? _ name).mp member
    rw [get?_canonical] at found
    obtain ⟨original, isOriginal, -⟩ := Option.map_eq_some_iff.mp (Option.filter_eq_some_iff.mp found).1
    exact isAxis.names name ((OrderedMap.mem_keys_iff_get? _ name).mpr ⟨original, isOriginal⟩)
  filled name kind subject member := isAxis.filled name kind subject ((mem_named_canonical axis name kind subject).mp member)

def storedKinds (subjects : Subjects) : OrderedMap Text Json where
  entries := (subjectKinds.filter fun kind => subjects kind ≠ []).map fun kind => (kind.name, .array ((subjects kind).map .text))
  nodup := by
    rw [List.map_map]
    have once : subjectKinds.Nodup := by decide
    exact (once.filter _).map_on fun one _ two _ same => SubjectKind.name_injective same

theorem get?_storedKinds (subjects : Subjects) (kind : SubjectKind) :
    (storedKinds subjects).get? kind.name = if subjects kind ≠ [] then some (.array ((subjects kind).map .text)) else none := by
  split
  next someone =>
    refine OrderedMap.get?_of_mem _ (List.mem_map.mpr ⟨kind, List.mem_filter.mpr ⟨mem_subjectKinds kind, decide_eq_true someone⟩, rfl⟩)
  next noOne =>
    by_contra present
    obtain ⟨value, found⟩ := Option.ne_none_iff_exists'.mp present
    obtain ⟨other, isOther, same⟩ := List.mem_map.mp (OrderedMap.mem_of_get? found)
    have isKind : other = kind := SubjectKind.name_injective (congrArg Prod.fst same)
    exact noOne (isKind ▸ of_decide_eq_true (List.mem_filter.mp isOther).2)

theorem actionSubjects_stored {subjects : Subjects} (filled : Filled subjects) : actionSubjects (storedSubjects subjects) = some subjects := by
  have asMap : OrderedMap.ofList ((subjectKinds.filter fun kind => subjects kind ≠ []).map fun kind =>
      (kind.name, Json.array ((subjects kind).map .text))) = storedKinds subjects := OrderedMap.ofList_entries (storedKinds subjects)
  have each : ∀ kind : SubjectKind, stringArray ((storedKinds subjects).get? kind.name) = some (subjects kind) := by
    intro kind
    rw [get?_storedKinds]
    split
    next => exact mapM_texts _ (filled kind)
    next noOne =>
      rw [not_not.mp noOne]
      rfl
  unfold actionSubjects readSubjects storedSubjects
  dsimp only
  rw [asMap, if_neg, if_pos]
  · refine congrArg some (funext fun kind => ?_)
    rw [each kind]
    rfl
  · refine List.all_eq_true.mpr fun kind _ => ?_
    rw [each kind]
    rfl
  · intro unknown
    obtain ⟨key, member, isUnknown⟩ := List.any_eq_true.mp unknown
    obtain ⟨entry, isEntry, rfl⟩ := List.mem_map.mp member
    obtain ⟨kind, -, rfl⟩ := List.mem_map.mp isEntry
    have isKnown : kind.name ∈ subjectKinds.map SubjectKind.name := List.mem_map_of_mem (mem_subjectKinds kind)
    simp [isKnown] at isUnknown

theorem actionsAxis_stored {axis : RecordActionAxis} (isAxis : Axis axis) :
    actionsAxis (some (.object (storedRecordActionAxis axis).entries)) = some (canonicalRecordActionAxis axis) := by
  have readBack : ∀ entry ∈ (canonicalRecordActionAxis axis).entries, actionSubjects (storedSubjects entry.2) = some entry.2 := by
    intro entry member
    have isNamed : named (canonicalRecordActionAxis axis) entry.1 = entry.2 := by
      unfold named
      rw [OrderedMap.get?_of_mem _ member]
      rfl
    exact actionSubjects_stored (isNamed ▸ isAxis.canonical.filled entry.1)
  unfold actionsAxis
  dsimp only
  rw [OrderedMap.ofList_entries, if_pos]
  · unfold storedRecordActionAxis
    refine congrArg some (OrderedMap.ext_entries ?_)
    change (((canonicalRecordActionAxis axis).entries.map fun entry => (entry.1, storedSubjects entry.2)).map fun entry =>
      (entry.1, (actionSubjects entry.2).getD nobody)) = _
    rw [List.map_map]
    refine (List.map_congr_left fun entry member => ?_).trans (List.map_id _)
    change (entry.1, (actionSubjects (storedSubjects entry.2)).getD nobody) = entry
    rw [readBack entry member]
    rfl
  · refine List.all_eq_true.mpr fun entry member => ?_
    obtain ⟨original, isOriginal, rfl⟩ := List.mem_map.mp member
    rw [Bool.and_eq_true]
    refine ⟨isAxis.canonical.names original.1 (List.mem_map_of_mem isOriginal), ?_⟩
    rw [readBack original isOriginal]
    rfl

theorem withAxis_object (members : List (Text × Json)) (axis : RecordActionAxis) : ∃ document : OrderedMap Text Json,
    withAxis (.object members) axis = .object document.entries ∧
      (∀ key ∈ document.keys, key = js "actions" ∨ key ∈ (OrderedMap.ofList members).keys) ∧
      (∀ key, key ≠ js "actions" → document.get? key = (OrderedMap.ofList members).get? key) ∧
      actionsAxis (document.get? (js "actions")) = actionsAxis (some (.object (storedRecordActionAxis axis).entries)) := by
  by_cases none' : (storedRecordActionAxis axis).keys = []
  · have noEntries : (storedRecordActionAxis axis).entries = [] := List.map_eq_nil_iff.mp none'
    refine ⟨(OrderedMap.ofList members).delete (js "actions"), ?_, ?_, ?_, ?_⟩
    · unfold withAxis
      dsimp only
      rw [if_pos none']
    · intro key member
      rw [OrderedMap.keys_delete] at member
      exact .inr (List.mem_filter.mp member).1
    · exact fun key different => OrderedMap.get?_delete_of_ne _ different
    · rw [OrderedMap.get?_delete_self, noEntries]
      rfl
  · refine ⟨(OrderedMap.ofList members).set (js "actions") (.object (storedRecordActionAxis axis).entries), ?_, ?_, ?_, ?_⟩
    · unfold withAxis
      dsimp only
      rw [if_neg none']
    · exact fun key member => (OrderedMap.mem_keys_set _ _ _ _).mp member
    · exact fun key different => OrderedMap.get?_set_of_ne _ _ different
    · rw [OrderedMap.get?_set_self]

theorem parse_withAxis {json : Json} {document : RecordPermissionsDocument} {axis : RecordActionAxis}
    (parsed : parseRecordPermissions json = some document) (isAxis : Axis axis) :
    parseRecordPermissions (withAxis json axis) = some { document with actions := canonicalRecordActionAxis axis } := by
  obtain ⟨members, rfl, reads⟩ := parse_object parsed
  obtain ⟨written, isWritten, keys, others, actions⟩ := withAxis_object members axis
  rw [isWritten]
  refine parse_iff.mpr ⟨?_, ?_, ?_, ?_, ?_⟩
  · rw [OrderedMap.ofList_entries]
    intro key member
    rcases keys key member with isActions | before
    · exact .inl isActions
    · exact reads.known key before
  · rw [OrderedMap.ofList_entries, others _ (by decide)]
    exact reads.view
  · rw [OrderedMap.ofList_entries, others _ (by decide)]
    exact reads.edit
  · rw [OrderedMap.ofList_entries, others _ (by decide)]
    exact reads.delete
  · rw [OrderedMap.ofList_entries, actions]
    exact actionsAxis_stored isAxis

theorem member?_withAxis {json : Json} {document : RecordPermissionsDocument} (parsed : parseRecordPermissions json = some document)
    (axis : RecordActionAxis) {name : Text} (different : name ≠ js "actions") : member? name (withAxis json axis) = member? name json := by
  obtain ⟨members, rfl, -⟩ := parse_object parsed
  obtain ⟨written, isWritten, -, others, -⟩ := withAxis_object members axis
  rw [isWritten]
  unfold member?
  dsimp only
  rw [OrderedMap.ofList_entries]
  exact others name different

end Written

section Changes
variable {stored submitted : Json} {document : RecordPermissionsDocument}

theorem recordActionAxisOf_parsed (parsed : parseRecordPermissions stored = some document) :
    recordActionAxisOf stored = canonicalRecordActionAxis document.actions := by
  unfold recordActionAxisOf
  rw [parsed]
  rfl

theorem mem_applyDelta (current : Option Subjects) (grant revoke : Subjects) (kind : SubjectKind) (subject : Text) :
    subject ∈ applyDelta current grant revoke kind ↔
      (subject ∈ (current.getD nobody) kind ∨ subject ∈ grant kind) ∧ subject ∉ revoke kind := by
  unfold applyDelta
  have sorted : ∀ texts : List Text, subject ∈ sortTexts texts ↔ subject ∈ texts := fun texts => (List.perm_insertionSort _ _).mem_iff
  rw [sorted, List.mem_filter, mem_distinct, List.mem_append]
  simp

theorem named_set (axis : RecordActionAxis) (action other : Text) (subjects : Subjects) :
    named (axis.set action subjects) other = if other = action then subjects else named axis other := by
  unfold named
  split
  next same =>
    rw [same, OrderedMap.get?_set_self]
    rfl
  next different => rw [OrderedMap.get?_set_of_ne _ _ different]

/-- A delegation stores a document with the delta applied to one action, and with every other one as it was. -/
theorem delegated_parsed {action : Text} {grant revoke : Subjects} {written : Json} (parsed : parseRecordPermissions stored = some document)
    (isAction : isActionName action = true) (filled : Filled grant) (made : delegatedDocument stored action grant revoke = some written) :
    ∃ after, parseRecordPermissions written = some after ∧
      (∀ kind subject, subject ∈ named after.actions action kind ↔
        (subject ∈ named document.actions action kind ∨ subject ∈ grant kind) ∧ subject ∉ revoke kind) ∧
      (∀ other, other ≠ action → ∀ kind subject, subject ∈ named after.actions other kind ↔ subject ∈ named document.actions other kind) ∧
      ∀ name, name ≠ js "actions" → member? name written = member? name stored := by
  unfold delegatedDocument at made
  dsimp only at made
  split at made
  next => cases made
  next =>
    cases made
    rw [recordActionAxisOf_parsed parsed]
    have before := (axis_of_parsed parsed).canonical
    have delta : ∀ kind subject, subject ∈ applyDelta ((canonicalRecordActionAxis document.actions).get? action) grant revoke kind ↔
        (subject ∈ named document.actions action kind ∨ subject ∈ grant kind) ∧ subject ∉ revoke kind := by
      intro kind subject
      rw [mem_applyDelta]
      exact and_congr_left fun _ => or_congr_left (mem_named_canonical document.actions action kind subject)
    have isAxis : Axis ((canonicalRecordActionAxis document.actions).set action
        (applyDelta ((canonicalRecordActionAxis document.actions).get? action) grant revoke)) := by
      refine ⟨?_, ?_⟩
      · intro name member
        rcases (OrderedMap.mem_keys_set _ _ _ _).mp member with rfl | earlier
        · exact isAction
        · exact before.names name earlier
      · intro name kind subject member
        rw [named_set] at member
        split at member
        next =>
          rcases ((delta kind subject).mp member).1 with old | new
          · exact (axis_of_parsed parsed).filled action kind subject old
          · exact filled kind subject new
        next => exact before.filled name kind subject member
    refine ⟨_, parse_withAxis parsed isAxis, ?_, ?_, fun name different => member?_withAxis parsed _ different⟩
    · intro kind subject
      rw [mem_named_canonical, named_set, if_pos rfl]
      exact delta kind subject
    · intro other different kind subject
      rw [mem_named_canonical, named_set, if_neg different]
      exact mem_named_canonical document.actions other kind subject

theorem unchanged_parsed {permissions : RecordPermissionsDocument} {written : Json} (parsed : parseRecordPermissions stored = some document)
    (isDocument : parseRecordPermissions submitted = some permissions)
    (made : assertRecordActionAxisUnchanged submitted stored = some written) :
    ∃ after, parseRecordPermissions written = some after ∧
      ∀ action kind subject, subject ∈ named after.actions action kind ↔ subject ∈ named document.actions action kind := by
  unfold assertRecordActionAxisUnchanged at made
  rw [isDocument, Option.isNone_some, if_neg Bool.false_ne_true] at made
  split at made
  next => cases made
  next =>
    cases made
    rw [recordActionAxisOf_parsed parsed]
    refine ⟨_, parse_withAxis isDocument (axis_of_parsed parsed).canonical, ?_⟩
    intro action kind subject
    rw [mem_named_canonical]
    exact mem_named_canonical document.actions action kind subject

end Changes

section Holders

/-- Who holds an action, by a rule for whom is named. -/
def Admits (session : DbSession) (isNamed : SubjectKind → Text → Prop) : Prop :=
  match session.principalClass with
  | .person => (∃ id, session.userId = some id ∧ isNamed .users id.1) ∨ (∃ role ∈ session.roles, isNamed .roles role) ∨
      ∃ group ∈ session.relationGroups, isNamed .groups group.1
  | .application => ∃ id, session.appPrincipal = some id ∧ isNamed .integrations id.1
  | _ => False

theorem admits_congr {session : DbSession} {one two : SubjectKind → Text → Prop}
    (roles : ∀ role, one .roles role ↔ two .roles role) (ids : ∀ kind (id : RowId), one kind id.1 ↔ two kind id.1) :
    Admits session one ↔ Admits session two := by
  unfold Admits
  cases session.principalClass <;> simp only [roles, ids]

theorem namedPerson_iff (session : DbSession) (subjects : Json) : namedPerson session subjects = true ↔
    (∃ id, session.userId = some id ∧ id.1 ∈ listed (member? SubjectKind.users.name subjects)) ∨
      (∃ role ∈ session.roles, role ∈ listed (member? SubjectKind.roles.name subjects)) ∨
      ∃ group ∈ session.relationGroups, group.1 ∈ listed (member? SubjectKind.groups.name subjects) := by
  unfold namedPerson
  rw [Bool.or_eq_true, Bool.or_eq_true, or_assoc, Option.any_eq_true, List.any_eq_true, List.any_eq_true]
  simp only [List.contains_iff_mem]

theorem recordActionAllows_iff {json : Json} {document : RecordPermissionsDocument} (parsed : parseRecordPermissions json = some document)
    (session : DbSession) (action : Text) :
    recordActionAllows session json action = true ↔ Admits session fun kind subject => subject ∈ named document.actions action kind := by
  obtain ⟨members, rfl, reads⟩ := parse_object parsed
  have lists := fun kind : SubjectKind => listed_named parsed action kind
  have found := (actionsAxis_reads reads.actions).2.2.2 action
  unfold recordActionAllows
  rw [parsed_valid parsed, Bool.and_true]
  cases entry : (member? (js "actions") (.object members)).bind (member? action) with
  | none =>
    have noOne : ∀ kind, named document.actions action kind = [] := by
      intro kind
      rw [← lists kind, entry]
      rfl
    unfold Admits
    simp only [noOne, List.not_mem_nil]
    cases session.principalClass <;> simp [recordActionSubjectAllows]
  | some subjects =>
    obtain ⟨isAction, isValid⟩ := found subjects entry
    have each : ∀ kind : SubjectKind, listed (member? kind.name subjects) = named document.actions action kind := by
      intro kind
      rw [← lists kind, entry]
      rfl
    have someone : ∀ kind subject, subject ∈ named document.actions action kind →
        (!subjectKinds.all fun kind => named document.actions action kind = []) = true := by
      intro kind subject member
      rw [Bool.not_eq_true', List.all_eq_false]
      exact ⟨kind, mem_subjectKinds kind, by simpa using List.ne_nil_of_mem member⟩
    unfold recordActionSubjectAllows Admits
    rw [isAction, Bool.true_and, Option.any_some, isValid, Bool.true_and, Bool.and_eq_true]
    cases session.principalClass with
    | person =>
      dsimp only
      rw [namedPerson_iff]
      simp only [each]
      refine and_iff_right_of_imp fun admitted => ?_
      rcases admitted with ⟨id, -, member⟩ | ⟨role, -, member⟩ | ⟨group, -, member⟩
      · exact someone _ _ member
      · exact someone _ _ member
      · exact someone _ _ member
    | application =>
      dsimp only
      rw [Option.any_eq_true]
      simp only [each, List.contains_iff_mem]
      refine and_iff_right_of_imp fun admitted => ?_
      obtain ⟨id, -, member⟩ := admitted
      exact someone _ _ member
    | service => simp
    | unknown => simp

end Holders

section Sameness

/-- Equality of `jsonb`: the order of members does not count. -/
inductive SameJson : Json → Json → Prop
  | null : SameJson .null .null
  | boolean (value : Bool) : SameJson (.boolean value) (.boolean value)
  | number (value : ℚ) : SameJson (.number value) (.number value)
  | text (value : Text) : SameJson (.text value) (.text value)
  | array {one two : List Json} (items : List.Forall₂ SameJson one two) : SameJson (.array one) (.array two)
  | object {one two : List (Text × Json)}
      (members : ∀ key, Option.Rel SameJson ((OrderedMap.ofList one).get? key) ((OrderedMap.ofList two).get? key)) :
      SameJson (.object one) (.object two)

theorem SameJson.member? {one two : Json} (same : SameJson one two) (key : Text) :
    Option.Rel SameJson (RecordActions.member? key one) (RecordActions.member? key two) := by
  cases same with
  | object members => exact members key
  | _ => exact .none

theorem SameJson.listed {one two : Option Json} (same : Option.Rel SameJson one two) :
    RecordActions.listed one = RecordActions.listed two := by
  cases same with
  | none => rfl
  | some same =>
    cases same with
    | array items =>
      induction items with
      | nil => rfl
      | cons item _ ih =>
        unfold RecordActions.listed at ih ⊢
        cases item <;> simp_all
    | _ => rfl

theorem rel_bind {one two : Option Json} (key : Text) (same : Option.Rel SameJson one two) :
    Option.Rel SameJson (one.bind (member? key)) (two.bind (member? key)) := by
  cases same with
  | none => exact .none
  | some same => exact same.member? key

theorem named_of_same {one two : Json} {first second : RecordPermissionsDocument} (same : SameJson one two)
    (isFirst : parseRecordPermissions one = some first) (isSecond : parseRecordPermissions two = some second) (action : Text) :
    named first.actions action = named second.actions action := by
  funext kind
  rw [← listed_named isFirst, ← listed_named isSecond]
  exact SameJson.listed (rel_bind kind.name (rel_bind action (same.member? _)))

end Sameness

end OpenShapeForge.Operations.ActionDeltas
