import OpenShapeForge.Library.Failing
import OpenShapeForge.Operations.DelegatedActions

/-! Committed delegations add up, one after the other, where no id is spelled in two ways; and neither they
nor ordinary writes change what they are not for. -/

namespace OpenShapeForge.Operations.DelegationsApplied
open Js Library RowLocks
open RecordActions ActionDeltas DelegatedActions

section Effects

/-- What a call makes of the stored document, and what it answers. -/
def Delegates (call : Delegation) (before after : Json) (changed : Bool) : Prop :=
  (parseRecordPermissions before).isSome = true ∧
    ∃ written, delegatedDocument before call.action call.grant call.revoke = some written ∧
      (changed = true ∧ after = written ∨ changed = false ∧ after = before ∧ SameJson before written)

/-- What an ordinary write makes of it. -/
def Rewrites (before after : Json) : Prop :=
  ∃ submitted written, (parseRecordPermissions submitted).isSome = true ∧
    assertRecordActionAxisUnchanged submitted before = some written ∧ (after = written ∨ after = before)

end Effects

section Runs
variable {Tx : Type} {declarations : List Declaration} {state next : State Tx} {tx other : Tx} {label : Label}

def At (rows : Store Tx Unit Json) (tx : Tx) : Phase → Prop
  | .idle | .delegating _ | .admitted _ => (rows.sessions tx).written () = none
  | .updating submitted => (parseRecordPermissions submitted).isSome = true ∧ (rows.sessions tx).written () = none
  | .holding _ stored => rows.Owns tx () ∧ (rows.sessions tx).written () = none ∧ rows.committed () = some stored
  | .reconciling submitted stored => rows.Owns tx () ∧ (parseRecordPermissions submitted).isSome = true ∧
      (rows.sessions tx).written () = none ∧ rows.committed () = some stored
  | .delegated call changed => rows.Owns tx () ∧
      ∃ before after, rows.committed () = some before ∧ rows.view tx () = some after ∧ Delegates call before after changed
  | .updated => rows.Owns tx () ∧
      ∃ before after, rows.committed () = some before ∧ rows.view tx () = some after ∧ Rewrites before after

structure Sound (state : State Tx) : Prop where
  consistent : state.rows.Consistent
  stored : ∃ json, state.rows.committed () = some json
  progress : ∀ tx, At state.rows tx (state.phases tx)

theorem Sound.now (sound : Sound state) {phase : Phase} (now : state.phases tx = phase) : At state.rows tx phase := now ▸ sound.progress tx

/-- Another transaction's steps leave a transaction where it is, as long as nobody else commits the row it has locked. -/
theorem At.frame {before after : Store Tx Unit Json} {phase : Phase} (progress : At before tx phase)
    (session : after.sessions tx = before.sessions tx) (committed : before.Owns tx () → after.committed () = before.committed ()) :
    At after tx phase := by
  have owns : after.Owns tx () ↔ before.Owns tx () := by
    unfold Store.Owns Store.Holds
    rw [session]
  have view : before.Owns tx () → after.view tx () = before.view tx () := by
    intro isOwned
    unfold Store.view
    rw [session, committed isOwned]
  cases phase with
  | idle | delegating | admitted | updating =>
    unfold At at progress ⊢
    rw [session]
    exact progress
  | holding | reconciling =>
    unfold At at progress ⊢
    rw [session, owns, committed progress.1]
    exact progress
  | delegated | updated =>
    unfold At at progress ⊢
    rw [owns, committed progress.1, view progress.1]
    exact progress

/-- What the end of a step means for the committed document. -/
def Committed (label : Label) (before after : Json) : Prop :=
  match label with
  | .step => after = before
  | .delegated call changed => Delegates call before after changed
  | .updated => Rewrites before after

theorem sound_started (initial : Json) : Sound (started initial : State Tx) where
  consistent := .idle _
  stored := ⟨initial, rfl⟩
  progress _ := rfl

variable [DecidableEq Tx]

theorem Sound.move (sound : Sound state) {rows : Store Tx Unit Json} {phase : Phase} (consistent : rows.Consistent)
    (sessions : ∀ other, other ≠ tx → rows.sessions other = state.rows.sessions other)
    (committed : rows.committed = state.rows.committed) (own : At rows tx phase) : Sound (state.move tx rows phase) where
  consistent := consistent
  stored := committed ▸ sound.stored
  progress other := by
    unfold State.move
    dsimp only
    by_cases same : other = tx
    · rw [same, Function.update_self]
      exact own
    · rw [Function.update_of_ne same]
      exact (sound.progress other).frame (sessions other same) fun _ => congrFun committed ()

theorem Sound.enter (sound : Sound state) {phase : Phase} (own : At state.rows tx phase) : Sound (state.enter tx phase) :=
  sound.move sound.consistent (fun _ _ => rfl) rfl own

theorem Sound.commit (sound : Sound state) {after : Json} (viewed : state.rows.view tx () = some after) :
    Sound (state.move tx (state.rows.commit tx) .idle) where
  consistent := sound.consistent.commit
  stored := ⟨after, viewed⟩
  progress other := by
    unfold State.move
    dsimp only
    by_cases same : other = tx
    · rw [same, Function.update_self]
      exact congrArg (fun session : RowLocks.Session Unit Json => session.written ()) Store.commit_own
    · rw [Function.update_of_ne same]
      exact (sound.progress other).frame (Store.commit_session same) fun owns => sound.consistent.committed_owned same owns

theorem Sound.rollback (sound : Sound state) : Sound (state.move tx (state.rows.rollback tx) .idle) :=
  sound.move sound.consistent.rollback (fun _ different => Store.rollback_session different) rfl
    (congrArg (fun session : RowLocks.Session Unit Json => session.written ()) Store.rollback_own)

theorem Sound.lock (sound : Sound state) {phase : Phase} {strength : Strength} {stored : Json}
    (exclusive : strength = .noKeyUpdate ∨ strength = .update) (grants : state.rows.Grants tx () strength)
    (unwritten : (state.rows.sessions tx).written () = none) (read : state.rows.view tx () = some stored)
    (own : (state.rows.lock tx () strength).Owns tx () → ((state.rows.lock tx () strength).sessions tx).written () = none →
      (state.rows.lock tx () strength).committed () = some stored → At (state.rows.lock tx () strength) tx phase) :
    Sound (state.move tx (state.rows.lock tx () strength) phase) := by
  refine sound.move (sound.consistent.lock grants) (fun _ different => Store.lock_session different) rfl (own ?_ ?_ ?_)
  · rcases exclusive with rfl | rfl
    · exact .inl (Store.lock_holds.mpr (.inr ⟨rfl, rfl, rfl⟩))
    · exact .inr (Store.lock_holds.mpr (.inr ⟨rfl, rfl, rfl⟩))
  · rw [Store.lock_written]
    exact unwritten
  · exact (Store.view_of_unwritten unwritten).symm.trans read

theorem Sound.write (sound : Sound state) {phase : Phase} {written : Json} (owns : state.rows.Owns tx ())
    (own : (state.rows.write tx () (some written)).Owns tx () → (state.rows.write tx () (some written)).view tx () = some written →
      At (state.rows.write tx () (some written)) tx phase) : Sound (state.move tx (state.rows.write tx () (some written)) phase) := by
  have consistent : (state.rows.write tx () (some written)).Consistent := by
    refine sound.consistent.write owns ?_
    intro never
    cases never
  refine sound.move consistent (fun _ different => Store.write_session different) rfl (own ?_ ?_)
  · unfold Store.Owns
    rw [Store.write_holds, Store.write_holds]
    exact owns
  · rw [Store.write_view, if_pos rfl]

theorem Sound.step (sound : Sound state) (step : Step declarations state label next) :
    Sound next ∧ ∃ before after, state.rows.committed () = some before ∧ next.rows.committed () = some after ∧ Committed label before after := by
  obtain ⟨current, isCurrent⟩ := sound.stored
  cases step with
  | @delegate tx _ _ call idle ok =>
    have unwritten : (state.rows.sessions tx).written () = none := sound.now idle
    exact ⟨sound.enter unwritten, current, current, isCurrent, isCurrent, rfl⟩
  | @checkIntegrations tx call _ begun known =>
    have unwritten : (state.rows.sessions tx).written () = none := sound.now begun
    exact ⟨sound.enter unwritten, current, current, isCurrent, isCurrent, rfl⟩
  | lockAcl begun grants read =>
    refine ⟨sound.lock (.inr rfl) grants (sound.now begun) read ?_, current, current, isCurrent, isCurrent, rfl⟩
    exact fun owns unwritten committed => ⟨owns, unwritten, committed⟩
  | @rewrite tx call stored written held valid made distinct =>
    obtain ⟨owns, unwritten, committed⟩ := sound.now held
    refine ⟨sound.write owns ?_, current, current, isCurrent, isCurrent, rfl⟩
    exact fun owns view => ⟨owns, stored, written, committed, view, valid, written, made, .inl ⟨rfl, rfl⟩⟩
  | @keep tx call stored written held valid made same =>
    obtain ⟨owns, unwritten, committed⟩ := sound.now held
    refine ⟨sound.enter ?_, current, current, isCurrent, isCurrent, rfl⟩
    exact ⟨owns, stored, stored, committed, (Store.view_of_unwritten unwritten).trans committed, valid, written, made, .inr ⟨rfl, rfl, same⟩⟩
  | update idle valid => exact ⟨sound.enter ⟨valid, sound.now idle⟩, current, current, isCurrent, isCurrent, rfl⟩
  | lockRecord begun exclusive grants read =>
    obtain ⟨valid, unwritten⟩ := sound.now begun
    refine ⟨sound.lock exclusive grants unwritten read ?_, current, current, isCurrent, isCurrent, rfl⟩
    exact fun owns unwritten committed => ⟨owns, valid, unwritten, committed⟩
  | @store tx submitted stored written held made =>
    obtain ⟨owns, valid, unwritten, committed⟩ := sound.now held
    refine ⟨sound.write owns ?_, current, current, isCurrent, isCurrent, rfl⟩
    exact fun owns view => ⟨owns, stored, written, committed, view, submitted, written, valid, made, .inl rfl⟩
  | @leave tx submitted stored written held made same =>
    obtain ⟨owns, valid, unwritten, committed⟩ := sound.now held
    refine ⟨sound.enter ?_, current, current, isCurrent, isCurrent, rfl⟩
    exact ⟨owns, stored, stored, committed, (Store.view_of_unwritten unwritten).trans committed, submitted, written, valid, made, .inr rfl⟩
  | commitDelegation ready =>
    obtain ⟨-, before, after, isBefore, isAfter, delegates⟩ := sound.now ready
    exact ⟨sound.commit isAfter, before, after, isBefore, isAfter, delegates⟩
  | commitUpdate ready =>
    obtain ⟨-, before, after, isBefore, isAfter, rewrites⟩ := sound.now ready
    exact ⟨sound.commit isAfter, before, after, isBefore, isAfter, rewrites⟩
  | rollback => exact ⟨sound.rollback, current, current, isCurrent, isCurrent, rfl⟩

end Runs

section Holders

def identified (kind : SubjectKind) (subject : Text) : Text := if kind = .roles then subject else subject.map asciiLower

abbrev Holders := Text → SubjectKind → Set Text

def identities (kind : SubjectKind) (subjects : List Text) : Set Text := {identity | ∃ subject ∈ subjects, identified kind subject = identity}

def holdersOf (document : RecordPermissionsDocument) : Holders := fun action kind => identities kind (named document.actions action kind)

/-- What a delta is for: its grants are added, and its revocations win. -/
def applied (holders : Holders) (call : Delegation) : Holders := fun action kind =>
  if action = call.action then (holders action kind ∪ identities kind (call.grant kind)) \ identities kind (call.revoke kind)
  else holders action kind

def delegationsOf (labels : List Label) : List Delegation := labels.filterMap fun
  | .delegated call _ => some call
  | _ => none

def holdersAfter (document : RecordPermissionsDocument) (labels : List Label) : Holders :=
  (delegationsOf labels).foldl applied (holdersOf document)

def WellSpelled (document : RecordPermissionsDocument) : Prop := ∀ action kind, ∀ id : RowId,
  id.1 ∈ identities kind (named document.actions action kind) → id.1 ∈ named document.actions action kind

/-- A row that is revoked, and is or will be in the document under the id the database writes, is revoked under that id;
a row that is granted is so under that id, or is there already, or is revoked as well. -/
structure Spelled (document : RecordPermissionsDocument) (call : Delegation) : Prop where
  revokes : ∀ kind, ∀ id : RowId, id.1 ∈ identities kind (call.revoke kind) →
    id.1 ∈ named document.actions call.action kind ∨ id.1 ∈ call.grant kind → id.1 ∈ call.revoke kind
  grants : ∀ kind, ∀ id : RowId, id.1 ∈ identities kind (call.grant kind) →
    id.1 ∈ named document.actions call.action kind ∨ id.1 ∈ call.grant kind ∨ id.1 ∈ identities kind (call.revoke kind)

def inLowerCase (subjects : Subjects) : Bool :=
  subjectKinds.all fun kind => kind = .roles || (subjects kind).all fun subject => subject.map asciiLower = subject

theorem mem_of_inLowerCase {subjects : Subjects} (lower : inLowerCase subjects = true) {kind : SubjectKind} {identity : Text}
    (member : identity ∈ identities kind (subjects kind)) : identity ∈ subjects kind := by
  obtain ⟨subject, isSubject, rfl⟩ := member
  have each := List.all_eq_true.mp lower kind (mem_subjectKinds kind)
  unfold identified
  split
  next => exact isSubject
  next notRoles =>
    rw [Bool.or_eq_true, decide_eq_true_eq] at each
    have same : subject.map asciiLower = subject := by simpa using List.all_eq_true.mp (each.resolve_left notRoles) subject isSubject
    rw [same]
    exact isSubject

theorem wellSpelled_of_lower {document : RecordPermissionsDocument}
    (lower : (document.actions.entries.all fun entry => inLowerCase entry.2) = true) : WellSpelled document := by
  intro action kind id member
  unfold named at member ⊢
  cases found : document.actions.get? action with
  | none =>
    rw [found] at member
    obtain ⟨subject, never, -⟩ := member
    exact absurd never List.not_mem_nil
  | some subjects =>
    rw [found] at member
    exact mem_of_inLowerCase (List.all_eq_true.mp lower _ (OrderedMap.mem_of_get? found)) member

theorem spelled_of_lower {call : Delegation} (document : RecordPermissionsDocument) (grants : inLowerCase call.grant = true)
    (revokes : inLowerCase call.revoke = true) : Spelled document call where
  revokes _ _ member _ := mem_of_inLowerCase revokes member
  grants _ _ member := .inr (.inl (mem_of_inLowerCase grants member))

/-- The lists of a document and the subjects it should have are the same, for every role and every row. -/
structure Agree (document : RecordPermissionsDocument) (holders : Holders) : Prop where
  roles : ∀ action role, role ∈ named document.actions action .roles ↔ role ∈ holders action .roles
  ids : ∀ action kind, ∀ id : RowId, id.1 ∈ named document.actions action kind ↔ id.1 ∈ holders action kind

theorem mem_identities_roles (subjects : List Text) (role : Text) : role ∈ identities .roles subjects ↔ role ∈ subjects := by
  constructor
  · rintro ⟨subject, member, rfl⟩
    exact member
  · exact fun member => ⟨role, member, rfl⟩

theorem mem_identities_of_mem {kind : SubjectKind} {subjects : List Text} {id : RowId} (member : id.1 ∈ subjects) :
    id.1 ∈ identities kind subjects := by
  refine ⟨id.1, member, ?_⟩
  unfold identified
  split
  next => rfl
  next => exact id.2.2

theorem agree_start {document : RecordPermissionsDocument} : Agree document (holdersOf document) ↔ WellSpelled document := by
  constructor
  · intro agree action kind id member
    exact (agree.ids action kind id).mpr member
  · intro spelled
    refine ⟨fun action role => (mem_identities_roles _ role).symm, fun action kind id => ?_⟩
    exact ⟨mem_identities_of_mem, spelled action kind id⟩

theorem agree_applied {before after : RecordPermissionsDocument} {holders : Holders} {call : Delegation} (agree : Agree before holders)
    (delta : ∀ kind subject, subject ∈ named after.actions call.action kind ↔
      (subject ∈ named before.actions call.action kind ∨ subject ∈ call.grant kind) ∧ subject ∉ call.revoke kind)
    (others : ∀ other, other ≠ call.action → ∀ kind subject, subject ∈ named after.actions other kind ↔ subject ∈ named before.actions other kind) :
    Agree after (applied holders call) ↔ Spelled before call := by
  have target : ∀ kind subject, subject ∈ applied holders call call.action kind ↔
      (subject ∈ holders call.action kind ∨ subject ∈ identities kind (call.grant kind)) ∧ subject ∉ identities kind (call.revoke kind) := by
    intro kind subject
    unfold applied
    rw [if_pos rfl]
    rfl
  constructor
  · intro agreed
    refine ⟨?_, ?_⟩
    · intro kind id revoked present
      by_contra kept
      have stays := (agreed.ids call.action kind id).mp ((delta kind id.1).mpr ⟨present, kept⟩)
      exact ((target kind id.1).mp stays).2 revoked
    · intro kind id granted
      by_contra missing
      obtain ⟨unnamed, others⟩ := not_or.mp missing
      obtain ⟨ungranted, unrevoked⟩ := not_or.mp others
      have isIn := (agreed.ids call.action kind id).mpr ((target kind id.1).mpr ⟨.inr granted, unrevoked⟩)
      rcases ((delta kind id.1).mp isIn).1 with present | given
      · exact unnamed present
      · exact ungranted given
  · intro spelled
    refine ⟨?_, ?_⟩
    · intro action role
      by_cases same : action = call.action
      · subst same
        rw [delta, target, mem_identities_roles, mem_identities_roles, agree.roles]
      · unfold applied
        rw [others action same, if_neg same]
        exact agree.roles action role
    · intro action kind id
      by_cases same : action = call.action
      · subst same
        rw [delta, target, ← agree.ids]
        constructor
        · rintro ⟨present, kept⟩
          refine ⟨present.imp_right mem_identities_of_mem, fun revoked => kept (spelled.revokes kind id revoked present)⟩
        · rintro ⟨present, unrevoked⟩
          refine ⟨?_, fun kept => unrevoked (mem_identities_of_mem kept)⟩
          rcases present with old | granted
          · exact .inl old
          · rcases spelled.grants kind id granted with old | given | revoked
            · exact .inl old
            · exact .inr given
            · exact absurd revoked unrevoked
      · unfold applied
        rw [others action same, if_neg same]
        exact agree.ids action kind id

end Holders

section Sessions

/-- Whom the database lets act is whom the holders name. -/
def HeldBy (json : Json) (holders : Holders) : Prop := ∀ session action,
  recordActionAllows session json action = true ↔ Admits session fun kind subject => subject ∈ holders action kind

def sessionOf (kind : SubjectKind) (id : RowId) : DbSession :=
  match kind with
  | .users => ⟨.person, some id, [], [], none⟩
  | .groups => ⟨.person, none, [], [id], none⟩
  | .roles => ⟨.person, none, [id.1], [], none⟩
  | .integrations => ⟨.application, none, [], [], some id⟩

theorem admits_sessionOf (kind : SubjectKind) (id : RowId) (isNamed : SubjectKind → Text → Prop) :
    Admits (sessionOf kind id) isNamed ↔ isNamed kind id.1 := by
  cases kind <;> simp [Admits, sessionOf]

theorem admits_role (role : Text) (isNamed : SubjectKind → Text → Prop) :
    Admits ⟨.person, none, [role], [], none⟩ isNamed ↔ isNamed .roles role := by
  simp [Admits]

theorem heldBy_iff {json : Json} {document : RecordPermissionsDocument} {holders : Holders}
    (parsed : parseRecordPermissions json = some document) : HeldBy json holders ↔ Agree document holders := by
  constructor
  · intro held
    refine ⟨?_, ?_⟩
    · intro action role
      have one := held ⟨.person, none, [role], [], none⟩ action
      rw [recordActionAllows_iff parsed, admits_role, admits_role] at one
      exact one
    · intro action kind id
      have one := held (sessionOf kind id) action
      rw [recordActionAllows_iff parsed, admits_sessionOf, admits_sessionOf] at one
      exact one
  · intro agree session action
    rw [recordActionAllows_iff parsed]
    exact admits_congr (agree.roles action) (agree.ids action)

end Sessions

section Documents

theorem mapM_filled {items : List Json} {texts : List Text} (read : items.mapM nonEmptyText = some texts) :
    ∀ text ∈ distinct texts, text ≠ [] :=
  fun text member => (texts_of_mapM read).2.2 text ((mem_distinct texts text).mp member)

theorem deltaList_filled {side : Text} {kind : SubjectKind} {value : Option Json} {texts : List Text}
    (ok : deltaList side kind value = .ok texts) : ∀ text ∈ texts, text ≠ [] := by
  unfold deltaList at ok
  split at ok
  next =>
    cases ok
    exact fun text member => absurd member List.not_mem_nil
  next items =>
    split at ok
    next => cases ok
    next entries read =>
      split at ok
      next => cases ok
      next =>
        cases ok
        exact mapM_filled read
  next => cases ok

theorem subjectDelta_filled {side : Text} {value : Option Json} {subjects : Subjects} (ok : subjectDelta side value = .ok subjects) :
    Filled subjects := by
  unfold subjectDelta at ok
  split at ok
  next =>
    cases ok
    exact fun kind text member => absurd member List.not_mem_nil
  next =>
    cases ok
    exact fun kind text member => absurd member List.not_mem_nil
  next members =>
    dsimp only at ok
    split at ok
    next => cases ok
    next =>
      obtain ⟨users, isUsers, ok⟩ := Failing.attempt_bind_ok.mp ok
      obtain ⟨groups, isGroups, ok⟩ := Failing.attempt_bind_ok.mp ok
      obtain ⟨roles, isRoles, ok⟩ := Failing.attempt_bind_ok.mp ok
      obtain ⟨integrations, isIntegrations, ok⟩ := Failing.attempt_bind_ok.mp ok
      cases ok
      intro kind
      cases kind with
      | users => exact deltaList_filled isUsers
      | groups => exact deltaList_filled isGroups
      | roles => exact deltaList_filled isRoles
      | integrations => exact deltaList_filled isIntegrations
  next => cases ok

variable {before after : Json} {document : RecordPermissionsDocument} {call : Delegation} {changed : Bool}

theorem Delegates.documents (delegates : Delegates call before after changed) (parsed : parseRecordPermissions before = some document) :
    ∃ next, parseRecordPermissions after = some next ∧
      (∀ kind subject, subject ∈ named next.actions call.action kind ↔
        (subject ∈ named document.actions call.action kind ∨ subject ∈ call.grant kind) ∧ subject ∉ call.revoke kind) ∧
      (∀ other, other ≠ call.action → ∀ kind subject, subject ∈ named next.actions other kind ↔ subject ∈ named document.actions other kind) ∧
      ∀ name, name ≠ js "actions" → member? name after = member? name before := by
  obtain ⟨-, written, made, outcome⟩ := delegates
  obtain ⟨value, granted⟩ := call.granted
  obtain ⟨next, isNext, delta, others, frame⟩ := delegated_parsed parsed call.isAction (subjectDelta_filled granted) made
  rcases outcome with ⟨-, rfl⟩ | ⟨-, rfl, same⟩
  · exact ⟨next, isNext, delta, others, frame⟩
  · have alike := named_of_same same parsed isNext
    refine ⟨document, parsed, ?_, ?_, fun _ _ => rfl⟩
    · intro kind subject
      have one := delta kind subject
      rw [← alike] at one
      exact one
    · intro other _ kind subject
      rfl

theorem Rewrites.documents (rewrites : Rewrites before after) (parsed : parseRecordPermissions before = some document) :
    ∃ next, parseRecordPermissions after = some next ∧
      ∀ action kind subject, subject ∈ named next.actions action kind ↔ subject ∈ named document.actions action kind := by
  obtain ⟨submitted, written, valid, made, outcome⟩ := rewrites
  obtain ⟨permissions, isDocument⟩ := Option.isSome_iff_exists.mp valid
  rcases outcome with rfl | rfl
  · exact unchanged_parsed parsed isDocument made
  · exact ⟨document, parsed, fun _ _ _ => Iff.rfl⟩

theorem allows_congr {next : RecordPermissionsDocument} (isBefore : parseRecordPermissions before = some document)
    (isAfter : parseRecordPermissions after = some next) {action : Text}
    (same : ∀ kind subject, subject ∈ named next.actions action kind ↔ subject ∈ named document.actions action kind) (session : DbSession) :
    recordActionAllows session after action = recordActionAllows session before action := by
  rw [Bool.eq_iff_iff, recordActionAllows_iff isAfter, recordActionAllows_iff isBefore]
  exact admits_congr (same .roles) fun kind id => same kind id.1

theorem permits_congr {next : RecordPermissionsDocument} (isBefore : parseRecordPermissions before = some document)
    (isAfter : parseRecordPermissions after = some next) (same : ∀ name, name ≠ js "actions" → member? name after = member? name before)
    (session : DbSession) (emptyIsPublic : Bool) (permission : Text) :
    recordPermissionAllows session emptyIsPublic after permission = recordPermissionAllows session emptyIsPublic before permission := by
  unfold recordPermissionAllows
  dsimp only
  rw [parsed_valid isBefore, parsed_valid isAfter]
  by_cases isPermission : permissionNames.contains permission = true
  · have notActions : permission ≠ js "actions" := by
      rintro rfl
      exact absurd isPermission (by decide)
    rw [same _ notActions, same (js "view") (by decide)]
  · rw [Bool.eq_false_iff.mpr isPermission]
    rfl

end Documents

section Claim
variable {Tx : Type} [DecidableEq Tx]

def SpelledStep (state : State Tx) (label : Label) : Prop := ∀ call changed, label = .delegated call changed →
  ∀ json document, state.rows.committed () = some json → parseRecordPermissions json = some document → Spelled document call

def Held (state : State Tx) (holders : Holders) : Prop := ∀ json, state.rows.committed () = some json → HeldBy json holders

/-- What a step changes of who may do what. -/
structure Confined (label : Label) (before after : Json) : Prop where
  permissions : ∀ call changed, label = .delegated call changed → ∀ session emptyIsPublic permission,
    recordPermissionAllows session emptyIsPublic after permission = recordPermissionAllows session emptyIsPublic before permission
  actions : ∀ call changed, label = .delegated call changed → ∀ action, action ≠ call.action → ∀ session,
    recordActionAllows session after action = recordActionAllows session before action
  answered : ∀ call, label = .delegated call false → after = before
  updates : label = .updated → ∀ session action, recordActionAllows session after action = recordActionAllows session before action

def Parses (state : State Tx) : Prop := Sound state ∧ ∃ json document, state.rows.committed () = some json ∧ parseRecordPermissions json = some document

variable {declarations : List Declaration} {state next : State Tx} {label : Label}

theorem Parses.step (parses : Parses state) (step : Step declarations state label next) :
    Parses next ∧ ∃ before after document following, state.rows.committed () = some before ∧ next.rows.committed () = some after ∧
      parseRecordPermissions before = some document ∧ parseRecordPermissions after = some following ∧ Committed label before after ∧
      Confined label before after := by
  obtain ⟨sound, json, document, isJson, parsed⟩ := parses
  obtain ⟨soundNext, before, after, isBefore, isAfter, committed⟩ := sound.step step
  cases Option.some.inj (isJson.symm.trans isBefore)
  have outcome : ∃ following, parseRecordPermissions after = some following ∧ Confined label json after := by
    cases label with
    | step =>
      cases committed
      refine ⟨document, parsed, ?_, ?_, ?_, ?_⟩
      all_goals intros; contradiction
    | delegated call changed =>
      have delegates : Delegates call json after changed := committed
      obtain ⟨following, isFollowing, -, others, frame⟩ := delegates.documents parsed
      refine ⟨following, isFollowing, ?_, ?_, ?_, ?_⟩
      · intro _ _ _
        exact permits_congr parsed isFollowing frame
      · intro _ _ same action different
        cases same
        exact allows_congr parsed isFollowing (others action different)
      · intro _ same
        cases same
        obtain ⟨-, written, -, outcome⟩ := delegates
        rcases outcome with ⟨never, -⟩ | ⟨-, kept, -⟩
        · cases never
        · exact kept
      · intro never
        cases never
    | updated =>
      have rewrites : Rewrites json after := committed
      obtain ⟨following, isFollowing, same⟩ := rewrites.documents parsed
      refine ⟨following, isFollowing, ?_, ?_, ?_, ?_⟩
      · intro _ _ never
        cases never
      · intro _ _ never
        cases never
      · intro _ never
        cases never
      · intro _ session action
        exact allows_congr parsed isFollowing (same action) session
  obtain ⟨following, isFollowing, confined⟩ := outcome
  exact ⟨⟨soundNext, after, following, isAfter, isFollowing⟩, json, after, document, following, isJson, isAfter, parsed, isFollowing, committed, confined⟩

theorem parses_of_run {initial : Json} {document : RecordPermissionsDocument} (parsed : parseRecordPermissions initial = some document)
    {labels : List Label} (run : Run (Step declarations) (started initial) labels state) : Parses state :=
  run.invariant Parses ⟨sound_started initial, initial, document, rfl, parsed⟩ fun parses step => (parses.step step).1

theorem holdersAfter_step (document : RecordPermissionsDocument) (past : List Label) : holdersAfter document (past ++ [.step]) =
    holdersAfter document past := by
  unfold holdersAfter delegationsOf
  rw [List.filterMap_append, List.foldl_append]
  rfl

theorem holdersAfter_updated (document : RecordPermissionsDocument) (past : List Label) : holdersAfter document (past ++ [.updated]) =
    holdersAfter document past := by
  unfold holdersAfter delegationsOf
  rw [List.filterMap_append, List.foldl_append]
  rfl

theorem holdersAfter_delegated (document : RecordPermissionsDocument) (past : List Label) (call : Delegation) (changed : Bool) :
    holdersAfter document (past ++ [.delegated call changed]) = applied (holdersAfter document past) call := by
  unfold holdersAfter delegationsOf
  rw [List.filterMap_append, List.foldl_append]
  rfl

omit [DecidableEq Tx] in
theorem held_iff {json : Json} {document : RecordPermissionsDocument} {holders : Holders} (isJson : state.rows.committed () = some json)
    (parsed : parseRecordPermissions json = some document) : Held state holders ↔ Agree document holders := by
  rw [← heldBy_iff parsed]
  constructor
  · exact fun held => held json isJson
  · intro heldBy other isOther
    rw [← Option.some.inj (isJson.symm.trans isOther)]
    exact heldBy

/-- A step keeps the sessions right exactly where its delegation, if it commits one, is spelled as the database does. -/
theorem held_step {document : RecordPermissionsDocument} {past : List Label} (parses : Parses state)
    (held : Held state (holdersAfter document past)) (step : Step declarations state label next) :
    Held next (holdersAfter document (past ++ [label])) ↔ SpelledStep state label := by
  obtain ⟨-, before, after, now, following, isBefore, isAfter, parsed, isFollowing, committed, -⟩ := parses.step step
  have agree := (held_iff isBefore parsed).mp held
  rw [held_iff isAfter isFollowing]
  cases label with
  | step =>
    rw [holdersAfter_step]
    cases committed
    cases parsed.symm.trans isFollowing
    refine iff_of_true agree ?_
    intro _ _ never
    cases never
  | delegated call changed =>
    have delegates : Delegates call before after changed := committed
    obtain ⟨found, isFound, delta, others, -⟩ := delegates.documents parsed
    cases isFound.symm.trans isFollowing
    rw [holdersAfter_delegated, agree_applied agree delta others]
    constructor
    · intro spelled _ _ same json document isJson isDocument
      cases same
      cases isJson.symm.trans isBefore
      cases isDocument.symm.trans parsed
      exact spelled
    · exact fun spelled => spelled call changed rfl before now isBefore parsed
  | updated =>
    rw [holdersAfter_updated]
    have rewrites : Rewrites before after := committed
    obtain ⟨found, isFound, same⟩ := rewrites.documents parsed
    cases isFound.symm.trans isFollowing
    refine iff_of_true ⟨?_, ?_⟩ ?_
    · exact fun action role => (same action .roles role).trans (agree.roles action role)
    · exact fun action kind id => (same action kind id.1).trans (agree.ids action kind id)
    · intro _ _ never
      cases never

/-- No delegation and no ordinary write changes what it is not for. The sessions that hold an action are those that the committed
deltas give, as long as ids are spelled as the database does: at the start exactly if the document is, and after one more
step exactly if the delegation it commits is. -/
theorem delegations_apply (declarations : List Declaration) {initial : Json} {document : RecordPermissionsDocument}
    (parsed : parseRecordPermissions initial = some document) :
    (∀ labels (state next : State Tx) label, Run (Step declarations) (started initial) labels state → Step declarations state label next →
      ∃ before after, state.rows.committed () = some before ∧ next.rows.committed () = some after ∧ Confined label before after) ∧
    (Held (started initial : State Tx) (holdersOf document) ↔ WellSpelled document) ∧
    (WellSpelled document → ∀ labels (state : State Tx),
      Run (guarded SpelledStep (Step declarations)) (started initial) labels state → Held state (holdersAfter document labels) ∧
        ∀ label next, Step declarations state label next →
          (Held next (holdersAfter document (labels ++ [label])) ↔ SpelledStep state label)) := by
  have atStart : Held (started initial : State Tx) (holdersOf document) ↔ WellSpelled document :=
    (held_iff rfl parsed).trans agree_start
  refine ⟨?_, atStart, ?_⟩
  · intro labels state next label run step
    obtain ⟨-, before, after, -, -, isBefore, isAfter, -, -, -, confined⟩ := (parses_of_run parsed run).step step
    exact ⟨before, after, isBefore, isAfter, confined⟩
  · intro wellSpelled labels state run
    have parses : ∀ {labels : List Label} {state : State Tx},
        Run (guarded SpelledStep (Step declarations)) (started initial) labels state → Parses state :=
      fun run => parses_of_run parsed (run.mono fun taken => taken.2)
    have held : Held state (holdersAfter document labels) := by
      refine run.history (fun labels state => Held state (holdersAfter document labels)) (atStart.mpr wellSpelled) ?_
      intro past state label next before held taken
      exact (held_step (parses before) held taken.2).mpr taken.1
    exact ⟨held, fun label next step => held_step (parses run) held step⟩

end Claim

section Spellings

def person : RowId := ⟨js "0b0e4c9e-6a55-4d3a-9b1c-2f6a4f0d7c11", by decide +kernel⟩

/-- `{ actions: { start: { users: [person] } } }` -/
def granted : Json := .object [(js "actions", .object [(js "start", .object [(js "users", .array [.text person.1])])])]

def grantedDocument : RecordPermissionsDocument := (parseRecordPermissions granted).getD ⟨nobody, nobody, nobody, .empty⟩

theorem granted_parsed : parseRecordPermissions granted = some grantedDocument := by
  have isSome : (parseRecordPermissions granted).isSome = true := by decide +kernel
  obtain ⟨document, parsed⟩ := Option.isSome_iff_exists.mp isSome
  unfold grantedDocument
  rw [parsed]
  rfl

def declared : List Declaration := [⟨js "start", by decide +kernel, true, true⟩]

/-- A call that grants the action to clerks and revokes it from the person, as the id is spelled. -/
def requestOf (spelled : Text) : DelegationRequest where
  action := js "start"
  grant := some (.object [(js "roles", .array [.text (js "clerk")])])
  revoke := some (.object [(js "users", .array [.text spelled])])

def administrator : Caller := ⟨true, true, true⟩

def noCall : Delegation := ⟨js "start", nobody, nobody, by decide +kernel, ⟨none, rfl⟩, ⟨none, rfl⟩⟩

def callOf (spelled : Text) : Delegation :=
  match delegation declared administrator (requestOf spelled) with
  | .ok call => call
  | .error _ => noCall

def writtenBy (call : Delegation) : Json := (delegatedDocument granted call.action call.grant call.revoke).getD granted

def delegatedRun (call : Delegation) : List Label := [.step, .step, .step, .step, .delegated call true]

def locked : Store Unit Unit Json := (⟨fun _ => some granted, fun _ => .idle⟩ : Store Unit Unit Json).lock () () .update

section Steps
variable (call : Delegation)

def begun : State Unit := (started granted).enter () (.delegating call)
def checked : State Unit := (begun call).enter () (.admitted call)
def holding : State Unit := (checked call).move () locked (.holding call granted)
def written : State Unit := (holding call).move () (locked.write () () (some (writtenBy call))) (.delegated call true)
def ended : State Unit := (written call).move () ((locked.write () () (some (writtenBy call))).commit ()) .idle

variable {call}

theorem delegatedRun_taken {guard : State Unit → Label → Prop} {caller : Caller} {request : DelegationRequest}
    (ok : delegation declared caller request = .ok call) (noIntegrations : call.grant .integrations = [])
    (made : delegatedDocument granted call.action call.grant call.revoke = some (writtenBy call)) (distinct : ¬SameJson granted (writtenBy call))
    (quiet : ∀ state, guard state .step) (last : guard (written call) (.delegated call true)) :
    Run (guarded guard (Step declared)) (started granted) (delegatedRun call) (ended call) := by
  have begins : Step declared (started granted) .step (begun call) := .delegate rfl ok
  have known : ∀ id ∈ call.grant .integrations, ∃ row ∈ ([] : List RowId), row.1 = id := by
    intro id member
    rw [noIntegrations] at member
    exact absurd member List.not_mem_nil
  have checks : Step declared (begun call) .step (checked call) := .checkIntegrations rfl known
  have locks : Step declared (checked call) .step (holding call) := by
    refine .lockAcl rfl ?_ rfl
    exact fun other different => absurd rfl different
  have isValid : (parseRecordPermissions granted).isSome = true := by
    rw [granted_parsed]
    rfl
  have writes : Step declared (holding call) .step (written call) := .rewrite rfl isValid made distinct
  have commits : Step declared (written call) (.delegated call true) (ended call) := .commitDelegation rfl
  exact .cons ⟨quiet _, begins⟩ (.cons ⟨quiet _, checks⟩ (.cons ⟨quiet _, locks⟩ (.cons ⟨quiet _, writes⟩ (.cons ⟨last, commits⟩ .start))))

end Steps

theorem writtenBy_distinct {call : Delegation} {written : RecordPermissionsDocument} (parsed : parseRecordPermissions (writtenBy call) = some written)
    (clerks : (named written.actions (js "start") .roles).contains (js "clerk") = true) : ¬SameJson granted (writtenBy call) := by
  intro same
  have alike := congrFun (named_of_same same granted_parsed parsed (js "start")) .roles
  rw [← alike] at clerks
  exact absurd clerks (by decide +kernel)

def writtenDocument (call : Delegation) : RecordPermissionsDocument := (parseRecordPermissions (writtenBy call)).getD ⟨nobody, nobody, nobody, .empty⟩

theorem getD_of_isSome {α : Type} {value : Option α} {default : α} (isSome : value.isSome = true) : value = some (value.getD default) := by
  cases value with
  | none => cases isSome
  | some => rfl

theorem callOf_run {spelled : Text} {guard : State Unit → Label → Prop}
    (accepted : (delegation declared administrator (requestOf spelled)).isOk = true)
    (noIntegrations : (callOf spelled).grant .integrations = [])
    (made : (delegatedDocument granted (callOf spelled).action (callOf spelled).grant (callOf spelled).revoke).isSome = true)
    (parses : (parseRecordPermissions (writtenBy (callOf spelled))).isSome = true)
    (clerks : (named (writtenDocument (callOf spelled)).actions (js "start") .roles).contains (js "clerk") = true)
    (quiet : ∀ state, guard state .step) (last : guard (written (callOf spelled)) (.delegated (callOf spelled) true)) :
    Run (guarded guard (Step declared)) (started granted) (delegatedRun (callOf spelled)) (ended (callOf spelled)) := by
  have ok : delegation declared administrator (requestOf spelled) = .ok (callOf spelled) := by
    unfold callOf
    cases outcome : delegation declared administrator (requestOf spelled) with
    | ok => rfl
    | error =>
      rw [outcome] at accepted
      cases accepted
  exact delegatedRun_taken ok noIntegrations (getD_of_isSome made) (writtenBy_distinct (getD_of_isSome parses) clerks) quiet last

theorem quiet_spelled {Tx : Type} (state : State Tx) : SpelledStep state .step := by
  intro _ _ never
  cases never

theorem plain_run : Run (guarded SpelledStep (Step declared)) (started granted) (delegatedRun (callOf person.1)) (ended (callOf person.1)) := by
  have plainSpelled : SpelledStep (written (callOf person.1)) (.delegated (callOf person.1) true) := by
    intro call _ same json document _ _
    cases same
    refine spelled_of_lower document ?_ ?_
    all_goals decide +kernel
  refine callOf_run ?_ ?_ ?_ ?_ ?_ quiet_spelled plainSpelled
  all_goals decide +kernel

theorem delegations_apply_plain : Held (ended (callOf person.1)) (holdersAfter grantedDocument (delegatedRun (callOf person.1))) :=
  have grantedSpelled : WellSpelled grantedDocument := wellSpelled_of_lower (by decide +kernel)
  ((delegations_apply declared granted_parsed).2.2 grantedSpelled _ _ plain_run).1

def shouted : Text := person.1.map asciiUpper

theorem shouted_run : Run (Step declared) (started granted) (delegatedRun (callOf shouted)) (ended (callOf shouted)) := by
  have run : Run (guarded (fun _ _ => True) (Step declared)) (started granted) (delegatedRun (callOf shouted)) (ended (callOf shouted)) := by
    refine callOf_run ?_ ?_ ?_ ?_ ?_ (fun _ => trivial) trivial
    all_goals decide +kernel
  exact run.mono fun taken => taken.2

/-- A person whose id is revoked in capitals goes on to hold the action. -/
theorem shouted_ignored : ¬∀ labels (state : State Unit), Run (Step declared) (started granted) labels state →
    Held state (holdersAfter grantedDocument labels) := by
  intro applies
  have held := applies _ _ shouted_run (writtenBy (callOf shouted)) rfl ⟨.person, some person, [], [], none⟩ (js "start")
  have allowed : recordActionAllows ⟨.person, some person, [], [], none⟩ (writtenBy (callOf shouted)) (js "start") = true := by decide +kernel
  obtain ⟨id, isId, member⟩ | ⟨role, never, -⟩ | ⟨group, never, -⟩ := held.mp allowed
  · cases isId
    rw [show delegatedRun (callOf shouted) = [.step, .step, .step, .step] ++ [.delegated (callOf shouted) true] from rfl,
      holdersAfter_delegated] at member
    have isAction : js "start" = (callOf shouted).action := by decide +kernel
    unfold applied at member
    rw [if_pos isAction] at member
    refine member.2 ⟨shouted, ?_, ?_⟩
    · have isRevoked : (callOf shouted).revoke .users = [shouted] := by decide +kernel
      rw [isRevoked]
      exact List.mem_singleton_self _
    · decide +kernel
  · cases never
  · cases never

end Spellings

end OpenShapeForge.Operations.DelegationsApplied
