import OpenShapeForge.Library.RowHistory
import OpenShapeForge.Library.Run
import OpenShapeForge.Operations.ActionDeltas

/-! Delegations and ordinary writes of one record's ACL, in every order their row locks allow
(applyRecordActionDelegation, applyGeneratedRowUpdate). -/

namespace OpenShapeForge.Operations.DelegatedActions
open Js Library RowLocks
open RecordActions ActionDeltas

section Requests

/-- What an entity declares of an action: the principals it admits. -/
structure Declaration where
  name : Text
  isAction : isActionName name = true
  person : Bool
  integration : Bool

def Declaration.admits (declaration : Declaration) : SubjectKind → Bool
  | .integrations => declaration.integration
  | _ => declaration.person

def principalOf : SubjectKind → Text
  | .integrations => js "integration"
  | _ => js "person"

structure Caller where
  isVerifiedDelegatingPerson : Bool
  mayUpdate : Bool
  mayManageApiKeys : Bool

structure DelegationRequest where
  action : Text
  grant : Option Json
  revoke : Option Json

/-- A call that may be tried in a transaction. -/
structure Delegation where
  action : Text
  grant : Subjects
  revoke : Subjects
  isAction : isActionName action = true
  granted : ∃ value, subjectDelta (js "grant") value = .ok grant
  revoked : ∃ value, subjectDelta (js "revoke") value = .ok revoke

def undeclared (action : Text) : Refusal :=
  ⟨js "BAD_USER_INPUT", js "The entity declares no record action \"" ++ action ++ js "\"."⟩

/-- What the call checks before it opens a transaction. -/
def delegation (declarations : List Declaration) (caller : Caller) (request : DelegationRequest) : Except Refusal Delegation :=
  if isRecordActionName request.action = false then .error ⟨js "BAD_USER_INPUT", js "action is missing or malformed."⟩
  else match grants : subjectDelta (js "grant") request.grant, revokes : subjectDelta (js "revoke") request.revoke with
    | .error refusal, _ => .error refusal
    | _, .error refusal => .error refusal
    | .ok grant, .ok revoke =>
      if touchedKinds grant revoke = [] then .error ⟨js "BAD_USER_INPUT", js "The call grants and revokes nothing."⟩
      else if !caller.isVerifiedDelegatingPerson then .error ⟨js "FORBIDDEN", js "Only a verified person may delegate a record action."⟩
      else if !caller.mayUpdate then .error ⟨js "FORBIDDEN", js "Not authorized to update this entity."⟩
      else match found : declarations.find? fun declaration => declaration.name = request.action with
        | none => .error (undeclared request.action)
        | some declaration =>
          match (touchedKinds grant revoke).find? fun kind => !declaration.admits kind with
          | some kind => .error ⟨js "VALIDATION", js "The " ++ request.action ++ js " action does not admit a " ++ principalOf kind ++ js " principal."⟩
          | none =>
            if .integrations ∈ touchedKinds grant revoke ∧ caller.mayManageApiKeys = false then
              .error ⟨js "FORBIDDEN", js "Not authorized to delegate a record action to an application."⟩
            else .ok {
              action := request.action
              grant, revoke
              isAction := by
                have same : declaration.name = request.action := by simpa using List.find?_some found
                exact same ▸ declaration.isAction
              granted := ⟨request.grant, grants⟩
              revoked := ⟨request.revoke, revokes⟩ }

end Requests

/-- How far a transaction is. -/
inductive Phase where
  | idle
  | delegating (call : Delegation)
  | admitted (call : Delegation)
  | holding (call : Delegation) (stored : Json)
  | delegated (call : Delegation) (changed : Bool)
  | updating (submitted : Json)
  | reconciling (submitted stored : Json)
  | updated

structure State (Tx : Type) where
  rows : Store Tx Unit Json
  phases : Tx → Phase

inductive Label where
  | step
  | delegated (call : Delegation) (changed : Bool)
  | updated

variable {Tx : Type} [DecidableEq Tx]

def State.enter (state : State Tx) (tx : Tx) (phase : Phase) : State Tx := { state with phases := Function.update state.phases tx phase }

def State.move (state : State Tx) (tx : Tx) (rows : Store Tx Unit Json) (phase : Phase) : State Tx :=
  ⟨rows, Function.update state.phases tx phase⟩

/-- One step of one transaction. Reads and writes of the record are those of the row it has locked. -/
inductive Step (declarations : List Declaration) (state : State Tx) : Label → State Tx → Prop
  | delegate {tx : Tx} {caller : Caller} {request : DelegationRequest} {call : Delegation} (idle : state.phases tx = .idle)
      (ok : delegation declarations caller request = .ok call) : Step declarations state .step (state.enter tx (.delegating call))
  /-- The integrations it grants to are active ones, under the ids the database has for them. -/
  | checkIntegrations {tx : Tx} {call : Delegation} {active : List RowId} (begun : state.phases tx = .delegating call)
      (known : ∀ id ∈ call.grant .integrations, ∃ row ∈ active, row.1 = id) : Step declarations state .step (state.enter tx (.admitted call))
  | lockAcl {tx : Tx} {call : Delegation} {stored : Json} (begun : state.phases tx = .admitted call)
      (grants : state.rows.Grants tx () .update) (read : state.rows.view tx () = some stored) :
      Step declarations state .step (state.move tx (state.rows.lock tx () .update) (.holding call stored))
  | rewrite {tx : Tx} {call : Delegation} {stored written : Json} (held : state.phases tx = .holding call stored)
      (valid : (parseRecordPermissions stored).isSome = true)
      (made : delegatedDocument stored call.action call.grant call.revoke = some written) (distinct : ¬SameJson stored written) :
      Step declarations state .step (state.move tx (state.rows.write tx () (some written)) (.delegated call true))
  | keep {tx : Tx} {call : Delegation} {stored written : Json} (held : state.phases tx = .holding call stored)
      (valid : (parseRecordPermissions stored).isSome = true)
      (made : delegatedDocument stored call.action call.grant call.revoke = some written) (same : SameJson stored written) :
      Step declarations state .step (state.enter tx (.delegated call false))
  | update {tx : Tx} {submitted : Json} (idle : state.phases tx = .idle) (valid : (parseRecordPermissions submitted).isSome = true) :
      Step declarations state .step (state.enter tx (.updating submitted))
  | lockRecord {tx : Tx} {submitted stored : Json} {strength : Strength} (begun : state.phases tx = .updating submitted)
      (exclusive : strength = .noKeyUpdate ∨ strength = .update) (grants : state.rows.Grants tx () strength)
      (read : state.rows.view tx () = some stored) :
      Step declarations state .step (state.move tx (state.rows.lock tx () strength) (.reconciling submitted stored))
  | store {tx : Tx} {submitted stored written : Json} (held : state.phases tx = .reconciling submitted stored)
      (made : assertRecordActionAxisUnchanged submitted stored = some written) :
      Step declarations state .step (state.move tx (state.rows.write tx () (some written)) .updated)
  /-- No column of the row changes. -/
  | leave {tx : Tx} {submitted stored written : Json} (held : state.phases tx = .reconciling submitted stored)
      (made : assertRecordActionAxisUnchanged submitted stored = some written) (same : SameJson stored written) :
      Step declarations state .step (state.enter tx .updated)
  | commitDelegation {tx : Tx} {call : Delegation} {changed : Bool} (ready : state.phases tx = .delegated call changed) :
      Step declarations state (.delegated call changed) (state.move tx (state.rows.commit tx) .idle)
  | commitUpdate {tx : Tx} (ready : state.phases tx = .updated) :
      Step declarations state .updated (state.move tx (state.rows.commit tx) .idle)
  | rollback {tx : Tx} : Step declarations state .step (state.move tx (state.rows.rollback tx) .idle)

/-- A record with this ACL, and no transaction at work on it. -/
def started (initial : Json) : State Tx := ⟨⟨fun _ => some initial, fun _ => .idle⟩, fun _ => .idle⟩

end OpenShapeForge.Operations.DelegatedActions
