import OpenShapeForge.Library.Run
import OpenShapeForge.Operations.ActionFence

/-! As long as an admitted transaction is not at its end, its key, the key's integration and the grant
that it was admitted on are as committed as they were to its gate. -/

namespace OpenShapeForge.Operations.WithdrawalsWait
open Js Library RowLocks
open RecordActions ActionFence

section Standing

structure PrincipalStands (credentials : Credentials) (committed : RowKey → Option Row) : Prop where
  integration : ∃ row, committed (.integration credentials.principal) = some (.integration row) ∧
    row.tenant = credentials.tenant ∧ row.status = .active
  key : ∃ row, committed (.apiKey credentials.credential) = some (.apiKey row) ∧
    row.tenant = credentials.tenant ∧ row.integration = credentials.principal ∧ row.revokedAt = none

structure Stands (gate : Gate) (committed : RowKey → Option Row) : Prop where
  principal : gate.session.principalClass = .application →
    ∃ credentials, gate.session.credentials = some credentials ∧ PrincipalStands credentials committed
  granted : ∃ key tenant acl, gate.row = some key ∧ committed key = some (.record tenant acl) ∧ gate.session.tenant = some tenant ∧
    recordActionAllows gate.session.toDbSession acl gate.action = true

end Standing

section Held
variable {Tx : Type} {before after : Rows Tx} {tx other : Tx} {key : RowKey} {strength : Strength} {row : Row}

structure Held (rows : Rows Tx) (tx : Tx) (key : RowKey) (strength : Strength) (row : Row) : Prop where
  holds : rows.Holds tx key strength
  whole : strength ≠ .keyShare
  committed : rows.committed key = some row

/-- What a transaction holds stays held, and as it is committed. -/
def Keeps (before after : Rows Tx) (tx : Tx) : Prop :=
  ∀ key strength, before.Holds tx key strength → strength ≠ .keyShare → after.Holds tx key strength ∧ after.committed key = before.committed key

theorem Held.keep (held : Held before tx key strength row) (keeps : Keeps before after tx) : Held after tx key strength row where
  holds := (keeps key strength held.holds held.whole).1
  whole := held.whole
  committed := (keeps key strength held.holds held.whole).2.trans held.committed

theorem Keeps.owns (keeps : Keeps before after tx) (owns : before.Owns tx key) : after.Owns tx key := by
  rcases owns with held | held
  · exact .inl (keeps key _ held (by decide)).1
  · exact .inr (keeps key _ held (by decide)).1

theorem Keeps.same (sessions : after.sessions tx = before.sessions tx) (committed : after.committed = before.committed) : Keeps before after tx := by
  intro key strength holds _
  unfold Store.Holds at holds ⊢
  rw [sessions, committed]
  exact ⟨holds, rfl⟩

variable [DecidableEq Tx]

theorem Keeps.lock : Keeps before (before.lock tx key strength) tx :=
  fun _ _ holds _ => ⟨Store.lock_holds.mpr (.inl holds), rfl⟩

theorem Keeps.write {row : Option Row} : Keeps before (before.write tx key row) tx :=
  fun _ _ holds _ => ⟨Store.write_holds.mpr holds, rfl⟩

theorem Keeps.commit (consistent : before.Consistent) (different : tx ≠ other) : Keeps before (before.commit other) tx := by
  intro key strength holds whole
  refine ⟨?_, consistent.committed_held different holds whole⟩
  unfold Store.Holds at holds ⊢
  rw [Store.commit_session different]
  exact holds

theorem Held.lock (unwritten : (before.sessions tx).written = fun _ => none) (whole : strength ≠ .keyShare)
    (read : before.view tx key = some row) : Held (before.lock tx key strength) tx key strength row where
  holds := Store.lock_holds.mpr (.inr ⟨rfl, rfl, rfl⟩)
  whole := whole
  committed := (Store.view_of_unwritten (congrFun unwritten key)).symm.trans read

end Held

section Gates
variable {Tx : Type} {before after : Rows Tx} {tx : Tx} {gate : Gate} {credentials : Credentials}

def IntegrationHeld (rows : Rows Tx) (tx : Tx) (credentials : Credentials) : Prop :=
  ∃ row, Held rows tx (.integration credentials.principal) .share (.integration row) ∧ integrationLive credentials row = true

def KeyHeld (rows : Rows Tx) (tx : Tx) (credentials : Credentials) : Prop :=
  ∃ row clock, Held rows tx (.apiKey credentials.credential) .share (.apiKey row) ∧ keyLive credentials clock row = true

def PrincipalHeld (rows : Rows Tx) (tx : Tx) (session : ActionSession) : Prop :=
  session.principalClass = .application →
    ∃ credentials, session.credentials = some credentials ∧ IntegrationHeld rows tx credentials ∧ KeyHeld rows tx credentials

def GrantHeld (rows : Rows Tx) (tx : Tx) (gate : Gate) : Prop :=
  ∃ key tenant acl, gate.row = some key ∧ Held rows tx key gate.strength (.record tenant acl) ∧ gate.session.tenant = some tenant ∧
    recordActionAllows gate.session.toDbSession acl gate.action = true

theorem IntegrationHeld.keep (held : IntegrationHeld before tx credentials) (keeps : Keeps before after tx) :
    IntegrationHeld after tx credentials := by
  obtain ⟨row, isHeld, live⟩ := held
  exact ⟨row, isHeld.keep keeps, live⟩

theorem KeyHeld.keep (held : KeyHeld before tx credentials) (keeps : Keeps before after tx) : KeyHeld after tx credentials := by
  obtain ⟨row, clock, isHeld, live⟩ := held
  exact ⟨row, clock, isHeld.keep keeps, live⟩

theorem PrincipalHeld.keep {session : ActionSession} (held : PrincipalHeld before tx session) (keeps : Keeps before after tx) :
    PrincipalHeld after tx session := by
  intro application
  obtain ⟨credentials, known, integration, key⟩ := held application
  exact ⟨credentials, known, integration.keep keeps, key.keep keeps⟩

theorem GrantHeld.keep (held : GrantHeld before tx gate) (keeps : Keeps before after tx) : GrantHeld after tx gate := by
  obtain ⟨key, tenant, acl, isRow, isHeld, ofTenant, allows⟩ := held
  exact ⟨key, tenant, acl, isRow, isHeld.keep keeps, ofTenant, allows⟩

theorem principalStands (integration : IntegrationHeld before tx credentials) (key : KeyHeld before tx credentials) :
    PrincipalStands credentials before.committed := by
  obtain ⟨row, held, live⟩ := integration
  obtain ⟨keyRow, clock, keyIsHeld, keyIsLive⟩ := key
  have status : row.tenant = credentials.tenant ∧ row.status = .active := by simpa [integrationLive] using live
  have stands : (keyRow.tenant = credentials.tenant ∧ keyRow.integration = credentials.principal) ∧ keyRow.revokedAt = none := by
    unfold keyLive at keyIsLive
    simpa using (Bool.and_eq_true_iff.mp keyIsLive).1
  exact ⟨⟨row, held.committed, status⟩, keyRow, keyIsHeld.committed, stands.1.1, stands.1.2, stands.2⟩

theorem stands_of_held (principal : PrincipalHeld before tx gate.session) (grant : GrantHeld before tx gate) : Stands gate before.committed where
  principal application := by
    obtain ⟨credentials, known, integration, key⟩ := principal application
    exact ⟨credentials, known, principalStands integration key⟩
  granted := by
    obtain ⟨key, tenant, acl, isRow, held, ofTenant, allows⟩ := grant
    exact ⟨key, tenant, acl, isRow, held.committed, ofTenant, allows⟩

end Gates

section Runs
variable {Tx : Type} {entities : List RecordActionEntity} {declarations : Text → List DelegatedActions.Declaration} {state next : State Tx}
  {tx other : Tx} {label : Label}

def Unwritten (rows : Rows Tx) (tx : Tx) : Prop := (rows.sessions tx).written = fun _ => none

/-- What a gate has found out by a phase, it holds; what is written next is locked. -/
def At (rows : Rows Tx) (tx : Tx) : Phase → Prop
  | .idle | .gating _ => Unwritten rows tx
  | .integrationLive gate credentials => Unwritten rows tx ∧ gate.session.credentials = some credentials ∧ IntegrationHeld rows tx credentials
  | .principalLive gate => Unwritten rows tx ∧ PrincipalHeld rows tx gate.session
  | .allowed gate => PrincipalHeld rows tx gate.session ∧ GrantHeld rows tx gate
  | .admitted gate => PrincipalHeld rows tx gate.session ∧ GrantHeld rows tx gate
  | .disableLocked _ integration _ => rows.Holds tx (.integration integration) .update
  | .holding _ _ entity id _ => rows.Holds tx (.record entity id) .update
  | .reconciling _ entity id _ _ => rows.Owns tx (.record entity id)
  | _ => True

theorem At.keep {before after : Rows Tx} {phase : Phase} (progress : At before tx phase) (keeps : Keeps before after tx)
    (written : (after.sessions tx).written = (before.sessions tx).written) : At after tx phase := by
  have unwritten : Unwritten before tx → Unwritten after tx := written.trans
  cases phase with
  | idle | gating => exact unwritten progress
  | integrationLive => exact ⟨unwritten progress.1, progress.2.1, progress.2.2.keep keeps⟩
  | principalLive => exact ⟨unwritten progress.1, progress.2.keep keeps⟩
  | allowed | admitted => exact ⟨progress.1.keep keeps, progress.2.keep keeps⟩
  | disableLocked | holding => exact (keeps _ _ progress (by decide)).1
  | reconciling => exact keeps.owns progress
  | _ => trivial

structure Sound (state : State Tx) : Prop where
  consistent : state.rows.Consistent
  progress : ∀ tx, At state.rows tx (state.phases tx)

theorem Sound.now (sound : Sound state) {phase : Phase} (now : state.phases tx = phase) : At state.rows tx phase := now ▸ sound.progress tx

theorem sound_started (committed : RowKey → Option Row) : Sound (started committed : State Tx) where
  consistent := .idle _
  progress _ := rfl

variable [DecidableEq Tx]

theorem Sound.move (sound : Sound state) {rows : Rows Tx} {phase : Phase} (consistent : rows.Consistent)
    (sessions : ∀ other, other ≠ tx → rows.sessions other = state.rows.sessions other)
    (committed : rows.committed = state.rows.committed) (own : At rows tx phase) : Sound (state.move tx rows phase) where
  consistent := consistent
  progress other := by
    unfold State.move
    dsimp only
    by_cases same : other = tx
    · rw [same, Function.update_self]
      exact own
    · rw [Function.update_of_ne same]
      exact (sound.progress other).keep (.same (sessions other same) committed) (congrArg Session.written (sessions other same))

theorem Sound.enter (sound : Sound state) {phase : Phase} (own : At state.rows tx phase) : Sound (state.enter tx phase) :=
  sound.move sound.consistent (fun _ _ => rfl) rfl own

theorem Sound.locks (sound : Sound state) {key : RowKey} {strength : Strength} {phase : Phase} (grants : state.rows.Grants tx key strength)
    (own : At (state.rows.lock tx key strength) tx phase) : Sound (state.locks tx key strength phase) :=
  sound.move (sound.consistent.lock grants) (fun _ different => Store.lock_session different) rfl own

theorem Sound.writes (sound : Sound state) {key : RowKey} {row : Option Row} {phase : Phase} (owns : state.rows.Owns tx key)
    (removes : row = none → state.rows.Holds tx key .update) (own : At (state.rows.write tx key row) tx phase) :
    Sound (state.move tx (state.rows.write tx key row) phase) :=
  sound.move (sound.consistent.write owns removes) (fun _ different => Store.write_session different) rfl own

theorem Sound.rollback (sound : Sound state) : Sound (state.move tx (state.rows.rollback tx) .idle) :=
  sound.move sound.consistent.rollback (fun _ different => Store.rollback_session different) rfl
    (congrArg Session.written Store.rollback_own)

theorem Sound.commit (sound : Sound state) : Sound (state.move tx (state.rows.commit tx) .idle) where
  consistent := sound.consistent.commit
  progress other := by
    unfold State.move
    dsimp only
    by_cases same : other = tx
    · rw [same, Function.update_self]
      exact congrArg Session.written Store.commit_own
    · rw [Function.update_of_ne same]
      exact (sound.progress other).keep (.commit sound.consistent same) (congrArg Session.written (Store.commit_session same))

theorem Sound.locksAndWrites (sound : Sound state) {key : RowKey} {strength : Strength} {row : Row} {phase : Phase}
    (exclusive : strength = .noKeyUpdate ∨ strength = .update) (grants : state.rows.Grants tx key strength)
    (own : At ((state.rows.lock tx key strength).write tx key (some row)) tx phase) :
    Sound (state.locksAndWrites tx key strength row phase) := by
  have owns : (state.rows.lock tx key strength).Owns tx key := by
    rcases exclusive with rfl | rfl
    · exact .inl (Store.lock_holds.mpr (.inr ⟨rfl, rfl, rfl⟩))
    · exact .inr (Store.lock_holds.mpr (.inr ⟨rfl, rfl, rfl⟩))
  refine sound.move ((sound.consistent.lock grants).write owns fun never => by cases never) ?_ rfl own
  exact fun _ different => (Store.write_session different).trans (Store.lock_session different)

theorem unwritten_lock {rows : Rows Tx} {key : RowKey} {strength : Strength} (unwritten : Unwritten rows tx) :
    Unwritten (rows.lock tx key strength) tx := Store.lock_written.trans unwritten

theorem strength_whole (gate : Gate) : gate.strength ≠ .keyShare := by
  unfold Gate.strength lockClause
  cases (gate.entity.locks.get? gate.action).getD .exclusive
  all_goals decide

theorem Sound.gate (sound : Sound state) (step : GateStep entities state tx next) : Sound next := by
  cases step with
  | assertRecordAction idle declared =>
    have unwritten : Unwritten state.rows tx := sound.now idle
    exact sound.enter unwritten
  | otherPrincipal begun other =>
    have unwritten : Unwritten state.rows tx := sound.now begun
    exact sound.enter ⟨unwritten, fun application => absurd application other⟩
  | lockIntegration begun application known grants read live =>
    have unwritten : Unwritten state.rows tx := sound.now begun
    exact sound.locks grants ⟨unwritten_lock unwritten, known, _, .lock unwritten (by decide) read, live⟩
  | lockCredential begun grants read live =>
    obtain ⟨unwritten, known, integration⟩ := sound.now begun
    have key : KeyHeld _ tx _ := ⟨_, _, .lock unwritten (by decide) read, live⟩
    exact sound.locks grants ⟨unwritten_lock unwritten, fun _ => ⟨_, known, integration.keep .lock, key⟩⟩
  | @lockAcl gate key tenant acl begun row grants read ofTenant allows =>
    obtain ⟨unwritten, principal⟩ := sound.now begun
    have granted : GrantHeld (state.rows.lock tx key gate.strength) tx gate :=
      ⟨key, tenant, acl, row, .lock unwritten (strength_whole gate) read, ofTenant, allows⟩
    refine sound.locks grants ?_
    split
    next => exact ⟨principal.keep .lock, granted⟩
    next => exact ⟨principal.keep .lock, granted⟩
  | @project gate key tenant acl begun row read =>
    have passed : PrincipalHeld state.rows tx gate.session ∧ GrantHeld state.rows tx gate := sound.now begun
    exact sound.enter passed

theorem Sound.effect (sound : Sound state) (step : EffectStep state tx label next) : Sound next := by
  cases step with
  | @lock gate key strength admitted grants =>
    obtain ⟨principal, granted⟩ := sound.now admitted
    exact sound.locks grants ⟨principal.keep .lock, granted.keep .lock⟩
  | @write gate key row admitted owns removes =>
    obtain ⟨principal, granted⟩ := sound.now admitted
    exact sound.writes owns removes ⟨principal.keep .write, granted.keep .write⟩

theorem Sound.key (sound : Sound state) (step : KeyStep state tx next) : Sound next := by
  cases step with
  | revokeKey idle | disableIntegration idle | issueKey idle => exact sound.enter trivial
  | findKeys marked once found => exact sound.enter trivial
  | revoke begun grants read ofTenant joined => exact sound.locksAndWrites (.inl rfl) grants trivial
  | revokeNext begun grants read unrevoked => exact sound.locksAndWrites (.inl rfl) grants trivial
  | insert begun grants new => exact sound.locksAndWrites (.inr rfl) grants trivial
  | skipNext begun grants read revoked => exact sound.locks grants trivial
  | lockToIssue begun grants read ofTenant active => exact sound.locks grants trivial
  | lockToDisable begun grants read ofTenant => exact sound.locks grants (Store.lock_holds.mpr (.inr ⟨rfl, rfl, rfl⟩))
  | @disable tenant integration now row locked read =>
    have holds : state.rows.Holds tx (.integration integration) .update := sound.now locked
    exact sound.writes (.inr holds) (fun never => by cases never) trivial

theorem Sound.acl (sound : Sound state) (step : AclStep declarations state tx next) : Sound next := by
  cases step with
  | delegate idle ok => exact sound.enter trivial
  | findIntegrations begun once found => exact sound.enter trivial
  | shareNext begun grants read => exact sound.locks grants trivial
  | assertActiveIntegrations begun known => exact sound.enter trivial
  | lockAcl begun grants read => exact sound.locks grants (Store.lock_holds.mpr (.inr ⟨rfl, rfl, rfl⟩))
  | @rewrite call tenant entity id stored written held valid made =>
    have holds : state.rows.Holds tx (.record entity id) .update := sound.now held
    exact sound.writes (.inr holds) (fun never => by cases never) trivial
  | keep held valid made => exact sound.enter trivial
  | update idle valid => exact sound.enter trivial
  | @lockRecord tenant entity id submitted stored forUpdate begun grants read =>
    refine sound.locks grants ?_
    cases forUpdate with
    | false => exact .inl (Store.lock_holds.mpr (.inr ⟨rfl, rfl, rfl⟩))
    | true => exact .inr (Store.lock_holds.mpr (.inr ⟨rfl, rfl, rfl⟩))
  | @store tenant entity id submitted stored written held made =>
    have owns : state.rows.Owns tx (.record entity id) := sound.now held
    exact sound.writes owns (fun never => by cases never) trivial

theorem Sound.step (sound : Sound state) (step : Step entities declarations state label next) : Sound next := by
  cases step with
  | gate step => exact sound.gate step
  | effect step => exact sound.effect step
  | key step => exact sound.key step
  | acl step => exact sound.acl step
  | commit => exact sound.commit
  | rollback => exact sound.rollback

theorem admitted_stands {committed : RowKey → Option Row} {labels : List Label} {gate : Gate}
    (run : Run (Step entities declarations) (started committed) labels state) (admitted : state.phases tx = .admitted gate) :
    Stands gate state.rows.committed := by
  have sound : Sound state := run.invariant Sound (sound_started committed) Sound.step
  obtain ⟨principal, granted⟩ := sound.now admitted
  exact stands_of_held principal granted

end Runs

end OpenShapeForge.Operations.WithdrawalsWait
