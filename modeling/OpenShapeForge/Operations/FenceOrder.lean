import OpenShapeForge.Operations.WithdrawalsWait

/-! Integrations are locked before keys, and keys before records: where no effect locks more, nobody
who holds a row waits for one that comes before it, and so nobody waits in a cycle. -/

namespace OpenShapeForge.Operations.FenceOrder
open Js Library RowLocks
open RecordActions ActionFence WithdrawalsWait

section Levels

def integrationsHeld : Phase → List Strength
  | .integrationLive _ _ | .principalLive _ | .allowed _ | .admitted _ => [.share]
  | .disableLocked _ _ _ | .disableMarked _ _ _ | .disablingKeys _ _ _ | .inserting _ _ _ _ | .issued => [.update]
  | .sharing _ _ _ _ _ _ | .shared _ _ _ _ | .holding _ _ _ _ _ | .delegated => [.share]
  | _ => []

def keysHeld : Phase → List Strength
  | .principalLive _ | .allowed _ | .admitted _ => [.share]
  | .revoked | .disablingKeys _ _ _ => [.noKeyUpdate]
  | .issued => [.update]
  | _ => []

def recordsHeld : Phase → List Strength
  | .allowed gate | .admitted gate => [gate.strength]
  | .holding _ _ _ _ _ | .delegated => [.update]
  | .reconciling _ _ _ _ _ | .updated => [.noKeyUpdate, .update]
  | _ => []

def heldAt (phase : Phase) : RowKey → List Strength
  | .integration _ => integrationsHeld phase
  | .apiKey _ => keysHeld phase
  | .record _ _ => recordsHeld phase

/-- How far a transaction is from where it waits for nobody. -/
def rank : Phase → Nat
  | .disabling _ _ _ | .issuing _ _ _ _ => 5
  | .gating _ | .delegating _ _ _ _ | .sharing _ _ _ _ _ _ => 4
  | .integrationLive _ _ | .revoking _ _ _ | .inserting _ _ _ _ => 3
  | .disableLocked _ _ _ | .disableMarked _ _ _ | .disablingKeys _ _ _ => 2
  | .principalLive _ | .shared _ _ _ _ | .updating _ _ _ _ _ => 1
  | _ => 0

variable {phase : Phase} {strength wanted : Strength}

theorem rank_of_integration (held : strength ∈ integrationsHeld phase) : rank phase ≤ 4 ∧ (strength ≠ .share → rank phase ≤ 3) := by
  cases phase with
  | sharing =>
    refine ⟨by simp [rank], fun notShared => ?_⟩
    exact absurd (List.mem_singleton.mp held) notShared
  | integrationLive | principalLive | allowed | admitted | disableLocked | disableMarked | disablingKeys | inserting | issued | shared
    | holding | delegated => exact ⟨by simp [rank], fun _ => by simp [rank]⟩
  | _ => exact absurd held List.not_mem_nil

theorem rank_of_key (held : strength ∈ keysHeld phase) : rank phase ≤ 1 ∨ ∃ integration now pending, phase = .disablingKeys integration now pending := by
  cases phase with
  | disablingKeys integration now pending => exact .inr ⟨integration, now, pending, rfl⟩
  | principalLive | allowed | admitted | revoked | issued => exact .inl (by simp [rank])
  | _ => exact absurd held List.not_mem_nil

theorem rank_of_record (held : strength ∈ recordsHeld phase) : rank phase = 0 := by
  cases phase with
  | allowed | admitted | holding | delegated | reconciling | updated => rfl
  | _ => exact absurd held List.not_mem_nil

theorem heldAt_whole {key : RowKey} (held : strength ∈ heldAt phase key) : strength ≠ .keyShare := by
  rintro rfl
  have gates : ∀ gate : Gate, Strength.keyShare ∉ [gate.strength] := fun gate never =>
    strength_whole gate (List.mem_singleton.mp never).symm
  cases key with
  | integration id => cases phase <;> simp [heldAt, integrationsHeld] at held
  | apiKey id => cases phase <;> simp [heldAt, keysHeld] at held
  | record entity id =>
    cases phase with
    | allowed gate | admitted gate => exact gates gate held
    | _ => simp [heldAt, recordsHeld] at held

theorem recordPredicate_record {entity : RecordActionEntity} {name : Text} {key : RowKey} (row : recordPredicate entity name = some key) :
    ∃ entity id, key = .record entity id := by
  unfold recordPredicate at row
  split at row
  next => cases row
  next =>
    split at row
    next => exact ⟨_, _, (Option.some.inj row).symm⟩
    next =>
      split at row
      next => exact ⟨_, _, (Option.some.inj row).symm⟩
      next => cases row

end Levels

section Owners
variable {Tx : Type} {rows : Rows Tx} {committed : RowKey → Option Row} {tx : Tx} {key integration : RowId}

def OfIntegration (committed : RowKey → Option Row) (key integration : RowId) : Prop :=
  ∃ row, committed (.apiKey key) = some (.apiKey row) ∧ row.integration = integration

def LeavesOwners (rows : Rows Tx) (tx : Tx) : Prop :=
  ∀ key row, (rows.sessions tx).written (.apiKey key) = some row → ∀ before, rows.committed (.apiKey key) = some (.apiKey before) →
    ∃ after, row = some (.apiKey after) ∧ after.integration = before.integration

theorem ofIntegration_unique {other : RowId} (one : OfIntegration committed key integration) (two : OfIntegration committed key other) :
    integration = other := by
  obtain ⟨row, isRow, rfl⟩ := one
  obtain ⟨again, isAgain, rfl⟩ := two
  cases isRow.symm.trans isAgain
  rfl

theorem LeavesOwners.view (leaves : LeavesOwners rows tx) (owned : OfIntegration rows.committed key integration) :
    OfIntegration (rows.view tx) key integration := by
  obtain ⟨before, isBefore, rfl⟩ := owned
  cases written : (rows.sessions tx).written (.apiKey key) with
  | none => exact ⟨before, (Store.view_of_unwritten written).trans isBefore, rfl⟩
  | some row =>
    obtain ⟨after, rfl, same⟩ := leaves key row written before isBefore
    exact ⟨after, Store.view_of_written written, same⟩

variable [DecidableEq Tx]

theorem LeavesOwners.write (leaves : LeavesOwners rows tx) {at' : RowId} {after : ApiKey}
    (same : ∀ before, rows.view tx (.apiKey at') = some (.apiKey before) → after.integration = before.integration) :
    LeavesOwners (rows.write tx (.apiKey at') (some (.apiKey after))) tx := by
  intro key row written before isBefore
  rw [Store.write_written] at written
  split at written
  next atKey =>
    cases atKey
    cases written
    obtain ⟨seen, isSeen, owner⟩ := leaves.view ⟨before, isBefore, rfl⟩
    exact ⟨after, rfl, (same seen isSeen).trans owner⟩
  next => exact leaves key row written before isBefore

end Owners

section Runs
variable {Tx : Type} {entities : List RecordActionEntity} {declarations : Text → List DelegatedActions.Declaration} {state next : State Tx}
  {tx other : Tx} {label : Label} {phase : Phase}

/-- What is still to be locked is not locked yet, and it is all of what the transaction has locked it under. -/
def Awaits (rows : Rows Tx) (tx : Tx) : Phase → Prop
  | .disableLocked _ integration _ | .disableMarked _ integration _ => rows.Holds tx (.integration integration) .update
  | .disablingKeys integration _ pending => rows.Holds tx (.integration integration) .update ∧ pending.Nodup ∧
      (∀ key ∈ pending, OfIntegration rows.committed key integration ∧ ∀ held, ¬rows.Holds tx (.apiKey key) held) ∧
      ∀ key held, rows.Holds tx (.apiKey key) held → OfIntegration rows.committed key integration
  | .sharing _ _ _ _ pending _ => pending.Nodup ∧ ∀ integration ∈ pending, ∀ held, ¬rows.Holds tx (.integration integration) held
  | _ => True

structure Ordered (state : State Tx) : Prop where
  sound : Sound state
  held : ∀ tx key strength, state.rows.Holds tx key strength → strength ∈ heldAt (state.phases tx) key
  owners : ∀ tx, LeavesOwners state.rows tx
  awaits : ∀ tx, Awaits state.rows tx (state.phases tx)

theorem Ordered.now (ordered : Ordered state) (now : state.phases tx = phase) :
    (∀ key strength, state.rows.Holds tx key strength → strength ∈ heldAt phase key) ∧ Awaits state.rows tx phase := by
  subst now
  exact ⟨ordered.held tx, ordered.awaits tx⟩

theorem Ordered.free (ordered : Ordered state) {key : RowKey} (now : state.phases tx = phase) (unheld : heldAt phase key = []) (held : Strength) :
    ¬state.rows.Holds tx key held := by
  intro isHeld
  have member := (ordered.now now).1 key held isHeld
  rw [unheld] at member
  exact absurd member List.not_mem_nil

theorem Ordered.view_free (ordered : Ordered state) {key : RowKey} (now : state.phases tx = phase) (unheld : heldAt phase key = []) :
    state.rows.view tx key = state.rows.committed key := by
  refine Store.view_of_unwritten ?_
  by_contra written
  rcases ordered.sound.consistent.owned tx key written with held | held
  · exact ordered.free now unheld _ held
  · exact ordered.free now unheld _ held

theorem grows_of_nothing {past : Phase} (nothing : ∀ key, heldAt past key = []) (key : RowKey) : heldAt past key ⊆ heldAt phase key := by
  rw [nothing key]
  exact List.nil_subset _

theorem heldAt_idle (key : RowKey) : heldAt .idle key = [] := by
  cases key <;> rfl

theorem Awaits.frame {before after : Rows Tx} (awaits : Awaits before tx phase) (session : after.sessions tx = before.sessions tx)
    (owners : ∀ key integration, OfIntegration before.committed key integration → OfIntegration after.committed key integration) :
    Awaits after tx phase := by
  have holds : ∀ key strength, after.Holds tx key strength ↔ before.Holds tx key strength := by
    intro key strength
    unfold Store.Holds
    rw [session]
  cases phase with
  | disableLocked | disableMarked => exact (holds _ _).mpr awaits
  | disablingKeys integration now pending =>
    obtain ⟨held, once, found, locked⟩ := awaits
    refine ⟨(holds _ _).mpr held, once, ?_, ?_⟩
    · intro key member
      exact ⟨owners _ _ (found key member).1, fun strength isHeld => (found key member).2 strength ((holds _ _).mp isHeld)⟩
    · intro key strength isHeld
      exact owners _ _ (locked key strength ((holds _ _).mp isHeld))
  | sharing call tenant entity id pending active =>
    exact ⟨awaits.1, fun integration member strength isHeld => awaits.2 integration member strength ((holds _ _).mp isHeld)⟩
  | _ => trivial

theorem ordered_started (committed : RowKey → Option Row) : Ordered (started committed : State Tx) where
  sound := sound_started committed
  held _ _ strength held := absurd held (Set.notMem_empty strength)
  owners _ _ _ written := by cases written
  awaits _ := trivial

variable [DecidableEq Tx]

theorem Ordered.goes (ordered : Ordered state) {rows : Rows Tx} (sound : Sound (state.move tx rows phase))
    (sessions : ∀ other, other ≠ tx → rows.sessions other = state.rows.sessions other)
    (committed : ∀ other, other ≠ tx → ∀ key, (state.rows.sessions other).written key ≠ none → rows.committed key = state.rows.committed key)
    (keyOwners : ∀ key integration, OfIntegration state.rows.committed key integration → OfIntegration rows.committed key integration)
    (held : ∀ key strength, rows.Holds tx key strength → strength ∈ heldAt phase key) (owners : LeavesOwners rows tx)
    (awaits : Awaits rows tx phase) : Ordered (state.move tx rows phase) where
  sound := sound
  held other key strength isHeld := by
    unfold State.move at isHeld ⊢
    dsimp only at isHeld ⊢
    by_cases same : other = tx
    · subst same
      rw [Function.update_self]
      exact held key strength isHeld
    · rw [Function.update_of_ne same]
      unfold Store.Holds at isHeld
      rw [sessions other same] at isHeld
      exact ordered.held other key strength isHeld
  owners other := by
    by_cases same : other = tx
    · exact same ▸ owners
    · intro key row written before isBefore
      unfold State.move at written isBefore
      dsimp only at written isBefore
      rw [sessions other same] at written
      rw [committed other same _ (by rw [written]; exact Option.some_ne_none _)] at isBefore
      exact ordered.owners other key row written before isBefore
  awaits other := by
    unfold State.move
    dsimp only
    by_cases same : other = tx
    · subst same
      rw [Function.update_self]
      exact awaits
    · rw [Function.update_of_ne same]
      exact (ordered.awaits other).frame (sessions other same) keyOwners

theorem Ordered.move (ordered : Ordered state) {rows : Rows Tx} (sound : Sound (state.move tx rows phase))
    (sessions : ∀ other, other ≠ tx → rows.sessions other = state.rows.sessions other) (committed : rows.committed = state.rows.committed)
    (held : ∀ key strength, rows.Holds tx key strength → strength ∈ heldAt phase key) (owners : LeavesOwners rows tx)
    (awaits : Awaits rows tx phase) : Ordered (state.move tx rows phase) :=
  ordered.goes sound sessions (fun _ _ key _ => congrFun committed key) (fun key integration => by rw [committed]; exact id) held owners awaits

theorem LeavesOwners.lock {rows : Rows Tx} {key : RowKey} {strength : Strength} (leaves : LeavesOwners rows tx) :
    LeavesOwners (rows.lock tx key strength) tx := by
  intro at' row written
  rw [Store.lock_written] at written
  exact leaves at' row written

theorem LeavesOwners.beside {rows : Rows Tx} {key : RowKey} {row : Option Row} (leaves : LeavesOwners rows tx) (different : ∀ id, key ≠ .apiKey id) :
    LeavesOwners (rows.write tx key row) tx := by
  intro at' row written
  rw [Store.write_written, if_neg (different at').symm] at written
  exact leaves at' row written

theorem Awaits.write {rows : Rows Tx} {key : RowKey} {row : Option Row} (awaits : Awaits rows tx phase) : Awaits (rows.write tx key row) tx phase := by
  have holds : ∀ at' strength, (rows.write tx key row).Holds tx at' strength ↔ rows.Holds tx at' strength := fun _ _ => Store.write_holds
  cases phase with
  | disableLocked | disableMarked => exact (holds _ _).mpr awaits
  | disablingKeys integration now pending =>
    obtain ⟨held, once, found, locked⟩ := awaits
    refine ⟨(holds _ _).mpr held, once, ?_, fun key strength isHeld => locked key strength ((holds _ _).mp isHeld)⟩
    intro key member
    exact ⟨(found key member).1, fun strength isHeld => (found key member).2 strength ((holds _ _).mp isHeld)⟩
  | sharing call tenant entity id pending active =>
    exact ⟨awaits.1, fun integration member strength isHeld => awaits.2 integration member strength ((holds _ _).mp isHeld)⟩
  | _ => trivial

theorem Awaits.nextKey {rows : Rows Tx} {integration key : RowId} {now : Int} {pending : List RowId} {strength : Strength}
    (awaits : Awaits rows tx (.disablingKeys integration now (key :: pending))) :
    Awaits (rows.lock tx (.apiKey key) strength) tx (.disablingKeys integration now pending) := by
  obtain ⟨held, once, found, locked⟩ := awaits
  refine ⟨Store.lock_holds.mpr (.inl held), once.of_cons, ?_, ?_⟩
  · intro other member
    obtain ⟨owned, free⟩ := found other (List.mem_cons_of_mem key member)
    refine ⟨owned, fun strength isHeld => ?_⟩
    rcases Store.lock_holds.mp isHeld with before | ⟨-, same, -⟩
    · exact free strength before
    · cases same
      exact (List.nodup_cons.mp once).1 member
  · intro other strength isHeld
    rcases Store.lock_holds.mp isHeld with before | ⟨-, same, -⟩
    · exact locked other strength before
    · cases same
      exact (found key List.mem_cons_self).1

theorem Awaits.nextIntegration {rows : Rows Tx} {call : DelegatedActions.Delegation} {tenant integration : RowId} {entity id : Text}
    {pending active later : List RowId} {strength : Strength} (awaits : Awaits rows tx (.sharing call tenant entity id (integration :: pending) active)) :
    Awaits (rows.lock tx (.integration integration) strength) tx (.sharing call tenant entity id pending later) := by
  obtain ⟨once, free⟩ := awaits
  refine ⟨once.of_cons, fun other member strength isHeld => ?_⟩
  rcases Store.lock_holds.mp isHeld with before | ⟨-, same, -⟩
  · exact free other (List.mem_cons_of_mem integration member) strength before
  · cases same
    exact (List.nodup_cons.mp once).1 member

section Rules
variable {past : Phase}

theorem Ordered.enter (ordered : Ordered state) (sound : Sound (state.enter tx phase)) (now : state.phases tx = past)
    (grows : ∀ key, heldAt past key ⊆ heldAt phase key) (awaits : Awaits state.rows tx phase) : Ordered (state.enter tx phase) :=
  ordered.move sound (fun _ _ => rfl) rfl (fun key strength isHeld => grows key ((ordered.now now).1 key strength isHeld)) (ordered.owners tx) awaits

theorem Ordered.locks (ordered : Ordered state) {key : RowKey} {strength : Strength} (sound : Sound (state.locks tx key strength phase))
    (now : state.phases tx = past) (grows : ∀ key, heldAt past key ⊆ heldAt phase key) (new : strength ∈ heldAt phase key)
    (awaits : Awaits (state.rows.lock tx key strength) tx phase) : Ordered (state.locks tx key strength phase) := by
  refine ordered.move sound (fun _ different => Store.lock_session different) rfl ?_ (ordered.owners tx).lock awaits
  intro at' other isHeld
  rcases Store.lock_holds.mp isHeld with before | ⟨-, rfl, rfl⟩
  · exact grows at' ((ordered.now now).1 at' other before)
  · exact new

theorem Ordered.writes (ordered : Ordered state) {key : RowKey} {row : Option Row}
    (sound : Sound (state.move tx (state.rows.write tx key row) phase)) (now : state.phases tx = past)
    (grows : ∀ key, heldAt past key ⊆ heldAt phase key) (different : ∀ id, key ≠ .apiKey id)
    (awaits : Awaits state.rows tx phase) : Ordered (state.move tx (state.rows.write tx key row) phase) := by
  refine ordered.move sound (fun _ different => Store.write_session different) rfl ?_ ((ordered.owners tx).beside different) awaits.write
  exact fun at' strength isHeld => grows at' ((ordered.now now).1 at' strength (Store.write_holds.mp isHeld))

theorem Ordered.locksAndWrites (ordered : Ordered state) {key : RowId} {strength : Strength} {after : ApiKey}
    (sound : Sound (state.locksAndWrites tx (.apiKey key) strength (.apiKey after) phase)) (now : state.phases tx = past)
    (grows : ∀ key, heldAt past key ⊆ heldAt phase key) (new : strength ∈ heldAt phase (.apiKey key))
    (same : ∀ before, state.rows.view tx (.apiKey key) = some (.apiKey before) → after.integration = before.integration)
    (awaits : Awaits (state.rows.lock tx (.apiKey key) strength) tx phase) :
    Ordered (state.locksAndWrites tx (.apiKey key) strength (.apiKey after) phase) := by
  refine ordered.move sound (fun _ different => (Store.write_session different).trans (Store.lock_session different)) rfl ?_ ?_ awaits.write
  · intro at' other isHeld
    rcases Store.lock_holds.mp (Store.write_holds.mp isHeld) with before | ⟨-, rfl, rfl⟩
    · exact grows at' ((ordered.now now).1 at' other before)
    · exact new
  · refine (ordered.owners tx).lock.write fun before isSeen => same before ?_
    rw [Store.lock_view] at isSeen
    exact isSeen

theorem Ordered.ended (ordered : Ordered state) {rows : Rows Tx} (sound : Sound (state.move tx rows .idle)) (own : rows.sessions tx = .idle)
    (sessions : ∀ other, other ≠ tx → rows.sessions other = state.rows.sessions other)
    (committed : ∀ other, other ≠ tx → ∀ key, (state.rows.sessions other).written key ≠ none → rows.committed key = state.rows.committed key)
    (keyOwners : ∀ key integration, OfIntegration state.rows.committed key integration → OfIntegration rows.committed key integration) :
    Ordered (state.move tx rows .idle) := by
  refine ordered.goes sound sessions committed keyOwners ?_ ?_ trivial
  · intro key strength isHeld
    unfold Store.Holds at isHeld
    rw [own] at isHeld
    exact absurd isHeld (Set.notMem_empty strength)
  · intro key row written
    rw [own] at written
    cases written

theorem Ordered.rollback (ordered : Ordered state) : Ordered (state.move tx (state.rows.rollback tx) .idle) :=
  ordered.ended ordered.sound.rollback Store.rollback_own (fun _ different => Store.rollback_session different) (fun _ _ _ _ => rfl) fun _ _ => id

theorem Ordered.commit (ordered : Ordered state) : Ordered (state.move tx (state.rows.commit tx) .idle) := by
  refine ordered.ended ordered.sound.commit Store.commit_own (fun _ different => Store.commit_session different) ?_ ?_
  · intro other different key written
    exact ordered.sound.consistent.committed_owned different (ordered.sound.consistent.owned other key written)
  · exact fun key integration => (ordered.owners tx).view

end Rules

theorem Ordered.gate (ordered : Ordered state) (step : GateStep entities state tx next) : Ordered next := by
  have sound := ordered.sound.gate step
  cases step with
  | assertRecordAction idle declared => exact ordered.enter sound idle (grows_of_nothing heldAt_idle) trivial
  | otherPrincipal begun other =>
    refine ordered.enter sound begun (grows_of_nothing ?_) trivial
    exact fun key => by cases key <;> rfl
  | lockIntegration begun application known grants read live =>
    refine ordered.locks sound begun (grows_of_nothing ?_) (List.mem_singleton_self _) trivial
    exact fun key => by cases key <;> rfl
  | lockCredential begun grants read live =>
    refine ordered.locks sound begun ?_ (List.mem_singleton_self _) trivial
    exact fun key => by cases key <;> simp [heldAt, integrationsHeld, keysHeld, recordsHeld]
  | @lockAcl gate key tenant acl begun row grants read ofTenant allows =>
    obtain ⟨entity, id, rfl⟩ := recordPredicate_record row
    refine ordered.locks sound begun ?_ ?_ ?_
    · intro key
      split
      next => cases key <;> simp [heldAt, integrationsHeld, keysHeld, recordsHeld]
      next => cases key <;> simp [heldAt, integrationsHeld, keysHeld, recordsHeld]
    · split
      next => exact List.mem_singleton_self _
      next => exact List.mem_singleton_self _
    · split
      next => trivial
      next => trivial
  | project begun row read =>
    refine ordered.enter sound begun ?_ trivial
    exact fun key => by cases key <;> simp [heldAt, integrationsHeld, keysHeld, recordsHeld]

theorem Ordered.effect (ordered : Ordered state) (step : EffectStep state tx .step next) : Ordered next := by
  have sound := ordered.sound.effect step
  cases step with
  | @write gate key row admitted owns removes =>
    refine ordered.writes sound admitted (fun _ => List.Subset.refl _) ?_ trivial
    -- keys are only shared by a gate
    rintro id rfl
    rcases owns with held | held
    · exact absurd (List.mem_singleton.mp ((ordered.now admitted).1 _ _ held)) (by decide)
    · exact absurd (List.mem_singleton.mp ((ordered.now admitted).1 _ _ held)) (by decide)

theorem Ordered.key (ordered : Ordered state) (step : KeyStep state tx next) : Ordered next := by
  have sound := ordered.sound.key step
  cases step with
  | revokeKey idle | disableIntegration idle | issueKey idle => exact ordered.enter sound idle (grows_of_nothing heldAt_idle) trivial
  | revoke begun grants read ofTenant joined =>
    refine ordered.locksAndWrites sound begun (grows_of_nothing ?_) (List.mem_singleton_self _) ?_ trivial
    · exact fun key => by cases key <;> rfl
    · intro before isSeen
      cases read.symm.trans isSeen
      rfl
  | lockToDisable begun grants read ofTenant =>
    refine ordered.locks sound begun (grows_of_nothing ?_) (List.mem_singleton_self _) (Store.lock_holds.mpr (.inr ⟨rfl, rfl, rfl⟩))
    exact fun key => by cases key <;> rfl
  | @disable tenant integration now row locked read =>
    have awaits : Awaits state.rows tx (.disableLocked tenant integration now) := (ordered.now locked).2
    refine ordered.writes sound locked ?_ (fun id never => by cases never) awaits
    exact fun key => by cases key <;> exact List.Subset.refl _
  | @findKeys tenant integration now pending marked once found =>
    have holds : Awaits state.rows tx (.disableMarked tenant integration now) := (ordered.now marked).2
    refine ordered.enter sound marked ?_ ⟨holds, once, ?_, ?_⟩
    · exact fun key => by cases key <;> simp [heldAt, integrationsHeld, keysHeld, recordsHeld]
    · intro key member
      obtain ⟨row, isSeen, ofIntegration, -, -⟩ := (found key).mp member
      rw [ordered.view_free marked rfl] at isSeen
      exact ⟨⟨row, isSeen, ofIntegration⟩, ordered.free marked rfl⟩
    · exact fun key held isHeld => absurd isHeld (ordered.free marked rfl held)
  | @revokeNext integration key now pending row begun grants read unrevoked =>
    have awaits : Awaits state.rows tx (.disablingKeys integration now (key :: pending)) := (ordered.now begun).2
    refine ordered.locksAndWrites sound begun ?_ (List.mem_singleton_self _) ?_ awaits.nextKey
    · exact fun key => by cases key <;> exact List.Subset.refl _
    · intro before isSeen
      cases read.symm.trans isSeen
      rfl
  | @skipNext integration key now pending row begun grants read revoked =>
    have awaits : Awaits state.rows tx (.disablingKeys integration now (key :: pending)) := (ordered.now begun).2
    refine ordered.locks sound begun ?_ (List.mem_singleton_self _) awaits.nextKey
    exact fun key => by cases key <;> exact List.Subset.refl _
  | lockToIssue begun grants read ofTenant active =>
    refine ordered.locks sound begun (grows_of_nothing ?_) (List.mem_singleton_self _) trivial
    exact fun key => by cases key <;> rfl
  | insert begun grants new =>
    refine ordered.locksAndWrites sound begun ?_ (List.mem_singleton_self _) ?_ trivial
    · exact fun key => by cases key <;> simp [heldAt, integrationsHeld, keysHeld, recordsHeld]
    · intro before isSeen
      cases new.symm.trans isSeen

theorem Ordered.acl (ordered : Ordered state) (step : AclStep declarations state tx next) : Ordered next := by
  have sound := ordered.sound.acl step
  cases step with
  | delegate idle ok => exact ordered.enter sound idle (grows_of_nothing heldAt_idle) trivial
  | findIntegrations begun once found =>
    refine ordered.enter sound begun (grows_of_nothing ?_) ⟨once, fun integration _ => ordered.free begun rfl⟩
    exact fun key => by cases key <;> rfl
  | @shareNext call tenant entity id integration pending active row begun grants read =>
    have awaits : Awaits state.rows tx (.sharing call tenant entity id (integration :: pending) active) := (ordered.now begun).2
    refine ordered.locks sound begun ?_ (List.mem_singleton_self _) awaits.nextIntegration
    exact fun key => by cases key <;> exact List.Subset.refl _
  | assertActiveIntegrations begun known =>
    refine ordered.enter sound begun ?_ trivial
    exact fun key => by cases key <;> exact List.Subset.refl _
  | lockAcl begun grants read =>
    refine ordered.locks sound begun ?_ (List.mem_singleton_self _) trivial
    exact fun key => by cases key <;> simp [heldAt, integrationsHeld, keysHeld, recordsHeld]
  | rewrite held valid made =>
    refine ordered.writes sound held ?_ (fun id never => by cases never) trivial
    exact fun key => by cases key <;> exact List.Subset.refl _
  | keep held valid made =>
    refine ordered.enter sound held ?_ trivial
    exact fun key => by cases key <;> exact List.Subset.refl _
  | update idle valid => exact ordered.enter sound idle (grows_of_nothing heldAt_idle) trivial
  | @lockRecord tenant entity id submitted stored forUpdate begun grants read =>
    refine ordered.locks sound begun (grows_of_nothing ?_) ?_ trivial
    · exact fun key => by cases key <;> rfl
    · cases forUpdate <;> simp [heldAt, recordsHeld]
  | store held made =>
    refine ordered.writes sound held ?_ (fun id never => by cases never) trivial
    exact fun key => by cases key <;> exact List.Subset.refl _

theorem Ordered.step (ordered : Ordered state) (step : Step entities declarations state .step next) : Ordered next := by
  cases step with
  | gate step => exact ordered.gate step
  | effect step => exact ordered.effect step
  | key step => exact ordered.key step
  | acl step => exact ordered.acl step
  | commit => exact ordered.commit
  | rollback => exact ordered.rollback

end Runs

section Waiting
variable {Tx : Type} {state : State Tx} {tx other : Tx} {phase : Phase} {wanted : Strength}

theorem request_record {entity id : Text} (request : phase.request = some (.record entity id, wanted)) : rank phase = 1 := by
  cases phase with
  | principalLive | shared | updating => rfl
  | gating gate =>
    unfold Phase.request at request
    dsimp only at request
    split at request
    next =>
      obtain ⟨credentials, -, never⟩ := Option.map_eq_some_iff.mp request
      cases never
    next => cases request
  | disablingKeys integration now pending => cases pending <;> cases request
  | sharing call tenant entity id pending active => cases pending <;> cases request
  | _ => cases request

theorem request_key {key : RowId} (request : phase.request = some (.apiKey key, wanted)) :
    rank phase = 3 ∨ ∃ integration now pending, phase = .disablingKeys integration now (key :: pending) := by
  cases phase with
  | integrationLive | revoking | inserting => exact .inl rfl
  | gating gate =>
    unfold Phase.request at request
    dsimp only at request
    split at request
    next =>
      obtain ⟨credentials, -, never⟩ := Option.map_eq_some_iff.mp request
      cases never
    next => cases request
  | principalLive gate =>
    obtain ⟨row, isRow, same⟩ := Option.map_eq_some_iff.mp request
    obtain ⟨entity, id, rfl⟩ := recordPredicate_record isRow
    cases same
  | disablingKeys integration now pending =>
    cases pending with
    | nil => cases request
    | cons head rest =>
      cases request
      exact .inr ⟨integration, now, rest, rfl⟩
  | sharing call tenant entity id pending active => cases pending <;> cases request
  | _ => cases request

theorem request_integration {integration : RowId} (request : phase.request = some (.integration integration, wanted)) :
    rank phase = 5 ∨ rank phase = 4 ∧ wanted = .share := by
  cases phase with
  | disabling | issuing => exact .inl rfl
  | gating gate =>
    unfold Phase.request at request
    dsimp only at request
    split at request
    next =>
      obtain ⟨credentials, -, same⟩ := Option.map_eq_some_iff.mp request
      cases same
      exact .inr ⟨rfl, rfl⟩
    next => cases request
  | principalLive gate =>
    obtain ⟨row, isRow, same⟩ := Option.map_eq_some_iff.mp request
    obtain ⟨entity, id, rfl⟩ := recordPredicate_record isRow
    cases same
  | disablingKeys integration now pending => cases pending <;> cases request
  | sharing call tenant entity id pending active =>
    cases pending with
    | nil => cases request
    | cons head rest =>
      cases request
      exact .inr ⟨rfl, rfl⟩
  | _ => cases request

theorem Ordered.orderly (ordered : Ordered state) : Store.Orderly state.rows state.requests where
  fresh tx key wanted held request := by
    unfold State.requests at request
    generalize now : state.phases tx = phase at request
    cases phase with
    | principalLive gate =>
      obtain ⟨row, isRow, same⟩ := Option.map_eq_some_iff.mp request
      obtain ⟨entity, id, rfl⟩ := recordPredicate_record isRow
      cases same
      exact ordered.free now rfl held
    | gating gate =>
      refine ordered.free now ?_ held
      cases key <;> rfl
    | disablingKeys integration instant pending =>
      cases pending with
      | nil => cases request
      | cons head rest =>
        cases request
        have awaits : Awaits state.rows tx (.disablingKeys integration instant (head :: rest)) := (ordered.now now).2
        exact (awaits.2.2.1 head List.mem_cons_self).2 held
    | sharing call tenant entity id pending active =>
      cases pending with
      | nil => cases request
      | cons head rest =>
        cases request
        have awaits : Awaits state.rows tx (.sharing call tenant entity id (head :: rest) active) := (ordered.now now).2
        exact awaits.2 head List.mem_cons_self held
    | integrationLive | revoking | disabling | issuing | inserting | shared | updating =>
      cases request
      exact ordered.free now rfl held
    | _ => cases request
  whole tx key held := heldAt_whole (ordered.held tx key .keyShare held) rfl

theorem Ordered.disables_apart (ordered : Ordered state) {one two key : RowId} {now later : Int} {pending rest : List RowId} {held : Strength}
    (different : other ≠ tx) (waiting : state.phases tx = .disablingKeys one now (key :: pending))
    (holder : state.phases other = .disablingKeys two later rest) : ¬state.rows.Holds other (.apiKey key) held := by
  intro isHeld
  have mine : Awaits state.rows tx (.disablingKeys one now (key :: pending)) := (ordered.now waiting).2
  have theirs : Awaits state.rows other (.disablingKeys two later rest) := (ordered.now holder).2
  have owned := (mine.2.2.1 key List.mem_cons_self).1
  cases ofIntegration_unique owned (theirs.2.2.2 key held isHeld)
  have apart := ordered.sound.consistent.apart other tx different _ _ _ theirs.1 mine.1
  cases apart

theorem Ordered.falls (ordered : Ordered state) (blocked : state.rows.Blocked state.requests tx other) :
    rank (state.phases other) < rank (state.phases tx) := by
  obtain ⟨different, key, wanted, held, request, holds, conflict⟩ := blocked
  have member := ordered.held other key held holds
  cases key with
  | record entity id =>
    have waits : rank (state.phases tx) = 1 := request_record request
    have holder : rank (state.phases other) = 0 := rank_of_record member
    omega
  | integration integration =>
    obtain ⟨below, exclusive⟩ := rank_of_integration member
    rcases request_integration request with waits | ⟨waits, rfl⟩
    · omega
    · have notShared : held ≠ .share := by
        rintro rfl
        cases conflict
      have holder := exclusive notShared
      omega
  | apiKey key =>
    rcases rank_of_key member with below | ⟨two, later, rest, holder⟩
    · rcases request_key request with waits | ⟨one, now, pending, waiting⟩
      · omega
      · have waits : rank (state.phases tx) = 2 := by rw [waiting]; rfl
        omega
    · rcases request_key request with waits | ⟨one, now, pending, waiting⟩
      · have isTwo : rank (state.phases other) = 2 := by rw [holder]; rfl
        omega
      · exact absurd holds (ordered.disables_apart different waiting holder)

end Waiting

section Claims
variable {Tx : Type} [DecidableEq Tx] {state : State Tx}

theorem ordered_of_run {entities : List RecordActionEntity} {declarations : Text → List DelegatedActions.Declaration}
    {committed : RowKey → Option Row} {labels : List Label} (run : Run (Step entities declarations) (started committed) labels state)
    (limited : .furtherLock ∉ labels) : Ordered state := by
  induction run with
  | start => exact ordered_started committed
  | @step past state label next before taken ih =>
    cases label with
    | step => exact (ih fun member => limited (List.mem_append_left _ member)).step taken
    | furtherLock => exact absurd (List.mem_append_right past (List.mem_singleton_self _)) limited

/-- What a transaction was admitted on stands to its end, whatever else is locked; and where nothing else is, no
transactions wait in a cycle, in whatever order they came to the rows they wait for. -/
theorem withdrawals_wait (entities : List RecordActionEntity) (declarations : Text → List DelegatedActions.Declaration)
    (committed : RowKey → Option Row) (labels : List Label) (state : State Tx)
    (run : Run (Step entities declarations) (started committed) labels state) :
    (∀ tx gate, state.phases tx = .admitted gate → Stands gate state.rows.committed) ∧
      (.furtherLock ∉ labels → ∀ arrival tx, ¬Relation.TransGen (state.rows.Waits state.requests arrival) tx tx) := by
  refine ⟨fun tx gate admitted => admitted_stands run admitted, fun limited arrival tx => ?_⟩
  have ordered : Ordered state := ordered_of_run run limited
  exact Store.no_cycle ordered.sound.consistent ordered.orderly (fun tx => rank (state.phases tx)) (fun _ _ => ordered.falls) arrival tx

end Claims

/-! A key that is being revoked while it acts. -/

section Contest

def tenantOne : RowId := ⟨js "11111111-1111-4111-8111-111111111111", by decide +kernel⟩

def shipper : RowId := ⟨js "22222222-2222-4222-8222-222222222222", by decide +kernel⟩

def shipperKey : RowId := ⟨js "33333333-3333-4333-8333-333333333333", by decide +kernel⟩

def parcels : RecordActionEntity := ⟨js "Parcel", false, [js "start"], .empty, .empty⟩

def shipperMayStart : Json :=
  .object [(js "actions", .object [(js "start", .object [(js "integrations", .array [.text shipper.1])])])]

def shipping : ActionSession := ⟨⟨.application, none, [], [], some shipper⟩, some tenantOne, some shipperKey⟩

def shipperCredentials : Credentials := ⟨shipper, shipperKey, tenantOne⟩

def startParcel : Gate := ⟨shipping, parcels, js "p1", js "start", false⟩

def stored : RowKey → Option Row
  | .integration id => if id = shipper then some (.integration ⟨tenantOne, .active⟩) else none
  | .apiKey id => if id = shipperKey then some (.apiKey ⟨tenantOne, shipper, none, none⟩) else none
  | .record _ _ => some (.record tenantOne shipperMayStart)

theorem integration_stored : stored (.integration shipper) = some (.integration ⟨tenantOne, .active⟩) := by
  simp [stored]

theorem key_stored : stored (.apiKey shipperKey) = some (.apiKey ⟨tenantOne, shipper, none, none⟩) := by
  simp [stored]

def gatingState : State Bool := (started stored).enter true (.gating startParcel)

def integrationState : State Bool := gatingState.locks true (.integration shipper) .share (.integrationLive startParcel shipperCredentials)

def principalState : State Bool := integrationState.locks true (.apiKey shipperKey) .share (.principalLive startParcel)

def admittedState : State Bool := principalState.locks true (.record (js "Parcel") (js "p1")) .noKeyUpdate (.admitted startParcel)

def contested : State Bool := admittedState.enter false (.revoking tenantOne shipperKey 0)

theorem contested_run : Run (Step [parcels] fun _ => []) (started stored) [.step, .step, .step, .step, .step] contested := by
  have isDeclared : startParcel.declared [parcels] := ⟨List.mem_singleton_self _, List.mem_singleton_self _, fun never => by cases never⟩
  have alone : ∀ state : State Bool, (∀ key, (state.rows.sessions false).locks key = ∅) → ∀ key strength, state.rows.Grants true key strength := by
    intro state unlocked key strength
    refine Store.grants_of_unlocked fun other different => ?_
    cases other with
    | false => exact unlocked key
    | true => exact absurd rfl different
  have allows : recordActionAllows startParcel.session.toDbSession shipperMayStart (js "start") = true := by decide +kernel
  have begins : Step [parcels] (fun _ => []) (started stored) .step gatingState := .gate (.assertRecordAction rfl isDeclared)
  have isIntegration : gatingState.rows.view true (.integration shipper) = some (.integration ⟨tenantOne, .active⟩) :=
    (Store.view_of_unwritten rfl).trans integration_stored
  have isKey : integrationState.rows.view true (.apiKey shipperKey) = some (.apiKey ⟨tenantOne, shipper, none, none⟩) :=
    (Store.view_of_unwritten rfl).trans key_stored
  have ofIntegration : GateStep [parcels] gatingState true integrationState :=
    @GateStep.lockIntegration Bool _ _ _ _ startParcel shipperCredentials _ rfl rfl rfl (alone _ (fun _ => rfl) _ _) isIntegration (by decide +kernel)
  have ofKey : GateStep [parcels] integrationState true principalState :=
    @GateStep.lockCredential Bool _ _ _ _ startParcel shipperCredentials _ 0 rfl (alone _ (fun _ => rfl) _ _) isKey (by decide +kernel)
  have ofRecord : GateStep [parcels] principalState true admittedState :=
    @GateStep.lockAcl Bool _ _ _ _ startParcel (.record (js "Parcel") (js "p1")) tenantOne _ rfl (by decide +kernel) (alone _ (fun _ => rfl) _ _) rfl rfl allows
  have revokes : Step [parcels] (fun _ => []) admittedState .step contested := .key (.revokeKey rfl)
  exact .cons begins (.cons (.gate ofIntegration) (.cons (.gate ofKey) (.cons (.gate ofRecord) (.cons revokes .start))))

theorem withdrawals_wait_contested : Stands startParcel contested.rows.committed ∧
    ¬Relation.TransGen (contested.rows.Waits contested.requests fun _ => 0) false false :=
  ⟨(withdrawals_wait _ _ _ _ _ contested_run).1 true startParcel rfl, (withdrawals_wait _ _ _ _ _ contested_run).2 (by decide) _ _⟩

end Contest

end OpenShapeForge.Operations.FenceOrder
