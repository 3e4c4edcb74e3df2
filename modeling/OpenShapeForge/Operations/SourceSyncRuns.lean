import OpenShapeForge.Library.Failing
import OpenShapeForge.Operations.SyncedRecords

/-! What every run of the synchronisation keeps: who has locked a source is alone with it, and what a
transaction sees of it is what its calls so far make of the committed rows. -/

namespace OpenShapeForge.Operations.SourceSync
open Js Library RowLocks

section Plans
variable {N : Type} [JsNumber N]

theorem nodup_of_repeatedId : ∀ {ids seen : List Text}, repeatedId seen ids = none → ids.Nodup ∧ ∀ id ∈ ids, id ∉ seen
  | [], seen, _ => ⟨List.nodup_nil, fun id member => absurd member List.not_mem_nil⟩
  | id :: rest, seen, single => by
    unfold repeatedId at single
    split at single
    next => cases single
    next unseen =>
      obtain ⟨restOnce, apart⟩ := nodup_of_repeatedId single
      refine ⟨List.nodup_cons.mpr ⟨fun member => apart id member List.mem_cons_self, restOnce⟩, fun other member => ?_⟩
      rcases List.mem_cons.mp member with rfl | inRest
      · exact unseen
      · exact fun isSeen => apart other inRest (List.mem_cons_of_mem _ isSeen)

/-- The records of an upsert have different ids. -/
def Call.Distinct : Call N → Prop
  | .upsert _ records => (records.map SyncRecord.externalId).Nodup
  | .remove _ _ => True

theorem upsertCall_distinct {catalog : Catalog} {input : Members N} {call : Call N} (ok : upsertCall catalog input = .ok call) :
    call.Distinct := by
  unfold upsertCall at ok
  obtain ⟨named, -, ok⟩ := Failing.attempt_bind_ok.mp ok
  split at ok
  next => cases ok
  split at ok
  next values isRecords =>
    split at ok
    next => cases ok
    obtain ⟨records, -, ok⟩ := Failing.attempt_bind_ok.mp ok
    split at ok
    next => cases ok
    next single =>
      cases ok
      exact (nodup_of_repeatedId single).1
  next => cases ok

theorem removeCall_distinct {catalog : Catalog} {input : Members N} {call : Call N} (ok : removeCall catalog input = .ok call) :
    call.Distinct := by
  unfold removeCall at ok
  obtain ⟨named, -, ok⟩ := Failing.attempt_bind_ok.mp ok
  obtain ⟨ids, -, ok⟩ := Failing.attempt_bind_ok.mp ok
  cases ok
  trivial

theorem chunkCall_distinct {catalog : Catalog} {batch : Batch N} {chunk : List (Value N)} {call : Call N}
    (ok : chunkCall catalog batch chunk = .ok call) : call.Distinct := by
  unfold chunkCall at ok
  split at ok
  next => exact upsertCall_distinct ok
  next => exact removeCall_distinct ok

theorem pagePlan_distinct {catalog : Catalog} {notAfter : Text → Text → Bool} {input : Members N} {plan : Plan N}
    (ok : pagePlan catalog notAfter input = .ok plan) : ∀ call ∈ plan.calls, call.Distinct := by
  unfold pagePlan at ok
  split at ok
  next values isBatches =>
    split at ok
    next => cases ok
    obtain ⟨⟨total, batches⟩, -, ok⟩ := Failing.attempt_bind_ok.mp ok
    dsimp only at ok
    split at ok
    next =>
      obtain ⟨calls, ofChunks, ok⟩ := Failing.attempt_bind_ok.mp ok
      cases ok
      intro call member
      obtain ⟨entry, -, isCall⟩ := Failing.mem_attempts ofChunks call member
      exact chunkCall_distinct isCall
    next => cases ok
  next => cases ok

theorem plan_distinct {catalog : Catalog} {notAfter : Text → Text → Bool} {request : Request N} {plan : Plan N}
    (ok : request.plan catalog notAfter = .ok plan) : ∀ call ∈ plan.calls, call.Distinct := by
  cases request with
  | applySourcePage input => exact pagePlan_distinct ok
  | upsertBySource input =>
    obtain ⟨call, isCall, rfl⟩ := Failing.attempt_map_ok.mp ok
    intro other member
    rw [List.mem_singleton.mp member]
    exact upsertCall_distinct isCall
  | removeBySource input =>
    obtain ⟨call, isCall, rfl⟩ := Failing.attempt_map_ok.mp ok
    intro other member
    rw [List.mem_singleton.mp member]
    exact removeCall_distinct isCall

end Plans

section Moves
variable {Tx N : Type} [DecidableEq Tx] {state next last : State Tx N} {tx : Tx}

/-- One transaction has taken a step that commits nothing. -/
structure Moves (state : State Tx N) (tx : Tx) (next : State Tx N) : Prop where
  committed : next.rows.committed = state.rows.committed
  sessions : ∀ other, other ≠ tx → next.rows.sessions other = state.rows.sessions other
  held : ∀ other, other ≠ tx → next.held other = state.held other
  asked : ∀ other, other ≠ tx → next.asked other = state.asked other
  phases : ∀ other, other ≠ tx → next.phases other = state.phases other

omit [DecidableEq Tx] in
theorem Moves.trans (one : Moves state tx next) (two : Moves next tx last) : Moves state tx last where
  committed := two.committed.trans one.committed
  sessions other different := (two.sessions other different).trans (one.sessions other different)
  held other different := (two.held other different).trans (one.held other different)
  asked other different := (two.asked other different).trans (one.asked other different)
  phases other different := (two.phases other different).trans (one.phases other different)

theorem moves_enter (phase : Phase N) : Moves state tx (state.enter tx phase) where
  committed := rfl
  sessions _ _ := rfl
  held _ _ := rfl
  asked _ _ := rfl
  phases _ different := Function.update_of_ne different _ _

theorem moves_ask (calls : List (Call N)) : Moves state tx (state.ask tx calls) where
  committed := rfl
  sessions _ _ := rfl
  held _ _ := rfl
  asked _ different := Function.update_of_ne different _ _
  phases _ _ := rfl

theorem moves_hold (lock : Int) : Moves state tx (state.hold tx lock) where
  committed := rfl
  sessions _ _ := rfl
  held _ different := Function.update_of_ne different _ _
  asked _ _ := rfl
  phases _ _ := rfl

theorem moves_put (key : Source × Text) (row : Option (Row N)) : Moves state tx (state.put tx key row) where
  committed := rfl
  sessions _ different := (Store.write_session different).trans (Store.lock_session different)
  held _ _ := rfl
  asked _ _ := rfl
  phases _ _ := rfl

theorem moves_fail : Moves state tx (state.finish tx (state.rows.rollback tx)) where
  committed := rfl
  sessions _ different := Store.rollback_session different
  held _ different := Function.update_of_ne different _ _
  asked _ different := Function.update_of_ne different _ _
  phases _ different := Function.update_of_ne different _ _

theorem put_view {key : Source × Text} {row : Option (Row N)} :
    (state.put tx key row).rows.view tx = Function.update (state.rows.view tx) key row := by
  funext at'
  change ((state.rows.lock tx key .update).write tx key row).view tx at' = _
  rw [Store.write_view, Store.lock_view, Function.update_apply]

theorem put_written {key at' : Source × Text} {row : Option (Row N)} (written : ((state.put tx key row).rows.sessions tx).written at' ≠ none) :
    at' = key ∨ (state.rows.sessions tx).written at' ≠ none := by
  change ((((state.rows.lock tx key .update).write tx key row).sessions tx).written at') ≠ none at written
  rw [Store.write_written, Store.lock_written] at written
  split at written
  next atKey => exact .inl atKey
  next => exact .inr written

end Moves

section Progress
variable {N : Type} [JsNumber N] (host : Host N) (allowed : Rows N → NamedSource → SyncRecord N → Prop)

/-- What a transaction sees is what some effects make, one after the other, of the committed
rows; and they concern sources that it has locked. -/
def Served (mine : Source → Prop) (start : Rows N) (effects : List (Effect N)) (view : Rows N) : Prop :=
  Run (guarded (fun before effect => mine effect.source ∧ effect.Allowed allowed before) (Takes host start)) start effects view

structure Removing (rows view : Rows N) (source : Source) (externalIds ids : List Text) : Prop where
  once : ids.Nodup
  listed : ∀ id ∈ ids, without rows source externalIds (source, id) = none
  removed : ∀ id, id ∉ ids → view (source, id) = without rows source externalIds (source, id)
  kept : ∀ key : Source × Text, key.1 ≠ source → view key = rows key

/-- How far a transaction is in what it was begun for. -/
def Progress (mine : Source → Prop) (start view : Rows N) (asked : List (Call N)) : Phase N → Prop
  | .idle => view = start
  | .pending _ calls => ∃ past, asked = past ++ calls ∧ Served host allowed mine start (past.flatMap Call.effects) view
  | .looking call calls => mine call.named.source ∧
      ∃ past, asked = past ++ call :: calls ∧ Served host allowed mine start (past.flatMap Call.effects) view
  | .writing named found records calls => mine named.source ∧
      (∀ entry ∈ records, Matches view named.source entry.1.externalId (found entry.1.externalId)) ∧
      (∀ entry ∈ records, ∃ lookup, resolveReferences host named.entity lookup entry.1 = .ok entry.2) ∧
      ∃ past written, asked = past ++ .upsert named (written ++ records.map Prod.fst) :: calls ∧
        Served host allowed mine start (past.flatMap Call.effects ++ written.map (.write named)) view
  | .deleting named externalIds ids calls => mine named.source ∧
      ∃ past rows, asked = past ++ .remove named externalIds :: calls ∧
        Served host allowed mine start (past.flatMap Call.effects) rows ∧ Removing rows view named.source externalIds ids

def Sourced : Prop := ∀ {before other : Rows N} {named : NamedSource} {record : SyncRecord N},
  (∀ id, other (named.source, id) = before (named.source, id)) → allowed before named record → allowed other named record

end Progress

section Locality
variable {N : Type} [JsNumber N] {host : Host N} {allowed : Rows N → NamedSource → SyncRecord N → Prop} {mine wider : Source → Prop}
  {start base view : Rows N} {effects : List (Effect N)} {asked : List (Call N)} {phase : Phase N}

theorem Served.mono (served : Served host allowed mine start effects view) (more : ∀ source, mine source → wider source) :
    Served host allowed wider start effects view :=
  Run.mono (fun step => ⟨⟨more _ step.1.1, step.1.2⟩, step.2⟩) served

theorem Served.overlay (sourced : Sourced allowed) (served : Served host allowed mine start effects view)
    (based : ∀ key : Source × Text, mine key.1 → base key = start key) :
    Served host allowed mine base effects (overlay mine base view) := by
  have begun : SourceSync.overlay mine base start = base := by
    funext key
    by_cases isMine : mine key.1
    · exact (overlay_mine isMine).trans (based key isMine).symm
    · exact overlay_other isMine
  have mapped : Run (guarded (fun before effect => mine effect.source ∧ effect.Allowed allowed before) (Takes host base))
      (SourceSync.overlay mine base start) effects (SourceSync.overlay mine base view) := by
    refine Run.map (SourceSync.overlay mine base) ?_ served
    rintro before effect after ⟨⟨isMine, isAllowed⟩, takes⟩
    refine ⟨⟨isMine, ?_⟩, takes.overlay isMine based⟩
    cases effect with
    | write named record => exact sourced (fun id => overlay_mine isMine) isAllowed
    | remove named externalIds => trivial
  rw [begun] at mapped
  exact mapped

omit [JsNumber N] in
theorem Removing.overlay {rows : Rows N} {source : Source} {externalIds ids : List Text} (removing : Removing rows view source externalIds ids)
    (isMine : mine source) : Removing (overlay mine base rows) (overlay mine base view) source externalIds ids where
  once := removing.once
  listed id member := by
    rw [← overlay_without isMine, overlay_mine isMine]
    exact removing.listed id member
  removed id unlisted := by
    rw [← overlay_without isMine, overlay_mine isMine, overlay_mine isMine]
    exact removing.removed id unlisted
  kept key apart := by
    unfold SourceSync.overlay
    rw [removing.kept key apart]

theorem Progress.overlay (sourced : Sourced allowed) (progress : Progress host allowed mine start view asked phase)
    (based : ∀ key : Source × Text, mine key.1 → base key = start key) :
    Progress host allowed mine base (overlay mine base view) asked phase := by
  cases phase with
  | idle =>
    have same : view = start := progress
    change SourceSync.overlay mine base view = base
    funext key
    by_cases isMine : mine key.1
    · rw [overlay_mine isMine, same]
      exact (based key isMine).symm
    · exact overlay_other isMine
  | pending locks calls =>
    obtain ⟨past, isAsked, served⟩ := progress
    exact ⟨past, isAsked, served.overlay sourced based⟩
  | looking call calls =>
    obtain ⟨isMine, past, isAsked, served⟩ := progress
    exact ⟨isMine, past, isAsked, served.overlay sourced based⟩
  | writing named found records calls =>
    obtain ⟨isMine, isFound, resolved, past, written, isAsked, served⟩ := progress
    have stillFound : ∀ entry ∈ records, Matches (SourceSync.overlay mine base view) named.source entry.1.externalId (found entry.1.externalId) :=
      fun entry member => matches_congr (fun id => overlay_mine isMine) (isFound entry member)
    exact ⟨isMine, stillFound, resolved, past, written, isAsked, served.overlay sourced based⟩
  | deleting named externalIds ids calls =>
    obtain ⟨isMine, past, rows, isAsked, served, removing⟩ := progress
    exact ⟨isMine, past, _, isAsked, served.overlay sourced based, removing.overlay isMine⟩

end Locality

section Calls
variable {N : Type} [JsNumber N] {host : Host N} {allowed : Rows N → NamedSource → SyncRecord N → Prop} {mine : Source → Prop}
  {start view after : Rows N} {asked : List (Call N)} {calls : List (Call N)} {named : NamedSource}

theorem Progress.write {found : Text → Option (Text × Option Text)} {record : SyncRecord N} {prepared : Members N}
    {records : List (SyncRecord N × Members N)}
    (progress : Progress host allowed mine start view asked (.writing named found ((record, prepared) :: records) calls))
    (isAllowed : allowed view named record) (takes : Takes host start view (.write named record) after)
    (stillFound : ∀ entry ∈ records, Matches after named.source entry.1.externalId (found entry.1.externalId)) :
    Progress host allowed mine start after asked (.writing named found records calls) := by
  obtain ⟨isMine, -, resolved, past, written, isAsked, served⟩ := progress
  refine ⟨isMine, stillFound, fun entry member => resolved entry (List.mem_cons_of_mem _ member), past, written ++ [record], ?_, ?_⟩
  · rw [List.append_assoc]
    exact isAsked
  · rw [List.map_append, ← List.append_assoc]
    exact Run.step served ⟨⟨isMine, isAllowed⟩, takes⟩

theorem Progress.prepares {found : Text → Option (Text × Option Text)} {record : SyncRecord N} {prepared values : Members N}
    {records : List (SyncRecord N × Members N)}
    (progress : Progress host allowed mine start view asked (.writing named found ((record, prepared) :: records) calls))
    (owned : sourceValues host named record.externalId prepared = .ok values) : Prepares host named record values := by
  obtain ⟨lookup, resolved⟩ := progress.2.2.1 _ List.mem_cons_self
  exact ⟨lookup, prepared, resolved, owned⟩

theorem Progress.apart {found : Text → Option (Text × Option Text)} {record : SyncRecord N} {prepared : Members N}
    {records : List (SyncRecord N × Members N)}
    (progress : Progress host allowed mine start view asked (.writing named found ((record, prepared) :: records) calls))
    (distinct : ∀ call ∈ asked, call.Distinct) : ∀ entry ∈ records, record.externalId ≠ entry.1.externalId := by
  obtain ⟨-, -, -, past, written, isAsked, -⟩ := progress
  have once : ((written ++ record :: records.map Prod.fst).map SyncRecord.externalId).Nodup :=
    distinct (.upsert named (written ++ record :: records.map Prod.fst)) (isAsked ▸ List.mem_append_right past List.mem_cons_self)
  intro entry member same
  rw [List.map_append, List.map_cons] at once
  have later := (List.nodup_cons.mp (List.nodup_append.mp once).2.1).1
  exact later (same ▸ List.mem_map_of_mem (List.mem_map_of_mem member))

theorem Progress.written {found : Text → Option (Text × Option Text)}
    (progress : Progress host allowed mine start view asked (.writing named found [] calls)) :
    Progress host allowed mine start view asked (.pending [] calls) := by
  obtain ⟨-, -, -, past, written, isAsked, served⟩ := progress
  refine ⟨past ++ [.upsert named written], ?_, ?_⟩
  · rw [List.append_assoc, isAsked, List.map_nil, List.append_nil]
    rfl
  · rw [List.flatMap_append]
    change Served host allowed mine start (past.flatMap Call.effects ++ (written.map (Effect.write named) ++ [])) view
    rw [List.append_nil]
    exact served

omit [JsNumber N] in
theorem Removing.delete {rows : Rows N} {source : Source} {externalIds ids : List Text} {id : Text}
    (removing : Removing rows view source externalIds (id :: ids)) :
    Removing rows (Function.update view (source, id) none) source externalIds ids where
  once := (List.nodup_cons.mp removing.once).2
  listed other member := removing.listed other (List.mem_cons_of_mem _ member)
  removed other unlisted := by
    by_cases same : other = id
    · rw [same, Function.update_self]
      exact (removing.listed id List.mem_cons_self).symm
    · rw [Function.update_of_ne (fun keys => same (Prod.mk.inj keys).2)]
      exact removing.removed other (fun member => (List.mem_cons.mp member).elim same unlisted)
  kept key apart := by
    rw [Function.update_of_ne (fun same => apart (congrArg Prod.fst same))]
    exact removing.kept key apart

omit [JsNumber N] in
theorem Removing.done {rows : Rows N} {source : Source} {externalIds : List Text} (removing : Removing rows view source externalIds []) :
    view = without rows source externalIds := by
  funext key
  by_cases same : key.1 = source
  · obtain ⟨source, id⟩ := key
    cases same
    exact removing.removed id List.not_mem_nil
  · rw [removing.kept key same]
    exact (if_neg same).symm

theorem Progress.deleted {externalIds : List Text}
    (progress : Progress host allowed mine start view asked (.deleting named externalIds [] calls)) :
    Progress host allowed mine start view asked (.pending [] calls) := by
  obtain ⟨isMine, past, rows, isAsked, served, removing⟩ := progress
  refine ⟨past ++ [.remove named externalIds], ?_, ?_⟩
  · rw [List.append_assoc]
    exact isAsked
  · rw [List.flatMap_append, removing.done]
    exact Run.step served ⟨⟨isMine, trivial⟩, .remove⟩

theorem Progress.find {externalIds ids : List Text}
    (progress : Progress host allowed mine start view asked (.looking (.remove named externalIds) calls)) (once : ids.Nodup)
    (found : ∀ id, id ∈ ids ↔ ∃ row, view (named.source, id) = some row ∧ row.externalId ∈ externalIds) :
    Progress host allowed mine start view asked (.deleting named externalIds ids calls) := by
  obtain ⟨isMine, past, isAsked, served⟩ := progress
  refine ⟨isMine, past, view, isAsked, served, once, fun id member => ?_, fun id unlisted => ?_, fun _ _ => rfl⟩
  · obtain ⟨row, isRow, removed⟩ := (found id).mp member
    unfold without
    rw [if_pos rfl, isRow, Option.filter_eq_none_iff]
    intro other isOther
    cases isOther
    simpa using removed
  · unfold without
    rw [if_pos rfl]
    cases isRow : view (named.source, id) with
    | none => rfl
    | some row =>
      have stays : row.externalId ∉ externalIds := fun removed => unlisted ((found id).mpr ⟨row, isRow, removed⟩)
      symm
      rw [Option.filter_some_pos]
      exact decide_eq_true stays

theorem Progress.look {records : List (SyncRecord N)} {found : Text → Option (Text × Option Text)} {lookup : Text → Text → Option Text}
    {prepared : List (Members N)}
    (progress : Progress host allowed mine start view asked (.looking (.upsert named records) calls))
    (isFound : ∀ record ∈ records, Matches view named.source record.externalId (found record.externalId))
    (resolved : records.mapM (resolveReferences host named.entity lookup) = .ok prepared) :
    Progress host allowed mine start view asked (.writing named found (records.zip prepared) calls) := by
  obtain ⟨isMine, past, isAsked, served⟩ := progress
  have each := Failing.forall₂_attempts resolved
  refine ⟨isMine, fun entry member => isFound _ (List.of_mem_zip member).1, fun entry member => ⟨lookup, List.forall₂_zip each member⟩, past, [], ?_, ?_⟩
  · rw [List.nil_append, List.map_fst_zip each.length_eq.le]
    exact isAsked
  · rw [List.map_nil, List.append_nil]
    exact served

end Calls

section Steps
variable {Tx N : Type} [DecidableEq Tx] [JsNumber N]

/-- What holds all along a run. -/
structure Sound (host : Host N) (allowed : Rows N → NamedSource → SyncRecord N → Prop) (state : State Tx N) : Prop where
  apart : ∀ one two, one ≠ two → ∀ lock, lock ∈ state.held one → lock ∉ state.held two
  written : ∀ tx key, (state.rows.sessions tx).written key ≠ none → lockOf host key.1 ∈ state.held tx
  distinct : ∀ tx, ∀ call ∈ state.asked tx, call.Distinct
  progress : ∀ tx, Progress host allowed (fun source => lockOf host source ∈ state.held tx) state.rows.committed (state.rows.view tx)
    (state.asked tx) (state.phases tx)

def Allows (allowed : Rows N → NamedSource → SyncRecord N → Prop) (state : State Tx N) : Action Tx N → Prop
  | .write tx => match state.phases tx with
    | .writing named _ ((record, _) :: _) _ => allowed (state.rows.view tx) named record
    | _ => True
  | _ => True

variable {host : Host N} {allowed : Rows N → NamedSource → SyncRecord N → Prop} {state next : State Tx N} {tx other : Tx}

omit [DecidableEq Tx] in
theorem Sound.moved (sound : Sound host allowed state) (moves : Moves state tx next)
    (alone : ∀ lock ∈ next.held tx, ∀ other, other ≠ tx → lock ∉ state.held other)
    (written : ∀ key, (next.rows.sessions tx).written key ≠ none → lockOf host key.1 ∈ next.held tx)
    (distinct : ∀ call ∈ next.asked tx, call.Distinct)
    (progress : Progress host allowed (fun source => lockOf host source ∈ next.held tx) state.rows.committed (next.rows.view tx)
      (next.asked tx) (next.phases tx)) : Sound host allowed next where
  apart one two different lock isHeld isHeldToo := by
    by_cases isOne : one = tx
    · rw [moves.held two (isOne ▸ different.symm)] at isHeldToo
      exact alone lock (isOne ▸ isHeld) two (isOne ▸ different.symm) isHeldToo
    · rw [moves.held one isOne] at isHeld
      by_cases isTwo : two = tx
      · exact alone lock (isTwo ▸ isHeldToo) one isOne isHeld
      · rw [moves.held two isTwo] at isHeldToo
        exact sound.apart one two different lock isHeld isHeldToo
  written other key isWritten := by
    by_cases same : other = tx
    · subst same
      exact written key isWritten
    · rw [moves.sessions other same] at isWritten
      rw [moves.held other same]
      exact sound.written other key isWritten
  distinct other := by
    by_cases same : other = tx
    · subst same
      exact distinct
    · rw [moves.asked other same]
      exact sound.distinct other
  progress other := by
    rw [moves.committed]
    by_cases same : other = tx
    · subst same
      exact progress
    · have view : next.rows.view other = state.rows.view other := by
        funext key
        unfold Store.view
        rw [moves.sessions other same, moves.committed]
      rw [moves.held other same, moves.asked other same, moves.phases other same, view]
      exact sound.progress other

theorem Sound.enter (sound : Sound host allowed state) (phase : Phase N)
    (progress : Progress host allowed (fun source => lockOf host source ∈ state.held tx) state.rows.committed (state.rows.view tx)
      (state.asked tx) phase) : Sound host allowed (state.enter tx phase) := by
  refine sound.moved (moves_enter phase) (fun lock isHeld other different => sound.apart tx other different.symm lock isHeld)
    (sound.written tx) (sound.distinct tx) ?_
  change Progress _ _ _ _ _ _ (Function.update state.phases tx phase tx)
  rw [Function.update_self]
  exact progress

theorem Sound.lock (sound : Sound host allowed state) {lock : Int} (free : state.Free tx lock) {phase : Phase N}
    (progress : Progress host allowed (fun source => lockOf host source ∈ insert lock (state.held tx)) state.rows.committed
      (state.rows.view tx) (state.asked tx) phase) : Sound host allowed ((state.hold tx lock).enter tx phase) := by
  have held : ((state.hold tx lock).enter tx phase).held tx = insert lock (state.held tx) := Function.update_self _ _ _
  have phases : ((state.hold tx lock).enter tx phase).phases tx = phase := Function.update_self _ _ _
  refine sound.moved ((moves_hold lock).trans (moves_enter phase)) ?_ ?_ (sound.distinct tx) ?_
  · intro other isHeld at' different
    rw [held] at isHeld
    rcases isHeld with rfl | before
    · exact free at' different
    · exact sound.apart tx at' different.symm other before
  · intro key isWritten
    rw [held]
    exact .inr (sound.written tx key isWritten)
  · rw [held, phases]
    exact progress

theorem Sound.put (sound : Sound host allowed state) {key : Source × Text} {row : Option (Row N)} (locked : lockOf host key.1 ∈ state.held tx)
    {phase : Phase N} (progress : Progress host allowed (fun source => lockOf host source ∈ state.held tx) state.rows.committed
      (Function.update (state.rows.view tx) key row) (state.asked tx) phase) :
    Sound host allowed ((state.put tx key row).enter tx phase) := by
  have phases : ((state.put tx key row).enter tx phase).phases tx = phase := Function.update_self _ _ _
  have view : ((state.put tx key row).enter tx phase).rows.view tx = Function.update (state.rows.view tx) key row := put_view
  refine sound.moved ((moves_put key row).trans (moves_enter phase)) (fun lock isHeld other different => sound.apart tx other different.symm lock isHeld)
    ?_ (sound.distinct tx) ?_
  · intro at' isWritten
    rcases put_written isWritten with rfl | before
    · exact locked
    · exact sound.written tx at' before
  · rw [phases, view]
    exact progress

omit [DecidableEq Tx] [JsNumber N] in
theorem allowed_of_allows {named : NamedSource} {found : Text → Option (Text × Option Text)} {record : SyncRecord N} {prepared : Members N}
    {records : List (SyncRecord N × Members N)} {calls : List (Call N)}
    (phase : state.phases tx = .writing named found ((record, prepared) :: records) calls) (allows : Allows allowed state (.write tx)) :
    allowed (state.rows.view tx) named record := by
  unfold Allows at allows
  dsimp only at allows
  rw [phase] at allows
  exact allows

section Ends
variable {rows : Store Tx (Source × Text) (Row N)}

omit [JsNumber N]

theorem finish_held : (state.finish tx rows).held tx = ∅ := Function.update_self _ _ _

theorem finish_held_other (different : other ≠ tx) : (state.finish tx rows).held other = state.held other := Function.update_of_ne different _ _

theorem finish_asked : (state.finish tx rows).asked tx = [] := Function.update_self _ _ _

theorem finish_asked_other (different : other ≠ tx) : (state.finish tx rows).asked other = state.asked other := Function.update_of_ne different _ _

theorem finish_phases : (state.finish tx rows).phases tx = .idle := Function.update_self _ _ _

theorem finish_phases_other (different : other ≠ tx) : (state.finish tx rows).phases other = state.phases other := Function.update_of_ne different _ _

end Ends

omit [DecidableEq Tx] in
theorem Sound.commit_elsewhere (sound : Sound host allowed state) (different : other ≠ tx) {key : Source × Text}
    (locked : lockOf host key.1 ∈ state.held other) : (state.rows.sessions tx).written key = none := by
  by_contra isWritten
  exact sound.apart other tx different _ locked (sound.written tx key isWritten)

theorem Sound.commit_view (sound : Sound host allowed state) (different : other ≠ tx) :
    (state.rows.commit tx).view other =
      overlay (fun source => lockOf host source ∈ state.held other) (state.rows.view tx) (state.rows.view other) := by
  funext key
  rw [Store.commit_view different]
  by_cases locked : lockOf host key.1 ∈ state.held other
  · have unwritten := sound.commit_elsewhere different locked
    rw [overlay_mine locked, Store.view_of_unwritten unwritten]
    rfl
  · rw [overlay_other locked]
    have unwritten : (state.rows.sessions other).written key = none := by
      by_contra isWritten
      exact locked (sound.written other key isWritten)
    rw [unwritten]
    rfl

theorem Sound.commit (sound : Sound host allowed state) (sourced : Sourced allowed) :
    Sound host allowed (state.finish tx (state.rows.commit tx)) where
  apart one two different lock isHeld isHeldToo := by
    by_cases isOne : one = tx
    · rw [isOne, finish_held] at isHeld
      exact isHeld
    by_cases isTwo : two = tx
    · rw [isTwo, finish_held] at isHeldToo
      exact isHeldToo
    rw [finish_held_other isOne] at isHeld
    rw [finish_held_other isTwo] at isHeldToo
    exact sound.apart one two different lock isHeld isHeldToo
  written other key isWritten := by
    change ((state.rows.commit tx).sessions other).written key ≠ none at isWritten
    by_cases same : other = tx
    · rw [same, Store.commit_own] at isWritten
      exact absurd rfl isWritten
    · rw [Store.commit_session same] at isWritten
      rw [finish_held_other same]
      exact sound.written other key isWritten
  distinct other := by
    by_cases same : other = tx
    · rw [same, finish_asked]
      exact fun call member => absurd member List.not_mem_nil
    · rw [finish_asked_other same]
      exact sound.distinct other
  progress other := by
    by_cases same : other = tx
    · rw [same, finish_phases]
      exact Store.view_idle Store.commit_own
    · rw [finish_held_other same, finish_asked_other same, finish_phases_other same]
      change Progress host allowed _ (state.rows.view tx) ((state.rows.commit tx).view other) _ _
      rw [sound.commit_view same]
      refine (sound.progress other).overlay sourced fun key locked => ?_
      exact Store.view_of_unwritten (sound.commit_elsewhere same locked)

theorem Sound.fail (sound : Sound host allowed state) : Sound host allowed (state.finish tx (state.rows.rollback tx)) := by
  refine sound.moved moves_fail ?_ ?_ ?_ ?_
  · rw [finish_held]
    exact fun lock isHeld => absurd isHeld (Set.notMem_empty lock)
  · intro key isWritten
    change ((state.rows.rollback tx).sessions tx).written key ≠ none at isWritten
    rw [Store.rollback_own] at isWritten
    exact absurd rfl isWritten
  · rw [finish_asked]
    exact fun call member => absurd member List.not_mem_nil
  · rw [finish_phases]
    exact Store.view_idle Store.rollback_own

theorem Sound.begin (sound : Sound host allowed state) (isIdle : state.phases tx = .idle) {plan : Plan N}
    (distinct : ∀ call ∈ plan.calls, call.Distinct) :
    Sound host allowed ((state.ask tx plan.calls).enter tx (.pending plan.locks plan.calls)) := by
  have phases : ((state.ask tx plan.calls).enter tx (.pending plan.locks plan.calls)).phases tx = .pending plan.locks plan.calls :=
    Function.update_self _ _ _
  have asked : ((state.ask tx plan.calls).enter tx (.pending plan.locks plan.calls)).asked tx = plan.calls := Function.update_self _ _ _
  have unchanged : state.rows.view tx = state.rows.committed := by
    have progress := sound.progress tx
    rw [isIdle] at progress
    exact progress
  refine sound.moved ((moves_ask _).trans (moves_enter _)) (fun lock isHeld other different => sound.apart tx other different.symm lock isHeld)
    (sound.written tx) ?_ ?_
  · rw [asked]
    exact distinct
  · rw [phases, asked]
    refine ⟨[], rfl, ?_⟩
    change Served _ _ _ _ _ (state.rows.view tx)
    rw [unchanged]
    exact Run.start

theorem Sound.step (sound : Sound host allowed state) (sourced : Sourced allowed) {action : Action Tx N}
    (allows : Allows allowed state action) (taken : Step host state action next) : Sound host allowed next := by
  cases taken with
  | begin isIdle planned => exact sound.begin isIdle (plan_distinct planned)
  | @lock tx source locks calls phase free =>
    have progress := sound.progress tx
    rw [phase] at progress
    obtain ⟨past, isAsked, served⟩ := progress
    exact sound.lock free ⟨past, isAsked, served.mono fun _ isHeld => .inr isHeld⟩
  | @start tx call calls phase free =>
    have progress := sound.progress tx
    rw [phase] at progress
    obtain ⟨past, isAsked, served⟩ := progress
    exact sound.lock free ⟨.inl rfl, past, isAsked, served.mono fun _ isHeld => .inr isHeld⟩
  | @look tx named records calls found lookup prepared phase isFound _ resolved =>
    have progress := sound.progress tx
    rw [phase] at progress
    exact sound.enter _ (progress.look isFound resolved)
  | @find tx named externalIds ids calls phase found =>
    have progress := sound.progress tx
    rw [phase] at progress
    exact sound.enter _ (progress.find found.1 found.2)
  | @create tx named found record prepared values records calls id row phase isNew owned created _ notCommitted notSeen =>
    have progress := sound.progress tx
    rw [phase] at progress
    have isMatch := progress.2.1 _ List.mem_cons_self
    rw [isNew] at isMatch
    have isAllowed := allowed_of_allows phase allows
    have takes : Takes host state.rows.committed _ _ _ := .create isMatch (progress.prepares owned) created notCommitted notSeen
    have locked : lockOf host ((named.source, id) : Source × Text).1 ∈ state.held tx := progress.1
    refine sound.put locked (progress.write isAllowed takes fun entry member => ?_)
    have apart := progress.apart (sound.distinct tx) entry member
    refine matches_update (progress.2.1 entry (List.mem_cons_of_mem _ member)) (createdRow_externalId created ▸ apart) fun old isOld => ?_
    cases notSeen.symm.trans isOld
  | @skip tx named found record prepared values records calls id version phase isStored owned newer =>
    have progress := sound.progress tx
    rw [phase] at progress
    have isMatch := progress.2.1 _ List.mem_cons_self
    rw [isStored] at isMatch
    have isAllowed := allowed_of_allows phase allows
    exact sound.enter _ (progress.write isAllowed (.skip isMatch newer) fun entry member => progress.2.1 entry (List.mem_cons_of_mem _ member))
  | @update tx named found record prepared values records calls id version before after phase isStored owned newer _ isBefore updated =>
    have progress := sound.progress tx
    rw [phase] at progress
    have isMatch := progress.2.1 _ List.mem_cons_self
    rw [isStored] at isMatch
    have isAllowed := allowed_of_allows phase allows
    have takes : Takes host state.rows.committed _ _ _ := .update isMatch newer isBefore (progress.prepares owned) updated
    have hasId : before.externalId = record.externalId := by
      obtain ⟨⟨row, isRow, rowId, -⟩, -⟩ := isMatch
      cases isRow.symm.trans isBefore
      exact rowId
    have locked : lockOf host ((named.source, id) : Source × Text).1 ∈ state.held tx := progress.1
    refine sound.put locked (progress.write isAllowed takes fun entry member => ?_)
    have apart : before.externalId ≠ entry.1.externalId := hasId ▸ progress.apart (sound.distinct tx) entry member
    refine matches_update (progress.2.1 entry (List.mem_cons_of_mem _ member)) (updatedRow_externalId updated ▸ apart) fun old isOld => ?_
    cases isBefore.symm.trans isOld
    exact apart
  | @missing tx named found record prepared values records calls id version phase isStored owned newer notSeen =>
    have progress := sound.progress tx
    rw [phase] at progress
    have isMatch := progress.2.1 _ List.mem_cons_self
    rw [isStored] at isMatch
    obtain ⟨⟨row, isRow, -⟩, -⟩ := isMatch
    cases isRow.symm.trans notSeen
  | @delete tx named externalIds ids calls id phase _ =>
    have progress := sound.progress tx
    rw [phase] at progress
    obtain ⟨isMine, past, rows, isAsked, served, removing⟩ := progress
    have locked : lockOf host ((named.source, id) : Source × Text).1 ∈ state.held tx := isMine
    exact sound.put locked ⟨isMine, past, rows, isAsked, served, removing.delete⟩
  | @written tx named found calls phase =>
    have progress := sound.progress tx
    rw [phase] at progress
    exact sound.enter _ progress.written
  | @deleted tx named externalIds calls phase =>
    have progress := sound.progress tx
    rw [phase] at progress
    exact sound.enter _ progress.deleted
  | commit _ => exact sound.commit sourced
  | fail _ => exact sound.fail

end Steps

end OpenShapeForge.Operations.SourceSync
