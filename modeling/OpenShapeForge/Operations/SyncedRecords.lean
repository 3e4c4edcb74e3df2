import OpenShapeForge.Js.TextOrder
import OpenShapeForge.Operations.SourceSync

/-! What the synchronisation of a source is for: the records of a source as one transaction after
another leaves them, each call in the order of its page, and what all of that keeps. -/

namespace OpenShapeForge.Operations.SourceSync
open Js Library

section Effects
variable {N : Type}

/-- One thing that a call does: a record is written, or the records of some ids are removed. -/
inductive Effect (N : Type) where
  | write (named : NamedSource) (record : SyncRecord N)
  | remove (named : NamedSource) (externalIds : List Text)

def Effect.source : Effect N → Source
  | .write named _ | .remove named _ => named.source

def Call.effects : Call N → List (Effect N)
  | .upsert named records => records.map (.write named)
  | .remove named externalIds => [.remove named externalIds]

def without (rows : Rows N) (source : Source) (externalIds : List Text) : Rows N := fun key =>
  if key.1 = source then (rows key).filter fun row => row.externalId ∉ externalIds else rows key

variable [JsNumber N]

def Prepares (host : Host N) (named : NamedSource) (record : SyncRecord N) (values : Members N) : Prop :=
  ∃ lookup prepared, resolveReferences host named.entity lookup record = .ok prepared ∧
    sourceValues host named record.externalId prepared = .ok values

/-- How an effect takes place in a transaction that began with the rows of `start`. -/
inductive Takes (host : Host N) (start : Rows N) (before : Rows N) : Effect N → Rows N → Prop
  | create {named : NamedSource} {record : SyncRecord N} {values : Members N} {id : Text} {row : Row N} :
      Matches before named.source record.externalId none → Prepares host named record values → createdRow host named record values = some row →
      start (named.source, id) = none → before (named.source, id) = none →
      Takes host start before (.write named record) (Function.update before (named.source, id) (some row))
  /-- What is stored is newer: the record changes nothing. -/
  | skip {named : NamedSource} {record : SyncRecord N} {id : Text} {version : Option Text} :
      Matches before named.source record.externalId (some (id, version)) → isNewer version record.sourceVersion = true →
      Takes host start before (.write named record) before
  | update {named : NamedSource} {record : SyncRecord N} {values : Members N} {id : Text} {version : Option Text} {row after : Row N} :
      Matches before named.source record.externalId (some (id, version)) → isNewer version record.sourceVersion = false →
      before (named.source, id) = some row → Prepares host named record values → updatedRow host named record values row = some after →
      Takes host start before (.write named record) (Function.update before (named.source, id) (some after))
  | remove {named : NamedSource} {externalIds : List Text} :
      Takes host start before (.remove named externalIds) (without before named.source externalIds)

end Effects

section Rows
variable {N : Type} {rows other : Rows N} {source : Source} {externalId id : Text} {found : Option (Text × Option Text)} {row : Row N}

theorem matches_congr (same : ∀ id, other (source, id) = rows (source, id)) (isMatch : Matches rows source externalId found) :
    Matches other source externalId found := by
  unfold Matches at isMatch ⊢
  cases found with
  | none =>
    intro id row isRow
    exact isMatch id row (same id ▸ isRow)
  | some entry =>
    obtain ⟨⟨row, isRow, hasId⟩, single⟩ := isMatch
    refine ⟨⟨row, (same entry.1).trans isRow, hasId⟩, fun at' found isFound => ?_⟩
    exact single at' found (same at' ▸ isFound)

/-- A row of another externalId is written in a place that was free, or held one of another externalId too. -/
theorem matches_update (isMatch : Matches rows source externalId found) (differs : row.externalId ≠ externalId)
    (differed : ∀ old, rows (source, id) = some old → old.externalId ≠ externalId) :
    Matches (Function.update rows (source, id) (some row)) source externalId found := by
  have elsewhere : ∀ at' found, Function.update rows (source, id) (some row) (source, at') = some found →
      found.externalId = externalId → rows (source, at') = some found := by
    intro at' found isFound hasId
    by_cases same : at' = id
    · rw [same, Function.update_self] at isFound
      exact absurd ((Option.some.inj isFound) ▸ hasId) differs
    · rwa [Function.update_of_ne (fun keys => same (Prod.mk.inj keys).2)] at isFound
  unfold Matches at isMatch ⊢
  cases found with
  | none =>
    intro at' found isFound hasId
    exact isMatch at' found (elsewhere at' found isFound hasId) hasId
  | some entry =>
    obtain ⟨⟨old, isOld, hasId, hasVersion⟩, single⟩ := isMatch
    have apart : entry.1 ≠ id := fun same => differed old (same ▸ isOld) hasId
    refine ⟨⟨old, ?_, hasId, hasVersion⟩, fun at' found isFound ofId => single at' found (elsewhere at' found isFound ofId) ofId⟩
    rw [Function.update_of_ne (fun keys => apart (Prod.mk.inj keys).2)]
    exact isOld

/-- No externalId of a source has two records. -/
def Unique (rows : Rows N) : Prop :=
  ∀ source one two first second, rows (source, one) = some first → rows (source, two) = some second →
    first.externalId = second.externalId → one = two

theorem Unique.update (unique : Unique rows)
    (single : ∀ at' other, rows (source, at') = some other → other.externalId = row.externalId → at' = id) :
    Unique (Function.update rows (source, id) (some row)) := by
  intro of one two first second isFirst isSecond sameId
  rw [Function.update_apply] at isFirst isSecond
  split at isFirst
  next atOne =>
    cases isFirst
    rcases Prod.mk.inj atOne with ⟨rfl, rfl⟩
    split at isSecond
    next atTwo => exact (Prod.mk.inj atTwo).2.symm
    next => exact (single two second isSecond sameId.symm).symm
  next =>
    split at isSecond
    next atTwo =>
      cases isSecond
      rcases Prod.mk.inj atTwo with ⟨rfl, rfl⟩
      exact single one first isFirst sameId
    next => exact unique of one two first second isFirst isSecond sameId

theorem without_some {externalIds : List Text} {key : Source × Text} (isRow : without rows source externalIds key = some row) :
    rows key = some row := by
  unfold without at isRow
  split at isRow
  next => exact (Option.filter_eq_some_iff.mp isRow).1
  next => exact isRow

theorem Unique.without (unique : Unique rows) {externalIds : List Text} : Unique (without rows source externalIds) :=
  fun of one two first second isFirst isSecond => unique of one two first second (without_some isFirst) (without_some isSecond)

end Rows

section Overlays
variable {N : Type} {mine : Source → Prop} {base rows : Rows N} {source : Source}

open Classical in
/-- The rows of some sources as one has them, and all others as they are at the base. -/
noncomputable def overlay (mine : Source → Prop) (base rows : Rows N) : Rows N := fun key => if mine key.1 then rows key else base key

theorem overlay_mine {key : Source × Text} (isMine : mine key.1) : overlay mine base rows key = rows key := if_pos isMine

theorem overlay_other {key : Source × Text} (isOther : ¬mine key.1) : overlay mine base rows key = base key := if_neg isOther

theorem overlay_update {id : Text} {row : Option (Row N)} (isMine : mine source) :
    overlay mine base (Function.update rows (source, id) row) = Function.update (overlay mine base rows) (source, id) row := by
  funext key
  by_cases same : key = (source, id)
  · subst same
    rw [overlay_mine isMine, Function.update_self, Function.update_self]
  · rw [Function.update_of_ne same]
    unfold overlay
    rw [Function.update_of_ne same]

theorem overlay_without {externalIds : List Text} (isMine : mine source) :
    overlay mine base (without rows source externalIds) = without (overlay mine base rows) source externalIds := by
  funext key
  unfold without
  by_cases same : key.1 = source
  · have keyMine : mine key.1 := same ▸ isMine
    rw [overlay_mine keyMine, if_pos same, if_pos same, overlay_mine keyMine]
  · rw [if_neg same]
    by_cases keyMine : mine key.1
    · rw [overlay_mine keyMine, if_neg same, overlay_mine keyMine]
    · rw [overlay_other keyMine, overlay_other keyMine]

end Overlays

section Steps
variable {N : Type} [JsNumber N] {host : Host N} {start before after : Rows N} {effect : Effect N}

theorem Takes.overlay {mine : Source → Prop} {base : Rows N} (takes : Takes host start before effect after) (isMine : mine effect.source)
    (based : ∀ key : Source × Text, mine key.1 → base key = start key) :
    Takes host base (overlay mine base before) effect (overlay mine base after) := by
  have own : ∀ {rows : Rows N} id, SourceSync.overlay mine base rows (effect.source, id) = rows (effect.source, id) :=
    fun id => overlay_mine isMine
  cases takes with
  | @create named record values id row isMatch prepares created notStart notBefore =>
    have ofSource : mine named.source := isMine
    rw [overlay_update ofSource]
    exact .create (matches_congr own isMatch) prepares created ((based _ isMine).trans notStart) ((own _).trans notBefore)
  | skip isMatch newer => exact .skip (matches_congr own isMatch) newer
  | @update named record values id version row after isMatch newer isRow prepares updated =>
    have ofSource : mine named.source := isMine
    rw [overlay_update ofSource]
    exact .update (matches_congr own isMatch) newer ((own _).trans isRow) prepares updated
  | @remove named externalIds =>
    have ofSource : mine named.source := isMine
    rw [overlay_without ofSource]
    exact .remove

theorem createdRow_externalId {named : NamedSource} {record : SyncRecord N} {values : Members N} {row : Row N}
    (created : createdRow host named record values = some row) : row.externalId = record.externalId := by
  obtain ⟨version, -, rfl⟩ := Option.map_eq_some_iff.mp created
  rfl

theorem updatedRow_externalId {named : NamedSource} {record : SyncRecord N} {values : Members N} {row after : Row N}
    (updated : updatedRow host named record values row = some after) : after.externalId = row.externalId := by
  obtain ⟨version, -, rfl⟩ := Option.map_eq_some_iff.mp updated
  rfl

theorem Takes.unique (takes : Takes host start before effect after) (unique : Unique before) : Unique after := by
  cases takes with
  | create isMatch prepares created =>
    refine unique.update fun at' other isOther hasId => ?_
    exact absurd (hasId.trans (createdRow_externalId created)) (isMatch at' other isOther)
  | skip => exact unique
  | update isMatch newer isRow prepares updated =>
    refine unique.update fun at' other isOther hasId => ?_
    exact unique _ at' _ other _ isOther isRow (hasId.trans (updatedRow_externalId updated))
  | remove => exact unique.without

theorem Takes.newer {named : NamedSource} {record : SyncRecord N} {id stored carried : Text} {row : Row N}
    (takes : Takes host start before (.write named record) after) (isRow : before (named.source, id) = some row)
    (hasId : row.externalId = record.externalId) (isStored : row.sourceVersion = some stored)
    (isCarried : record.sourceVersion = .text carried) (smaller : textLess carried stored = true) : after = before := by
  cases takes with
  | create isMatch => exact absurd hasId (isMatch id row isRow)
  | skip => rfl
  | update isMatch newer =>
    obtain ⟨⟨found, isFound, -, hasVersion⟩, single⟩ := isMatch
    have same := single id row isRow hasId
    subst same
    cases isRow.symm.trans isFound
    rw [← hasVersion, isStored, isCarried] at newer
    exact absurd (smaller.symm.trans newer) (by decide)

end Steps

section Versions
variable {N : Type}

/-- A row that stays one of its externalId, and whose version is neither cleared nor made smaller. -/
def Follows (before after : Row N) : Prop :=
  after.externalId = before.externalId ∧ ∀ stored, before.sourceVersion = some stored →
    ∃ version, after.sourceVersion = some version ∧ textLess version stored = false

theorem follows_refl (row : Row N) : Follows row row :=
  ⟨rfl, fun stored isStored => ⟨stored, isStored, by
    cases less : textLess stored stored with
    | false => rfl
    | true => exact less.symm.trans (textLess_asymm less)⟩⟩

theorem follows_trans {first second third : Row N} (early : Follows first second) (late : Follows second third) : Follows first third := by
  refine ⟨late.1.trans early.1, fun stored isStored => ?_⟩
  obtain ⟨between, isBetween, kept⟩ := early.2 stored isStored
  obtain ⟨version, isVersion, keptOn⟩ := late.2 between isBetween
  exact ⟨version, isVersion, textLess_false_trans kept keptOn⟩

variable [JsNumber N] {host : Host N}

/-- What a record carries as its version writes nothing that is smaller than the stored one: it is
absent, a text, or a value that the column holds as a text that is not smaller. -/
def Retains (host : Host N) (stored : Text) (carried : Value N) : Prop :=
  match carried with
  | .undefined | .text _ => True
  | other => ∀ written, storedVersion host other = some written → ∃ version, written = some version ∧ textLess version stored = false

theorem updatedRow_follows {named : NamedSource} {record : SyncRecord N} {values : Members N} {row after : Row N}
    (updated : updatedRow host named record values row = some after) (newer : isNewer row.sourceVersion record.sourceVersion = false) :
    Follows row after ↔ ∀ stored, row.sourceVersion = some stored → Retains host stored record.sourceVersion := by
  have sameId := updatedRow_externalId updated
  obtain ⟨version, isVersion, rfl⟩ := Option.map_eq_some_iff.mp updated
  constructor
  · rintro ⟨-, kept⟩ stored isStored
    obtain ⟨found, isFound, notLess⟩ := kept stored isStored
    unfold Retains
    split
    next => trivial
    next => trivial
    next notUndefined notText =>
      intro written isWritten
      split at isVersion
      next isUndefined => exact absurd isUndefined notUndefined
      next =>
        cases isVersion.symm.trans isWritten
        exact ⟨found, isFound, notLess⟩
  · intro retains
    refine ⟨rfl, fun stored isStored => ?_⟩
    have retained := retains stored isStored
    rw [isStored] at newer
    unfold Retains at retained
    split at retained
    next isUndefined =>
      rw [isUndefined] at isVersion
      cases isVersion
      exact (follows_refl row).2 stored isStored
    next carried isText =>
      rw [isText] at isVersion newer
      cases isVersion
      exact ⟨carried, rfl, newer⟩
    next notUndefined notText =>
      split at isVersion
      next isUndefined => exact absurd isUndefined notUndefined
      next => exact retained version isVersion

def Keeps (start rows : Rows N) : Prop := ∀ key before after, start key = some before → rows key = some after → Follows before after

omit [JsNumber N] in
theorem keeps_refl (rows : Rows N) : Keeps rows rows := by
  intro key before after isBefore isAfter
  cases isBefore.symm.trans isAfter
  exact follows_refl before

def Careful (host : Host N) (before : Rows N) (named : NamedSource) (record : SyncRecord N) : Prop :=
  ∀ id row stored, before (named.source, id) = some row → row.externalId = record.externalId → row.sourceVersion = some stored →
    Retains host stored record.sourceVersion

def Effect.Allowed (allowed : Rows N → NamedSource → SyncRecord N → Prop) (before : Rows N) : Effect N → Prop
  | .write named record => allowed before named record
  | .remove _ _ => True

variable {start before after : Rows N} {effect : Effect N} {effects : List (Effect N)}

theorem Takes.keeps (takes : Takes host start before effect after) (careful : effect.Allowed (Careful host) before)
    (keeps : Keeps start before) : Keeps start after := by
  intro key past row isPast isRow
  cases takes with
  | create isMatch prepares created notStart =>
    rw [Function.update_apply] at isRow
    split at isRow
    next atKey =>
      rw [atKey, notStart] at isPast
      cases isPast
    next => exact keeps key past row isPast isRow
  | skip => exact keeps key past row isPast isRow
  | @update named record values id version found after isMatch newer isFound prepares updated =>
    rw [Function.update_apply] at isRow
    split at isRow
    next atKey =>
      cases isRow
      subst atKey
      obtain ⟨⟨same, isSame, hasId, rfl⟩, -⟩ := isMatch
      cases isFound.symm.trans isSame
      have step : Follows found row := (updatedRow_follows updated newer).mpr fun stored => careful id found stored isFound hasId
      exact follows_trans (keeps _ past found isPast isFound) step
    next => exact keeps key past row isPast isRow
  | remove => exact keeps key past row isPast (without_some isRow)

end Versions

end OpenShapeForge.Operations.SourceSync
