import OpenShapeForge.Extensions.RecomputeJournal
import Mathlib.Data.Finset.Card
import Mathlib.Data.List.Dedup

/-! The recompute journal forgets nothing: what holds of it in every run of writers and
batches, and how many batches it takes to its end. -/

namespace OpenShapeForge.Extensions.JournalComplete
open Library RecomputeJournal

section Records
variable {Id R : Type} [LinearOrder Id] {records : Records Id R} {id other : Id} {row : RecordRow R} {written : List (Id × RecordRow R)}

theorem mem_put : other ∈ (records.put id row).ids ↔ other = id ∨ other ∈ records.ids := by
  change other ∈ (if id ∈ records.ids then records.ids else records.ids.orderedInsert (· ≤ ·) id) ↔ _
  by_cases present : id ∈ records.ids
  · rw [if_pos present]
    constructor
    · exact Or.inr
    · rintro (same | member)
      · exact same ▸ present
      · exact member
  · rw [if_neg present, List.mem_orderedInsert]

theorem put_row_self : (records.put id row).row id = row := by
  simp [Records.put]

theorem put_row_of_ne (different : other ≠ id) : (records.put id row).row other = records.row other := by
  simp [Records.put, different]

theorem apply_cons (entry : Id × RecordRow R) : records.apply (entry :: written) = (records.apply written).put entry.1 entry.2 := rfl

theorem apply_ids : records.ids ⊆ (records.apply written).ids := by
  induction written with
  | nil => exact List.Subset.refl _
  | cons entry rest ih =>
    intro id member
    rw [apply_cons]
    exact mem_put.mpr (.inr (ih member))

theorem apply_of_not_mem (unwritten : ∀ entry ∈ written, entry.1 ≠ id) :
    (records.apply written).row id = records.row id ∧ (id ∈ (records.apply written).ids ↔ id ∈ records.ids) := by
  induction written with
  | nil => exact ⟨rfl, Iff.rfl⟩
  | cons entry rest ih =>
    have different : id ≠ entry.1 := fun same => unwritten entry List.mem_cons_self same.symm
    have before := ih fun other member => unwritten other (List.mem_cons_of_mem _ member)
    rw [apply_cons, put_row_of_ne different, mem_put]
    exact ⟨before.1, (or_iff_right different).trans before.2⟩

theorem apply_of_mem (isWritten : ∃ entry ∈ written, entry.1 = id) :
    ∃ entry ∈ written, entry.1 = id ∧ (records.apply written).row id = entry.2 := by
  induction written with
  | nil =>
    obtain ⟨entry, member, -⟩ := isWritten
    cases member
  | cons latest rest ih =>
    rw [apply_cons]
    by_cases same : latest.1 = id
    · exact ⟨latest, List.mem_cons_self, same, by rw [same, put_row_self]⟩
    · obtain ⟨entry, member, isId⟩ := isWritten
      have inRest : entry ∈ rest := (List.mem_cons.mp member).resolve_left fun isLatest => same (isLatest ▸ isId)
      obtain ⟨found, foundIn, foundId, isRow⟩ := ih ⟨entry, inRest, isId⟩
      exact ⟨found, List.mem_cons_of_mem _ foundIn, foundId, by rw [put_row_of_ne (Ne.symm same), isRow]⟩

end Records

section Invariant
variable {Id V R : Type} [LinearOrder Id] {computed : V → R} {run : Nat} {shared before after : Shared Id V R}

/-- A record that refers to the target holds the value computed from it. -/
def Current (computed : V → R) (shared : Shared Id V R) (id : Id) : Prop :=
  id ∈ shared.records.ids → (shared.records.row id).refers = true → (shared.records.row id).value = computed shared.target

structure Later (row later : JournalRow Id) : Prop where
  id : later.id = row.id
  pass : later.passGeneration = row.passGeneration
  cursor : later.cursor = row.cursor
  generation : row.generation ≤ later.generation

structure Consistent (computed : V → R) (shared : Shared Id V R) : Prop where
  alone : ∀ run, shared.owner = some run → ∀ other ∈ shared.sharers, other = run
  known : ∀ row, shared.journal = some row → row.id < shared.nextRow
  pass : ∀ row pass, shared.journal = some row → row.passGeneration = some pass → pass ≤ row.generation
  /-- Without a row nothing is stale. -/
  still : shared.journal = none → ∀ id, Current computed shared id
  passed : ∀ row cursor, shared.journal = some row → row.passGeneration = some row.generation → row.cursor = some cursor →
    ∀ id ≤ cursor, Current computed shared id

structure WritingKept (computed : V → R) (run : Nat) (shared : Shared Id V R) (own : Writing Id V R) : Prop where
  owns : own.target.isSome = true → shared.owner = some run
  journaled : own.target.isSome = true → own.due = false → own.row.isSome = true
  row : ∀ row, own.row = some row → own.target.isSome = true ∧ shared.journalLock = some run ∧ row.id < shared.nextRow
  newer : ∀ row old, own.row = some row → shared.journal = some old → Later old row ∧ old.generation < row.generation
  inserted : ∀ row, own.row = some row → shared.journal = none → row.passGeneration = none
  locked : ∀ entry ∈ own.records, shared.recordLocks entry.1 = some run
  points : own.target = none → ∀ entry ∈ own.records, entry.2.refers = true →
    run ∈ shared.sharers ∧ entry.2.value = computed shared.target

structure RowKept (run : Nat) (shared : Shared Id V R) (row : JournalRow Id) : Prop where
  turn : shared.turns row.id = some run
  pass : row.pass ≤ row.generation
  current : ∃ current, shared.journal = some current ∧ Later row current

/-- It comes after all a full page holds. -/
def Beyond (batch : Batch Id R) (id : Id) : Prop :=
  batch.size ≤ batch.sources.length ∧ ∀ last, batch.sources.getLast? = some last → last < id

structure BatchKept (computed : V → R) (run : Nat) (shared : Shared Id V R) (batch : Batch Id R) : Prop where
  row : RowKept run shared batch.row
  positive : 0 < batch.size
  sources : ∀ id ∈ batch.sources, id ∈ shared.records.ids ∧ afterCursor batch.row.start id = true
  locked : ∀ entry ∈ batch.done, shared.recordLocks entry.1 = some run ∧ (shared.records.row entry.1).refers = entry.2.refers
  /-- While nothing was journaled since the pass began, what is recomputed is current, and
  what is stale is yet to be recomputed. -/
  done : ∀ current, shared.journal = some current → current.generation = batch.row.pass →
    ∀ entry ∈ batch.done, entry.2.refers = true → entry.2.value = computed shared.target
  rest : ∀ current, shared.journal = some current → current.generation = batch.row.pass →
    ∀ id, Current computed shared id ∨ (∃ entry ∈ batch.done, entry.1 = id) ∨ id ∈ batch.todo ∨ Beyond batch id

def PhaseKept (computed : V → R) (run : Nat) (shared : Shared Id V R) : Phase Id V R → Prop
  | .idle => True
  | .writing own => WritingKept computed run shared own
  | .opened rowId size => shared.turns rowId = some run ∧ 0 < size
  | .found row size => RowKept run shared row ∧ 0 < size
  | .walking batch => BatchKept computed run shared batch
  | .holding batch id refers => BatchKept computed run shared batch ∧ batch.todo.head? = some id ∧
      shared.recordLocks id = some run ∧ (shared.records.row id).refers = refers
  | .settled batch decision => BatchKept computed run shared batch ∧ batch.todo = [] ∧ shared.journalLock = some run ∧
      ∃ current, shared.journal = some current ∧ batch.decision current.generation = some decision
  | .leaving done => done = []

structure Beside (computed : V → R) (run : Nat) (before after : Shared Id V R) : Prop where
  owner : before.owner = some run → after.owner = some run
  sharers : run ∈ before.sharers → run ∈ after.sharers
  recordLocks : ∀ id, before.recordLocks id = some run → after.recordLocks id = some run ∧ after.records.row id = before.records.row id
  journalLock : before.journalLock = some run → after.journalLock = some run ∧ after.journal = before.journal
  turns : ∀ row, before.turns row = some run → after.turns row = some run
  nextRow : before.nextRow ≤ after.nextRow
  target : before.owner = some run ∨ run ∈ before.sharers → after.target = before.target
  ids : before.records.ids ⊆ after.records.ids
  goesOn : ∀ row, before.journal = some row → before.turns row.id = some run → ∃ next, after.journal = some next ∧ Later row next ∧
    (next.generation = row.generation → after.target = before.target ∧ ∀ id, Current computed before id → Current computed after id)

omit [LinearOrder Id] in
theorem Later.trans {first second third : JournalRow Id} (one : Later first second) (two : Later second third) : Later first third where
  id := two.id.trans one.id
  pass := two.pass.trans one.pass
  cursor := two.cursor.trans one.cursor
  generation := one.generation.trans two.generation

omit [LinearOrder Id] in
theorem Later.refl (row : JournalRow Id) : Later row row := ⟨rfl, rfl, rfl, le_refl _⟩

theorem RowKept.beside {row : JournalRow Id} (kept : RowKept run before row) (beside : Beside computed run before after) :
    RowKept run after row := by
  obtain ⟨current, isCurrent, later⟩ := kept.current
  have turn : before.turns current.id = some run := later.id ▸ kept.turn
  obtain ⟨next, isNext, after, -⟩ := beside.goesOn current isCurrent turn
  exact ⟨beside.turns _ kept.turn, kept.pass, next, isNext, later.trans after⟩

theorem RowKept.quiet {row next : JournalRow Id} (kept : RowKept run before row) (beside : Beside computed run before after)
    (isNext : after.journal = some next) (isPass : next.generation = row.pass) :
    ∃ current, before.journal = some current ∧ current.generation = row.pass ∧ after.target = before.target ∧
      ∀ id, Current computed before id → Current computed after id := by
  obtain ⟨current, isCurrent, later⟩ := kept.current
  have turn : before.turns current.id = some run := later.id ▸ kept.turn
  obtain ⟨found, isFound, after, stays⟩ := beside.goesOn current isCurrent turn
  have same : found = next := Option.some.inj (isFound.symm.trans isNext)
  have lower := later.generation
  have upper := after.generation
  have bound := kept.pass
  have unmoved : found.generation = current.generation := by
    rw [same] at upper ⊢
    omega
  have isSame : current.generation = row.pass := by rw [← unmoved, same, isPass]
  exact ⟨current, isCurrent, isSame, stays unmoved⟩

theorem BatchKept.beside {batch : Batch Id R} (kept : BatchKept computed run before batch) (beside : Beside computed run before after) :
    BatchKept computed run after batch where
  row := kept.row.beside beside
  positive := kept.positive
  sources := fun id member => ⟨beside.ids (kept.sources id member).1, (kept.sources id member).2⟩
  locked := by
    intro entry member
    have locked := kept.locked entry member
    have held := beside.recordLocks entry.1 locked.1
    exact ⟨held.1, held.2 ▸ locked.2⟩
  done := by
    intro next isNext isPass entry member refers
    obtain ⟨current, isCurrent, isSame, target, -⟩ := kept.row.quiet beside isNext isPass
    rw [target]
    exact kept.done current isCurrent isSame entry member refers
  rest := by
    intro next isNext isPass id
    obtain ⟨current, isCurrent, isSame, -, stays⟩ := kept.row.quiet beside isNext isPass
    exact (kept.rest current isCurrent isSame id).imp_left (stays id)

theorem WritingKept.beside {own : Writing Id V R} (kept : WritingKept computed run before own) (beside : Beside computed run before after) :
    WritingKept computed run after own where
  owns := fun changed => beside.owner (kept.owns changed)
  journaled := kept.journaled
  row := by
    intro row isRow
    obtain ⟨changed, locked, known⟩ := kept.row row isRow
    exact ⟨changed, (beside.journalLock locked).1, known.trans_le beside.nextRow⟩
  newer := by
    intro row old isRow isOld
    rw [(beside.journalLock (kept.row row isRow).2.1).2] at isOld
    exact kept.newer row old isRow isOld
  inserted := by
    intro row isRow isNone
    rw [(beside.journalLock (kept.row row isRow).2.1).2] at isNone
    exact kept.inserted row isRow isNone
  locked := fun entry member => (beside.recordLocks entry.1 (kept.locked entry member)).1
  points := by
    intro unchanged entry member refers
    obtain ⟨shares, isValue⟩ := kept.points unchanged entry member refers
    rw [beside.target (.inr shares)]
    exact ⟨beside.sharers shares, isValue⟩

theorem PhaseKept.beside {phase : Phase Id V R} (kept : PhaseKept computed run before phase) (beside : Beside computed run before after) :
    PhaseKept computed run after phase := by
  cases phase with
  | idle => exact kept
  | writing own => exact WritingKept.beside kept beside
  | opened rowId size => exact ⟨beside.turns rowId kept.1, kept.2⟩
  | found row size => exact ⟨kept.1.beside beside, kept.2⟩
  | walking batch => exact BatchKept.beside kept beside
  | holding batch id refers =>
    obtain ⟨ofBatch, first, held, isRefers⟩ := kept
    have stays := beside.recordLocks id held
    exact ⟨ofBatch.beside beside, first, stays.1, stays.2 ▸ isRefers⟩
  | settled batch decision =>
    obtain ⟨ofBatch, nothing, held, decided⟩ := kept
    have stays := beside.journalLock held
    exact ⟨ofBatch.beside beside, nothing, stays.1, stays.2 ▸ decided⟩
  | leaving done => exact kept

theorem current_of_apply {written : List (Id × RecordRow R)} {id : Id} (target : after.target = before.target)
    (records : after.records = before.records.apply written)
    (values : ∀ entry ∈ written, entry.2.refers = true → entry.2.value = computed before.target)
    (current : Current computed before id ∨ ∃ entry ∈ written, entry.1 = id) : Current computed after id := by
  unfold Current
  rw [target, records]
  by_cases isWritten : ∃ entry ∈ written, entry.1 = id
  · obtain ⟨entry, member, -, isRow⟩ := @apply_of_mem Id R _ before.records id written isWritten
    rw [isRow]
    exact fun _ => values entry member
  · have unwritten : ∀ entry ∈ written, entry.1 ≠ id := fun entry member isId => isWritten ⟨entry, member, isId⟩
    have stays : (before.records.apply written).row id = before.records.row id ∧ _ := apply_of_not_mem unwritten
    rw [stays.1, stays.2]
    exact current.resolve_right isWritten

end Invariant

section Others
variable {Id V R : Type} [LinearOrder Id] {computed : V → R} {run party : Nat} {shared after : Shared Id V R}

theorem goesOn_same (journal : after.journal = shared.journal) (target : after.target = shared.target)
    (records : after.records = shared.records) : ∀ row, shared.journal = some row → shared.turns row.id = some run →
    ∃ next, after.journal = some next ∧ Later row next ∧ (next.generation = row.generation →
      after.target = shared.target ∧ ∀ id, Current computed shared id → Current computed after id) := by
  intro row isRow _
  refine ⟨row, journal.trans isRow, Later.refl row, fun _ => ⟨target, fun id current => ?_⟩⟩
  unfold Current
  rw [target, records]
  exact current

theorem beside_of_locks (target : after.target = shared.target) (records : after.records = shared.records)
    (journal : after.journal = shared.journal) (nextRow : shared.nextRow ≤ after.nextRow)
    (owner : shared.owner = some run → after.owner = some run) (sharers : run ∈ shared.sharers → run ∈ after.sharers)
    (recordLocks : ∀ id, shared.recordLocks id = some run → after.recordLocks id = some run)
    (journalLock : shared.journalLock = some run → after.journalLock = some run)
    (turns : ∀ row, shared.turns row = some run → after.turns row = some run) : Beside computed run shared after where
  owner := owner
  sharers := sharers
  recordLocks := fun id held => ⟨recordLocks id held, by rw [records]⟩
  journalLock := fun held => ⟨journalLock held, journal⟩
  turns := turns
  nextRow := nextRow
  target := fun _ => target
  ids := records ▸ List.Subset.refl _
  goesOn := goesOn_same journal target records

theorem Beside.refl : Beside computed run shared shared :=
  beside_of_locks rfl rfl rfl (le_refl _) id id (fun _ => id) id (fun _ => id)

theorem update_held {Key : Type} [DecidableEq Key] {locks : Key → Option Nat} {key : Key} (different : run ≠ party)
    (isFree : ∀ other, locks key = some other → other = party) :
    ∀ other, locks other = some run → Function.update locks key (some party) other = some run := by
  intro other held
  have apart : other ≠ key := fun same => different (isFree run (same ▸ held))
  rw [Function.update_of_ne apart, held]

theorem filter_held {holder : Option Nat} (different : run ≠ party) (held : holder = some run) :
    holder.filter (· ≠ party) = some run := by
  rw [held, Option.filter_some, if_pos (decide_eq_true different)]

theorem beside_of_release {ended : Shared Id V R} (different : run ≠ party)
    (owner : ended.owner = shared.owner) (sharers : ended.sharers = shared.sharers) (recordLocks : ended.recordLocks = shared.recordLocks)
    (journalLock : ended.journalLock = shared.journalLock) (turns : ended.turns = shared.turns) (nextRow : ended.nextRow = shared.nextRow)
    (rows : ∀ id, shared.recordLocks id = some run → ended.records.row id = shared.records.row id)
    (journal : shared.journalLock = some run → ended.journal = shared.journal)
    (target : shared.owner = some run ∨ run ∈ shared.sharers → ended.target = shared.target)
    (ids : shared.records.ids ⊆ ended.records.ids)
    (goesOn : ∀ row, shared.journal = some row → shared.turns row.id = some run → ∃ next, ended.journal = some next ∧ Later row next ∧
      (next.generation = row.generation → ended.target = shared.target ∧ ∀ id, Current computed shared id → Current computed ended id)) :
    Beside computed run shared (ended.release party) where
  owner := fun held => filter_held different (owner.trans held)
  sharers := fun shares => List.mem_filter.mpr ⟨sharers ▸ shares, decide_eq_true different⟩
  recordLocks := fun id held => ⟨filter_held different ((congrFun recordLocks id).trans held), rows id held⟩
  journalLock := fun held => ⟨filter_held different (journalLock.trans held), journal held⟩
  turns := fun row held => filter_held different ((congrFun turns row).trans held)
  nextRow := nextRow.ge
  target := target
  ids := ids
  goesOn := goesOn

theorem beside_of_commitWriting {own : Writing Id V R} (different : run ≠ party) (common : Consistent computed shared)
    (kept : WritingKept computed party shared own) (settled : own.due = false) :
    Beside computed run shared (commitWriting party shared own) := by
  refine beside_of_release different rfl rfl rfl rfl rfl rfl ?_ ?_ ?_ apply_ids ?_
  · intro id held
    refine (apply_of_not_mem fun entry member isId => different ?_).1
    have locked := kept.locked entry member
    rw [isId, held] at locked
    exact Option.some.inj locked
  · intro held
    cases isRow : own.row with
    | none => rfl
    | some row => exact absurd (Option.some.inj (held.symm.trans (kept.row row isRow).2.1)) different
  · intro holds
    cases changed : own.target with
    | none => rfl
    | some value =>
      have owns := kept.owns (by rw [changed]; rfl)
      rcases holds with held | shares
      · exact absurd (Option.some.inj (held.symm.trans owns)) different
      · exact absurd (common.alone party owns run shares) different
  · intro old isOld _
    cases isRow : own.row with
    | some row =>
      have newer := kept.newer row old isRow isOld
      exact ⟨row, rfl, newer.1, fun same => absurd same newer.2.ne'⟩
    | none =>
      have unchanged : own.target = none := by
        by_contra changed
        have journaled := kept.journaled (Option.isSome_iff_ne_none.mpr changed) settled
        rw [isRow] at journaled
        cases journaled
      have target : own.target.getD shared.target = shared.target := by rw [unchanged]; rfl
      refine ⟨old, isOld, Later.refl old, fun _ => ⟨target, fun id current => ?_⟩⟩
      exact current_of_apply target rfl (fun entry member refers => (kept.points unchanged entry member refers).2) (.inl current)

theorem beside_of_commitBatch {batch : Batch Id R} {decision : Decision Id} (different : run ≠ party)
    (kept : BatchKept computed party shared batch) (locked : shared.journalLock = some party) :
    Beside computed run shared (commitBatch party shared batch decision) := by
  refine beside_of_release different rfl rfl rfl rfl rfl rfl ?_ ?_ (fun _ => rfl) apply_ids ?_
  · intro id held
    refine (apply_of_not_mem fun entry member isId => different ?_).1
    have locked := (kept.locked entry member).1
    rw [isId, held] at locked
    exact Option.some.inj locked
  · intro held
    exact absurd (Option.some.inj (held.symm.trans locked)) different
  · intro row isRow turn
    obtain ⟨current, isCurrent, later⟩ := kept.row.current
    have same : row = current := Option.some.inj (isRow.symm.trans isCurrent)
    rw [same, later.id] at turn
    exact absurd (Option.some.inj (turn.symm.trans kept.row.turn)) different

theorem beside_of_statement {phase next : Phase Id V R} {event : Event Id V R} (different : run ≠ party)
    (common : Consistent computed shared) (kept : PhaseKept computed party shared phase)
    (statement : Statement computed party shared phase event after next) : Beside computed run shared after := by
  cases statement with
  | start | read | miss | list | compute | lost => exact Beside.refl
  | lockTarget => exact beside_of_locks rfl rfl rfl (le_refl _) id (List.mem_cons_of_mem _) (fun _ => id) id (fun _ => id)
  | changeTarget isFree =>
    have owner : shared.owner = some run → some party = some run := fun held => absurd (isFree run held) different
    exact beside_of_locks rfl rfl rfl (le_refl _) owner id (fun _ => id) id (fun _ => id)
  | journal isFree =>
    have journalLock : shared.journalLock = some run → some party = some run := fun held => absurd (isFree run held) different
    exact beside_of_locks rfl rfl rfl (Nat.le_succ _) id id (fun _ => id) journalLock (fun _ => id)
  | point isFree => exact beside_of_locks rfl rfl rfl (le_refl _) id id (update_held different isFree) id (fun _ => id)
  | pointAway isFree => exact beside_of_locks rfl rfl rfl (le_refl _) id id (update_held different isFree) id (fun _ => id)
  | commitWriting settled => exact beside_of_commitWriting different common kept settled
  | «open» isFree => exact beside_of_locks rfl rfl rfl (le_refl _) id id (fun _ => id) id (update_held different isFree)
  | lock _ isFree => exact beside_of_locks rfl rfl rfl (le_refl _) id id (update_held different isFree) id (fun _ => id)
  | settle _ isFree =>
    have journalLock : shared.journalLock = some run → some party = some run := fun held => absurd (isFree run held) different
    exact beside_of_locks rfl rfl rfl (le_refl _) id id (fun _ => id) journalLock (fun _ => id)
  | commitBatch => exact beside_of_commitBatch different kept.1 kept.2.2.1
  | leave =>
    cases kept
    exact beside_of_release different rfl rfl rfl rfl rfl rfl (fun _ _ => rfl) (fun _ => rfl) (fun _ => rfl) (List.Subset.refl _)
      (goesOn_same rfl rfl rfl)
  | abort =>
    exact beside_of_release different rfl rfl rfl rfl rfl rfl (fun _ _ => rfl) (fun _ => rfl) (fun _ => rfl) (List.Subset.refl _)
      (goesOn_same rfl rfl rfl)

end Others

section Own
variable {Id V R : Type} [LinearOrder Id] {computed : V → R} {run : Nat} {shared after : Shared Id V R}

theorem update_kept {Key : Type} [DecidableEq Key] {locks : Key → Option Nat} {key other : Key} (held : locks other = some run) :
    Function.update locks key (some run) other = some run := by
  by_cases same : other = key
  · rw [same, Function.update_self]
  · rw [Function.update_of_ne same, held]

theorem current_same (target : after.target = shared.target) (records : after.records = shared.records) {id : Id}
    (current : Current computed shared id) : Current computed after id := by
  unfold Current
  rw [target, records]
  exact current

theorem consistent_of_locks (common : Consistent computed shared) (target : after.target = shared.target)
    (records : after.records = shared.records) (journal : after.journal = shared.journal) (nextRow : shared.nextRow ≤ after.nextRow)
    (alone : ∀ run, after.owner = some run → ∀ other ∈ after.sharers, other = run) : Consistent computed after where
  alone := alone
  known := fun row isRow => (common.known row (journal ▸ isRow)).trans_le nextRow
  pass := fun row pass isRow => common.pass row pass (journal ▸ isRow)
  still := fun isNone id => current_same target records (common.still (journal ▸ isNone) id)
  passed := fun row cursor isRow isPass isCursor id before =>
    current_same target records (common.passed row cursor (journal ▸ isRow) isPass isCursor id before)

theorem alone_of_release (common : Consistent computed shared) {holder : Option Nat} {sharers : List Nat} (isOwner : shared.owner = holder)
    (isSharers : shared.sharers = sharers) :
    ∀ one, holder.filter (· ≠ run) = some one → ∀ other ∈ sharers.filter (· ≠ run), other = one := by
  intro one owns other shares
  exact common.alone one (isOwner.trans (Option.filter_eq_some_iff.mp owns).1) other (isSharers ▸ List.mem_of_mem_filter shares)

theorem consistent_of_commitWriting {own : Writing Id V R} (common : Consistent computed shared)
    (kept : WritingKept computed run shared own) (settled : own.due = false) :
    Consistent computed (commitWriting run shared own) := by
  have stays : own.row = none → ∀ id, Current computed shared id → Current computed (commitWriting run shared own) id := by
    intro noRow id current
    have unchanged : own.target = none := by
      by_contra changed
      have journaled := kept.journaled (Option.isSome_iff_ne_none.mpr changed) settled
      rw [noRow] at journaled
      cases journaled
    have target : own.target.getD shared.target = shared.target := by rw [unchanged]; rfl
    exact current_of_apply target rfl (fun entry member refers => (kept.points unchanged entry member refers).2) (.inl current)
  have fresh : ∀ row pass, own.row = some row → row.passGeneration = some pass → pass < row.generation := by
    intro row pass isRow isPass
    cases isOld : shared.journal with
    | none => exact absurd (isPass.symm.trans (kept.inserted row isRow isOld)) (Option.some_ne_none pass)
    | some old =>
      obtain ⟨later, less⟩ := kept.newer row old isRow isOld
      exact (common.pass old pass isOld (later.pass ▸ isPass)).trans_lt less
  have journal : (commitWriting run shared own).journal = own.row.or shared.journal := rfl
  constructor
  · exact alone_of_release common rfl rfl
  · intro row isRow
    rcases Option.or_eq_some_iff.mp (journal ▸ isRow) with isOwn | ⟨-, isOld⟩
    · exact (kept.row row isOwn).2.2
    · exact common.known row isOld
  · intro row pass isRow isPass
    rcases Option.or_eq_some_iff.mp (journal ▸ isRow) with isOwn | ⟨-, isOld⟩
    · exact (fresh row pass isOwn isPass).le
    · exact common.pass row pass isOld isPass
  · intro isNone id
    have both := Option.or_eq_none_iff.mp (journal ▸ isNone)
    exact stays both.1 id (common.still both.2 id)
  · intro row cursor isRow isPass isCursor id before
    rcases Option.or_eq_some_iff.mp (journal ▸ isRow) with isOwn | ⟨noRow, isOld⟩
    · exact absurd (fresh row _ isOwn isPass) (lt_irrefl _)
    · exact stays noRow id (common.passed row cursor isOld isPass isCursor id before)

theorem current_of_commitBatch {batch : Batch Id R} {decision : Decision Id} {current : JournalRow Id} {id : Id}
    (kept : BatchKept computed run shared batch) (nothing : batch.todo = []) (isCurrent : shared.journal = some current)
    (isPass : current.generation = batch.row.pass) (within : ¬ Beyond batch id) :
    Current computed (commitBatch run shared batch decision) id := by
  refine @current_of_apply Id V R _ computed shared _ batch.done id rfl rfl (kept.done current isCurrent isPass) ?_
  rcases kept.rest current isCurrent isPass id with isCurrent | isDone | toDo | beyond
  · exact .inl isCurrent
  · exact .inr isDone
  · rw [nothing] at toDo
    cases toDo
  · exact absurd beyond within

theorem consistent_of_commitBatch {batch : Batch Id R} {decision : Decision Id} {current : JournalRow Id}
    (common : Consistent computed shared) (kept : BatchKept computed run shared batch) (nothing : batch.todo = [])
    (isCurrent : shared.journal = some current) (decided : batch.decision current.generation = some decision) :
    Consistent computed (commitBatch run shared batch decision) := by
  have journal : (commitBatch run shared batch decision).journal = decision.leave current := by
    change shared.journal.bind decision.leave = _
    rw [isCurrent]
    rfl
  obtain ⟨found, isFound, later⟩ := kept.row.current
  have same : found = current := Option.some.inj (isFound.symm.trans isCurrent)
  have bound : batch.row.pass ≤ current.generation := kept.row.pass.trans (same ▸ later.generation)
  constructor
  · exact alone_of_release common rfl rfl
  · intro row isRow
    rw [journal] at isRow
    cases decision <;> cases isRow <;> exact common.known current isCurrent
  · intro row pass isRow isPass
    rw [journal] at isRow
    cases decision with
    | remove => cases isRow
    | restart =>
      cases isRow
      cases isPass
    | next of cursor =>
      cases isRow
      cases isPass
      exact (decision_next decided).2.1 ▸ bound
  · intro isNone id
    rw [journal] at isNone
    cases decision with
    | remove =>
      obtain ⟨short, isPass⟩ := decision_remove decided
      exact current_of_commitBatch kept nothing isCurrent isPass.symm fun beyond => absurd beyond.1 short.not_ge
    | restart => cases isNone
    | next of cursor => cases isNone
  · intro row cursor isRow isPass isCursor id before
    rw [journal] at isRow
    cases decision with
    | remove => cases isRow
    | restart =>
      cases isRow
      cases isPass
    | next of last =>
      cases isRow
      cases isCursor
      obtain ⟨-, ofPass, isLast⟩ := decision_next decided
      have latest : current.generation = batch.row.pass := (Option.some.inj isPass).symm.trans ofPass
      exact current_of_commitBatch kept nothing isCurrent latest fun beyond => absurd (beyond.2 cursor isLast) before.not_gt

theorem writing_of_journal {own : Writing Id V R} (common : Consistent computed shared) (kept : WritingKept computed run shared own)
    (changed : own.target.isSome = true) :
    WritingKept computed run { shared with journalLock := some run, nextRow := shared.nextRow + 1 }
      { own with due := false, row := some (journalRecompute shared.nextRow (own.row.or shared.journal)) } where
  owns := kept.owns
  journaled := fun _ _ => rfl
  row := by
    intro row isRow
    cases isRow
    refine ⟨changed, rfl, ?_⟩
    cases isOwn : own.row with
    | some row => exact (kept.row row isOwn).2.2.trans (Nat.lt_succ_self _)
    | none =>
      cases isOld : shared.journal with
      | some old => exact (common.known old isOld).trans (Nat.lt_succ_self _)
      | none => exact Nat.lt_succ_self _
  newer := by
    intro row old isRow isOld
    cases isRow
    replace isOld : shared.journal = some old := isOld
    cases isOwn : own.row with
    | some row =>
      obtain ⟨later, less⟩ := kept.newer row old isOwn isOld
      exact ⟨⟨later.id, later.pass, later.cursor, later.generation.trans (Nat.le_succ _)⟩, less.trans (Nat.lt_succ_self _)⟩
    | none =>
      rw [isOld]
      exact ⟨⟨rfl, rfl, rfl, Nat.le_succ _⟩, Nat.lt_succ_self _⟩
  inserted := by
    intro row isRow isNone
    cases isRow
    replace isNone : shared.journal = none := isNone
    cases isOwn : own.row with
    | some row => exact kept.inserted row isOwn isNone
    | none =>
      rw [isNone]
      rfl
  locked := kept.locked
  points := kept.points

theorem writing_of_record {own : Writing Id V R} {id : Id} {row : RecordRow R} (kept : WritingKept computed run shared own)
    (points : own.target = none → row.refers = true → run ∈ shared.sharers ∧ row.value = computed shared.target) :
    WritingKept computed run { shared with recordLocks := Function.update shared.recordLocks id (some run) }
      { own with records := (id, row) :: own.records } where
  owns := kept.owns
  journaled := kept.journaled
  row := kept.row
  newer := kept.newer
  inserted := kept.inserted
  locked := by
    intro entry member
    rcases List.mem_cons.mp member with same | earlier
    · rw [same]
      exact Function.update_self id (some run) shared.recordLocks
    · exact update_kept (kept.locked entry earlier)
  points := by
    intro unchanged entry member refers
    rcases List.mem_cons.mp member with same | earlier
    · rw [same] at refers ⊢
      exact points unchanged refers
    · exact kept.points unchanged entry earlier refers

theorem batch_of_list {row : JournalRow Id} {size : Nat} {sources : List Id} (common : Consistent computed shared)
    (kept : RowKept run shared row) (positive : 0 < size) (listed : sources = referringRecords shared.records row.start size) :
    BatchKept computed run shared { row, size, sources, todo := sources, done := [] } where
  row := kept
  positive := positive
  sources := fun id member => of_mem_referringRecords (listed ▸ member)
  locked := fun entry member => absurd member List.not_mem_nil
  done := fun _ _ _ entry member => absurd member List.not_mem_nil
  rest := by
    intro current isCurrent isPass id
    by_cases isStale : Current computed shared id
    · exact .inl isStale
    obtain ⟨present, stale⟩ := Classical.not_imp.mp isStale
    obtain ⟨refers, -⟩ := Classical.not_imp.mp stale
    cases isAfter : afterCursor row.start id with
    | true =>
      have listedOrBeyond : id ∈ referringRecords shared.records row.start size ∨ _ := mem_referringRecords present refers isAfter
      rw [← listed] at listedOrBeyond
      exact .inr (.inr listedOrBeyond)
    | false =>
      -- a pass that started has left nothing stale up to its cursor
      obtain ⟨found, isFound, later⟩ := kept.current
      have same : found = current := Option.some.inj (isFound.symm.trans isCurrent)
      rw [same] at later
      cases isStarted : row.passGeneration with
      | none => exact absurd isAfter (by simp [JournalRow.start, isStarted, afterCursor])
      | some pass =>
        cases isCursor : row.cursor with
        | none => exact absurd isAfter (by simp [JournalRow.start, isStarted, isCursor, afterCursor])
        | some cursor =>
          have before : id ≤ cursor := by
            simpa [JournalRow.start, isStarted, isCursor, afterCursor] using isAfter
          have latest : current.passGeneration = some current.generation := by
            rw [later.pass, isPass, isStarted]
            simp [JournalRow.pass, isStarted]
          exact absurd (common.passed current cursor isCurrent latest (later.cursor.trans isCursor) id before) isStale

theorem batch_of_compute {batch : Batch Id R} {id : Id} {refers : Bool} {other : R} (kept : BatchKept computed run shared batch)
    (first : batch.todo.head? = some id) (held : shared.recordLocks id = some run) (isRefers : (shared.records.row id).refers = refers) :
    BatchKept computed run shared
      { batch with todo := batch.todo.tail, done := (id, ⟨refers, if refers then computed shared.target else other⟩) :: batch.done } where
  row := kept.row
  positive := kept.positive
  sources := kept.sources
  locked := by
    intro entry member
    rcases List.mem_cons.mp member with same | earlier
    · rw [same]
      exact ⟨held, isRefers⟩
    · exact kept.locked entry earlier
  done := by
    intro current isCurrent isPass entry member isReferring
    rcases List.mem_cons.mp member with same | earlier
    · rw [same] at isReferring ⊢
      exact if_pos isReferring
    · exact kept.done current isCurrent isPass entry earlier isReferring
  rest := by
    intro current isCurrent isPass one
    obtain ⟨rest, isRest⟩ := List.head?_eq_some_iff.mp first
    rcases kept.rest current isCurrent isPass one with isCurrent | ⟨entry, member, isOne⟩ | toDo | beyond
    · exact .inl isCurrent
    · exact .inr (.inl ⟨entry, List.mem_cons_of_mem _ member, isOne⟩)
    · rw [isRest] at toDo ⊢
      rcases List.mem_cons.mp toDo with same | later
      · exact .inr (.inl ⟨_, List.mem_cons_self, same.symm⟩)
      · exact .inr (.inr (.inl later))
    · exact .inr (.inr (.inr beyond))

theorem batch_of_lock {batch : Batch Id R} {id : Id} (kept : BatchKept computed run shared batch) :
    BatchKept computed run { shared with recordLocks := Function.update shared.recordLocks id (some run) } batch where
  row := ⟨kept.row.turn, kept.row.pass, kept.row.current⟩
  positive := kept.positive
  sources := kept.sources
  locked := fun entry member => ⟨update_kept (kept.locked entry member).1, (kept.locked entry member).2⟩
  done := kept.done
  rest := kept.rest

theorem kept_of_statement {phase next : Phase Id V R} {event : Event Id V R} (common : Consistent computed shared)
    (kept : PhaseKept computed run shared phase) (statement : Statement computed run shared phase event after next) :
    Consistent computed after ∧ PhaseKept computed run after next := by
  cases statement with
  | start =>
    exact ⟨common, {
      owns := fun changed => absurd changed Bool.false_ne_true
      journaled := fun changed => absurd changed Bool.false_ne_true
      row := fun row isRow => absurd isRow.symm (Option.some_ne_none row)
      newer := fun row _ isRow => absurd isRow.symm (Option.some_ne_none row)
      inserted := fun row isRow => absurd isRow.symm (Option.some_ne_none row)
      locked := fun entry member => absurd member List.not_mem_nil
      points := fun _ entry member => absurd member List.not_mem_nil }⟩
  | @lockTarget own isFree =>
    replace kept : WritingKept computed run shared own := kept
    refine ⟨consistent_of_locks common rfl rfl rfl (le_refl _) ?_, { kept with points := ?_ }⟩
    · intro one owns other shares
      rcases List.mem_cons.mp shares with same | earlier
      · exact same.trans (isFree one owns).symm
      · exact common.alone one owns other earlier
    · intro unchanged entry member refers
      exact ⟨List.mem_cons_self, (kept.points unchanged entry member refers).2⟩
  | @changeTarget own value isFree alone =>
    replace kept : WritingKept computed run shared own := kept
    refine ⟨consistent_of_locks common rfl rfl rfl (le_refl _) ?_, {
      owns := fun _ => rfl
      journaled := fun _ settled => absurd settled.symm Bool.false_ne_true
      row := fun row isRow => ⟨rfl, (kept.row row isRow).2⟩
      newer := kept.newer
      inserted := kept.inserted
      locked := kept.locked
      points := fun unchanged => absurd unchanged (Option.some_ne_none value) }⟩
    intro one owns other shares
    exact (alone other shares).trans (Option.some.inj owns)
  | journal _ changed =>
    exact ⟨consistent_of_locks common rfl rfl rfl (Nat.le_succ _) common.alone, writing_of_journal common kept changed⟩
  | @point own id isFree shares =>
    refine ⟨consistent_of_locks common rfl rfl rfl (le_refl _) common.alone, writing_of_record kept fun unchanged _ => ?_⟩
    rw [unchanged] at shares ⊢
    exact ⟨shares.resolve_right Bool.false_ne_true, rfl⟩
  | pointAway =>
    exact ⟨consistent_of_locks common rfl rfl rfl (le_refl _) common.alone,
      writing_of_record kept fun _ refers => absurd refers Bool.false_ne_true⟩
  | commitWriting settled => exact ⟨consistent_of_commitWriting common kept settled, trivial⟩
  | @«open» rowId size _ positive =>
    exact ⟨consistent_of_locks common rfl rfl rfl (le_refl _) common.alone, Function.update_self rowId (some run) shared.turns, positive⟩
  | @read rowId size row isRow isId =>
    refine ⟨common, ⟨isId ▸ kept.1, ?_, row, isRow, Later.refl row⟩, kept.2⟩
    cases isPass : row.passGeneration with
    | none => simp [JournalRow.pass, isPass]
    | some pass =>
      have bound := common.pass row pass isRow isPass
      simpa [JournalRow.pass, isPass] using bound
  | miss => exact ⟨common, rfl⟩
  | list listed => exact ⟨common, batch_of_list common kept.1 kept.2 listed⟩
  | @lock batch id rest isFirst =>
    refine ⟨consistent_of_locks common rfl rfl rfl (le_refl _) common.alone, batch_of_lock kept, ?_,
      Function.update_self id (some run) shared.recordLocks, rfl⟩
    rw [isFirst]
    rfl
  | compute => exact ⟨common, batch_of_compute kept.1 kept.2.1 kept.2.2.1 kept.2.2.2⟩
  | @settle batch row decision nothing _ isRow isId decided =>
    replace kept : BatchKept computed run shared batch := kept
    exact ⟨consistent_of_locks common rfl rfl rfl (le_refl _) common.alone,
      { kept with row := ⟨kept.row.turn, kept.row.pass, kept.row.current⟩ }, nothing, rfl, row, isRow, decided⟩
  | @lost batch gone =>
    obtain ⟨current, isCurrent, later⟩ := (show BatchKept computed run shared batch from kept).row.current
    exact absurd later.id (gone current isCurrent)
  | commitBatch =>
    obtain ⟨ofBatch, nothing, -, current, isCurrent, decided⟩ := kept
    exact ⟨consistent_of_commitBatch common ofBatch nothing isCurrent decided, trivial⟩
  | leave =>
    cases kept
    exact ⟨consistent_of_locks common rfl rfl rfl (le_refl _) (alone_of_release common rfl rfl), trivial⟩
  | abort => exact ⟨consistent_of_locks common rfl rfl rfl (le_refl _) (alone_of_release common rfl rfl), trivial⟩

end Own

section Runs
variable {Id V R : Type} [LinearOrder Id] {computed : V → R}

abbrev State (Id V R : Type) [LinearOrder Id] := Parties.State Nat (Shared Id V R) (Phase Id V R)

/-- Nothing runs, and there is no row and nothing stale, or a row that no batch has begun on. -/
structure Start (computed : V → R) (state : State Id V R) : Prop where
  idle : ∀ run, state.parties run = .idle
  unowned : state.shared.owner = none
  known : ∀ row, state.shared.journal = some row → row.id < state.shared.nextRow ∧ row.passGeneration = none
  still : state.shared.journal = none → ∀ id, Current computed state.shared id

theorem kept_of_step {state next : State Id V R} {label : Nat × Event Id V R}
    (holds : Parties.Holds (Consistent computed) (PhaseKept computed) state)
    (taken : Parties.Step (Parties.performs (perform computed)) state label next) :
    Parties.Holds (Consistent computed) (PhaseKept computed) next := by
  refine Parties.invariant holds ?_ ?_ (Run.step .start taken)
  · intro run shared before event after next common kept performed
    exact kept_of_statement common kept (statement_of_perform performed)
  · intro run other shared before event after next beside different common kept keptBeside performed
    exact keptBeside.beside (beside_of_statement different common kept (statement_of_perform performed))

theorem kept_of_start {start : State Id V R} (fresh : Start computed start) :
    Parties.Holds (Consistent computed) (PhaseKept computed) start where
  common := {
    alone := fun run owns => absurd (fresh.unowned.symm.trans owns) (Option.some_ne_none run).symm
    known := fun row isRow => (fresh.known row isRow).1
    pass := fun row pass isRow isPass => absurd (isPass.symm.trans (fresh.known row isRow).2) (Option.some_ne_none pass)
    still := fresh.still
    passed := fun row _ isRow isPass => absurd (isPass.symm.trans (fresh.known row isRow).2) (Option.some_ne_none _) }
  each := by
    intro run
    rw [fresh.idle run]
    trivial

theorem kept_of_runs {start state : State Id V R} {labels : List (Nat × Event Id V R)} (fresh : Start computed start)
    (runs : Parties.Runs (Parties.performs (perform computed)) start labels state) :
    Parties.Holds (Consistent computed) (PhaseKept computed) state :=
  Run.invariant _ (kept_of_start fresh) kept_of_step runs

/-- How far into the records a cursor is. -/
def rank (ids : List Id) : Option Id → Nat
  | none => 0
  | some cursor => (ids.toFinset.filter (· ≤ cursor)).card

theorem rank_le {ids : List Id} {cursor : Option Id} : rank ids cursor ≤ ids.length := by
  cases cursor with
  | none => exact Nat.zero_le _
  | some cursor => exact (Finset.card_filter_le _ _).trans (List.toFinset_card_le ids)

theorem rank_mono {ids later : List Id} {cursor : Option Id} (kept : ids ⊆ later) : rank ids cursor ≤ rank later cursor := by
  cases cursor with
  | none => exact le_refl _
  | some cursor =>
    refine Finset.card_le_card (Finset.filter_subset_filter _ fun id member => ?_)
    rw [List.mem_toFinset] at member ⊢
    exact kept member

theorem rank_lt {ids : List Id} {cursor : Option Id} {last : Id} (present : last ∈ ids) (isAfter : afterCursor cursor last = true) :
    rank ids cursor < rank ids (some last) := by
  have counted : last ∈ ids.toFinset.filter (· ≤ last) := Finset.mem_filter.mpr ⟨List.mem_toFinset.mpr present, le_refl _⟩
  cases cursor with
  | none => exact Finset.card_pos.mpr ⟨last, counted⟩
  | some cursor =>
    have less : cursor < last := of_decide_eq_true isAfter
    refine Finset.card_lt_card (Finset.ssubset_iff_of_subset ?_ |>.mpr ⟨last, counted, fun within => ?_⟩)
    · exact fun id member => Finset.mem_filter.mpr ⟨(Finset.mem_filter.mp member).1, (Finset.mem_filter.mp member).2.trans less.le⟩
    · exact absurd (Finset.mem_filter.mp within).2 less.not_ge

theorem length_mono {records later : Records Id R} (kept : records.ids ⊆ later.ids) : records.ids.length ≤ later.ids.length :=
  (List.subperm_of_subset (records.sorted.imp ne_of_lt) kept).length_le

def rowOf : Phase Id V R → Option (JournalRow Id)
  | .found row _ => some row
  | .walking batch | .holding batch _ _ | .settled batch _ => some batch.row
  | _ => none

/-- How many batches may have committed while a row is there: those of the pass it is in, of
an older generation maybe, and those of a pass on the latest one, that is the last. -/
structure Progress (base : Nat) (state : State Id V R) (row : JournalRow Id) : Prop where
  bounded : state.shared.committed ≤ base + rank state.shared.records.ids row.start ∨
    state.shared.committed ≤ base + state.shared.records.ids.length + 1 + rank state.shared.records.ids row.start ∧
      (∀ pass, row.passGeneration = some pass → pass = row.generation) ∧
      ∀ run read, rowOf (state.parties run) = some read → read.passGeneration = none → read.generation = row.generation

variable {base : Nat} {state : State Id V R} {run : Nat} {after : Shared Id V R} {own : Phase Id V R} {row : JournalRow Id}

theorem progress_stays (progress : Progress base state row) (isRow : state.shared.journal = some row)
    (ids : state.shared.records.ids ⊆ after.records.ids) (committed : after.committed = state.shared.committed)
    (rows : ∀ read, rowOf own = some read → rowOf (state.parties run) = some read ∨ state.shared.journal = some read) :
    Progress base ⟨after, Function.update state.parties run own⟩ row := by
  have further : rank state.shared.records.ids row.start ≤ rank after.records.ids row.start := rank_mono ids
  have longer := length_mono ids
  constructor
  rcases progress.bounded with first | ⟨second, latest, read⟩
  · left
    dsimp only
    omega
  · refine .inr ⟨?_, latest, fun other found isFound unstarted => ?_⟩
    · dsimp only
      omega
    · replace isFound : rowOf (Function.update state.parties run own other) = some found := isFound
      by_cases same : other = run
      · rw [same, Function.update_self] at isFound
        rcases rows found isFound with before | isJournal
        · exact read run found before unstarted
        · rw [Option.some.inj (isJournal.symm.trans isRow)]
      · rw [Function.update_of_ne same] at isFound
        exact read other found isFound unstarted

theorem rowKept_of_phase {phase : Phase Id V R} {shared : Shared Id V R} {read : JournalRow Id} (kept : PhaseKept computed run shared phase)
    (isRead : rowOf phase = some read) : RowKept run shared read := by
  cases phase with
  | idle | writing | opened | leaving => cases isRead
  | found =>
    cases isRead
    exact kept.1
  | walking batch =>
    cases isRead
    exact BatchKept.row kept
  | holding batch =>
    cases isRead
    exact kept.1.row
  | settled batch =>
    cases isRead
    exact kept.1.row

theorem alone_of_turn (holds : Parties.Holds (Consistent computed) (PhaseKept computed) state) {other : Nat} {read found : JournalRow Id}
    (isRead : rowOf (state.parties run) = some read) (isFound : rowOf (state.parties other) = some found) : other = run := by
  have mine := rowKept_of_phase (holds.each run) isRead
  have theirs := rowKept_of_phase (holds.each other) isFound
  obtain ⟨current, isCurrent, later⟩ := mine.current
  obtain ⟨again, isAgain, laterAgain⟩ := theirs.current
  have same : again = current := Option.some.inj (isAgain.symm.trans isCurrent)
  have sameId : found.id = read.id := by rw [← laterAgain.id, same, later.id]
  exact Option.some.inj (theirs.turn.symm.trans (sameId ▸ mine.turn))

omit [LinearOrder Id] in
theorem pass_latest {current read : JournalRow Id} (later : Later read current)
    (latest : ∀ pass, current.passGeneration = some pass → pass = current.generation)
    (unstarted : read.passGeneration = none → read.generation = current.generation) : read.pass = current.generation := by
  unfold JournalRow.pass
  cases isPass : read.passGeneration with
  | none => exact unstarted isPass
  | some pass => exact latest pass (later.pass.trans isPass)

theorem progress_of_commitBatch {batch : Batch Id R} {decision : Decision Id} {later : JournalRow Id}
    (holds : Parties.Holds (Consistent computed) (PhaseKept computed) state) (isPhase : state.parties run = .settled batch decision)
    (progress : Progress base state row) (isRow : state.shared.journal = some row) (isLater : decision.leave row = some later) :
    Progress base ⟨commitBatch run state.shared batch decision, Function.update state.parties run .idle⟩ later := by
  have settled : PhaseKept computed run state.shared (.settled batch decision) := isPhase ▸ holds.each run
  obtain ⟨kept, -, -, current, isCurrent, decided⟩ := settled
  cases Option.some.inj (isCurrent.symm.trans isRow)
  obtain ⟨found, isFound, ofRow⟩ := kept.row.current
  cases Option.some.inj (isFound.symm.trans isRow)
  have mine : rowOf (state.parties run) = some batch.row := by rw [isPhase]; rfl
  have nobody : ∀ other read, rowOf (Function.update state.parties run .idle other) = some read → False := by
    intro other read isRead
    by_cases same : other = run
    · rw [same, Function.update_self] at isRead
      cases isRead
    · rw [Function.update_of_ne same] at isRead
      exact same (alone_of_turn holds mine isRead)
  have ids : state.shared.records.ids ⊆ (commitBatch run state.shared batch decision).records.ids := apply_ids
  have longer := length_mono ids
  have bound : rank state.shared.records.ids row.start ≤ state.shared.records.ids.length := rank_le
  have counted : (commitBatch run state.shared batch decision).committed = state.shared.committed + 1 := rfl
  have onLatest : (∀ pass, row.passGeneration = some pass → pass = row.generation) →
      (∀ run read, rowOf (state.parties run) = some read → read.passGeneration = none → read.generation = row.generation) →
      batch.row.pass = row.generation := fun latest read => pass_latest ofRow latest (read run batch.row mine)
  cases decision with
  | remove => cases isLater
  | restart =>
    cases isLater
    obtain ⟨-, behind⟩ := decision_restart decided
    constructor
    rcases progress.bounded with first | ⟨-, latest, read⟩
    · refine .inr ⟨?_, fun pass isPass => absurd isPass (Option.some_ne_none pass).symm, fun other read isRead => absurd isRead (nobody other read)⟩
      dsimp only
      omega
    · exact absurd (onLatest latest read) behind
  | next pass cursor =>
    cases isLater
    obtain ⟨-, ofPass, isLast⟩ := decision_next decided
    have source := kept.sources cursor (List.mem_of_getLast? isLast)
    have start : batch.row.start = row.start := by unfold JournalRow.start; rw [ofRow.pass, ofRow.cursor]
    have further : rank state.shared.records.ids row.start < rank state.shared.records.ids (some cursor) :=
      rank_lt source.1 (start ▸ source.2)
    have wider : rank state.shared.records.ids (some cursor) ≤
        rank (commitBatch run state.shared batch (.next pass cursor)).records.ids (some cursor) := rank_mono ids
    constructor
    change _ ≤ base + rank _ (some cursor) ∨ _ ≤ base + _ + 1 + rank _ (some cursor) ∧ _
    rcases progress.bounded with first | ⟨second, latest, read⟩
    · left
      dsimp only
      omega
    · refine .inr ⟨?_, fun one isOne => ?_, fun other read isRead => absurd isRead (nobody other read)⟩
      · dsimp only
        omega
      · cases isOne
        exact ofPass.trans (onLatest latest read)

def TargetRests (state : State Id V R) (label : Nat × Event Id V R) : Prop :=
  label.2 = .commit → ∀ own, state.parties label.1 = .writing own → own.target = none

theorem progress_step {label : Nat × Event Id V R} {next : State Id V R} {id : Nat}
    (holds : Parties.Holds (Consistent computed) (PhaseKept computed) state)
    (taken : guarded TargetRests (Parties.Step (Parties.performs (perform computed))) state label next)
    (progress : ∀ row, state.shared.journal = some row → row.id = id → Progress base state row) :
    ∀ row, next.shared.journal = some row → row.id = id → Progress base next row := by
  rcases taken with ⟨rests, @⟨run, event, after, own, acts⟩⟩
  have statement := statement_of_perform acts
  have kept := holds.each run
  replace rests : event = .commit → ∀ own, state.parties run = .writing own → own.target = none := rests
  generalize isPhase : state.parties run = phase at statement kept rests
  intro row isRow isId
  have unmoved : after.journal = state.shared.journal → state.shared.records.ids ⊆ after.records.ids →
      after.committed = state.shared.committed →
      (∀ read, rowOf own = some read → rowOf phase = some read ∨ state.shared.journal = some read) →
      Progress base ⟨after, Function.update state.parties run own⟩ row := by
    intro journal ids committed rows
    have before : state.shared.journal = some row := journal.symm.trans isRow
    exact progress_stays (progress row before isId) before ids committed (isPhase ▸ rows)
  have nothing : ∀ read, rowOf (Phase.idle : Phase Id V R) = some read → rowOf phase = some read ∨ state.shared.journal = some read :=
    fun read isRead => absurd isRead.symm (Option.some_ne_none read)
  cases statement with
  | start | lockTarget | changeTarget | journal | point | pointAway | «open» | miss | lost =>
    exact unmoved rfl (List.Subset.refl _) rfl fun read isRead => absurd isRead.symm (Option.some_ne_none read)
  | list | lock | compute | settle => exact unmoved rfl (List.Subset.refl _) rfl fun read isRead => .inl isRead
  | read found => exact unmoved rfl (List.Subset.refl _) rfl fun read isRead => .inr (isRead ▸ found)
  | @commitWriting own =>
    replace kept : WritingKept computed run state.shared own := kept
    have unchanged := rests rfl own rfl
    have noRow : own.row = none := by
      by_contra written
      obtain ⟨row, isRow⟩ := Option.ne_none_iff_exists'.mp written
      have changed := (kept.row row isRow).1
      rw [unchanged] at changed
      cases changed
    refine unmoved ?_ apply_ids rfl nothing
    change own.row.or state.shared.journal = state.shared.journal
    rw [noRow]
    rfl
  | @commitBatch batch decision =>
    obtain ⟨current, isCurrent, isLater⟩ := Option.bind_eq_some_iff.mp isRow
    have sameId : current.id = row.id := by
      cases decision <;> cases isLater <;> rfl
    exact progress_of_commitBatch holds isPhase (progress current isCurrent (sameId.trans isId)) isCurrent isLater
  | leave => exact unmoved rfl apply_ids rfl nothing
  | abort => exact unmoved rfl (List.Subset.refl _) rfl nothing

/-- The recompute journal forgets nothing. Where a commit removes the row, every record that
then refers to the target holds the value computed from it; and while no write of the target
commits, at most two batches a record and one more commit before the row is gone. -/
theorem journal_forgets_nothing {start state : State Id V R} {labels : List (Nat × Event Id V R)} (fresh : Start computed start)
    (runs : Parties.Runs (Parties.performs (perform computed)) start labels state) :
    (∀ run next, Parties.Step (Parties.performs (perform computed)) state (run, .commit) next →
      state.shared.journal.isSome = true → next.shared.journal = none →
      ∀ id ∈ next.shared.records.ids, (next.shared.records.row id).refers = true →
        (next.shared.records.row id).value = computed next.shared.target) ∧
    ∀ row further final, state.shared.journal = some row →
      Run (guarded TargetRests (Parties.Step (Parties.performs (perform computed)))) state further final →
      (∃ last, final.shared.journal = some last ∧ last.id = row.id) →
      final.shared.committed ≤ state.shared.committed + 2 * final.shared.records.ids.length + 1 := by
  constructor
  · intro run next taken _ removed id present refers
    have holds := kept_of_runs fresh (runs.step taken)
    exact holds.common.still removed id present refers
  · intro row further final isRow run remains
    have both : (Parties.Holds (Consistent computed) (PhaseKept computed) final ∧
        ∀ last, final.shared.journal = some last → last.id = row.id → Progress state.shared.committed final last) := by
      refine run.invariant (fun state' => Parties.Holds (Consistent computed) (PhaseKept computed) state' ∧
        ∀ last, state'.shared.journal = some last → last.id = row.id → Progress state.shared.committed state' last) ?_ ?_
      · exact ⟨kept_of_runs fresh runs, fun last _ _ => ⟨.inl (Nat.le_add_right _ _)⟩⟩
      · intro before label next kept taken
        exact ⟨kept_of_step kept.1 taken.2, progress_step kept.1 taken kept.2⟩
    obtain ⟨last, isLast, sameId⟩ := remains
    have bound : rank final.shared.records.ids last.start ≤ final.shared.records.ids.length := rank_le
    rcases (both.2 last isLast sameId).bounded with first | ⟨second, -⟩
    · omega
    · omega

def threeRecords : State Nat Nat Nat where
  shared := {
    target := 0
    owner := none
    sharers := []
    records := { ids := [1, 2, 3], sorted := by decide, row := fun _ => ⟨true, 0⟩ }
    recordLocks := fun _ => none
    journal := none
    journalLock := none
    turns := fun _ => none
    nextRow := 0
    committed := 0 }
  parties := fun _ => .idle

def targetWritten : List (Nat × Event Nat Nat Nat) :=
  [(0, .start), (0, .changeTarget 5), (0, .journal), (0, .commit)]

/-- A page of two, a record that is pointed at the target meanwhile, and all but the end of
the last batch. -/
def batchesRun : List (Nat × Event Nat Nat Nat) :=
  [(1, .open 0 2), (1, .read), (1, .list), (1, .lock), (1, .compute 0), (2, .start), (2, .lockTarget), (2, .point 4), (2, .commit),
    (1, .lock), (1, .compute 0), (1, .settle), (1, .commit),
    (1, .open 0 3), (1, .read), (1, .list), (1, .lock), (1, .compute 0), (1, .lock), (1, .compute 0), (1, .settle)]

def targetRests (state : State Nat Nat Nat) (label : Nat × Event Nat Nat Nat) : Bool :=
  match label.2, state.parties label.1 with
  | .commit, .writing own => own.target.isNone
  | _, _ => true

theorem rests_of_check {state : State Nat Nat Nat} {label : Nat × Event Nat Nat Nat} (checked : targetRests state label = true) :
    TargetRests state label := by
  intro isCommit own isWriting
  unfold targetRests at checked
  rw [isCommit, isWriting] at checked
  exact Option.isNone_iff_eq_none.mp checked

theorem threeRecords_start : Start id threeRecords where
  idle := fun _ => rfl
  unowned := rfl
  known := fun row isRow => absurd isRow.symm (Option.some_ne_none row)
  still := fun _ _ _ _ => rfl

theorem journal_forgets_nothing_batches : ∃ changed ended removed,
    Parties.play (perform id) threeRecords targetWritten = some changed ∧
    Parties.playChecked (perform id) targetRests changed batchesRun = some ended ∧
    Parties.play (perform id) ended [(1, .commit)] = some removed ∧
    ended.shared.committed ≤ changed.shared.committed + 2 * ended.shared.records.ids.length + 1 ∧
    removed.shared.journal = none ∧ removed.shared.records.ids = [1, 2, 3, 4] ∧
    ∀ id ∈ removed.shared.records.ids, (removed.shared.records.row id).refers = true → (removed.shared.records.row id).value = 5 := by
  have played : (Parties.play (perform id) threeRecords targetWritten).any (fun changed =>
      decide (changed.shared.journal.map JournalRow.id = some 0) &&
      (Parties.playChecked (perform id) targetRests changed batchesRun).any fun ended =>
        decide (ended.shared.journal.map JournalRow.id = some 0) &&
        (Parties.play (perform id) ended [(1, .commit)]).any fun removed =>
          removed.shared.journal.isNone && decide (removed.shared.records.ids = [1, 2, 3, 4]) &&
          decide (removed.shared.target = 5)) = true := by decide +kernel
  obtain ⟨changed, isChanged, played⟩ := (Option.any_eq_true _ _).mp played
  obtain ⟨isRow, played⟩ := Bool.and_eq_true _ _ ▸ played
  obtain ⟨ended, isEnded, played⟩ := (Option.any_eq_true _ _).mp played
  obtain ⟨remains, played⟩ := Bool.and_eq_true _ _ ▸ played
  obtain ⟨removed, isRemoved, played⟩ := (Option.any_eq_true _ _).mp played
  simp only [Bool.and_eq_true, decide_eq_true_eq, Option.isNone_iff_eq_none] at played isRow remains
  obtain ⟨row, isRow, rowId⟩ := Option.map_eq_some_iff.mp isRow
  obtain ⟨last, isLast, lastId⟩ := Option.map_eq_some_iff.mp remains
  have toChanged := Parties.runs_of_play _ isChanged
  have further : Run (guarded TargetRests (Parties.Step (Parties.performs (perform id)))) changed batchesRun ended :=
    Run.mono (fun taken => ⟨rests_of_check taken.1, taken.2⟩) (Parties.runs_of_playChecked _ isEnded)
  have toEnded := toChanged.append (Run.mono And.right further)
  have atEnd := (Parties.runs_of_play _ isRemoved).of_single
  refine ⟨changed, ended, removed, isChanged, isEnded, isRemoved, ?_, played.1.1, played.1.2, ?_⟩
  · exact (journal_forgets_nothing threeRecords_start toChanged).2 row _ ended isRow further ⟨last, isLast, lastId.trans rowId.symm⟩
  · have holds := (journal_forgets_nothing threeRecords_start toEnded).1 1 removed atEnd (by rw [isLast]; rfl) played.1.1
    rw [played.2] at holds
    exact holds

end Runs

end OpenShapeForge.Extensions.JournalComplete
