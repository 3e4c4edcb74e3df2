import OpenShapeForge.Jobs.OneOwner
import Mathlib.Data.Finset.Dedup
import Mathlib.Data.Finset.Order

/-! Rows of the queue in every run: each has the shape that the table asks for (apps/api/src/db/migrations/jobs.ts),
and no unfinished one is stranded, claimJobs asking for it from some time on. -/

namespace OpenShapeForge.Jobs.LiveRows
open Js Library JobStore JobWorker JobSteps OneOwner

section Shapes
variable {N : Type} [JsNumber N] {options : WorkerOptions N} {labels : List (Nat × Event N)} {state : Parties.State Nat (Shared N) (Phase N)}

/-- The check `jobs_status_shape` of the table. -/
def statusShape {N : Type} (row : JobRow N) : Bool :=
  match row.status with
  | .running => row.leaseUntil.isSome && row.claimTokenHash.isSome && row.completedAt.isNone
  | .queued => row.leaseUntil.isNone && row.claimTokenHash.isNone && row.completedAt.isNone
  | .done | .failed | .dead | .outcomeUnknown => row.leaseUntil.isNone && row.claimTokenHash.isNone && row.completedAt.isSome

/-- The checks of the table that the queue itself answers for. -/
structure Admitted {N : Type} (row : JobRow N) : Prop where
  kind : isJobKind row.kind = true
  attempts : 1 ≤ row.maxAttempts
  shape : statusShape row = true

omit [JsNumber N] in
theorem Admitted.keep {row next : JobRow N} (admitted : Admitted row) (kind : next.kind = row.kind) (attempts : next.maxAttempts = row.maxAttempts)
    (shape : statusShape next = true) : Admitted next :=
  ⟨kind ▸ admitted.kind, attempts ▸ admitted.attempts, shape⟩

omit [JsNumber N] in
theorem shape_claimed {row : JobRow N} (shape : statusShape row = true) {now : Timestamp} (due : row.due now = true) (hash : Text) (leaseUntil : Timestamp) :
    statusShape (row.claimed hash leaseUntil) = true := by
  show row.completedAt.isNone = true
  unfold statusShape at shape
  cases isStatus : row.status with
  | queued | running =>
    simp only [isStatus, Bool.and_eq_true] at shape
    exact shape.2
  | _ => simp [JobRow.due, JobRow.expired, isStatus] at due

omit [JsNumber N] in
theorem Admitted.settled {row : JobRow N} (admitted : Admitted row) (outcome : JobOutcome N) (now : Timestamp) (random : ℚ) :
    Admitted (row.settled outcome now random) := by
  unfold JobRow.settled
  split
  case h_6 => split <;> exact admitted.keep rfl rfl rfl
  all_goals exact admitted.keep rfl rfl rfl

omit [JsNumber N] in
theorem shape_resolved {row : JobRow N} (shape : statusShape row = true) (resolvable : row.resolvable = true) (action : ResolveAction) (now : Timestamp) :
    statusShape (row.resolved action now) = true := by
  unfold statusShape at shape
  cases isStatus : row.status with
  | failed | dead | outcomeUnknown =>
    simp only [isStatus, Bool.and_eq_true] at shape
    cases action <;> simp [statusShape, JobRow.resolved, shape.1]
  | _ => simp [JobRow.resolvable, isStatus] at resolvable

omit [JsNumber N] in
theorem admitted_of_changes {run : Nat} {shared after : Shared N} {phase : Phase N} {event : Event N} {id : Text} {before written : Option (JobRow N)}
    (changes : Changes options run shared phase id event after before written) (admitted : ∀ row, before = some row → Admitted row) :
    ∀ row, written = some row → Admitted row := by
  intro next isRow
  cases changes with
  | same => exact admitted next isRow
  | closes =>
    cases isRow
    exact (admitted _ rfl).keep rfl rfl rfl
  | hands _ due =>
    cases isRow
    exact (admitted _ rfl).keep rfl rfl (shape_claimed (admitted _ rfl).shape due _ _)
  | settles =>
    cases isRow
    exact (admitted _ rfl).settled _ _ _
  | enqueues _ made =>
    cases isRow
    unfold enqueuedRow at made
    dsimp only at made
    split at made
    next => cases made
    next valid =>
      cases made
      simp only [Bool.or_eq_true, not_or, Bool.not_eq_true', Bool.not_eq_false, decide_eq_true_eq, not_lt] at valid
      exact ⟨valid.1.1, valid.1.2, rfl⟩
  | @resolves action _ _ _ _ resolvable =>
    cases isRow
    exact (admitted _ rfl).keep (by cases action <;> rfl) (by cases action <;> rfl) (shape_resolved (admitted _ rfl).shape resolvable _ _)
  | sweeps => cases isRow

theorem admitted_of_runs (runs : Parties.Runs (Parties.performs (perform options)) initial labels state) :
    ∀ id row, state.shared.jobs.get? id = some row → Admitted row := by
  induction runs with
  | start => exact fun id row found => by cases found
  | step before taken ih =>
    obtain ⟨holds, -⟩ := holds_of_runs before
    cases taken with
    | @act run event _ _ performed =>
      have mine := holds.each run
      intro id row found
      exact admitted_of_changes (changes_of_does (does_of_perform performed) (known_of_kept holds.common) mine.owns mine.carries id) (ih id) row found

end Shapes

section Asking
variable {N : Type} {locked : Text → Bool} {limit : Nat} {asks : JobRow N → Bool} {table : JobTable N} {id : Text} {row : JobRow N}

/-- With room for all rows, a statement takes every free one that it asks for. -/
theorem mem_selected_of_room (room : table.keys.length ≤ limit) (found : table.get? id = some row) (free : locked id = false) (asked : asks row = true) :
    id ∈ selected locked limit asks table := by
  have inside : (id, row) ∈ table.entries.filter fun entry => !locked entry.1 && asks entry.2 :=
    List.mem_filter.mpr ⟨OrderedMap.mem_of_get? found, by simp [free, asked]⟩
  have few : ((table.entries.filter fun entry => !locked entry.1 && asks entry.2).insertionSort fun a b => a.2.availableAt ≤ b.2.availableAt).length ≤ limit := by
    rw [List.length_insertionSort]
    have all : table.keys.length = table.entries.length := List.length_map _
    exact (List.length_filter_le _ _).trans (all ▸ room)
  unfold selected
  dsimp only
  rw [List.take_of_length_le few]
  exact List.mem_map_of_mem ((List.perm_insertionSort _ _).mem_iff.mpr inside)

theorem keys_updated (change : Text → JobRow N → JobRow N) : ∀ (ids : List Text) (table : JobTable N), (updated change table ids).keys = table.keys
  | [], _ => rfl
  | id :: rest, table => by
    refine (keys_updated change rest _).trans ?_
    dsimp only
    split
    next row found => rw [OrderedMap.keys_set, if_pos ((OrderedMap.mem_keys_iff_get? _ _).mpr ⟨row, found⟩)]
    next => rfl

/-- A claim with room for all rows hands every free one out that it asks for, or closes it. -/
theorem claims_all {hashClaimToken tokenFor : Text → Text} {now : Timestamp} {input : ClaimJobsInput} (valid : 0 < input.limit ∧ 0 < input.lease ∧ input.kinds ≠ some [])
    (room : table.keys.length ≤ input.limit) : ∃ jobs after, claimJobs hashClaimToken locked tokenFor now input table = some (jobs, after) ∧
      ∀ id row, table.get? id = some row → locked id = false → (input.kinds.all fun kinds => kinds.contains row.kind) = true →
        row.due now = true ∨ row.exhausted now = true → (∃ job ∈ jobs, job.id = id) ∨ after.get? id = some (row.leaseExpired now) := by
  have admitted : ¬(input.limit < 1 ∨ input.lease ≤ 0 ∨ input.kinds = some []) := by
    simp only [not_or, not_lt, not_le]
    exact valid
  unfold claimJobs
  rw [if_neg admitted]
  refine ⟨_, _, rfl, fun id row found free ofKind asked => ?_⟩
  generalize isKind : (fun row : JobRow N => input.kinds.all fun kinds => kinds.contains row.kind) = wanted
  have isWanted : wanted row = true := by
    rw [← isKind]
    exact ofKind
  generalize isExpired : selected locked input.limit (fun row => row.exhausted now && wanted row) table = expired
  have closes := get?_updated (fun _ row => row.leaseExpired now) expired table (isExpired ▸ selected_nodup _ _ _ _) id
  have same := keys_updated (fun _ row => row.leaseExpired now) expired table
  generalize updated (fun _ row => row.leaseExpired now) table expired = closed at closes same
  generalize isDue : selected locked input.limit (fun row => row.due now && wanted row) closed = due
  have hands := get?_updated (fun id row => row.claimed (hashClaimToken (tokenFor id)) (now + input.lease)) due closed (isDue ▸ selected_nodup _ _ _ _) id
  cases exhausted : row.exhausted now with
  | true =>
    have isClosed : id ∈ expired := isExpired ▸ mem_selected_of_room room found free (by simp [exhausted, isWanted])
    rw [if_pos isClosed, found] at closes
    have notDue : id ∉ due := by
      intro member
      obtain ⟨-, other, isOther, asks⟩ := mem_selected (isDue ▸ member)
      obtain rfl := Option.some.inj (closes.symm.trans isOther)
      rw [not_due_leaseExpired] at asks
      exact Bool.false_ne_true asks
    rw [if_neg notDue, closes] at hands
    exact .inr hands
  | false =>
    have isDueRow : row.due now = true := asked.resolve_right (by simp [exhausted])
    have notClosed : id ∉ expired := by
      intro member
      obtain ⟨-, other, isOther, asks⟩ := mem_selected (isExpired ▸ member)
      obtain rfl := Option.some.inj (found.symm.trans isOther)
      rw [exhausted] at asks
      exact Bool.false_ne_true asks
    rw [if_neg notClosed, found] at closes
    have handed : id ∈ due := isDue ▸ mem_selected_of_room (same ▸ room) closes free (by simp [isDueRow, isWanted])
    rw [if_pos handed, closes] at hands
    exact .inl ⟨claimedJob id (tokenFor id) _, List.mem_filterMap.mpr ⟨id, handed, congrArg (Option.map (claimedJob id (tokenFor id))) hands⟩, rfl⟩

end Asking

section Stranded
variable {N : Type} [JsNumber N] {options : WorkerOptions N} {labels : List (Nat × Event N)} {state : Parties.State Nat (Shared N) (Phase N)}

omit [JsNumber N] in
/-- A row that is unfinished is asked for once it is available, or once its lease is over. -/
theorem asked_of_unfinished {row : JobRow N} (shape : statusShape row = true) (unfinished : closed row = false)
    {now : Timestamp} (available : row.availableAt ≤ now) (expired : ∀ time ∈ row.leaseUntil, time < now) : row.due now = true ∨ row.exhausted now = true := by
  cases isStatus : row.status with
  | queued => exact .inl (by simp [JobRow.due, isStatus, available])
  | running =>
    simp only [statusShape, isStatus, Bool.and_eq_true] at shape
    obtain ⟨time, isTime⟩ := Option.isSome_iff_exists.mp shape.1.1
    have lapsed : row.expired now = true := by simp [JobRow.expired, isStatus, isTime, expired time isTime]
    by_cases spent : row.maxAttempts ≤ row.attempts
    · exact .inr (by simp [JobRow.exhausted, lapsed, spent])
    · exact .inl (by simp [JobRow.due, lapsed, isStatus, not_le.mp spent])
  | _ => simp [closed, isStatus] at unfinished

/-- In every state that a run reaches the table admits every row. -/
theorem rows_admitted (runs : Parties.Runs (Parties.performs (perform options)) initial labels state) :
    ∀ id row, state.shared.jobs.get? id = some row → Admitted row := admitted_of_runs runs

/-- No job is stranded: in every state that a run reaches, from some time on, a claim with room for all rows hands every unfinished
one out that no transaction holds, or closes it. -/
theorem none_stranded (runs : Parties.Runs (Parties.performs (perform options)) initial labels state) :
    ∃ start : Timestamp, ∀ now ≥ start, ∀ (tokenFor : Text → Text) (input : ClaimJobsInput),
      0 < input.limit ∧ 0 < input.lease ∧ input.kinds ≠ some [] → state.shared.jobs.keys.length ≤ input.limit →
      ∃ jobs after, claimJobs options.hashClaimToken (fun id => (state.shared.locks id).isSome) tokenFor now input state.shared.jobs = some (jobs, after) ∧
        ∀ id row, state.shared.jobs.get? id = some row → closed row = false → state.shared.locks id = none →
          (input.kinds.all fun kinds => kinds.contains row.kind) = true → (∃ job ∈ jobs, job.id = id) ∨ after.get? id = some (row.leaseExpired now) := by
  obtain ⟨bound, above⟩ := (state.shared.jobs.entries.map fun entry => max entry.2.availableAt (entry.2.leaseUntil.getD 0)).toFinset.exists_le
  refine ⟨bound + 1, fun now late tokenFor input valid room => ?_⟩
  obtain ⟨jobs, after, claims, all⟩ := claims_all valid room
  refine ⟨jobs, after, claims, fun id row found unfinished free ofKind => all id row found (by simp [free]) ofKind ?_⟩
  have early := above _ (List.mem_toFinset.mpr (List.mem_map_of_mem (OrderedMap.mem_of_get? found)))
  have later : bound < now := Int.lt_of_add_one_le late
  refine asked_of_unfinished (admitted_of_runs runs id row found).shape unfinished (((le_max_left _ _).trans early).trans later.le) fun time isTime => ?_
  have lease := (le_max_right _ _).trans early
  rw [isTime, Option.getD_some] at lease
  exact lease.trans_lt later

/-- A mail is claimed, and its worker dies. -/
def abandoned : List (Nat × Event Whole) :=
  [(0, .enqueue (js "j") mailJob 0), (0, .claim (fun _ => tokenOf '0') 0 .committed), (0, .begin), (0, .die)]

theorem abandoned_played : ∃ final, Parties.play (perform mailWorker) initial abandoned = some final ∧ final.shared.jobs.keys = [js "j"] := by
  have played : (Parties.play (perform mailWorker) initial abandoned).map (fun final => final.shared.jobs.keys) = some [js "j"] := by decide +kernel
  exact Option.map_eq_some_iff.mp played

theorem rows_admitted_abandoned : ∃ final, Parties.play (perform mailWorker) initial abandoned = some final ∧
    ∀ id row, final.shared.jobs.get? id = some row → Admitted row := by
  obtain ⟨final, isFinal, -⟩ := abandoned_played
  exact ⟨final, isFinal, rows_admitted (Parties.runs_of_play _ isFinal)⟩

theorem none_stranded_abandoned : ∃ final start jobs after, Parties.play (perform mailWorker) initial abandoned = some final ∧
    claimJobs mailWorker.hashClaimToken (fun id => (final.shared.locks id).isSome) (fun _ => tokenOf '1') start ⟨1, 120000000, none⟩ final.shared.jobs = some (jobs, after) := by
  obtain ⟨final, isFinal, one⟩ := abandoned_played
  obtain ⟨start, claims⟩ := none_stranded (Parties.runs_of_play _ isFinal)
  have room : final.shared.jobs.keys.length ≤ 1 := by
    rw [one]
    rfl
  obtain ⟨jobs, after, claimed, -⟩ := claims start le_rfl (fun _ => tokenOf '1') ⟨1, 120000000, none⟩ (by decide) room
  exact ⟨final, start, jobs, after, isFinal, claimed⟩

end Stranded

end OpenShapeForge.Jobs.LiveRows
