import OpenShapeForge.Operations.CapabilityGrants

/-! How often wrong secrets are compared with the hash of one grant, over the calls that resolve
it, one after the other as they lock its row. -/

namespace OpenShapeForge.Operations.CapabilityGrants
open Js

variable {Id Recipient : Type}

/-- One call of `resolveCapabilityGrantSession` with the grant's id. -/
structure Attempt where
  secret : Text
  operation : OperationShape
  now : Time

def Attempt.on (hashGrantSecret : Text → Text) (call : Attempt) (row : Grant Id Recipient) : Grant Id Recipient × Option RefusalCode :=
  resolve hashGrantSecret row call.secret call.operation call.now

/-- The row that each call finds, with the call. -/
def found (hashGrantSecret : Text → Text) : Grant Id Recipient → List Attempt → List (Grant Id Recipient × Attempt)
  | _, [] => []
  | row, call :: rest => (row, call) :: found hashGrantSecret (call.on hashGrantSecret row).1 rest

def answers (hashGrantSecret : Text → Text) (row : Grant Id Recipient) (calls : List Attempt) : List (Option RefusalCode) :=
  (found hashGrantSecret row calls).map fun entry => (entry.2.on hashGrantSecret entry.1).2

/-- The hash that the call's secret is compared with, if any. -/
def comparison (entry : Grant Id Recipient × Attempt) : Option Text :=
  if isLocked entry.1 entry.2.now then none else some entry.1.tokenHash

def compared (entry : Grant Id Recipient × Attempt) : Bool := (comparison entry).isSome

/-- The start of the window that the call's failure counts in. -/
def windowOf (hashGrantSecret : Text → Text) (entry : Grant Id Recipient × Attempt) : Option Time :=
  if compared entry then (entry.2.on hashGrantSecret entry.1).1.windowStartedAt else none

def Wrong (hashGrantSecret : Text → Text) (row : Grant Id Recipient) (calls : List Attempt) : Prop :=
  ∀ call ∈ calls, hashGrantSecret call.secret ≠ row.tokenHash

/-- In the order of their times. -/
def InTime (calls : List Attempt) : Prop := calls.Pairwise fun earlier later => earlier.now ≤ later.now

section Calls
variable {hashGrantSecret : Text → Text} {row : Grant Id Recipient} {call : Attempt} {calls : List Attempt}

def missed (row : Grant Id Recipient) (now : Time) : Grant Id Recipient × RefusalCode :=
  if isLocked row now then (row, .locked) else recordFailedAttempt row now

theorem on_wrong (wrong : hashGrantSecret call.secret ≠ row.tokenHash) :
    call.on hashGrantSecret row = ((missed row call.now).1, some (missed row call.now).2) := by
  unfold Attempt.on resolve missed
  rw [if_pos wrong]
  split
  next => rfl
  next => rfl

@[simp] theorem missed_hash (now : Time) : (missed row now).1.tokenHash = row.tokenHash := by
  unfold missed
  split
  next => rfl
  next => rfl

theorem compared_iff (entry : Grant Id Recipient × Attempt) : compared entry = true ↔ isLocked entry.1 entry.2.now = false := by
  unfold compared comparison
  cases isLocked entry.1 entry.2.now <;> simp

theorem found_cons (wrong : Wrong hashGrantSecret row (call :: calls)) :
    found hashGrantSecret row (call :: calls) = (row, call) :: found hashGrantSecret (missed row call.now).1 calls ∧
      Wrong hashGrantSecret (missed row call.now).1 calls := by
  constructor
  · rw [found, on_wrong (wrong call List.mem_cons_self)]
  · intro other member
    rw [missed_hash]
    exact wrong other (List.mem_cons_of_mem _ member)

theorem found_calls (hashGrantSecret : Text → Text) : ∀ (row : Grant Id Recipient) (calls : List Attempt),
    (found hashGrantSecret row calls).map Prod.snd = calls
  | _, [] => rfl
  | _, call :: rest => congrArg (List.cons call) (found_calls hashGrantSecret _ rest)

end Calls

section Bound
variable {row : Grant Id Recipient} {now limit time : Time}

def allowed (span : Time) : Nat := if span < 0 then 0 else maxFailedAttempts * ((span / windowMs).toNat + 1)

theorem allowed_mono {one two : Time} (le : one ≤ two) : allowed one ≤ allowed two := by
  unfold allowed maxFailedAttempts windowMs
  unfold Time at *
  split <;> split <;> omega

theorem allowed_window {span : Time} (nonneg : 0 ≤ span) : allowed span = maxFailedAttempts + allowed (span - windowMs) := by
  unfold allowed maxFailedAttempts windowMs
  unfold Time at *
  split <;> split <;> omega

/-- How many comparisons there can be up to a time. -/
inductive Allows (limit : Time) (row : Grant Id Recipient) (now : Time) : Nat → Prop
  /-- The window may take some more, and the next one starts after it. -/
  | inWindow (start : Time) (isWindow : row.windowStartedAt = some start) (begun : start ≤ now) (fewer : row.failedAttempts < maxFailedAttempts) :
      Allows limit row now (maxFailedAttempts - row.failedAttempts + allowed (limit - (start + windowMs)))
  /-- Each comparison locks the row. -/
  | full (opens : Time) (many : maxFailedAttempts ≤ row.failedAttempts) (shut : ∀ time, now ≤ time → isLocked row time = false → opens ≤ time) :
      Allows limit row now (allowed (limit - opens))
  | anyRow : Allows limit row now (maxFailedAttempts - row.failedAttempts + allowed (limit - now))

theorem recordFailedAttempt_cases (row : Grant Id Recipient) (now : Time) :
    (∃ start, row.windowStartedAt = some start ∧ now < start + windowMs ∧ (recordFailedAttempt row now).1.windowStartedAt = some start ∧
      (recordFailedAttempt row now).1.failedAttempts = row.failedAttempts + 1) ∨
    (∀ start, row.windowStartedAt = some start → start + windowMs ≤ now) ∧ (recordFailedAttempt row now).1.windowStartedAt = some now ∧
      (recordFailedAttempt row now).1.failedAttempts = 1 := by
  unfold recordFailedAttempt
  cases row.windowStartedAt with
  | none => exact .inr ⟨fun start never => (by cases never), rfl, rfl⟩
  | some start =>
    by_cases inside : now - start < windowMs
    · refine .inl ⟨start, rfl, sub_lt_iff_lt_add'.mp inside, ?_, ?_⟩ <;> simp [Option.filter, inside]
    · refine .inr ⟨fun other same => ?_, ?_, ?_⟩
      · rw [← Option.some.inj same]
        exact le_sub_iff_add_le'.mp (not_lt.mp inside)
      all_goals simp [Option.filter, inside]

theorem recordFailedAttempt_lock (row : Grant Id Recipient) (now : Time) : (recordFailedAttempt row now).1.lockedUntil =
    if maxFailedAttempts ≤ (recordFailedAttempt row now).1.failedAttempts then some (now + lockMs) else none := by
  unfold recordFailedAttempt
  simp only [decide_eq_true_eq]

theorem locked_after {row : Grant Id Recipient} {until' time : Time} (isLock : row.lockedUntil = some until') :
    isLocked row time = false ↔ until' ≤ time := by
  unfold isLocked
  rw [isLock, decide_eq_false_iff_not, not_lt]

theorem Allows.step {most : Nat} (allows : Allows limit row now most) (later : now ≤ time) (inTime : time ≤ limit) :
    ∃ rest, Allows limit (missed row time).1 time rest ∧ (if isLocked row time then 0 else 1) + rest ≤ most := by
  unfold missed
  cases isLock : isLocked row time with
  | true =>
    simp only [if_true]
    cases allows with
    | inWindow start isWindow begun fewer => exact ⟨_, .inWindow start isWindow (begun.trans later) fewer, (Nat.zero_add _).le⟩
    | full opens many shut => exact ⟨_, .full opens many fun after le => shut after (later.trans le), (Nat.zero_add _).le⟩
    | anyRow =>
      refine ⟨_, .anyRow, ?_⟩
      rw [Nat.zero_add]
      exact Nat.add_le_add_left (allowed_mono (sub_le_sub_left later limit)) _
  | false =>
    simp only [Bool.false_eq_true, if_false]
    have budget := allowed_window (sub_nonneg.mpr inTime)
    have lockIs := recordFailedAttempt_lock row time
    rcases recordFailedAttempt_cases row time with ⟨start, isWindow, inside, window, attempts⟩ | ⟨outside, window, attempts⟩
    · by_cases locks : maxFailedAttempts ≤ row.failedAttempts + 1
      -- the failure locks the row for as long as a window
      · rw [attempts, if_pos locks] at lockIs
        refine ⟨_, .full (time + lockMs) (attempts ▸ locks) fun after _ opens => (locked_after lockIs).mp opens, ?_⟩
        have spent : allowed (limit - (time + lockMs)) = allowed (limit - time - windowMs) := by rw [← sub_sub]; rfl
        rw [spent]
        cases allows with
        | inWindow other isOther begun fewer =>
          have mono : allowed (limit - time - windowMs) ≤ allowed (limit - (other + windowMs)) := by
            refine allowed_mono ?_
            rw [sub_sub]
            exact sub_le_sub_left (add_le_add_left (begun.trans later) windowMs) limit
          omega
        | full opens many shut =>
          have mono := allowed_mono (sub_le_sub_left (shut time later isLock) limit)
          unfold maxFailedAttempts at *
          omega
        | anyRow =>
          have mono := allowed_mono (sub_le_sub_left later limit)
          unfold maxFailedAttempts at *
          omega
      · have fewer : (recordFailedAttempt row time).1.failedAttempts < maxFailedAttempts := attempts ▸ not_le.mp locks
        cases allows with
        | inWindow other isOther begun fewer' =>
          obtain rfl : start = other := Option.some.inj (isWindow.symm.trans isOther)
          refine ⟨_, .inWindow start window (begun.trans later) fewer, ?_⟩
          omega
        | full opens many shut => exact absurd (many.trans (Nat.le_succ _)) locks
        | anyRow =>
          have mono := allowed_mono (sub_le_sub_left later limit)
          refine ⟨_, .anyRow, ?_⟩
          omega
    -- a new window starts
    · have few : (recordFailedAttempt row time).1.failedAttempts < maxFailedAttempts := attempts ▸ (by decide)
      refine ⟨_, .inWindow time window le_rfl few, ?_⟩
      rw [attempts, ← sub_sub]
      have whole : 1 + (maxFailedAttempts - 1 + allowed (limit - time - windowMs)) = allowed (limit - time) := by
        rw [budget]
        unfold maxFailedAttempts
        omega
      rw [whole]
      cases allows with
      | inWindow start isWindow begun fewer =>
        exact (allowed_mono (sub_le_sub_left (outside start isWindow) limit)).trans (Nat.le_add_left _ _)
      | full opens many shut => exact allowed_mono (sub_le_sub_left (shut time later isLock) limit)
      | anyRow => exact (allowed_mono (sub_le_sub_left later limit)).trans (Nat.le_add_left _ _)

end Bound

section Runs
variable {hashGrantSecret : Text → Text} {row : Grant Id Recipient} {calls : List Attempt} {now limit : Time}

def comparedIn (first last : Time) (entry : Grant Id Recipient × Attempt) : Bool :=
  compared entry && decide (first ≤ entry.2.now ∧ entry.2.now ≤ last)

theorem InTime.tail {call : Attempt} (inTime : InTime (call :: calls)) : InTime calls := (List.pairwise_cons.mp inTime).2

theorem InTime.head_le {call : Attempt} (inTime : InTime (call :: calls)) : ∀ other ∈ calls, call.now ≤ other.now := (List.pairwise_cons.mp inTime).1

theorem found_member {entry : Grant Id Recipient × Attempt} (member : entry ∈ found hashGrantSecret row calls) : entry.2 ∈ calls :=
  found_calls hashGrantSecret row calls ▸ List.mem_map_of_mem member

theorem found_before {first last : Time} (outside : ∀ call ∈ calls, last < call.now) :
    (found hashGrantSecret row calls).countP (comparedIn first last) = 0 := by
  refine List.countP_eq_zero.mpr fun entry member counts => ?_
  unfold comparedIn at counts
  rw [Bool.and_eq_true, decide_eq_true_eq] at counts
  exact absurd counts.2.2 (not_le.mpr (outside entry.2 (found_member member)))

theorem Allows.run (first : Time) : ∀ {calls : List Attempt} {row : Grant Id Recipient} {now : Time} {most : Nat}, Allows limit row now most →
    (∀ call ∈ calls, now ≤ call.now) → InTime calls → Wrong hashGrantSecret row calls →
    (found hashGrantSecret row calls).countP (comparedIn first limit) ≤ most
  | [], _, _, _, _, _, _, _ => Nat.zero_le _
  | call :: rest, row, now, most, allows, after, inTime, wrong => by
    obtain ⟨whole, restWrong⟩ := found_cons wrong
    by_cases within : call.now ≤ limit
    · obtain ⟨fewer, allowsRest, bound⟩ := allows.step (after call List.mem_cons_self) within
      have later := allowsRest.run first inTime.head_le inTime.tail restWrong
      have own : (if comparedIn first limit (row, call) = true then 1 else 0) ≤ if isLocked row call.now then 0 else 1 := by
        by_cases counts : comparedIn first limit (row, call) = true
        · have opens : isLocked row call.now = false := (compared_iff (row, call)).mp (Bool.and_eq_true_iff.mp counts).1
          rw [if_pos counts, opens]
          exact le_rfl
        · rw [if_neg counts]
          exact Nat.zero_le _
      rw [whole, List.countP_cons]
      omega
    · have outside : ∀ other ∈ call :: rest, limit < other.now :=
        List.forall_mem_cons.mpr ⟨not_le.mp within, fun other member => (not_le.mp within).trans_le (inTime.head_le other member)⟩
      exact (found_before outside).le.trans (Nat.zero_le _)

def countIn (hashGrantSecret : Text → Text) (start : Time) (entries : List (Grant Id Recipient × Attempt)) : Nat :=
  entries.countP fun entry => decide (windowOf hashGrantSecret entry = some start)

def Counts (hashGrantSecret : Text → Text) (past : List (Grant Id Recipient × Attempt)) (row : Grant Id Recipient) : Prop :=
  ∀ start, 0 < countIn hashGrantSecret start past →
    ∃ own, row.windowStartedAt = some own ∧ start ≤ own ∧ (start = own → countIn hashGrantSecret start past ≤ row.failedAttempts)

theorem countIn_concat (start : Time) (past : List (Grant Id Recipient × Attempt)) (entry : Grant Id Recipient × Attempt) :
    countIn hashGrantSecret start (past ++ [entry]) =
      countIn hashGrantSecret start past + if windowOf hashGrantSecret entry = some start then 1 else 0 := by
  unfold countIn
  rw [List.countP_append, List.countP_singleton]
  simp only [decide_eq_true_eq]

theorem windowOf_wrong {entry : Grant Id Recipient × Attempt} (wrong : hashGrantSecret entry.2.secret ≠ entry.1.tokenHash) :
    windowOf hashGrantSecret entry = if isLocked entry.1 entry.2.now then none else (recordFailedAttempt entry.1 entry.2.now).1.windowStartedAt := by
  unfold windowOf compared comparison
  rw [on_wrong wrong]
  unfold missed
  cases isLocked entry.1 entry.2.now <;> rfl

theorem Counts.step {past : List (Grant Id Recipient × Attempt)} {entry : Grant Id Recipient × Attempt} (counts : Counts hashGrantSecret past entry.1)
    (wrong : hashGrantSecret entry.2.secret ≠ entry.1.tokenHash) : Counts hashGrantSecret (past ++ [entry]) (missed entry.1 entry.2.now).1 := by
  intro start some
  rw [countIn_concat, windowOf_wrong wrong] at *
  unfold missed
  cases isLock : isLocked entry.1 entry.2.now with
  | true =>
    simp only [isLock, if_true, reduceCtorEq, if_false, Nat.add_zero] at some ⊢
    exact counts start some
  | false =>
    simp only [isLock, Bool.false_eq_true, if_false] at some ⊢
    rcases recordFailedAttempt_cases entry.1 entry.2.now with ⟨own, isWindow, -, window, attempts⟩ | ⟨outside, window, attempts⟩
    · rw [window, attempts]
      by_cases same : own = start
      · refine ⟨own, rfl, same.ge, fun _ => ?_⟩
        rw [if_pos (congrArg Option.some same)]
        by_cases earlier : 0 < countIn hashGrantSecret start past
        · obtain ⟨other, isOther, -, most⟩ := counts start earlier
          have isOwn : start = other := same.symm.trans (Option.some.inj (isWindow.symm.trans isOther))
          exact Nat.add_le_add_right (most isOwn) 1
        · omega
      · rw [window, if_neg fun isStart => same (Option.some.inj isStart), Nat.add_zero] at some
        obtain ⟨other, isOther, le, -⟩ := counts start some
        have isOwn : own = other := Option.some.inj (isWindow.symm.trans isOther)
        exact ⟨own, rfl, isOwn ▸ le, fun isStart => absurd isStart.symm same⟩
    · rw [window, attempts]
      have noneAt : ∀ at', countIn hashGrantSecret at' past ≠ 0 → at' < entry.2.now := by
        intro at' earlier
        obtain ⟨other, isOther, le, -⟩ := counts at' (Nat.pos_of_ne_zero earlier)
        exact le.trans_lt ((lt_add_of_pos_right other (by decide)).trans_le (outside other isOther))
      by_cases same : entry.2.now = start
      · refine ⟨entry.2.now, rfl, same.ge, fun _ => ?_⟩
        rw [if_pos (congrArg Option.some same)]
        by_cases earlier : countIn hashGrantSecret start past = 0
        · rw [earlier]
        · exact absurd (noneAt start earlier) (same ▸ lt_irrefl _)
      · rw [window, if_neg fun isStart => same (Option.some.inj isStart), Nat.add_zero] at some
        exact ⟨entry.2.now, rfl, (noneAt start some.ne').le, fun isStart => absurd isStart.symm same⟩

theorem Counts.run : ∀ {past before : List (Grant Id Recipient × Attempt)} {calls : List Attempt} {row : Grant Id Recipient}
    {entry : Grant Id Recipient × Attempt} {future : List (Grant Id Recipient × Attempt)}, Counts hashGrantSecret before row →
    found hashGrantSecret row calls = past ++ entry :: future → Wrong hashGrantSecret row calls → Counts hashGrantSecret (before ++ past) entry.1
  | past, _, [], _, _, _, _, split, _ => absurd split (by simp [found])
  | [], before, call :: rest, row, entry, future, counts, split, wrong => by
    obtain ⟨rfl, -⟩ := List.cons.inj split
    rw [List.append_nil]
    exact counts
  | head :: past, before, call :: rest, row, entry, future, counts, split, wrong => by
    obtain ⟨whole, restWrong⟩ := found_cons wrong
    obtain ⟨rfl, isRest⟩ := List.cons.inj (whole.symm.trans split)
    have after : Counts hashGrantSecret (before ++ [(row, call)]) (missed row call.now).1 := Counts.step counts (wrong call List.mem_cons_self)
    have later := after.run isRest restWrong
    rwa [List.append_assoc, List.singleton_append] at later

end Runs

def guess (now : Time) : Attempt := ⟨js "guess", ⟨js "envelopes.envelope.sign", none⟩, now⟩

/-- The last failure in that window, five when its lock ends and one while they lock the row again. -/
def guesses : List Attempt := [899998, 1799998, 1799998, 1799998, 1799998, 1799998, 1799999].map guess

end OpenShapeForge.Operations.CapabilityGrants
