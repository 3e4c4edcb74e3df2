import Mathlib.Data.List.Pairwise
import OpenShapeForge.Connectors.ConcurrencyLimiter

/-! What holds of the limiter's slots and of its queues between any two events, and how
each change of one call keeps it. -/

namespace OpenShapeForge.Connectors.ConcurrencyLimiter
open Library

section Lookups
variable {α : Type} {entries : List α} {place other : Nat} {before after found : α}

theorem lookup_set (here : entries[place]? = some before) (at_other : (entries.set place after)[other]? = some found) :
    other = place ∧ found = after ∨ other ≠ place ∧ entries[other]? = some found := by
  by_cases same : other = place
  · subst same
    rw [List.getElem?_set_self (List.getElem?_eq_some_iff.mp here).1] at at_other
    exact .inl ⟨rfl, (Option.some.inj at_other).symm⟩
  · rw [List.getElem?_set_ne (Ne.symm same)] at at_other
    exact .inr ⟨same, at_other⟩

theorem lookup_set_self (here : entries[place]? = some before) : (entries.set place after)[place]? = some after :=
  List.getElem?_set_self (List.getElem?_eq_some_iff.mp here).1

theorem lookup_set_other (apart : other ≠ place) : (entries.set place after)[other]? = entries[other]? :=
  List.getElem?_set_ne (Ne.symm apart)

theorem lookup_push (at_other : (entries ++ [after])[other]? = some found) :
    other = entries.length ∧ found = after ∨ other < entries.length ∧ entries[other]? = some found := by
  rcases Nat.lt_trichotomy other entries.length with inside | rfl | outside
  · rw [List.getElem?_append_left inside] at at_other
    exact .inr ⟨inside, at_other⟩
  · rw [List.getElem?_concat_length] at at_other
    exact .inl ⟨rfl, (Option.some.inj at_other).symm⟩
  · rw [List.getElem?_eq_none (by simp; omega)] at at_other
    cases at_other

theorem lookup_kept (here : entries[place]? = some found) : (entries ++ [after])[place]? = some found := by
  rw [List.getElem?_append_left (List.getElem?_eq_some_iff.mp here).1, here]

theorem lookup_lt (here : entries[place]? = some found) : place < entries.length :=
  (List.getElem?_eq_some_iff.mp here).1

end Lookups

section Invariants
variable {Key Signal Reason : Type}

/-- The release function a call was given: a queued one with its grant, any other with
its result. -/
def Call.slot : Call Key Signal Reason → Option Nat
  | { ownWaiter := some waiter, .. } => waiter.release
  | { ownWaiter := none, outcome := .resolved release, .. } => some release
  | _ => none

/-- What a call can look like, from its arrival on. -/
inductive Call.Shape (reason : Option Signal → Option Reason) : Call Key Signal Reason → Prop
  | refused {key signal why} : reason signal = some why → Shape reason ⟨key, signal, none, .rejected (some why)⟩
  | immediate {key signal release} : Shape reason ⟨key, signal, none, .resolved release⟩
  | queued {key signal array} :
      Shape reason ⟨key, signal, some ⟨.pending, .queued, none, signal.isSome, array⟩, .pending⟩
  | granted {key signal array release} :
      Shape reason ⟨key, signal, some ⟨.resolved release, .granted, some release, signal.isSome, array⟩, .pending⟩
  | accepted {key signal array release} :
      Shape reason ⟨key, signal, some ⟨.resolved release, .accepted, some release, false, array⟩, .resolved release⟩
  | skipped {key signal array armed outcome why} : reason signal = some why →
      outcome = .pending ∨ outcome = .rejected (some why) →
      Shape reason ⟨key, signal, some ⟨.rejected (some why), .cancelled, none, armed, array⟩, outcome⟩
  | returned {key signal array armed release outcome why} : reason signal = some why →
      outcome = .pending ∨ outcome = .rejected (some why) →
      Shape reason ⟨key, signal, some ⟨.resolved release, .cancelled, some release, armed, array⟩, outcome⟩

variable [DecidableEq Key]

def ReleaseOnce.holds (key : Key) (made : ReleaseOnce Key) : Bool := made.key = key && !made.released

/-- How many slots of a key were given and not given back. -/
def State.held (state : State Key Signal Reason) (key : Key) : Nat := state.releases.countP (ReleaseOnce.holds key)

/-- A slot that is given back and not yet counted down or handed on. -/
def spareOf (spare : Option Key) (key : Key) : Nat := if spare = some key then 1 else 0

structure Slots (spare : Option Key) (state : State Key Signal Reason) : Prop where
  counted : ∀ key, state.active key = state.held key + spareOf spare key
  owned : ∀ {id : Nat} {call : Call Key Signal Reason} {slot : Nat}, state.calls[id]? = some call → call.slot = some slot → ∃ made, state.releases[slot]? = some made ∧
    made.key = call.key ∧ (call.waiterState = some .granted → made.released = false) ∧
    (call.waiterState = some .cancelled → made.released = true)
  single : ∀ {id other : Nat} {call second : Call Key Signal Reason} {slot : Nat}, state.calls[id]? = some call → state.calls[other]? = some second →
    call.slot = some slot → second.slot = some slot → id = other
  held : ∀ {slot : Nat}, slot < state.releases.length → ∃ (id : Nat) (call : Call Key Signal Reason), state.calls[id]? = some call ∧ call.slot = some slot

structure Queues (state : State Key Signal Reason) : Prop where
  waits : ∀ {id : Nat} {call : Call Key Signal Reason} {waiter : ConcurrencyWaiter Reason}, state.calls[id]? = some call → call.ownWaiter = some waiter → waiter.state = .queued →
    state.waiting call.key = some waiter.queue ∧ id ∈ state.arrays waiter.queue
  ordered : ∀ {key : Key} {array : Nat}, state.waiting key = some array → (state.arrays array).Pairwise (· < ·)
  listed : ∀ {key : Key} {array id : Nat}, state.waiting key = some array → id ∈ state.arrays array →
    ∃ call : Call Key Signal Reason, state.calls[id]? = some call ∧ call.key = key ∧ call.waiterState = some .queued
  made : ∀ {key : Key} {array : Nat}, state.waiting key = some array → ∃ call : Call Key Signal Reason, state.calls[array]? = some call ∧ call.key = key

/-- What holds between any two events, and with a slot to spare inside of one. -/
structure Sound (spare : Option Key) (state : State Key Signal Reason) : Prop where
  shaped : ∀ {id : Nat} {call : Call Key Signal Reason}, state.calls[id]? = some call → call.Shape state.reason
  slots : Slots spare state
  queues : Queues state

/-- A key's limit is kept, its calls queue only for a slot that is taken, and none of
them was given one before an earlier call that still waits. -/
structure Fair (key : Key) (limit : Nat) (state : State Key Signal Reason) : Prop where
  within : state.active key ≤ limit
  full : ∀ {id : Nat} {call : Call Key Signal Reason}, state.calls[id]? = some call → call.key = key → call.waiterState = some .queued → limit ≤ state.active key
  order : ∀ {earlier later : Nat} {call second : Call Key Signal Reason}, earlier < later → state.calls[earlier]? = some call → state.calls[later]? = some second →
    call.key = key → second.key = key → call.waiterState = some .queued → second.slot = none

end Invariants

section Slots
variable {Key Signal Reason : Type} [DecidableEq Key] {state : State Key Signal Reason} {spare : Option Key} {key : Key}
  {id release : Nat} {call replaced : Call Key Signal Reason} {made : ReleaseOnce Key}

theorem Slots.congr {next : State Key Signal Reason} (slots : Slots spare state) (inFlight : next.inFlight = state.inFlight)
    (releases : next.releases = state.releases) (calls : next.calls = state.calls) : Slots spare next := by
  have sameActive : ∀ key, next.active key = state.active key := fun key => congrArg (Option.getD · 0) (congrFun inFlight key)
  have sameHeld : ∀ key, next.held key = state.held key := fun key => congrArg (List.countP (ReleaseOnce.holds key)) releases
  refine ⟨fun key => ?_, ?_, ?_, ?_⟩
  · rw [sameActive, sameHeld]
    exact slots.counted key
  · rw [calls, releases]
    exact slots.owned
  · rw [calls]
    exact slots.single
  · rw [calls, releases]
    exact slots.held

theorem Slots.replace (slots : Slots spare state) (here : state.calls[id]? = some call) (sameKey : replaced.key = call.key)
    (sameSlot : replaced.slot = call.slot) (granted : replaced.waiterState = some .granted → call.waiterState = some .granted)
    (cancelled : replaced.waiterState = some .cancelled → replaced.slot = none ∨ call.waiterState = some .cancelled) :
    Slots spare { state with calls := state.calls.set id replaced } where
  counted := slots.counted
  owned := by
    intro place found slot looked has
    rcases lookup_set here looked with ⟨rfl, rfl⟩ | ⟨_, looked⟩
    · obtain ⟨made, isMade, isKey, free, spent⟩ := slots.owned here (sameSlot ▸ has)
      refine ⟨made, isMade, isKey.trans sameKey.symm, fun is => free (granted is), fun is => ?_⟩
      rcases cancelled is with none | was
      · rw [none] at has
        cases has
      · exact spent was
    · exact slots.owned looked has
  single := by
    intro place other found second slot looked lookedToo has hasToo
    rcases lookup_set here looked with ⟨rfl, rfl⟩ | ⟨_, was⟩ <;> rcases lookup_set here lookedToo with ⟨rfl, rfl⟩ | ⟨_, wasToo⟩
    · rfl
    · exact slots.single here wasToo (sameSlot ▸ has) hasToo
    · exact slots.single was here has (sameSlot ▸ hasToo)
    · exact slots.single was wasToo has hasToo
  held := by
    intro slot inside
    obtain ⟨place, found, looked, has⟩ := slots.held inside
    by_cases same : place = id
    · subst same
      have isCall : found = call := Option.some.inj (looked.symm.trans here)
      exact ⟨place, replaced, lookup_set_self here, sameSlot.trans (isCall ▸ has)⟩
    · exact ⟨place, found, (lookup_set_other same).trans looked, has⟩

theorem Slots.push (slots : Slots spare state) (without : call.slot = none) :
    Slots spare { state with calls := state.calls ++ [call] } where
  counted := slots.counted
  owned := by
    intro place found slot looked has
    rcases lookup_push looked with ⟨_, rfl⟩ | ⟨_, looked⟩
    · rw [without] at has
      cases has
    · exact slots.owned looked has
  single := by
    intro place other found second slot looked lookedToo has hasToo
    rcases lookup_push looked with ⟨_, rfl⟩ | ⟨_, looked⟩
    · rw [without] at has
      cases has
    · rcases lookup_push lookedToo with ⟨_, rfl⟩ | ⟨_, lookedToo⟩
      · rw [without] at hasToo
        cases hasToo
      · exact slots.single looked lookedToo has hasToo
  held := by
    intro slot inside
    obtain ⟨place, found, looked, has⟩ := slots.held inside
    exact ⟨place, found, lookup_kept looked, has⟩

theorem Slots.grant (slots : Slots (some call.key) state) (here : state.calls[id]? = some call) (without : call.slot = none)
    (sameKey : replaced.key = call.key) (given : replaced.slot = some state.releases.length)
    (kept : replaced.waiterState ≠ some .cancelled) :
    Slots none { state with releases := state.releases ++ [⟨call.key, false⟩], calls := state.calls.set id replaced } where
  counted := by
    intro key
    have before := slots.counted key
    change state.active key = (state.releases ++ [(⟨call.key, false⟩ : ReleaseOnce Key)]).countP (ReleaseOnce.holds key) + 0
    rw [before, List.countP_append, List.countP_singleton]
    by_cases same : call.key = key
    · subst same
      simp [spareOf, ReleaseOnce.holds, State.held]
    · simp [spareOf, ReleaseOnce.holds, State.held, same]
  owned := by
    intro place found slot looked has
    rcases lookup_set here looked with ⟨rfl, rfl⟩ | ⟨_, was⟩
    · have isNew : state.releases.length = slot := Option.some.inj (given.symm.trans has)
      subst isNew
      exact ⟨⟨call.key, false⟩, List.getElem?_concat_length, sameKey.symm, fun _ => rfl, fun is => absurd is kept⟩
    · obtain ⟨made, isMade, rest⟩ := slots.owned was has
      exact ⟨made, lookup_kept isMade, rest⟩
  single := by
    have fresh : ∀ {place : Nat} {found : Call Key Signal Reason}, state.calls[place]? = some found → found.slot ≠ some state.releases.length := by
      intro place found looked has
      obtain ⟨made, isMade, _⟩ := slots.owned looked has
      exact absurd (lookup_lt isMade) (Nat.lt_irrefl _)
    intro place other found second slot looked lookedToo has hasToo
    rcases lookup_set here looked with ⟨rfl, rfl⟩ | ⟨_, was⟩ <;> rcases lookup_set here lookedToo with ⟨rfl, rfl⟩ | ⟨_, wasToo⟩
    · rfl
    · exact absurd (hasToo.trans (has.symm.trans given)) (fresh wasToo)
    · exact absurd (has.trans (hasToo.symm.trans given)) (fresh was)
    · exact slots.single was wasToo has hasToo
  held := by
    intro slot inside
    rcases Nat.lt_or_eq_of_le (Nat.le_of_lt_succ (by simpa using inside)) with old | rfl
    · obtain ⟨place, found, looked, has⟩ := slots.held old
      have apart : place ≠ id := by
        rintro rfl
        have isCall : found = call := Option.some.inj (looked.symm.trans here)
        rw [isCall, without] at has
        cases has
      exact ⟨place, found, (lookup_set_other apart).trans looked, has⟩
    · exact ⟨id, replaced, lookup_set_self here, given⟩

theorem Slots.give (slots : Slots none state) (here : state.calls[id]? = some call) (has : call.slot = some release)
    (isMade : state.releases[release]? = some ⟨call.key, false⟩) (sameKey : replaced.key = call.key)
    (sameSlot : replaced.slot = call.slot) (left : replaced.waiterState ≠ some .granted) :
    Slots (some call.key)
      { state with releases := state.releases.set release ⟨call.key, true⟩, calls := state.calls.set id replaced } where
  counted := by
    intro key
    have before := slots.counted key
    change state.active key = (state.releases.set release ⟨call.key, true⟩).countP (ReleaseOnce.holds key) + spareOf (some call.key) key
    have inside := lookup_lt isMade
    have isLooked : state.releases[release] = ⟨call.key, false⟩ := Option.some.inj ((List.getElem?_eq_getElem inside).symm.trans isMade)
    have some_held : (if ReleaseOnce.holds key state.releases[release] then 1 else 0) ≤ state.held key :=
      List.boole_getElem_le_countP (p := ReleaseOnce.holds key) inside
    rw [before, List.countP_set inside]
    rw [isLooked] at some_held ⊢
    by_cases same : call.key = key
    · subst same
      simp only [ReleaseOnce.holds, State.held, spareOf, decide_true, Bool.not_false, Bool.not_true, Bool.and_true, Bool.and_false,
        Bool.false_eq_true, if_true, if_false, reduceCtorEq] at some_held ⊢
      omega
    · simp [ReleaseOnce.holds, State.held, spareOf, same]
  owned := by
    intro place found slot looked has'
    rcases lookup_set here looked with ⟨rfl, rfl⟩ | ⟨apart, was⟩
    · have isSlot : release = slot := Option.some.inj (has.symm.trans (sameSlot ▸ has'))
      subst isSlot
      exact ⟨⟨call.key, true⟩, lookup_set_self isMade, sameKey.symm, fun is => absurd is left, fun _ => rfl⟩
    · obtain ⟨made, wasMade, rest⟩ := slots.owned was has'
      have other : slot ≠ release := by
        rintro rfl
        exact apart (slots.single was here has' has)
      exact ⟨made, (lookup_set_other other).trans wasMade, rest⟩
  single := by
    intro place other found second slot looked lookedToo has' hasToo
    rcases lookup_set here looked with ⟨rfl, rfl⟩ | ⟨_, was⟩ <;> rcases lookup_set here lookedToo with ⟨rfl, rfl⟩ | ⟨_, wasToo⟩
    · rfl
    · exact slots.single here wasToo (sameSlot ▸ has') hasToo
    · exact slots.single was here has' (sameSlot ▸ hasToo)
    · exact slots.single was wasToo has' hasToo
  held := by
    intro slot inside
    obtain ⟨place, found, looked, has'⟩ := slots.held (by simpa using inside)
    by_cases same : place = id
    · subst same
      have isCall : found = call := Option.some.inj (looked.symm.trans here)
      exact ⟨place, replaced, lookup_set_self here, sameSlot.trans (isCall ▸ has')⟩
    · exact ⟨place, found, (lookup_set_other same).trans looked, has'⟩

theorem Slots.countUp (slots : Slots none state) :
    Slots (some key) { state with inFlight := Function.update state.inFlight key (some (state.active key + 1)) } where
  counted := by
    intro other
    have before := slots.counted other
    by_cases same : other = key
    · subst same
      simpa [State.active, State.held, spareOf] using before
    · simpa [State.active, State.held, spareOf, same, Ne.symm same] using before
  owned := slots.owned
  single := slots.single
  held := slots.held

theorem active_countDown (counted : state.active key = state.held key + 1) (other : Key) :
    (state.countDown key).active other = if other = key then state.active key - 1 else state.active other := by
  have there : state.inFlight key = some (state.held key + 1) := by
    unfold State.active at counted
    cases count : state.inFlight key with
    | none =>
      rw [count] at counted
      simp at counted
    | some value =>
      rw [count] at counted
      exact congrArg some counted
  by_cases same : other = key
  · subst same
    rw [if_pos rfl]
    unfold State.countDown State.active
    dsimp only
    rw [Function.update_self, there, Option.getD_some, Option.getD_some]
    split
    next low => simp; omega
    next => rfl
  · rw [if_neg same]
    unfold State.countDown State.active
    dsimp only
    rw [Function.update_of_ne same]

theorem Slots.countDown (slots : Slots (some key) state) : Slots none (state.countDown key) where
  counted := by
    intro other
    have before := slots.counted other
    have freed : state.active key = state.held key + 1 := by
      simpa [spareOf] using slots.counted key
    change _ = state.held other + 0
    rw [active_countDown freed]
    split
    next same =>
      subst same
      omega
    next apart => simpa [spareOf, Ne.symm apart] using before
  owned := slots.owned
  single := slots.single
  held := slots.held

end Slots

section Queues
variable {Key Signal Reason : Type} {state : State Key Signal Reason} {key : Key} {id array : Nat}
  {call replaced : Call Key Signal Reason} {waiter : ConcurrencyWaiter Reason} {signal : Option Signal}

theorem waiterState_eq (own : call.ownWaiter = some waiter) : call.waiterState = some waiter.state := by
  rw [Call.waiterState, own]
  rfl

theorem Queues.key_of_array (queues : Queues state) {other : Key} (one : state.waiting key = some array)
    (two : state.waiting other = some array) : key = other := by
  obtain ⟨call, looked, isKey⟩ := queues.made one
  obtain ⟨second, lookedToo, isOther⟩ := queues.made two
  have same : call = second := Option.some.inj (looked.symm.trans lookedToo)
  rw [← isKey, ← isOther, same]

theorem Queues.replace (queues : Queues state) (here : state.calls[id]? = some call) (sameKey : replaced.key = call.key)
    (before : call.waiterState ≠ some .queued) (after : replaced.waiterState ≠ some .queued) :
    Queues { state with calls := state.calls.set id replaced } where
  waits := by
    intro place found waiter looked own queued
    rcases lookup_set here looked with ⟨rfl, rfl⟩ | ⟨_, was⟩
    · exact absurd (queued ▸ waiterState_eq own) after
    · exact queues.waits was own queued
  ordered := queues.ordered
  listed := by
    intro other array place waits member
    obtain ⟨found, looked, isKey, queued⟩ := queues.listed waits member
    have apart : place ≠ id := by
      rintro rfl
      exact before (Option.some.inj (looked.symm.trans here) ▸ queued)
    exact ⟨found, (lookup_set_other apart).trans looked, isKey, queued⟩
  made := by
    intro other array waits
    obtain ⟨found, looked, isKey⟩ := queues.made waits
    by_cases same : array = id
    · subst same
      have isCall : found = call := Option.some.inj (looked.symm.trans here)
      exact ⟨replaced, lookup_set_self here, sameKey.trans (isCall ▸ isKey)⟩
    · exact ⟨found, (lookup_set_other same).trans looked, isKey⟩

theorem Queues.leave (queues : Queues state) (here : state.calls[id]? = some call) (own : call.ownWaiter = some waiter)
    (queued : waiter.state = .queued) (sameKey : replaced.key = call.key) (after : replaced.waiterState ≠ some .queued) :
    Queues { state with
      arrays := Function.update state.arrays waiter.queue ((state.arrays waiter.queue).erase id)
      calls := state.calls.set id replaced } where
  waits := by
    intro place found other looked ownToo queuedToo
    rcases lookup_set here looked with ⟨rfl, rfl⟩ | ⟨apart, was⟩
    · exact absurd (queuedToo ▸ waiterState_eq ownToo) after
    · obtain ⟨waits, member⟩ := queues.waits was ownToo queuedToo
      refine ⟨waits, ?_⟩
      change place ∈ Function.update state.arrays waiter.queue ((state.arrays waiter.queue).erase id) other.queue
      by_cases same : other.queue = waiter.queue
      · rw [same, Function.update_self]
        exact (List.mem_erase_of_ne apart).mpr (same ▸ member)
      · rw [Function.update_of_ne same]
        exact member
  ordered := by
    intro other array waits
    change (Function.update state.arrays waiter.queue ((state.arrays waiter.queue).erase id) array).Pairwise (· < ·)
    by_cases same : array = waiter.queue
    · subst same
      rw [Function.update_self]
      exact (queues.ordered waits).sublist List.erase_sublist
    · rw [Function.update_of_ne same]
      exact queues.ordered waits
  listed := by
    intro other array place waits member
    have earlier : place ∈ state.arrays array ∧ place ≠ id := by
      change place ∈ Function.update state.arrays waiter.queue ((state.arrays waiter.queue).erase id) array at member
      by_cases same : array = waiter.queue
      · subst same
        rw [Function.update_self] at member
        have distinct : (state.arrays waiter.queue).Nodup := (queues.ordered waits).imp Nat.ne_of_lt
        exact ⟨List.mem_of_mem_erase member, (distinct.mem_erase_iff.mp member).1⟩
      · rw [Function.update_of_ne same] at member
        refine ⟨member, ?_⟩
        rintro rfl
        obtain ⟨found, looked, isKey, _⟩ := queues.listed waits member
        have isCall : found = call := Option.some.inj (looked.symm.trans here)
        have own_array := (queues.waits here own queued).1
        rw [← isCall, isKey, waits] at own_array
        exact same (Option.some.inj own_array)
    obtain ⟨found, looked, rest⟩ := queues.listed waits earlier.1
    exact ⟨found, (lookup_set_other earlier.2).trans looked, rest⟩
  made := by
    intro other array waits
    obtain ⟨found, looked, isKey⟩ := queues.made waits
    by_cases same : array = id
    · subst same
      have isCall : found = call := Option.some.inj (looked.symm.trans here)
      exact ⟨replaced, lookup_set_self here, sameKey.trans (isCall ▸ isKey)⟩
    · exact ⟨found, (lookup_set_other same).trans looked, isKey⟩

theorem Queues.push (queues : Queues state) (after : call.waiterState ≠ some .queued) :
    Queues { state with calls := state.calls ++ [call] } where
  waits := by
    intro place found waiter looked own queued
    rcases lookup_push looked with ⟨_, rfl⟩ | ⟨_, was⟩
    · exact absurd (queued ▸ waiterState_eq own) after
    · exact queues.waits was own queued
  ordered := queues.ordered
  listed := by
    intro other array place waits member
    obtain ⟨found, looked, rest⟩ := queues.listed waits member
    exact ⟨found, lookup_kept looked, rest⟩
  made := by
    intro other array waits
    obtain ⟨found, looked, isKey⟩ := queues.made waits
    exact ⟨found, lookup_kept looked, isKey⟩

variable [DecidableEq Key]

theorem Queues.dropEmpty (queues : Queues state) (waits : state.waiting key = some array) : Queues (state.dropEmpty key array) := by
  unfold State.dropEmpty
  split
  next empty =>
    have nobody : state.arrays array = [] := List.isEmpty_iff.mp empty
    have still : ∀ {other : Key} {place : Nat}, Function.update state.waiting key none other = some place →
        state.waiting other = some place := by
      intro other place found
      by_cases same : other = key
      · subst same
        rw [Function.update_self] at found
        cases found
      · rwa [Function.update_of_ne same] at found
    refine ⟨?_, fun found => queues.ordered (still found), fun found => queues.listed (still found),
      fun found => queues.made (still found)⟩
    intro place found waiter looked own queued
    obtain ⟨waiting, member⟩ := queues.waits looked own queued
    have apart : found.key ≠ key := by
      intro same
      have isArray : waiter.queue = array := Option.some.inj (waiting.symm.trans (same ▸ waits))
      rw [isArray, nobody] at member
      cases member
    exact ⟨(Function.update_of_ne apart none state.waiting).trans waiting, member⟩
  next => exact queues

theorem Queues.join (queues : Queues state) {armed : Bool} :
    Queues { state with
      waiting := Function.update state.waiting key (some ((state.waiting key).getD state.calls.length))
      arrays := Function.update state.arrays ((state.waiting key).getD state.calls.length)
        ((if (state.waiting key).isSome then state.arrays ((state.waiting key).getD state.calls.length) else []) ++
          [state.calls.length])
      calls := state.calls ++ [⟨key, signal,
        some ⟨.pending, .queued, none, armed, (state.waiting key).getD state.calls.length⟩, .pending⟩] } := by
  generalize isArray : (state.waiting key).getD state.calls.length = array
  generalize isQueue : (if (state.waiting key).isSome then state.arrays array else []) = queue
  -- The array is the key's own, or named by the call that makes it and nobody else's.
  have others : ∀ {other : Key} {place : Nat}, other ≠ key → state.waiting other = some place → place ≠ array := by
    rintro other _ apart waits rfl
    cases own : state.waiting key with
    | some _ =>
      rw [own, Option.getD_some] at isArray
      exact apart (queues.key_of_array waits (own.trans (congrArg some isArray)))
    | none =>
      rw [own, Option.getD_none] at isArray
      obtain ⟨found, looked, _⟩ := queues.made waits
      exact absurd (isArray ▸ lookup_lt looked) (Nat.lt_irrefl _)
  have earlier : ∀ {place : Nat}, place ∈ queue → state.waiting key = some array ∧ place ∈ state.arrays array := by
    intro place member
    cases own : state.waiting key with
    | some found =>
      rw [own] at isArray isQueue
      change state.arrays array = queue at isQueue
      exact ⟨congrArg some isArray, isQueue ▸ member⟩
    | none =>
      rw [own] at isQueue
      change [] = queue at isQueue
      rw [← isQueue] at member
      cases member
  have sorted : queue.Pairwise (· < ·) := by
    cases own : state.waiting key with
    | some found =>
      rw [own] at isArray isQueue
      change state.arrays array = queue at isQueue
      exact isQueue ▸ queues.ordered (own.trans (congrArg some isArray))
    | none =>
      rw [own] at isQueue
      change [] = queue at isQueue
      exact isQueue ▸ List.Pairwise.nil
  refine ⟨?_, ?_, ?_, ?_⟩
  · intro place found waiter looked own queued
    rcases lookup_push looked with ⟨rfl, rfl⟩ | ⟨_, was⟩
    · cases own
      exact ⟨Function.update_self .., by
        dsimp only
        rw [Function.update_self]
        exact List.mem_append_right queue (List.mem_singleton_self _)⟩
    · obtain ⟨waits, member⟩ := queues.waits was own queued
      dsimp only
      by_cases same : found.key = key
      · have isOwn : waiter.queue = array := by
          rw [same] at waits
          rw [waits, Option.getD_some] at isArray
          exact isArray
        have listed : state.arrays array = queue := by
          rw [same] at waits
          rw [waits] at isQueue
          change state.arrays array = queue at isQueue
          exact isQueue
        rw [same, isOwn, Function.update_self, Function.update_self]
        exact ⟨rfl, List.mem_append_left _ (listed ▸ isOwn ▸ member)⟩
      · rw [Function.update_of_ne same, Function.update_of_ne (others same waits)]
        exact ⟨waits, member⟩
  · intro other place waits
    dsimp only at waits ⊢
    by_cases same : other = key
    · subst same
      rw [Function.update_self] at waits
      cases waits
      rw [Function.update_self, List.pairwise_append]
      refine ⟨sorted, List.pairwise_singleton _ _, fun first inside last isLast => ?_⟩
      obtain ⟨waits, member⟩ := earlier inside
      obtain ⟨found, looked, _⟩ := queues.listed waits member
      exact List.mem_singleton.mp isLast ▸ lookup_lt looked
    · rw [Function.update_of_ne same] at waits
      rw [Function.update_of_ne (others same waits)]
      exact queues.ordered waits
  · intro other place id waits member
    dsimp only at waits member ⊢
    by_cases same : other = key
    · subst same
      rw [Function.update_self] at waits
      cases waits
      rw [Function.update_self] at member
      rcases List.mem_append.mp member with inside | isLast
      · obtain ⟨waits, member⟩ := earlier inside
        obtain ⟨found, looked, rest⟩ := queues.listed waits member
        exact ⟨found, lookup_kept looked, rest⟩
      · rw [List.mem_singleton.mp isLast]
        exact ⟨_, List.getElem?_concat_length, rfl, rfl⟩
    · rw [Function.update_of_ne same] at waits
      rw [Function.update_of_ne (others same waits)] at member
      obtain ⟨found, looked, rest⟩ := queues.listed waits member
      exact ⟨found, lookup_kept looked, rest⟩
  · intro other place waits
    dsimp only at waits ⊢
    by_cases same : other = key
    · subst same
      rw [Function.update_self] at waits
      cases waits
      cases own : state.waiting other with
      | some found =>
        rw [own, Option.getD_some] at isArray
        obtain ⟨call, looked, isKey⟩ := queues.made own
        exact ⟨call, lookup_kept (isArray ▸ looked), isKey⟩
      | none =>
        rw [own, Option.getD_none] at isArray
        exact ⟨_, isArray ▸ List.getElem?_concat_length, rfl⟩
    · rw [Function.update_of_ne same] at waits
      obtain ⟨found, looked, isKey⟩ := queues.made waits
      exact ⟨found, lookup_kept looked, isKey⟩

end Queues

section Fairness
variable {Key Signal Reason : Type} {state : State Key Signal Reason} {key : Key} {limit id : Nat} {call replaced : Call Key Signal Reason}

theorem Fair.replace (fair : Fair key limit state) (here : state.calls[id]? = some call) (sameKey : replaced.key = call.key)
    (sameSlot : replaced.slot = call.slot) (queued : replaced.waiterState = some .queued → call.waiterState = some .queued) :
    Fair key limit { state with calls := state.calls.set id replaced } where
  within := fair.within
  full := by
    intro place found looked isKey waits
    rcases lookup_set here looked with ⟨rfl, rfl⟩ | ⟨_, was⟩
    · exact fair.full here (sameKey.symm.trans isKey) (queued waits)
    · exact fair.full was isKey waits
  order := by
    intro earlier later found second before looked lookedToo isKey isKeyToo waits
    have first : ∃ was : Call Key Signal Reason, state.calls[earlier]? = some was ∧ was.key = key ∧ was.waiterState = some .queued := by
      rcases lookup_set here looked with ⟨rfl, rfl⟩ | ⟨_, was⟩
      · exact ⟨call, here, sameKey.symm.trans isKey, queued waits⟩
      · exact ⟨found, was, isKey, waits⟩
    obtain ⟨was, wasThere, wasKey, waited⟩ := first
    rcases lookup_set here lookedToo with ⟨rfl, rfl⟩ | ⟨_, wasToo⟩
    · exact sameSlot.trans (fair.order before wasThere here wasKey (sameKey.symm.trans isKeyToo) waited)
    · exact fair.order before wasThere wasToo wasKey isKeyToo waited

theorem Fair.grant {releases : List (ReleaseOnce Key)} (fair : Fair key limit state) (here : state.calls[id]? = some call)
    (sameKey : replaced.key = call.key) (left : replaced.waiterState ≠ some .queued)
    (first : call.key = key → ∀ {earlier : Nat} {found : Call Key Signal Reason}, earlier < id → state.calls[earlier]? = some found →
      found.key = call.key → found.waiterState ≠ some .queued) :
    Fair key limit { state with releases := releases, calls := state.calls.set id replaced } where
  within := fair.within
  full := by
    intro place found looked isKey waits
    rcases lookup_set here looked with ⟨rfl, rfl⟩ | ⟨_, was⟩
    · exact absurd waits left
    · exact fair.full was isKey waits
  order := by
    intro earlier later found second before looked lookedToo isKey isKeyToo waits
    rcases lookup_set here looked with ⟨rfl, rfl⟩ | ⟨_, was⟩
    · exact absurd waits left
    · rcases lookup_set here lookedToo with ⟨rfl, rfl⟩ | ⟨_, wasToo⟩
      · exact absurd waits (first (sameKey.symm.trans isKeyToo) before was (isKey.trans (isKeyToo.symm.trans sameKey)))
      · exact fair.order before was wasToo isKey isKeyToo waits

theorem Fair.push (fair : Fair key limit state) (without : call.slot = none)
    (full : call.key = key → call.waiterState = some .queued → limit ≤ state.active key) :
    Fair key limit { state with calls := state.calls ++ [call] } where
  within := fair.within
  full := by
    intro place found looked isKey waits
    rcases lookup_push looked with ⟨_, rfl⟩ | ⟨_, was⟩
    · exact full isKey waits
    · exact fair.full was isKey waits
  order := by
    intro earlier later found second before looked lookedToo isKey isKeyToo waits
    rcases lookup_push lookedToo with ⟨_, rfl⟩ | ⟨inside, wasToo⟩
    · exact without
    · rcases lookup_push looked with ⟨rfl, rfl⟩ | ⟨_, was⟩
      · exact absurd (Nat.lt_trans before inside) (Nat.lt_irrefl _)
      · exact fair.order before was wasToo isKey isKeyToo waits

theorem Fair.count {inFlight : Key → Option Nat} (fair : Fair key limit state) (within : (inFlight key).getD 0 ≤ limit)
    (full : limit ≤ state.active key → (∃ (id : Nat) (call : Call Key Signal Reason), state.calls[id]? = some call ∧ call.key = key ∧
      call.waiterState = some .queued) → limit ≤ (inFlight key).getD 0) :
    Fair key limit { state with inFlight := inFlight } where
  within := within
  full := fun looked isKey waits => full (fair.full looked isKey waits) ⟨_, _, looked, isKey, waits⟩
  order := fair.order

end Fairness

end OpenShapeForge.Connectors.ConcurrencyLimiter
