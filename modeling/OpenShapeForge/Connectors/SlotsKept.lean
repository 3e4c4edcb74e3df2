import OpenShapeForge.Connectors.LimiterInvariants

/-! No slot of the limiter is lost or given twice, in whatever order calls arrive, are
aborted, go on and release. -/

namespace OpenShapeForge.Connectors.ConcurrencyLimiter
open Library

section Releasing
variable {Key Signal Reason : Type} {state next : State Key Signal Reason} {spare : Option Key} {key : Key}
  {id array release : Nat} {call replaced : Call Key Signal Reason} {signal : Option Signal} {why : Reason}

theorem modifyCall_eq (here : state.calls[id]? = some call) (change : Call Key Signal Reason → Call Key Signal Reason) :
    state.modifyCall id change = { state with calls := state.calls.set id (change call) } := by
  unfold State.modifyCall
  rw [List.modify_eq_set_getElem?, here]
  rfl

theorem modifyWaiter_eq {waiter : ConcurrencyWaiter Reason} {outcome : Promised Reason}
    (here : state.calls[id]? = some ⟨key, signal, some waiter, outcome⟩) (change : ConcurrencyWaiter Reason → ConcurrencyWaiter Reason) :
    state.modifyWaiter id change = { state with calls := state.calls.set id ⟨key, signal, some (change waiter), outcome⟩ } :=
  modifyCall_eq here _

theorem modifyWaiter_twice (state : State Key Signal Reason) (first second : ConcurrencyWaiter Reason → ConcurrencyWaiter Reason) :
    (state.modifyWaiter id first).modifyWaiter id second = state.modifyWaiter id fun waiter => second (first waiter) := by
  unfold State.modifyWaiter State.modifyCall
  dsimp only
  rw [List.modify_modify_eq]
  unfold Function.comp
  simp only [Option.map_map]
  rfl

theorem set_here (here : state.calls[id]? = some call) : state.calls.set id call = state.calls := by
  obtain ⟨inside, isCall⟩ := List.getElem?_eq_some_iff.mp here
  rw [← isCall, List.set_getElem_self]

theorem shapes_set {reason : Option Signal → Option Reason} {calls : List (Call Key Signal Reason)}
    (shaped : ∀ {id : Nat} {call : Call Key Signal Reason}, calls[id]? = some call → call.Shape reason)
    (here : calls[id]? = some call) (shape : replaced.Shape reason) {other : Nat} {found : Call Key Signal Reason}
    (looked : (calls.set id replaced)[other]? = some found) : found.Shape reason := by
  rcases lookup_set here looked with ⟨rfl, rfl⟩ | ⟨_, was⟩
  · exact shape
  · exact shaped was

theorem Call.Shape.of_queued {reason : Option Signal → Option Reason} (shape : call.Shape reason)
    (queued : call.waiterState = some .queued) :
    ∃ array, call = ⟨call.key, call.signal, some ⟨.pending, .queued, none, call.signal.isSome, array⟩, .pending⟩ := by
  cases shape with
  | queued => exact ⟨_, rfl⟩
  | refused | immediate | granted | accepted | skipped | returned => exact absurd queued (by simp [Call.waiterState])

/-- What letting go of a slot keeps. -/
structure Carries (state next : State Key Signal Reason) : Prop where
  fair : ∀ {watched : Key} {limit : Nat}, Fair watched limit state → Fair watched limit next
  untouched : ∀ {id : Nat} {call : Call Key Signal Reason}, state.calls[id]? = some call → call.waiterState ≠ some .queued →
    next.calls[id]? = some call
  aborted : next.aborted = state.aborted

theorem Carries.trans {last : State Key Signal Reason} (first : Carries state next) (second : Carries next last) :
    Carries state last where
  fair := fun fair => second.fair (first.fair fair)
  untouched := fun looked apart => second.untouched (first.untouched looked apart) apart
  aborted := second.aborted.trans first.aborted

theorem Carries.skip {armed left : Bool} {arrays : Nat → List Nat}
    (here : state.calls[id]? = some ⟨key, signal, some ⟨.pending, .queued, none, armed, array⟩, .pending⟩) :
    Carries state { state with
      arrays := arrays
      calls := state.calls.set id ⟨key, signal, some ⟨.rejected (some why), .cancelled, none, left, array⟩, .pending⟩ } where
  fair := by
    intro watched limit fair
    let skipped : Call Key Signal Reason := ⟨key, signal, some ⟨.rejected (some why), .cancelled, none, left, array⟩, .pending⟩
    have kept : Fair watched limit { state with calls := state.calls.set id skipped } := fair.replace here rfl rfl (fun never => by cases never)
    exact ⟨kept.within, kept.full, kept.order⟩
  untouched := by
    intro other found looked apart
    have elsewhere : other ≠ id := by
      rintro rfl
      exact apart (Option.some.inj (looked.symm.trans here) ▸ rfl)
    exact (lookup_set_other elsewhere).trans looked
  aborted := rfl

variable [DecidableEq Key]

theorem dropEmpty_eq (state : State Key Signal Reason) (key : Key) (array : Nat) :
    ∃ waiting, state.dropEmpty key array = { state with waiting := waiting } := by
  unfold State.dropEmpty
  split
  next => exact ⟨_, rfl⟩
  next => exact ⟨state.waiting, rfl⟩

theorem dropEmpty_modifyWaiter (state : State Key Signal Reason) (change : ConcurrencyWaiter Reason → ConcurrencyWaiter Reason) :
    (state.dropEmpty key array).modifyWaiter id change = (state.modifyWaiter id change).dropEmpty key array := by
  unfold State.dropEmpty State.modifyWaiter State.modifyCall
  dsimp only
  split <;> rfl

omit [DecidableEq Key] in
theorem setArray_modifyWaiter {ids : List Nat} (state : State Key Signal Reason)
    (change : ConcurrencyWaiter Reason → ConcurrencyWaiter Reason) :
    (state.setArray array ids).modifyWaiter id change = (state.modifyWaiter id change).setArray array ids := rfl

theorem Sound.dropEmpty (sound : Sound spare state) (waits : state.waiting key = some array) :
    Sound spare (state.dropEmpty key array) := by
  have queues := sound.queues.dropEmpty waits
  obtain ⟨waiting, drops⟩ := dropEmpty_eq state key array
  rw [drops] at queues ⊢
  exact ⟨sound.shaped, ⟨sound.slots.counted, sound.slots.owned, sound.slots.single, sound.slots.held⟩, queues⟩

theorem Carries.dropEmpty (state : State Key Signal Reason) (key : Key) (array : Nat) : Carries state (state.dropEmpty key array) := by
  obtain ⟨waiting, drops⟩ := dropEmpty_eq state key array
  rw [drops]
  exact ⟨fun fair => ⟨fair.within, fair.full, fair.order⟩, fun looked _ => looked, rfl⟩

theorem Sound.skip {armed left : Bool} (sound : Sound spare state)
    (here : state.calls[id]? = some ⟨key, signal, some ⟨.pending, .queued, none, armed, array⟩, .pending⟩)
    (aborts : state.reason signal = some why) :
    Sound spare { state with
      arrays := Function.update state.arrays array ((state.arrays array).erase id)
      calls := state.calls.set id ⟨key, signal, some ⟨.rejected (some why), .cancelled, none, left, array⟩, .pending⟩ } where
  shaped := shapes_set sound.shaped here (.skipped aborts (.inl rfl))
  slots := by
    let skipped : Call Key Signal Reason := ⟨key, signal, some ⟨.rejected (some why), .cancelled, none, left, array⟩, .pending⟩
    have slots : Slots spare { state with calls := state.calls.set id skipped } := sound.slots.replace here rfl rfl (fun never => by cases never) (fun _ => .inl rfl)
    exact ⟨slots.counted, slots.owned, slots.single, slots.held⟩
  queues := sound.queues.leave here rfl rfl rfl (fun never => by cases never)

theorem Sound.grant (sound : Sound (some key) state)
    (here : state.calls[id]? = some ⟨key, signal, some ⟨.pending, .queued, none, signal.isSome, array⟩, .pending⟩) :
    Sound none { state with
      arrays := Function.update state.arrays array ((state.arrays array).erase id)
      releases := state.releases ++ [⟨key, false⟩]
      calls := state.calls.set id ⟨key, signal,
        some ⟨.resolved state.releases.length, .granted, some state.releases.length, signal.isSome, array⟩, .pending⟩ } where
  shaped := shapes_set sound.shaped here .granted
  slots := by
    let granted : Call Key Signal Reason := ⟨key, signal,
      some ⟨.resolved state.releases.length, .granted, some state.releases.length, signal.isSome, array⟩, .pending⟩
    have slots : Slots none { state with releases := state.releases ++ [⟨key, false⟩], calls := state.calls.set id granted } :=
      sound.slots.grant here rfl rfl rfl (fun never => by cases never)
    exact ⟨slots.counted, slots.owned, slots.single, slots.held⟩
  queues := by
    let granted : Call Key Signal Reason := ⟨key, signal,
      some ⟨.resolved state.releases.length, .granted, some state.releases.length, signal.isSome, array⟩, .pending⟩
    let arrays := Function.update state.arrays array ((state.arrays array).erase id)
    have queues : Queues { state with arrays := arrays, calls := state.calls.set id granted } :=
      sound.queues.leave here rfl rfl rfl (fun never => by cases never)
    exact ⟨queues.waits, queues.ordered, queues.listed, queues.made⟩

omit [DecidableEq Key] in
theorem Carries.grant {armed : Bool} {arrays : Nat → List Nat} {rest : List Nat} {releases : List (ReleaseOnce Key)} (queues : Queues state)
    (waits : state.waiting key = some array) (lists : state.arrays array = id :: rest)
    (here : state.calls[id]? = some ⟨key, signal, some ⟨.pending, .queued, none, armed, array⟩, .pending⟩) :
    Carries state { state with
      arrays := arrays
      releases := releases
      calls := state.calls.set id ⟨key, signal, some ⟨.resolved release, .granted, some release, armed, array⟩, .pending⟩ } where
  fair := by
    intro watched limit fair
    let granted : Call Key Signal Reason := ⟨key, signal, some ⟨.resolved release, .granted, some release, armed, array⟩, .pending⟩
    have first : ∀ {earlier : Nat} {found : Call Key Signal Reason}, earlier < id → state.calls[earlier]? = some found →
        found.key = key → found.waiterState ≠ some .queued := by
      intro earlier found before looked isKey queued
      obtain ⟨waiter, own, isQueued⟩ := Option.map_eq_some_iff.mp queued
      obtain ⟨waiting, member⟩ := queues.waits looked own isQueued
      rw [isKey, waits] at waiting
      rw [← Option.some.inj waiting, lists] at member
      have sorted := queues.ordered waits
      rw [lists] at sorted
      rcases List.mem_cons.mp member with rfl | later
      · exact Nat.lt_irrefl _ before
      · exact Nat.lt_asymm before (List.rel_of_pairwise_cons sorted later)
    have kept : Fair watched limit { state with releases := releases, calls := state.calls.set id granted } :=
      fair.grant here rfl (fun never => by cases never) fun _ => first
    exact ⟨kept.within, kept.full, kept.order⟩
  untouched := by
    intro other found looked apart
    have elsewhere : other ≠ id := by
      rintro rfl
      exact apart (Option.some.inj (looked.symm.trans here) ▸ rfl)
    exact (lookup_set_other elsewhere).trans looked
  aborted := rfl

omit [DecidableEq Key] in
theorem Queues.nobody (queues : Queues state) (empty : ∀ {array : Nat}, state.waiting key = some array → state.arrays array = []) :
    ¬∃ (id : Nat) (call : Call Key Signal Reason), state.calls[id]? = some call ∧ call.key = key ∧
      call.waiterState = some .queued := by
  rintro ⟨id, call, looked, rfl, queued⟩
  obtain ⟨waiter, own, isQueued⟩ := Option.map_eq_some_iff.mp queued
  obtain ⟨waits, member⟩ := queues.waits looked own isQueued
  rw [empty waits] at member
  cases member

theorem Sound.countDown (sound : Sound (some key) state) : Sound none (state.countDown key) where
  shaped := sound.shaped
  slots := sound.slots.countDown
  queues := ⟨sound.queues.waits, sound.queues.ordered, sound.queues.listed, sound.queues.made⟩

theorem Carries.countDown (sound : Sound (some key) state)
    (empty : ∀ {array : Nat}, state.waiting key = some array → state.arrays array = []) : Carries state (state.countDown key) where
  fair := by
    intro watched limit fair
    have freed : state.active key = state.held key + 1 := by
      simpa [spareOf] using sound.slots.counted key
    have counts := active_countDown freed watched
    have within := fair.within
    by_cases same : watched = key
    · subst same
      rw [if_pos rfl] at counts
      exact fair.count (by
        change (state.countDown watched).active watched ≤ limit
        omega) (fun _ waits => absurd waits (sound.queues.nobody empty))
    · rw [if_neg same] at counts
      exact fair.count (le_of_eq_of_le counts within) (fun full _ => le_of_le_of_eq full counts.symm)
  untouched := fun looked _ => looked
  aborted := rfl

theorem handOver_granted {rest : List Nat}
    (here : state.calls[id]? = some ⟨key, signal, some ⟨.pending, .queued, none, signal.isSome, array⟩, .pending⟩)
    (live : state.reason signal = none) :
    State.handOver key array (id :: rest) state = State.dropEmpty { state with
      arrays := Function.update state.arrays array rest
      releases := state.releases ++ [⟨key, false⟩]
      calls := state.calls.set id ⟨key, signal,
        some ⟨.resolved state.releases.length, .granted, some state.releases.length, signal.isSome, array⟩, .pending⟩ } key array := by
  let made : State Key Signal Reason := { state.setArray array rest with releases := state.releases ++ [⟨key, false⟩] }
  have looked : (state.setArray array rest).calls[id]? =
      some ⟨key, signal, some ⟨.pending, .queued, none, signal.isSome, array⟩, .pending⟩ := here
  have madeLooked : made.calls[id]? = some ⟨key, signal, some ⟨.pending, .queued, none, signal.isSome, array⟩, .pending⟩ := here
  have still : (state.setArray array rest).reason signal = none := live
  simp only [State.handOver, looked, Call.waiterState, Option.map_some, if_true, still]
  unfold State.grant State.modifyWaiter
  exact congrArg (fun next : State Key Signal Reason => next.dropEmpty key array) (modifyCall_eq madeLooked _)

theorem handOver_skipped {rest : List Nat}
    (here : state.calls[id]? = some ⟨key, signal, some ⟨.pending, .queued, none, signal.isSome, array⟩, .pending⟩)
    (aborts : state.reason signal = some why) :
    State.handOver key array (id :: rest) state = State.handOver key array rest { state with
      arrays := Function.update state.arrays array rest
      calls := state.calls.set id ⟨key, signal, some ⟨.rejected (some why), .cancelled, none, false, array⟩, .pending⟩ } := by
  have looked : (state.setArray array rest).calls[id]? =
      some ⟨key, signal, some ⟨.pending, .queued, none, signal.isSome, array⟩, .pending⟩ := here
  have still : (state.setArray array rest).reason signal = some why := aborts
  rw [State.handOver]
  simp only [looked, Call.waiterState, Option.map_some, if_true, still]
  unfold State.modifyWaiter
  rw [modifyCall_eq looked]
  rfl

/-- The slot to spare goes to the first call of the queue whose signal is not aborted,
and is counted down where there is none. -/
theorem handOver_kept : ∀ (ids : List Nat) {state : State Key Signal Reason}, Sound (some key) state →
    state.waiting key = some array → state.arrays array = ids →
    Sound none (State.handOver key array ids state) ∧ Carries state (State.handOver key array ids state)
  | [], state, sound, waits, lists => by
    have dropped := sound.dropEmpty waits
    have empty : ∀ {other : Nat}, (state.dropEmpty key array).waiting key = some other → (state.dropEmpty key array).arrays other = [] := by
      intro other found
      unfold State.dropEmpty at found
      rw [lists] at found
      change Function.update state.waiting key none key = some other at found
      rw [Function.update_self] at found
      cases found
    exact ⟨dropped.countDown, (Carries.dropEmpty state key array).trans (.countDown dropped empty)⟩
  | id :: rest, state, sound, waits, lists => by
    obtain ⟨found, looked, isKey, queued⟩ := sound.queues.listed waits (lists ▸ List.mem_cons_self)
    obtain ⟨place, literal⟩ := (sound.shaped looked).of_queued queued
    rw [isKey] at literal
    generalize found.signal = signal at literal
    rw [literal] at looked
    have isArray : place = array := Option.some.inj ((sound.queues.waits looked rfl rfl).1.symm.trans waits)
    rw [isArray] at looked
    have shifts : (state.arrays array).erase id = rest := by
      rw [lists, List.erase_cons_head]
    cases aborts : state.reason signal with
    | none =>
      have given := sound.grant looked
      rw [shifts] at given
      rw [handOver_granted looked aborts]
      exact ⟨given.dropEmpty waits, .trans (.grant sound.queues waits lists looked) (.dropEmpty _ key array)⟩
    | some why =>
      have skipped : Sound (some key) { state with
          arrays := Function.update state.arrays array ((state.arrays array).erase id)
          calls := state.calls.set id ⟨key, signal, some ⟨.rejected (some why), .cancelled, none, false, array⟩, .pending⟩ } :=
        sound.skip looked aborts
      rw [shifts] at skipped
      rw [handOver_skipped looked aborts]
      have later := handOver_kept rest skipped waits (Function.update_self ..)
      exact ⟨later.1, .trans (.skip looked) later.2⟩

theorem release_kept (sound : Sound (some key) state) : Sound none (state.release key) ∧ Carries state (state.release key) := by
  unfold State.release
  split
  next array waits => exact handOver_kept _ sound waits rfl
  next none_waits =>
    have empty : ∀ {array : Nat}, state.waiting key = some array → state.arrays array = [] := by
      intro array waits
      rw [none_waits] at waits
      cases waits
    exact ⟨sound.countDown, .countDown sound empty⟩

theorem give_kept (sound : Sound none state) (here : state.calls[id]? = some call) (has : call.slot = some release)
    (isMade : state.releases[release]? = some ⟨call.key, false⟩) (sameKey : replaced.key = call.key)
    (sameSlot : replaced.slot = call.slot) (before : call.waiterState ≠ some .queued) (granted : replaced.waiterState ≠ some .granted)
    (queued : replaced.waiterState ≠ some .queued) (shape : replaced.Shape state.reason) :
    let next := State.callRelease { state with calls := state.calls.set id replaced } release
    Sound none next ∧ Carries { state with calls := state.calls.set id replaced } next := by
  let given : State Key Signal Reason :=
    { state with releases := state.releases.set release ⟨call.key, true⟩, calls := state.calls.set id replaced }
  have slots : Slots (some call.key) given := sound.slots.give here has isMade sameKey sameSlot granted
  have queues := sound.queues.replace here sameKey before queued
  have spared : Sound (some call.key) given :=
    ⟨shapes_set sound.shaped here shape, slots, ⟨queues.waits, queues.ordered, queues.listed, queues.made⟩⟩
  have carried : Carries { state with calls := state.calls.set id replaced } given :=
    ⟨fun fair => ⟨fair.within, fair.full, fair.order⟩, fun looked _ => looked, rfl⟩
  have calls : State.callRelease { state with calls := state.calls.set id replaced } release = given.release call.key := by
    unfold State.callRelease
    dsimp only
    rw [isMade]
    rfl
  intro next
  change Sound none (State.callRelease _ release) ∧ Carries _ (State.callRelease _ release)
  rw [calls]
  have released := release_kept spared
  exact ⟨released.1, carried.trans released.2⟩

end Releasing

section Events
variable {Key Signal Reason : Type} {state next : State Key Signal Reason} {spare : Option Key} {key : Key}
  {id array release : Nat} {call replaced : Call Key Signal Reason} {signal : Option Signal} {why : Reason}

def Call.missed (call : Call Key Signal Reason) : Prop := call.waiterState ≠ some .queued ∧ call.slot = none

/-- What was missed once is not given later. -/
def Follows (state next : State Key Signal Reason) : Prop :=
  ∀ {id : Nat} {call : Call Key Signal Reason}, state.calls[id]? = some call → call.missed →
    ∃ after : Call Key Signal Reason, next.calls[id]? = some after ∧ after.missed

theorem Follows.refl (state : State Key Signal Reason) : Follows state state := fun looked missed => ⟨_, looked, missed⟩

theorem Follows.trans {last : State Key Signal Reason} (first : Follows state next) (second : Follows next last) :
    Follows state last := by
  intro id call looked missed
  obtain ⟨after, lookedAfter, missedAfter⟩ := first looked missed
  exact second lookedAfter missedAfter

theorem Carries.follows (carries : Carries state next) : Follows state next :=
  fun looked missed => ⟨_, carries.untouched looked missed.1, missed⟩

theorem follows_set (here : state.calls[id]? = some call) (kept : call.missed → replaced.missed) :
    Follows state { state with calls := state.calls.set id replaced } := by
  intro other found looked missed
  by_cases same : other = id
  · subst same
    have isCall : found = call := Option.some.inj (looked.symm.trans here)
    exact ⟨replaced, lookup_set_self here, kept (isCall ▸ missed)⟩
  · exact ⟨found, (lookup_set_other same).trans looked, missed⟩

theorem Call.Shape.mono {reason other : Option Signal → Option Reason} (shape : call.Shape reason)
    (kept : ∀ {signal : Option Signal} {why : Reason}, reason signal = some why → other signal = some why) : call.Shape other := by
  cases shape with
  | refused aborts => exact .refused (kept aborts)
  | immediate => exact .immediate
  | queued => exact .queued
  | granted => exact .granted
  | accepted => exact .accepted
  | skipped aborts settles => exact .skipped (kept aborts) settles
  | returned aborts settles => exact .returned (kept aborts) settles

theorem Call.Shape.aborts {reason : Option Signal → Option Reason} (shape : call.Shape reason) (missed : call.missed) :
    ∃ why, reason call.signal = some why := by
  cases shape with
  | refused aborts | skipped aborts | returned aborts => exact ⟨_, aborts⟩
  | queued => exact absurd rfl missed.1
  | immediate | granted | accepted => exact absurd missed.2 (by simp [Call.slot])

variable [DecidableEq Key]

/-- What an event keeps. -/
structure Advances (state next : State Key Signal Reason) : Prop where
  sound : Sound none next
  fair : ∀ {watched : Key} {limit : Nat}, Fair watched limit state → Fair watched limit next
  follows : Follows state next

theorem Sound.advances (sound : Sound none next) (carries : Carries state next) : Advances state next :=
  ⟨sound, carries.fair, carries.follows⟩

theorem Sound.replace (sound : Sound none state) (here : state.calls[id]? = some call) (sameKey : replaced.key = call.key)
    (sameSlot : replaced.slot = call.slot) (before : call.waiterState ≠ some .queued) (after : replaced.waiterState ≠ some .queued)
    (granted : replaced.waiterState = some .granted → call.waiterState = some .granted)
    (cancelled : replaced.waiterState = some .cancelled → call.waiterState = some .cancelled) (shape : replaced.Shape state.reason) :
    Advances state { state with calls := state.calls.set id replaced } where
  sound := ⟨shapes_set sound.shaped here shape, sound.slots.replace here sameKey sameSlot granted fun is => .inr (cancelled is),
    sound.queues.replace here sameKey before after⟩
  fair := fun fair => fair.replace here sameKey sameSlot fun is => absurd is after
  follows := follows_set here fun missed => ⟨after, sameSlot.trans missed.2⟩

theorem Sound.settle (sound : Sound none state) (here : state.calls[id]? = some call) (waits : call.waiterState ≠ some .queued)
    (sameSlot : Call.slot { call with outcome := .rejected (some why) } = call.slot)
    (shape : Call.Shape state.reason { call with outcome := .rejected (some why) }) :
    Advances state (state.settle id (.rejected (some why))) := by
  unfold State.settle
  rw [modifyCall_eq here]
  exact sound.replace here rfl sameSlot waits waits (fun is => is) (fun is => is) shape

theorem Advances.trans {last : State Key Signal Reason} (first : Advances state next) (second : Advances next last) :
    Advances state last where
  sound := second.sound
  fair := fun fair => second.fair (first.fair fair)
  follows := Follows.trans first.follows second.follows

theorem Sound.give (sound : Sound none state) (shape : replaced.Shape state.reason) (here : state.calls[id]? = some call) (has : call.slot = some release)
    (isMade : state.releases[release]? = some ⟨call.key, false⟩) (sameKey : replaced.key = call.key)
    (sameSlot : replaced.slot = call.slot) (before : call.waiterState ≠ some .queued) (granted : replaced.waiterState ≠ some .granted)
    (queued : replaced.waiterState ≠ some .queued) :
    let next := State.callRelease { state with calls := state.calls.set id replaced } release
    Advances state next ∧ next.calls[id]? = some replaced ∧ next.aborted = state.aborted := by
  have given := give_kept sound here has isMade sameKey sameSlot before granted queued shape
  have changed : Follows state { state with calls := state.calls.set id replaced } :=
    follows_set here fun missed => ⟨queued, sameSlot.trans missed.2⟩
  exact ⟨⟨given.1, fun fair => given.2.fair (fair.replace here sameKey sameSlot fun is => absurd is queued),
    changed.trans given.2.follows⟩, given.2.untouched (lookup_set_self here) queued, given.2.aborted⟩

theorem Sound.giveGranted {left : Bool} (sound : Sound none state)
    (here : state.calls[id]? =
      some ⟨key, signal, some ⟨.resolved release, .granted, some release, signal.isSome, array⟩, .pending⟩)
    (aborts : state.reason signal = some why) :
    let returned : Call Key Signal Reason := ⟨key, signal, some ⟨.resolved release, .cancelled, some release, left, array⟩, .pending⟩
    let next := State.callRelease { state with calls := state.calls.set id returned } release
    Advances state next ∧ next.calls[id]? = some returned ∧ next.aborted = state.aborted := by
  obtain ⟨made, isMade, isKey, free, _⟩ := sound.slots.owned here rfl
  have literal : made = ⟨key, false⟩ := by
    cases made
    cases isKey
    exact congrArg _ (free rfl)
  exact sound.give (.returned aborts (.inl rfl)) here rfl (literal ▸ isMade) rfl rfl (fun never => by cases never)
    (fun never => by cases never) (fun never => by cases never)

theorem release_advances (sound : Sound none state) (here : state.calls[id]? = some call) (resolves : call.outcome = .resolved release) :
    Advances state (state.callRelease release) := by
  have shape := sound.shaped here
  have facts : call.slot = some release ∧ call.waiterState ≠ some .queued ∧ call.waiterState ≠ some .granted := by
    cases shape with
    | immediate | accepted =>
      cases resolves
      exact ⟨rfl, (fun never => by cases never), (fun never => by cases never)⟩
    | refused | queued | granted => cases resolves
    | skipped _ settles | returned _ settles => rcases settles with rfl | rfl <;> cases resolves
  obtain ⟨has, waits, granted⟩ := facts
  obtain ⟨made, isMade, isKey, _, _⟩ := sound.slots.owned here has
  by_cases released : made.released = true
  · have same : state.callRelease release = state := by
      unfold State.callRelease
      rw [isMade]
      exact if_pos released
    rw [same]
    exact ⟨sound, fun fair => fair, Follows.refl state⟩
  · have literal : made = ⟨call.key, false⟩ := by
      cases made
      cases isKey
      exact congrArg _ (Bool.eq_false_iff.mpr released)
    have given := sound.give shape here has (literal ▸ isMade) rfl rfl waits granted waits
    rw [set_here here] at given
    exact given.1

theorem continuation_advances (sound : Sound none state) (allowed : state.Allowed (.continuation id)) :
    Advances state (state.continuation id) := by
  obtain ⟨call, waiter, here, own, settles, undecided⟩ := allowed
  have shape := sound.shaped here
  unfold State.continuation
  rw [here]
  cases shape with
  | refused | immediate => cases own
  | queued =>
    cases own
    exact absurd rfl settles
  | accepted => cases undecided
  | @skipped key signal array armed outcome why aborts outcomes =>
    exact sound.settle here (fun never => by cases never) rfl (.skipped aborts (.inr rfl))
  | @returned key signal array armed release outcome why aborts outcomes =>
    dsimp only
    rw [aborts]
    dsimp only
    rw [if_neg (by decide)]
    exact sound.settle here (fun never => by cases never) rfl (.returned aborts (.inr rfl))
  | @granted key signal array release =>
    dsimp only
    cases aborts : state.reason signal with
    | none =>
      dsimp only
      unfold State.settle State.modifyWaiter
      rw [modifyCall_eq here, modifyCall_eq (lookup_set_self here)]
      dsimp only
      rw [List.set_set]
      exact sound.replace here rfl rfl (fun never => by cases never) (fun never => by cases never) (fun never => by cases never)
        (fun never => by cases never) .accepted
    | some why =>
      dsimp only
      rw [if_pos rfl]
      unfold State.modifyWaiter
      rw [modifyCall_eq here]
      obtain ⟨given, still, same⟩ := sound.giveGranted here aborts
      have aborts_still := (congrArg signal.bind same).trans aborts
      exact given.trans (given.sound.settle still (fun never => by cases never) rfl (.returned aborts_still (.inr rfl)))

theorem onAbort_advances (sound : Sound none state) (allowed : state.Allowed (.onAbort id)) : Advances state (state.onAbort id) := by
  obtain ⟨call, waiter, here, own, armed, aborted⟩ := allowed
  obtain ⟨why, aborts⟩ := Option.isSome_iff_exists.mp aborted
  have shape := sound.shaped here
  unfold State.onAbort
  rw [here]
  cases shape with
  | refused | immediate => cases own
  | accepted =>
    cases own
    cases armed
  | @queued key signal array =>
    dsimp only
    have skipped : Sound none { state with
        arrays := Function.update state.arrays array ((state.arrays array).erase id)
        calls := state.calls.set id ⟨key, signal, some ⟨.rejected (some why), .cancelled, none, false, array⟩, .pending⟩ } :=
      sound.skip here aborts
    rw [dropEmpty_modifyWaiter, modifyWaiter_twice, setArray_modifyWaiter, modifyWaiter_twice, modifyWaiter_eq here, aborts]
    exact (skipped.dropEmpty (sound.queues.waits here rfl rfl).1).advances (.trans (.skip here) (.dropEmpty _ key array))
  | @skipped key signal array armed outcome why isReason outcomes =>
    dsimp only
    rw [modifyWaiter_twice, modifyWaiter_eq here]
    exact sound.replace here rfl rfl (fun never => by cases never) (fun never => by cases never) (fun never => by cases never)
      (fun _ => rfl) (.skipped isReason outcomes)
  | @returned key signal array armed release outcome why isReason outcomes =>
    dsimp only
    rw [modifyWaiter_twice, modifyWaiter_eq here]
    exact sound.replace here rfl rfl (fun never => by cases never) (fun never => by cases never) (fun never => by cases never)
      (fun _ => rfl) (.returned isReason outcomes)
  | @granted key signal array release =>
    dsimp only
    rw [modifyWaiter_twice, modifyWaiter_eq here]
    obtain ⟨given, still, _⟩ := sound.giveGranted here aborts
    rw [modifyWaiter_eq still]
    dsimp only [Promised.reject]
    rw [set_here still]
    exact given

omit [DecidableEq Key] in
theorem set_push {α : Type} (entries : List α) (before after : α) : (entries ++ [before]).set entries.length after = entries ++ [after] := by
  rw [List.set_append_right _ _ (Nat.le_refl _), Nat.sub_self]
  rfl

omit [DecidableEq Key] in
theorem shapes_push {reason : Option Signal → Option Reason} {calls : List (Call Key Signal Reason)}
    (shaped : ∀ {id : Nat} {call : Call Key Signal Reason}, calls[id]? = some call → call.Shape reason)
    (shape : call.Shape reason) {other : Nat} {found : Call Key Signal Reason}
    (looked : (calls ++ [call])[other]? = some found) : found.Shape reason := by
  rcases lookup_push looked with ⟨_, rfl⟩ | ⟨_, was⟩
  · exact shape
  · exact shaped was

theorem acquire_sound (sound : Sound none state) (limit : Nat) : Sound none (state.acquire key limit signal) := by
  unfold State.acquire
  split
  next why aborts =>
    exact ⟨shapes_push sound.shaped (.refused aborts), sound.slots.push rfl, sound.queues.push (fun never => by cases never)⟩
  next =>
    dsimp only
    split
    next free =>
      let arrived : Call Key Signal Reason := ⟨key, signal, none, .pending⟩
      let resolved : Call Key Signal Reason := ⟨key, signal, none, .resolved state.releases.length⟩
      have pushed : Slots none { state with calls := state.calls ++ [arrived] } := sound.slots.push rfl
      let counted := { state with
        inFlight := Function.update state.inFlight key (some (state.active key + 1)), calls := state.calls ++ [arrived] }
      have up : Slots (some arrived.key) counted := pushed.countUp
      have last : counted.calls[state.calls.length]? = some arrived := List.getElem?_concat_length
      let given : State Key Signal Reason :=
        { counted with releases := state.releases ++ [⟨key, false⟩], calls := counted.calls.set state.calls.length resolved }
      have slots : Slots none given := up.grant last rfl rfl rfl (fun never => by cases never)
      have queues : Queues { state with calls := state.calls ++ [resolved] } := sound.queues.push (fun never => by cases never)
      exact ⟨shapes_push sound.shaped .immediate, slots.congr rfl rfl (set_push state.calls arrived resolved).symm,
        ⟨queues.waits, queues.ordered, queues.listed, queues.made⟩⟩
    next =>
      let waits : Call Key Signal Reason := ⟨key, signal,
        some ⟨.pending, .queued, none, signal.isSome, (state.waiting key).getD state.calls.length⟩, .pending⟩
      have slots : Slots none { state with calls := state.calls ++ [waits] } := sound.slots.push rfl
      exact ⟨shapes_push sound.shaped .queued, slots.congr rfl rfl rfl, sound.queues.join⟩

def limits (key : Key) (limit : Nat) : Event Key Signal Reason → Prop
  | .acquire other given _ => other = key → given = limit
  | _ => True

theorem acquire_fair {watched : Key} {given limit : Nat} (fair : Fair watched limit state) (same : key = watched → given = limit) :
    Fair watched limit (state.acquire key given signal) := by
  unfold State.acquire
  split
  next why aborts => exact fair.push rfl fun _ never => by cases never
  next =>
    dsimp only
    split
    next free =>
      let arrived : Call Key Signal Reason := ⟨key, signal, none, .pending⟩
      let resolved : Call Key Signal Reason := ⟨key, signal, none, .resolved state.releases.length⟩
      have pushed : Fair watched limit { state with calls := state.calls ++ [arrived] } :=
        fair.push rfl fun _ never => by cases never
      let counts := Function.update state.inFlight key (some (state.active key + 1))
      have grows : state.active watched ≤ (counts watched).getD 0 ∧ (counts watched).getD 0 ≤ limit := by
        have within := fair.within
        by_cases own : watched = key
        · subst own
          have isLimit := same rfl
          change state.active watched < given at free
          dsimp only [counts]
          rw [Function.update_self, Option.getD_some]
          omega
        · dsimp only [counts]
          rw [Function.update_of_ne own]
          exact ⟨Nat.le_refl _, within⟩
      have counted : Fair watched limit { state with inFlight := counts, calls := state.calls ++ [arrived] } :=
        pushed.count grows.2 fun full _ => Nat.le_trans full grows.1
      have last : (state.calls ++ [arrived])[state.calls.length]? = some arrived := List.getElem?_concat_length
      have nobody : arrived.key = watched → ∀ {earlier : Nat} {found : Call Key Signal Reason}, earlier < state.calls.length →
          (state.calls ++ [arrived])[earlier]? = some found → found.key = arrived.key → found.waiterState ≠ some .queued := by
        intro isWatched earlier found before looked isKey queued
        rcases lookup_push looked with ⟨rfl, _⟩ | ⟨_, was⟩
        · exact Nat.lt_irrefl _ before
        · have full := fair.full was (isKey.trans isWatched) queued
          have isLimit := same isWatched
          change state.active key < given at free
          rw [show key = watched from isWatched] at free
          omega
      let granted : State Key Signal Reason :=
        { state with
          inFlight := counts
          releases := state.releases ++ [⟨key, false⟩]
          calls := (state.calls ++ [arrived]).set state.calls.length resolved }
      have done : Fair watched limit granted := counted.grant last rfl (fun never => by cases never) nobody
      dsimp only [granted] at done
      rw [set_push] at done
      exact done
    next full =>
      let waits : Call Key Signal Reason := ⟨key, signal,
        some ⟨.pending, .queued, none, signal.isSome, (state.waiting key).getD state.calls.length⟩, .pending⟩
      have kept : Fair watched limit { state with calls := state.calls ++ [waits] } :=
        fair.push rfl fun isWatched _ => by
          change ¬state.active key < given at full
          have isLimit := same isWatched
          rw [show key = watched from isWatched] at full
          omega
      exact ⟨kept.within, kept.full, kept.order⟩

theorem acquire_follows (limit : Nat) : Follows state (state.acquire key limit signal) := by
  intro id call looked missed
  refine ⟨call, ?_, missed⟩
  unfold State.acquire
  split
  next => exact lookup_kept looked
  next =>
    dsimp only
    split
    next => exact lookup_kept looked
    next => exact lookup_kept looked

omit [DecidableEq Key] in
theorem abort_reason [DecidableEq Signal] {aborting : Signal} {reason : Reason} (before : state.reason signal = some why) :
    (state.abort aborting reason).reason signal = some why := by
  unfold State.abort
  split
  next => exact before
  next fresh =>
    obtain ⟨one, isOne, aborts⟩ := Option.bind_eq_some_iff.mp before
    subst isOne
    change Function.update state.aborted aborting (some reason) one = some why
    by_cases same : one = aborting
    · subst same
      rw [aborts] at fresh
      exact absurd rfl fresh
    · rwa [Function.update_of_ne same]

theorem abort_advances [DecidableEq Signal] (sound : Sound none state) (aborting : Signal) (reason : Reason) :
    Advances state (state.abort aborting reason) := by
  have reasons : ∀ {signal : Option Signal} {why : Reason}, state.reason signal = some why →
      (state.abort aborting reason).reason signal = some why := abort_reason
  have same : ∃ aborted, state.abort aborting reason = { state with aborted := aborted } := by
    unfold State.abort
    split
    next => exact ⟨state.aborted, rfl⟩
    next => exact ⟨_, rfl⟩
  obtain ⟨aborted, aborts⟩ := same
  rw [aborts] at reasons ⊢
  have slots : Slots none { state with aborted := aborted } := sound.slots.congr rfl rfl rfl
  exact ⟨⟨fun looked => (sound.shaped looked).mono reasons, slots,
    ⟨sound.queues.waits, sound.queues.ordered, sound.queues.listed, sound.queues.made⟩⟩,
    fun fair => ⟨fair.within, fair.full, fair.order⟩, fun looked missed => ⟨_, looked, missed⟩⟩

/-- What one event keeps: what holds of slots and queues, a limit that its calls share,
and that nothing missed is given later. -/
theorem step_advances [DecidableEq Signal] {event : Event Key Signal Reason} (sound : Sound none state)
    (taken : State.Step state event next) :
    Sound none next ∧ (∀ {watched limit}, limits watched limit event → Fair watched limit state → Fair watched limit next) ∧
      Follows state next := by
  obtain ⟨allowed, rfl⟩ := taken
  have whole : ∀ {next : State Key Signal Reason}, Advances state next → Sound none next ∧
      (∀ {watched limit}, limits watched limit event → Fair watched limit state → Fair watched limit next) ∧ Follows state next :=
    fun advances => ⟨advances.sound, fun _ fair => advances.fair fair, advances.follows⟩
  cases event with
  | acquire key limit signal => exact ⟨acquire_sound sound limit, fun same fair => acquire_fair fair same, acquire_follows limit⟩
  | abort signal reason => exact whole (abort_advances sound signal reason)
  | onAbort id => exact whole (onAbort_advances sound allowed)
  | continuation id => exact whole (continuation_advances sound allowed)
  | release id =>
    obtain ⟨call, release, here, resolves⟩ := allowed
    have performs : state.perform (.release id) = state.callRelease release := by
      unfold State.perform
      dsimp only
      rw [here, Option.map_some, resolves]
    rw [performs]
    exact whole (release_advances sound here resolves)

end Events

section Runs
variable {Key Signal Reason : Type} [DecidableEq Key] [DecidableEq Signal] {state middle final : State Key Signal Reason} {key : Key}
  {limit id : Nat} {call : Call Key Signal Reason} {past later : List (Event Key Signal Reason)}

structure SlotsKept (key : Key) (limit : Nat) (state : State Key Signal Reason) : Prop where
  counted : state.active key = state.held key
  within : state.active key ≤ limit
  full : ∀ {id : Nat} {call : Call Key Signal Reason}, state.calls[id]? = some call → call.key = key →
    call.waiterState = some .queued → state.active key = limit
  rejected : ∀ {id : Nat} {call : Call Key Signal Reason} {why : Option Reason}, state.calls[id]? = some call → call.key = key →
    call.outcome = .rejected why → ∀ {release : Nat}, call.slot = some release →
    ∃ made, state.releases[release]? = some made ∧ made.released = true
  resolved : ∀ {id release : Nat} {call : Call Key Signal Reason}, state.calls[id]? = some call → call.key = key →
    call.outcome = .resolved release → call.slot = some release ∧
    (∃ made, state.releases[release]? = some made ∧ made.key = key) ∧
    ∀ {other : Nat} {second : Call Key Signal Reason}, state.calls[other]? = some second → second.slot = some release → other = id
  /-- An undecided call waits, or has its listener or the continuation that decides it to come. -/
  undecided : ∀ {id : Nat} {call : Call Key Signal Reason}, state.calls[id]? = some call → call.key = key →
    call.outcome = .pending → call.waiterState = some .queued ∧ state.reason call.signal = none ∨ state.Allowed (.onAbort id) ∨
    state.Allowed (.continuation id) ∧
      ∃ decided : Call Key Signal Reason, (state.continuation id).calls[id]? = some decided ∧ decided.outcome ≠ .pending
  /-- A slot that is not given back is with a call that goes on to give it back or has its
  release function. -/
  reachable : ∀ {release : Nat} {made : ReleaseOnce Key}, state.releases[release]? = some made → made.key = key →
    made.released = false → ∃ (id : Nat) (call : Call Key Signal Reason), state.calls[id]? = some call ∧ call.slot = some release ∧
      (call.waiterState = some .granted ∨ call.outcome = .resolved release)

omit [DecidableEq Key] [DecidableEq Signal] in
theorem settle_decides {outcome : Promised Reason} (here : state.calls[id]? = some call) (decides : outcome ≠ .pending) :
    ∃ decided : Call Key Signal Reason, (state.settle id outcome).calls[id]? = some decided ∧ decided.outcome ≠ .pending := by
  unfold State.settle
  rw [modifyCall_eq here]
  exact ⟨_, lookup_set_self here, decides⟩

omit [DecidableEq Signal] in
theorem continuation_decides (sound : Sound none state) (allowed : state.Allowed (.continuation id)) :
    ∃ decided : Call Key Signal Reason, (state.continuation id).calls[id]? = some decided ∧ decided.outcome ≠ .pending := by
  obtain ⟨call, waiter, here, own, settles, undecided⟩ := allowed
  have shape := sound.shaped here
  unfold State.continuation
  rw [here]
  cases shape with
  | refused | immediate => cases own
  | queued =>
    cases own
    exact absurd rfl settles
  | accepted => cases undecided
  | skipped => exact settle_decides here (fun never => by cases never)
  | returned aborts =>
    dsimp only
    rw [aborts]
    dsimp only
    rw [if_neg (by decide)]
    exact settle_decides here (fun never => by cases never)
  | @granted key signal array release =>
    dsimp only
    cases aborts : state.reason signal with
    | none =>
      dsimp only
      rw [modifyWaiter_eq here]
      exact settle_decides (lookup_set_self here) (fun never => by cases never)
    | some why =>
      dsimp only
      rw [if_pos rfl, modifyWaiter_eq here]
      obtain ⟨_, still, _⟩ := sound.giveGranted here aborts
      exact settle_decides still (fun never => by cases never)

omit [DecidableEq Signal] in
theorem Sound.kept (sound : Sound none state) (fair : Fair key limit state) : SlotsKept key limit state where
  counted := sound.slots.counted key
  within := fair.within
  full := fun looked isKey queued => Nat.le_antisymm fair.within (fair.full looked isKey queued)
  rejected := by
    intro id call why looked isKey rejects release has
    obtain ⟨made, isMade, _, _, spent⟩ := sound.slots.owned looked has
    refine ⟨made, isMade, spent ?_⟩
    cases sound.shaped looked with
    | refused => cases has
    | immediate | queued | granted | accepted => cases rejects
    | skipped => rfl
    | returned => rfl
  resolved := by
    intro id release call looked isKey resolves
    have has : call.slot = some release := by
      cases sound.shaped looked with
      | immediate | accepted =>
        cases resolves
        rfl
      | refused | queued | granted => cases resolves
      | skipped _ settles | returned _ settles => rcases settles with rfl | rfl <;> cases resolves
    obtain ⟨made, isMade, madeKey, _⟩ := sound.slots.owned looked has
    exact ⟨has, ⟨made, isMade, madeKey.trans isKey⟩, fun lookedToo hasToo => sound.slots.single lookedToo looked hasToo has⟩
  undecided := by
    intro id call looked isKey waits
    have goesOn : ∀ {waiter : ConcurrencyWaiter Reason}, call.ownWaiter = some waiter → waiter.promise ≠ .pending →
        state.Allowed (.continuation id) := fun own settles => ⟨call, _, looked, own, settles, waits⟩
    have shape := sound.shaped looked
    cases shape with
    | refused | immediate | accepted => cases waits
    | @queued key signal array =>
      cases aborts : state.reason signal with
      | none => exact .inl ⟨rfl, rfl⟩
      | some why =>
        obtain ⟨one, isOne, _⟩ := Option.bind_eq_some_iff.mp aborts
        exact .inr (.inl ⟨_, _, looked, rfl, congrArg Option.isSome isOne, congrArg Option.isSome aborts⟩)
    | granted | skipped | returned =>
      have allowed := goesOn rfl (fun never => by cases never)
      exact .inr (.inr ⟨allowed, continuation_decides sound allowed⟩)
  reachable := by
    intro release made isMade isKey free
    obtain ⟨id, call, looked, has⟩ := sound.slots.held (lookup_lt isMade)
    refine ⟨id, call, looked, has, ?_⟩
    obtain ⟨found, isFound, _, _, spent⟩ := sound.slots.owned looked has
    have same : found = made := Option.some.inj (isFound.symm.trans isMade)
    cases sound.shaped looked with
    | refused | queued | skipped => cases has
    | immediate | accepted =>
      cases has
      exact .inr rfl
    | granted => exact .inl rfl
    | returned =>
      rw [← same, spent rfl] at free
      cases free

omit [DecidableEq Signal] in
theorem initial_sound : Sound none (State.initial : State Key Signal Reason) := by
  have nothing : ∀ {α : Prop} {id : Nat} {call : Call Key Signal Reason}, ([] : List (Call Key Signal Reason))[id]? = some call → α :=
    fun never => by cases never
  refine ⟨nothing, ⟨fun key => rfl, nothing, nothing, fun never => absurd never (Nat.not_lt_zero _)⟩, ⟨nothing, ?_, ?_, ?_⟩⟩ <;>
    exact fun never => by cases never

theorem run_sound (run : Run State.Step State.initial past state) : Sound none state :=
  run.invariant (Sound none) initial_sound fun sound taken => (step_advances sound taken).1

theorem run_fair (run : Run State.Step State.initial past state) : (∀ event ∈ past, limits key limit event) → Fair key limit state := by
  refine run.history (fun labels state => (∀ event ∈ labels, limits key limit event) → Fair key limit state) ?_ ?_
  · intro _
    exact ⟨Nat.zero_le _, (fun never => by cases never), (fun _ never => by cases never)⟩
  · intro past state event next before fair taken constant
    have earlier : ∀ event ∈ past, limits key limit event := fun event member => constant event (List.mem_append_left _ member)
    exact (step_advances (run_sound before) taken).2.1 (constant event (List.mem_append_right past List.mem_cons_self)) (fair earlier)

theorem run_follows (before : Run State.Step State.initial past middle) (after : Run State.Step middle later final) :
    Follows middle final := by
  refine after.history (fun _ state => Follows middle state) (Follows.refl middle) ?_
  intro between state event next reached follows taken
  exact Follows.trans follows (step_advances (run_sound (before.append reached)) taken).2.2

/-- In every run whose calls for a key share a limit, no slot of it is lost, given twice or
beyond the limit; and a call that a later one was preferred to has an aborted signal and is
never given a slot. -/
theorem slots_kept (before : Run State.Step State.initial past middle) (after : Run State.Step middle later final)
    (constant : ∀ event ∈ past ++ later, limits key limit event) :
    SlotsKept key limit final ∧
    ∀ {earlier preferred : Nat} {call second : Call Key Signal Reason}, earlier < preferred → middle.calls[earlier]? = some call →
      middle.calls[preferred]? = some second → call.key = key → second.key = key → second.slot ≠ none → call.slot = none →
      (∃ why, middle.reason call.signal = some why) ∧
      ∃ afterwards : Call Key Signal Reason, final.calls[earlier]? = some afterwards ∧ afterwards.slot = none := by
  have whole := before.append after
  refine ⟨(run_sound whole).kept (run_fair whole constant), ?_⟩
  intro earlier preferred call second arrived looked lookedToo isKey isKeyToo given none_yet
  have fair := run_fair before fun event member => constant event (List.mem_append_left later member)
  have missed : call.missed :=
    ⟨fun queued => given (fair.order arrived looked lookedToo isKey isKeyToo queued), none_yet⟩
  obtain ⟨afterwards, lookedAfter, missedAfter⟩ := run_follows before after looked missed
  exact ⟨((run_sound before).shaped looked).aborts missed, afterwards, lookedAfter, missedAfter.2⟩

end Runs

section Handover

def waitingTwo : State Bool Nat Nat :=
  ((State.initial.perform (.acquire true 1 none)).perform (.acquire true 1 (some 7))).perform (.acquire true 1 none)

theorem waitingTwo_reached : Run State.Step State.initial
    [.acquire true 1 none, .acquire true 1 (some 7), .acquire true 1 none] waitingTwo :=
  .step (.step (.step .start ⟨trivial, rfl⟩) ⟨trivial, rfl⟩) ⟨trivial, rfl⟩

/-- The slot is handed to the first of them, which is aborted before it goes on. -/
def handedOver : State Bool Nat Nat :=
  (((waitingTwo.perform (.release 0)).perform (.abort 7 404)).perform (.onAbort 1)).perform (.continuation 2)

theorem handedOver_reached : Run State.Step waitingTwo [.release 0, .abort 7 404, .onAbort 1, .continuation 2] handedOver := by
  have release : State.Step waitingTwo (.release 0) (waitingTwo.perform (.release 0)) := ⟨⟨_, _, rfl, rfl⟩, rfl⟩
  have onAbort : ((waitingTwo.perform (.release 0)).perform (.abort 7 404)).Allowed (.onAbort 1) := ⟨_, _, rfl, rfl, rfl, rfl⟩
  have accepts : (((waitingTwo.perform (.release 0)).perform (.abort 7 404)).perform (.onAbort 1)).Allowed (.continuation 2) :=
    ⟨_, _, rfl, rfl, (fun never => by cases never), rfl⟩
  have abort : (waitingTwo.perform (.release 0)).Allowed (.abort 7 404) := trivial
  exact .step (.step (.step (.step .start release) ⟨abort, rfl⟩) ⟨onAbort, rfl⟩) ⟨accepts, rfl⟩

theorem slots_kept_handedOver : handedOver.calls[2]?.map Call.outcome = some (.resolved 2) ∧ SlotsKept true 1 handedOver := by
  refine ⟨rfl, (slots_kept waitingTwo_reached handedOver_reached ?_).1⟩
  simp [limits]

end Handover

end OpenShapeForge.Connectors.ConcurrencyLimiter
