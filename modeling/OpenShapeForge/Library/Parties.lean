import OpenShapeForge.Library.Run
import Mathlib.Logic.Function.Basic

/-! Parties that share a state and act on it one at a time, in any order. What all
of them keep is proved party by party: what an action does to its own party, and
that it leaves the others alone. -/

namespace OpenShapeForge.Library.Parties
variable {Party Shared Local Event : Type} [DecidableEq Party]

structure State (Party Shared Local : Type) where
  shared : Shared
  parties : Party → Local

abbrev Action (Party Shared Local Event : Type) := Party → Shared → Local → Event → Shared → Local → Prop

inductive Step (action : Action Party Shared Local Event) (state : State Party Shared Local) :
    Party × Event → State Party Shared Local → Prop
  | act {party event shared own} :
      action party state.shared (state.parties party) event shared own →
      Step action state (party, event) ⟨shared, Function.update state.parties party own⟩

abbrev Runs (action : Action Party Shared Local Event) (start : State Party Shared Local) :
    List (Party × Event) → State Party Shared Local → Prop := Run (Step action) start

section Invariant
variable {action : Action Party Shared Local Event} {start final : State Party Shared Local} {labels : List (Party × Event)}

structure Holds (common : Shared → Prop) (own : Party → Shared → Local → Prop) (state : State Party Shared Local) : Prop where
  common : common state.shared
  each : ∀ party, own party state.shared (state.parties party)

theorem invariant {common : Shared → Prop} {each : Party → Shared → Local → Prop} (first : Holds common each start)
    (own : ∀ {party shared before event after next}, common shared → each party shared before →
      action party shared before event after next → common after ∧ each party after next)
    (others : ∀ {party other shared before event after next beside}, other ≠ party → common shared → each party shared before →
      each other shared beside → action party shared before event after next → each other after beside)
    (runs : Runs action start labels final) : Holds common each final := by
  refine runs.invariant (Holds common each) first ?_
  rintro state ⟨party, event⟩ next holds ⟨acts⟩
  have done := own holds.common (holds.each party) acts
  refine ⟨done.1, fun other => ?_⟩
  by_cases same : other = party
  · subst same
    simpa using done.2
  · simpa [same] using others same holds.common (holds.each party) (holds.each other) acts

def Apart {Key : Type} (key : Local → Option Key) (state : State Party Shared Local) : Prop :=
  ∀ first second held, key (state.parties first) = some held → key (state.parties second) = some held → first = second

/-- The rule where a party gets a key only while no other has it, by what holds or by a
guard on the steps. -/
theorem invariant_apart {Key : Type} {common : Shared → Prop} {each : Party → Shared → Local → Prop} {key : Local → Option Key}
    {guard : State Party Shared Local → Party × Event → Prop} (first : Holds common each start) (apart : Apart key start)
    (own : ∀ {party shared before event after next}, common shared → each party shared before →
      action party shared before event after next → common after ∧ each party after next)
    (gets : ∀ {state party event after next held}, Holds common each state → guard state (party, event) →
      action party state.shared (state.parties party) event after next → key next = some held →
      key (state.parties party) = some held ∨ ∀ other, other ≠ party → key (state.parties other) ≠ some held)
    (others : ∀ {party other shared before event after next beside}, other ≠ party →
      (∀ held, key before = some held → key beside ≠ some held) → common shared → each party shared before →
      each other shared beside → action party shared before event after next → each other after beside)
    (runs : Run (guarded guard (Step action)) start labels final) : Holds common each final ∧ Apart key final := by
  refine runs.invariant (fun state => Holds common each state ∧ Apart key state) ⟨first, apart⟩ ?_
  rintro state _ next ⟨holds, apart⟩ ⟨allowed, taken⟩
  rcases taken with @⟨party, event, shared, mine, acts⟩
  have done := own holds.common (holds.each party) acts
  have only : ∀ other, other ≠ party → ∀ held, key (state.parties party) = some held → key (state.parties other) ≠ some held :=
    fun other different held isMine isTheirs => different (apart other party held isTheirs isMine)
  refine ⟨⟨done.1, fun other => ?_⟩, ?_⟩
  · by_cases same : other = party
    · subst same
      simpa using done.2
    · simpa [same] using others same (only other same) holds.common (holds.each party) (holds.each other) acts
  · have fresh : ∀ other, other ≠ party → ∀ held, key mine = some held → key (state.parties other) ≠ some held := by
      intro other different held isMine
      rcases gets holds allowed acts isMine with before | free
      · exact only other different held before
      · exact free other different
    intro one two held isOne isTwo
    by_contra different
    by_cases oneActs : one = party
    · subst oneActs
      have twoRests : two ≠ one := fun same => different same.symm
      exact fresh two twoRests held (by simpa using isOne) (by simpa [twoRests] using isTwo)
    · by_cases twoActs : two = party
      · subst twoActs
        exact fresh one oneActs held (by simpa using isTwo) (by simpa [oneActs] using isOne)
      · exact different (apart one two held (by simpa [oneActs] using isOne) (by simpa [twoActs] using isTwo))

theorem Runs.mono {wider : Action Party Shared Local Event}
    (allows : ∀ {party shared before event after next}, action party shared before event after next →
      wider party shared before event after next) (runs : Runs action start labels final) : Runs wider start labels final :=
  Run.mono (fun taken => by
    rcases taken with ⟨acts⟩
    exact ⟨allows acts⟩) runs

theorem Runs.unguarded (runs : Runs action start labels final) :
    Run (guarded (fun _ _ => True) (Step action)) start labels final :=
  Run.mono (fun taken => ⟨trivial, taken⟩) runs

theorem Runs.extend {Part Act : Type} {other : Action Party Shared Part Act} {first : State Party Shared Part} {acts : List (Party × Act)}
    (part : Local → Part) {parties : Party → Local} {shared after : Shared} {party : Party} {own : Local}
    (runs : Runs other first acts ⟨shared, fun party => part (parties party)⟩)
    (taken : (∃ act, other party shared (part (parties party)) act after (part own)) ∨ after = shared ∧ part own = part (parties party)) :
    ∃ acts, Runs other first acts ⟨after, fun one => part (Function.update parties party own one)⟩ := by
  have updated : (fun one => part (Function.update parties party own one)) = Function.update (fun one => part (parties one)) party (part own) :=
    funext fun one => Function.apply_update (fun _ => part) parties party own one
  rw [updated]
  rcases taken with ⟨act, acted⟩ | ⟨rfl, sameOwn⟩
  · exact ⟨acts ++ [(party, act)], .step runs ⟨acted⟩⟩
  · have unchanged : Function.update (fun one => part (parties one)) party (part own) = fun one => part (parties one) := by
      rw [sameOwn]
      exact Function.update_eq_self party _
    rw [unchanged]
    exact ⟨acts, runs⟩

end Invariant

section Play
variable (perform : Party → Shared → Local → Event → Option (Shared × Local))

def performs : Action Party Shared Local Event := fun party shared own event after next =>
  perform party shared own event = some (after, next)

def play : State Party Shared Local → List (Party × Event) → Option (State Party Shared Local)
  | state, [] => some state
  | state, (party, event) :: rest =>
    match perform party state.shared (state.parties party) event with
    | some (shared, own) => play ⟨shared, Function.update state.parties party own⟩ rest
    | none => none

theorem runs_of_play {labels : List (Party × Event)} {start final : State Party Shared Local}
    (played : play perform start labels = some final) : Runs (performs perform) start labels final := by
  induction labels generalizing start with
  | nil =>
    cases played
    exact .start
  | cons label rest ih =>
    unfold play at played
    split at played
    · next shared own performed => exact Run.cons ⟨performed⟩ (ih played)
    · cases played

def playChecked (check : State Party Shared Local → Party × Event → Bool) :
    State Party Shared Local → List (Party × Event) → Option (State Party Shared Local)
  | state, [] => some state
  | state, (party, event) :: rest =>
    if check state (party, event) then
      match perform party state.shared (state.parties party) event with
      | some (shared, own) => playChecked check ⟨shared, Function.update state.parties party own⟩ rest
      | none => none
    else none

theorem runs_of_playChecked {check : State Party Shared Local → Party × Event → Bool} {labels : List (Party × Event)}
    {start final : State Party Shared Local} (played : playChecked perform check start labels = some final) :
    Run (guarded (fun state label => check state label = true) (Step (performs perform))) start labels final := by
  induction labels generalizing start with
  | nil =>
    cases played
    exact .start
  | cons label rest ih =>
    unfold playChecked at played
    split at played
    · next allowed =>
      split at played
      · next shared own performed => exact Run.cons ⟨allowed, ⟨performed⟩⟩ (ih played)
      · cases played
    · cases played

end Play

end OpenShapeForge.Library.Parties
