import OpenShapeForge.Formula.Graph
import OpenShapeForge.Library.Digraph

/-! Tarjan's search, as `connect` runs it, splits the defined nodes into their
strongly connected components. The invariant speaks of the calls that are still
open: everything on the stack reaches one of them. -/

namespace OpenShapeForge.Formula.GraphComponents
open Digraph Graph
set_option linter.unusedSectionVars false

variable {κ : Type*} [DecidableEq κ]

def followed (edges : κ → List κ) (defined : κ → Bool) (key : κ) : List κ := (edges key).filter defined

def rank (search : Search κ) (key : κ) : Nat := (search.indexOf key).getD 0

def Seen (search : Search κ) (key : κ) : Prop := search.indexOf key ≠ none

/-- What holds between any two steps of the search while the calls in `active` are open. -/
structure Wf (edges : κ → List κ) (defined : κ → Bool) (active : List κ) (search : Search κ) : Prop where
  onStack_iff : ∀ x, search.onStack x = true ↔ x ∈ search.stack
  stack_nodup : search.stack.Nodup
  seen_iff : ∀ x, Seen search x ↔ x ∈ search.stack ∨ x ∈ search.components.flatten
  apart : ∀ x ∈ search.stack, x ∉ search.components.flatten
  components_nodup : search.components.flatten.Nodup
  nonempty : ∀ component ∈ search.components, component ≠ []
  isDefined : ∀ x, Seen search x → defined x = true
  rank_lt : ∀ x, Seen search x → rank search x < search.counter
  rank_inj : ∀ x y, Seen search x → Seen search y → rank search x = rank search y → x = y
  active_stack : ∀ x ∈ active, x ∈ search.stack
  explored : ∀ x, Seen search x → x ∉ active → ∀ y ∈ followed edges defined x, Seen search y
  component : ∀ component ∈ search.components, ∀ x ∈ component, ∀ y,
    y ∈ component ↔ Mutual (followed edges defined) x y
  closed : Closed (followed edges defined) {x | x ∈ search.components.flatten}
  upward : ∀ x ∈ search.stack, ∀ y ∈ search.stack, rank search x ≤ rank search y →
    Reaches (followed edges defined) x y
  anchored : ∀ y ∈ search.stack, ∃ x ∈ active, rank search x ≤ rank search y ∧ Reaches (followed edges defined) y x

structure Grown (before after : Search κ) (added : List κ) : Prop where
  stack : after.stack = added ++ before.stack
  kept : ∀ x, Seen before x → after.indexOf x = before.indexOf x
  links : ∀ x, Seen before x → after.lowLink x = before.lowLink x
  later : ∀ x, ¬Seen before x → Seen after x → before.counter ≤ rank after x
  counter : before.counter ≤ after.counter
  finished : ∀ x ∈ before.components.flatten, x ∈ after.components.flatten

namespace Grown

theorem seen {before after : Search κ} {added : List κ} (grown : Grown before after added) {x : κ}
    (known : Seen before x) : Seen after x := by
  unfold Seen
  rw [grown.kept x known]
  exact known

theorem rank_eq {before after : Search κ} {added : List κ} (grown : Grown before after added) {x : κ}
    (known : Seen before x) : rank after x = rank before x := by
  unfold rank
  rw [grown.kept x known]

theorem trans {first second third : Search κ} {added more : List κ} (one : Grown first second added)
    (two : Grown second third more) : Grown first third (more ++ added) where
  stack := by rw [two.stack, one.stack, List.append_assoc]
  kept := fun x known => (two.kept x (one.seen known)).trans (one.kept x known)
  links := fun x known => (two.links x (one.seen known)).trans (one.links x known)
  later := by
    intro x unknown known
    by_cases middle : Seen second x
    · rw [two.rank_eq middle]
      exact one.later x unknown middle
    · exact one.counter.trans (two.later x middle known)
  counter := one.counter.trans two.counter
  finished := fun x member => two.finished x (one.finished x member)

end Grown

/-- What a finished call for `key` leaves behind, `added` being the part of the
stack it did not close. -/
structure Finished (edges : κ → List κ) (defined : κ → Bool) (active : List κ) (key : κ)
    (before after : Search κ) (added : List κ) : Prop where
  wf : Wf edges defined active after
  grown : Grown before after added
  seen : Seen after key
  low_le : after.lowLink key ≤ rank after key
  low_attained : after.lowLink key = rank after key ∨
    ∃ y ∈ after.stack, rank after y = after.lowLink key ∧ Reaches (followed edges defined) key y
  cross : ∀ x ∈ added, ∀ y ∈ followed edges defined x, y ∈ before.stack → after.lowLink key ≤ rank after y

/-- The loop of the call for `key`, after the reads in `done`. -/
structure Scanning (edges : κ → List κ) (defined : κ → Bool) (active : List κ) (key : κ)
    (before current : Search κ) (done added : List κ) : Prop where
  wf : Wf edges defined (key :: active) current
  grown : Grown before current (added ++ [key])
  key_seen : Seen current key
  rank_key : rank current key = before.counter
  low_le : current.lowLink key ≤ rank current key
  low_attained : ∃ y ∈ current.stack, rank current y = current.lowLink key ∧ Reaches (followed edges defined) key y
  cross : ∀ x ∈ added, ∀ y ∈ followed edges defined x, y ∈ before.stack → current.lowLink key ≤ rank current y
  scanned : ∀ read ∈ done, defined read = true →
    Seen current read ∧ (read ∈ before.stack → current.lowLink key ≤ rank current read)

section Enter
variable {edges : κ → List κ} {defined : κ → Bool} {active : List κ} {key : κ} {before : Search κ}

theorem seen_enter (x : κ) : Seen (before.enter key) x ↔ x = key ∨ Seen before x := by
  unfold Seen Search.enter
  by_cases same : x = key
  · simp [same]
  · simp [same]

@[simp] theorem rank_enter_self : rank (before.enter key) key = before.counter := by
  simp [rank, Search.enter]

theorem rank_enter_of_ne {x : κ} (different : x ≠ key) : rank (before.enter key) x = rank before x := by
  simp [rank, Search.enter, Function.update_of_ne different]

theorem Wf.seen_of_stack {search : Search κ} (wf : Wf edges defined active search) {x : κ}
    (member : x ∈ search.stack) : Seen search x := (wf.seen_iff x).mpr (.inl member)

theorem Wf.enter (wf : Wf edges defined active before) (isDefined : defined key = true)
    (unseen : ¬Seen before key) (reached : ∀ x ∈ active, Reaches (followed edges defined) x key) :
    Wf edges defined (key :: active) (before.enter key) := by
  have notStack : key ∉ before.stack := fun member => unseen (wf.seen_of_stack member)
  have notDone : key ∉ before.components.flatten := fun member => unseen ((wf.seen_iff key).mpr (.inr member))
  have older : ∀ x, Seen before x → x ≠ key := fun x known same => unseen (same ▸ known)
  have stackReaches : ∀ x ∈ before.stack, Reaches (followed edges defined) x key := by
    intro x member
    obtain ⟨open_, isActive, -, there⟩ := wf.anchored x member
    exact there.trans (reached open_ isActive)
  constructor
  case onStack_iff =>
    intro x
    by_cases same : x = key
    · simp [Search.enter, same]
    · simp [Search.enter, same, wf.onStack_iff x]
  case stack_nodup => exact List.nodup_cons.mpr ⟨notStack, wf.stack_nodup⟩
  case seen_iff =>
    intro x
    rw [seen_enter, wf.seen_iff]
    simp [Search.enter, or_assoc]
  case apart =>
    intro x member
    rcases List.mem_cons.mp member with same | old
    · exact same ▸ notDone
    · exact wf.apart x old
  case components_nodup => exact wf.components_nodup
  case nonempty => exact wf.nonempty
  case isDefined =>
    intro x known
    rcases (seen_enter x).mp known with same | old
    · exact same ▸ isDefined
    · exact wf.isDefined x old
  case rank_lt =>
    intro x known
    rcases (seen_enter x).mp known with same | old
    · rw [same, rank_enter_self]
      exact Nat.lt_succ_self _
    · rw [rank_enter_of_ne (older x old)]
      exact (wf.rank_lt x old).trans (Nat.lt_succ_self _)
  case rank_inj =>
    intro x y knownX knownY same
    rcases (seen_enter x).mp knownX with rfl | oldX <;> rcases (seen_enter y).mp knownY with rfl | oldY
    · rfl
    · rw [rank_enter_self, rank_enter_of_ne (older y oldY)] at same
      exact absurd (wf.rank_lt y oldY) (by omega)
    · rw [rank_enter_self, rank_enter_of_ne (older x oldX)] at same
      exact absurd (wf.rank_lt x oldX) (by omega)
    · rw [rank_enter_of_ne (older x oldX), rank_enter_of_ne (older y oldY)] at same
      exact wf.rank_inj x y oldX oldY same
  case active_stack =>
    intro x member
    rcases List.mem_cons.mp member with same | old
    · exact same ▸ List.mem_cons_self
    · exact List.mem_cons_of_mem _ (wf.active_stack x old)
  case explored =>
    intro x known notActive y edge
    rcases (seen_enter x).mp known with same | old
    · exact absurd (same ▸ List.mem_cons_self) notActive
    · exact (seen_enter y).mpr (.inr (wf.explored x old (fun member => notActive (List.mem_cons_of_mem _ member)) y edge))
  case component => exact wf.component
  case closed => exact wf.closed
  case upward =>
    intro x memberX y memberY le
    rcases List.mem_cons.mp memberX with rfl | oldX <;> rcases List.mem_cons.mp memberY with rfl | oldY
    · exact .refl
    · have known := wf.seen_of_stack oldY
      rw [rank_enter_self, rank_enter_of_ne (older y known)] at le
      exact absurd (wf.rank_lt y known) (by omega)
    · exact stackReaches x oldX
    · rw [rank_enter_of_ne (older x (wf.seen_of_stack oldX)), rank_enter_of_ne (older y (wf.seen_of_stack oldY))] at le
      exact wf.upward x oldX y oldY le
  case anchored =>
    intro y member
    rcases List.mem_cons.mp member with rfl | old
    · exact ⟨y, List.mem_cons_self, le_rfl, .refl⟩
    · obtain ⟨x, isActive, le, there⟩ := wf.anchored y old
      refine ⟨x, List.mem_cons_of_mem _ isActive, ?_, there⟩
      rw [rank_enter_of_ne (older x (wf.seen_of_stack (wf.active_stack x isActive))),
        rank_enter_of_ne (older y (wf.seen_of_stack old))]
      exact le

theorem grown_enter (unseen : ¬Seen before key) : Grown before (before.enter key) [key] where
  stack := rfl
  kept := by
    intro x known
    have different : x ≠ key := fun same => unseen (same ▸ known)
    simp [Search.enter, Function.update_of_ne different]
  links := by
    intro x known
    have different : x ≠ key := fun same => unseen (same ▸ known)
    simp [Search.enter, Function.update_of_ne different]
  later := by
    intro x unknown known
    rcases (seen_enter x).mp known with same | old
    · simp [same]
    · exact absurd old unknown
  counter := Nat.le_succ _
  finished := fun _ member => member

end Enter

theorem Wf.lower {edges : κ → List κ} {defined : κ → Bool} {active : List κ} {search : Search κ}
    (wf : Wf edges defined active search) (key : κ) (link : Nat) : Wf edges defined active (search.lower key link) :=
  ⟨wf.onStack_iff, wf.stack_nodup, wf.seen_iff, wf.apart, wf.components_nodup, wf.nonempty, wf.isDefined, wf.rank_lt,
    wf.rank_inj, wf.active_stack, wf.explored, wf.component, wf.closed, wf.upward, wf.anchored⟩

@[simp] theorem lower_lowLink_self (search : Search κ) (key : κ) (link : Nat) :
    (search.lower key link).lowLink key = min (search.lowLink key) link := by
  simp [Search.lower]

@[simp] theorem rank_lower (search : Search κ) (key other : κ) (link : Nat) :
    rank (search.lower key link) other = rank search other := rfl

section Read
variable {edges : κ → List κ} {defined : κ → Bool} {active : List κ} {key read : κ} {before current : Search κ}
  {done added : List κ}

theorem mem_followed {x y : κ} : y ∈ followed edges defined x ↔ y ∈ edges x ∧ defined y = true := by
  simp [followed]

theorem Scanning.stack_eq (scanning : Scanning edges defined active key before current done added) :
    current.stack = added ++ key :: before.stack := by
  rw [scanning.grown.stack, List.append_assoc, List.singleton_append]

theorem Scanning.old_stack (scanning : Scanning edges defined active key before current done added) {x : κ}
    (member : x ∈ before.stack) : x ∈ current.stack := by
  rw [scanning.stack_eq]
  simp [member]

theorem Scanning.skip (scanning : Scanning edges defined active key before current done added)
    (undefined : defined read = false) : Scanning edges defined active key before current (done ++ [read]) added := by
  refine { scanning with scanned := ?_ }
  intro other member isDefined
  rcases List.mem_append.mp member with earlier | here
  · exact scanning.scanned other earlier isDefined
  · rw [List.mem_singleton.mp here, undefined] at isDefined
    cases isDefined

theorem Scanning.closedRead (scanning : Scanning edges defined active key before current done added)
    (seen : Seen current read) (off : read ∉ current.stack) :
    Scanning edges defined active key before current (done ++ [read]) added := by
  refine { scanning with scanned := ?_ }
  intro other member isDefined
  rcases List.mem_append.mp member with earlier | here
  · exact scanning.scanned other earlier isDefined
  · rw [List.mem_singleton.mp here]
    exact ⟨seen, fun old => absurd (scanning.old_stack old) off⟩

theorem Scanning.stackRead (scanning : Scanning edges defined active key before current done added)
    (unseen : ¬Seen before key) (edge : read ∈ followed edges defined key) (on : read ∈ current.stack) :
    Scanning edges defined active key before (current.lower key (rank current read)) (done ++ [read]) added where
  wf := scanning.wf.lower _ _
  grown := by
    refine { scanning.grown with links := ?_, later := scanning.grown.later }
    intro x known
    have different : x ≠ key := fun same => unseen (same ▸ known)
    exact (Function.update_of_ne different _ _).trans (scanning.grown.links x known)
  key_seen := scanning.key_seen
  rank_key := scanning.rank_key
  low_le := by
    rw [lower_lowLink_self]
    exact (Nat.min_le_left _ _).trans scanning.low_le
  low_attained := by
    obtain ⟨y, member, attained, there⟩ := scanning.low_attained
    rw [lower_lowLink_self]
    by_cases smaller : current.lowLink key ≤ rank current read
    · exact ⟨y, member, by rw [rank_lower, attained, Nat.min_eq_left smaller], there⟩
    · exact ⟨read, on, by rw [rank_lower, Nat.min_eq_right (by omega)], .single edge⟩
  cross := by
    intro x member y step old
    rw [lower_lowLink_self]
    exact (Nat.min_le_left _ _).trans (scanning.cross x member y step old)
  scanned := by
    intro other member isDefined
    rw [lower_lowLink_self]
    rcases List.mem_append.mp member with earlier | here
    · obtain ⟨seen, le⟩ := scanning.scanned other earlier isDefined
      exact ⟨seen, fun old => (Nat.min_le_left _ _).trans (le old)⟩
    · rw [List.mem_singleton.mp here]
      exact ⟨scanning.wf.seen_of_stack on, fun _ => Nat.min_le_right _ _⟩

theorem Scanning.freshRead {after : Search κ} {more : List κ}
    (scanning : Scanning edges defined active key before current done added) (unseen : ¬Seen before key)
    (edge : read ∈ followed edges defined key) (fresh : ¬Seen current read)
    (finished : Finished edges defined (key :: active) read current after more) :
    Scanning edges defined active key before (after.lower key (after.lowLink read)) (done ++ [read]) (more ++ added) := by
  have keySeen : Seen after key := finished.grown.seen scanning.key_seen
  have keyRank : rank after key = rank current key := finished.grown.rank_eq scanning.key_seen
  have keyLink : after.lowLink key = current.lowLink key := finished.grown.links key scanning.key_seen
  have oldSeen : ∀ y ∈ before.stack, Seen current y := fun y old => scanning.wf.seen_of_stack (scanning.old_stack old)
  have grown : Grown before after ((more ++ added) ++ [key]) := by
    have both := scanning.grown.trans finished.grown
    rwa [← List.append_assoc] at both
  constructor
  case wf => exact finished.wf.lower _ _
  case grown =>
    refine { grown with links := ?_, later := grown.later }
    intro x known
    have different : x ≠ key := fun same => unseen (same ▸ known)
    exact (Function.update_of_ne different _ _).trans (grown.links x known)
  case key_seen => exact keySeen
  case rank_key => rw [rank_lower, keyRank, scanning.rank_key]
  case low_le =>
    rw [lower_lowLink_self, rank_lower, keyLink, keyRank]
    exact (Nat.min_le_left _ _).trans scanning.low_le
  case low_attained =>
    rw [lower_lowLink_self, keyLink]
    by_cases smaller : current.lowLink key ≤ after.lowLink read
    · obtain ⟨y, member, attained, there⟩ := scanning.low_attained
      refine ⟨y, ?_, ?_, there⟩
      · change y ∈ after.stack
        rw [finished.grown.stack]
        exact List.mem_append_right _ member
      · rw [rank_lower, finished.grown.rank_eq (scanning.wf.seen_of_stack member), attained, Nat.min_eq_left smaller]
    · rw [Nat.min_eq_right (by omega)]
      rcases finished.low_attained with own | ⟨y, member, attained, there⟩
      · have low := scanning.low_le
        have old := scanning.wf.rank_lt key scanning.key_seen
        have new := finished.grown.later read fresh finished.seen
        omega
      · exact ⟨y, member, attained, .head edge there⟩
  case cross =>
    intro x member y step old
    rw [lower_lowLink_self, rank_lower]
    rcases List.mem_append.mp member with fresh | earlier
    · exact (Nat.min_le_right _ _).trans (finished.cross x fresh y step (scanning.old_stack old))
    · rw [keyLink, finished.grown.rank_eq (oldSeen y old)]
      exact (Nat.min_le_left _ _).trans (scanning.cross x earlier y step old)
  case scanned =>
    intro other member isDefined
    rw [lower_lowLink_self, rank_lower, keyLink]
    rcases List.mem_append.mp member with earlier | here
    · obtain ⟨seen, le⟩ := scanning.scanned other earlier isDefined
      refine ⟨finished.grown.seen seen, fun old => ?_⟩
      rw [finished.grown.rank_eq seen]
      exact (Nat.min_le_left _ _).trans (le old)
    · rw [List.mem_singleton.mp here]
      exact ⟨finished.seen, fun old => (Nat.min_le_right _ _).trans finished.low_le⟩

end Read

section Finish
variable {edges : κ → List κ} {defined : κ → Bool} {active : List κ} {key : κ} {before current : Search κ}
  {added : List κ}

theorem popUntil_append (key : κ) (added rest : List κ) (fresh : key ∉ added) :
    popUntil key (added ++ key :: rest) = (added ++ [key], rest) := by
  induction added with
  | nil => simp [popUntil]
  | cons member added ih =>
    have different : member ≠ key := fun same => fresh (same ▸ List.mem_cons_self)
    simp [popUntil, different, ih (fun later => fresh (List.mem_cons_of_mem _ later))]

theorem Scanning.old_rank (scanning : Scanning edges defined active key before current (edges key) added)
    (wf : Wf edges defined active before) {x : κ} (old : x ∈ before.stack) :
    rank current x < rank current key := by
  rw [scanning.grown.rank_eq (wf.seen_of_stack old), scanning.rank_key]
  exact wf.rank_lt x (wf.seen_of_stack old)

theorem Scanning.added_rank (scanning : Scanning edges defined active key before current (edges key) added)
    (wf : Wf edges defined active before) {x : κ} (above : x ∈ added) : rank current key ≤ rank current x := by
  have onStack : x ∈ current.stack := by
    rw [scanning.stack_eq]
    exact List.mem_append_left _ above
  have nodup := scanning.wf.stack_nodup
  rw [scanning.stack_eq] at nodup
  rw [scanning.rank_key]
  apply scanning.grown.later x _ (scanning.wf.seen_of_stack onStack)
  intro known
  rcases (wf.seen_iff x).mp known with old | closed
  · exact List.disjoint_of_nodup_append nodup above (List.mem_cons_of_mem _ old)
  · exact scanning.wf.apart x onStack (scanning.grown.finished x closed)

theorem Scanning.cross_all (scanning : Scanning edges defined active key before current (edges key) added)
    (wf : Wf edges defined active before) {x y : κ} (member : x ∈ added ++ [key])
    (step : y ∈ followed edges defined x) :
    Seen current y ∧ (y ∈ before.stack → current.lowLink key ≤ rank current y) := by
  rcases List.mem_append.mp member with above | here
  · have onStack : x ∈ current.stack := by
      rw [scanning.stack_eq]
      exact List.mem_append_left _ above
    have nodup := scanning.wf.stack_nodup
    rw [scanning.stack_eq] at nodup
    have notActive : x ∉ key :: active := by
      intro isActive
      rcases List.mem_cons.mp isActive with same | older
      · exact List.disjoint_of_nodup_append nodup above (same ▸ List.mem_cons_self)
      · exact List.disjoint_of_nodup_append nodup above (List.mem_cons_of_mem _ (wf.active_stack x older))
    exact ⟨scanning.wf.explored x (scanning.wf.seen_of_stack onStack) notActive y step, scanning.cross x above y step⟩
  · rw [List.mem_singleton.mp here, mem_followed] at step
    exact scanning.scanned y step.1 step.2

theorem Scanning.finish_open (scanning : Scanning edges defined active key before current (edges key) added)
    (wf : Wf edges defined active before) (lower : current.lowLink key < rank current key) :
    Finished edges defined active key before current (added ++ [key]) := by
  obtain ⟨target, onStack, attained, there⟩ := scanning.low_attained
  have anchor : ∃ x ∈ active, rank current x ≤ rank current target ∧ Reaches (followed edges defined) target x := by
    obtain ⟨x, isActive, le, walk⟩ := scanning.wf.anchored target onStack
    rcases List.mem_cons.mp isActive with same | older
    · rw [same] at le
      omega
    · exact ⟨x, older, le, walk⟩
  have keyAnchor : ∃ x ∈ active, rank current x ≤ rank current key ∧ Reaches (followed edges defined) key x := by
    obtain ⟨x, isActive, le, walk⟩ := anchor
    exact ⟨x, isActive, by omega, there.trans walk⟩
  refine ⟨?_, scanning.grown, scanning.key_seen, scanning.low_le, .inr ⟨target, onStack, attained, there⟩, ?_⟩
  · refine { scanning.wf with active_stack := ?_, explored := ?_, anchored := ?_ }
    · exact fun x member => scanning.wf.active_stack x (List.mem_cons_of_mem _ member)
    · intro x known notActive y step
      by_cases same : x = key
      · exact (scanning.cross_all wf (by simp [same]) step).1
      · exact scanning.wf.explored x known (by simp [same, notActive]) y step
    · intro y member
      obtain ⟨x, isActive, le, walk⟩ := scanning.wf.anchored y member
      rcases List.mem_cons.mp isActive with same | older
      · obtain ⟨z, older, leZ, walkZ⟩ := keyAnchor
        subst same
        exact ⟨z, older, leZ.trans le, walk.trans walkZ⟩
      · exact ⟨x, older, le, walk⟩
  · intro x member y step old
    exact (scanning.cross_all wf member step).2 old

theorem Scanning.component_mutual (scanning : Scanning edges defined active key before current (edges key) added)
    (wf : Wf edges defined active before) (own : current.lowLink key = rank current key) :
    Closed (followed edges defined) {x | x ∈ added ++ [key] ∨ x ∈ current.components.flatten} ∧
      ∀ x ∈ added ++ [key], ∀ y, y ∈ added ++ [key] ↔ Mutual (followed edges defined) x y := by
  have stackMem : ∀ x, x ∈ current.stack ↔ x ∈ added ++ [key] ∨ x ∈ before.stack := by
    intro x
    rw [scanning.grown.stack, List.mem_append]
  have closed : Closed (followed edges defined) {x | x ∈ added ++ [key] ∨ x ∈ current.components.flatten} := by
    intro x inside y step
    rcases inside with member | finished
    · obtain ⟨seen, low⟩ := scanning.cross_all wf member step
      rcases (scanning.wf.seen_iff y).mp seen with onStack | finished
      · rcases (stackMem y).mp onStack with member | old
        · exact .inl member
        · have bound := low old
          have older := scanning.old_rank wf old
          omega
      · exact .inr finished
    · exact .inr (scanning.wf.closed x finished y step)
  have fromKey : ∀ x ∈ added ++ [key], Reaches (followed edges defined) key x := by
    intro x member
    rcases List.mem_append.mp member with above | here
    · exact scanning.wf.upward key ((stackMem key).mpr (.inl (by simp))) x ((stackMem x).mpr (.inl member))
        (scanning.added_rank wf above)
    · rw [List.mem_singleton.mp here]
  have toKey : ∀ x ∈ added ++ [key], Reaches (followed edges defined) x key := by
    intro x member
    obtain ⟨z, isActive, -, walk⟩ := scanning.wf.anchored x ((stackMem x).mpr (.inl member))
    rcases List.mem_cons.mp isActive with same | older
    · exact same ▸ walk
    · have old := wf.active_stack z older
      exact walk.trans (scanning.wf.upward z (scanning.old_stack old) key ((stackMem key).mpr (.inl (by simp)))
        (scanning.old_rank wf old).le)
  refine ⟨closed, fun x member y => ⟨fun other => ?_, fun both => ?_⟩⟩
  · exact ⟨(toKey x member).trans (fromKey y other), (toKey y other).trans (fromKey x member)⟩
  · rcases closed.reaches (.inl member) both.1 with inside | finished
    · exact inside
    · have outside : x ∈ current.components.flatten := scanning.wf.closed.reaches finished both.2
      exact absurd outside (scanning.wf.apart x ((stackMem x).mpr (.inl member)))

theorem Scanning.popped (scanning : Scanning edges defined active key before current (edges key) added) :
    popUntil key current.stack = (added ++ [key], before.stack) := by
  have nodup := scanning.wf.stack_nodup
  rw [scanning.stack_eq] at nodup ⊢
  exact popUntil_append key added before.stack
    (fun above => List.disjoint_of_nodup_append nodup above List.mem_cons_self)

theorem Scanning.finish_closed (scanning : Scanning edges defined active key before current (edges key) added)
    (wf : Wf edges defined active before) (own : current.lowLink key = rank current key) :
    Finished edges defined active key before (current.popComponent key) [] := by
  obtain ⟨closed, isComponent⟩ := scanning.component_mutual wf own
  have popped := scanning.popped
  have nodup := scanning.wf.stack_nodup
  rw [scanning.grown.stack] at nodup
  have stackMem : ∀ x, x ∈ current.stack ↔ x ∈ added ++ [key] ∨ x ∈ before.stack := by
    intro x
    rw [scanning.grown.stack, List.mem_append]
  have disjoint := List.disjoint_of_nodup_append nodup
  have stack : (current.popComponent key).stack = before.stack := by simp [Search.popComponent, popped]
  have components : (current.popComponent key).components = current.components ++ [added ++ [key]] := by
    simp [Search.popComponent, popped]
  have flatMem : ∀ x, x ∈ (current.popComponent key).components.flatten ↔
      x ∈ added ++ [key] ∨ x ∈ current.components.flatten := by
    intro x
    rw [components, List.flatten_append, List.mem_append, or_comm]
    simp
  have seenSame : ∀ x, Seen (current.popComponent key) x ↔ Seen current x := fun _ => Iff.rfl
  refine ⟨?_, ?_, scanning.key_seen, scanning.low_le, .inl own, by simp⟩
  · constructor
    case onStack_iff =>
      intro x
      simp only [Search.popComponent, popped, Bool.and_eq_true, decide_eq_true_eq, scanning.wf.onStack_iff, stackMem]
      constructor
      · intro both
        exact both.1.resolve_left both.2
      · intro old
        exact ⟨.inr old, fun member => disjoint member old⟩
    case stack_nodup =>
      rw [stack]
      exact wf.stack_nodup
    case seen_iff =>
      intro x
      rw [seenSame, scanning.wf.seen_iff, stackMem, stack, flatMem]
      tauto
    case apart =>
      intro x old
      rw [stack] at old
      rw [flatMem]
      intro inside
      rcases inside with member | finished
      · exact disjoint member old
      · exact scanning.wf.apart x (scanning.old_stack old) finished
    case components_nodup =>
      rw [components, List.flatten_append]
      refine List.Nodup.append scanning.wf.components_nodup ?_ ?_
      · simpa using nodup.sublist (List.sublist_append_left _ _)
      · intro x finished member
        exact scanning.wf.apart x ((stackMem x).mpr (.inl (by simpa using member))) finished
    case nonempty =>
      intro component member
      rw [components] at member
      rcases List.mem_append.mp member with earlier | here
      · exact scanning.wf.nonempty component earlier
      · rw [List.mem_singleton.mp here]
        simp
    case isDefined => exact scanning.wf.isDefined
    case rank_lt => exact scanning.wf.rank_lt
    case rank_inj => exact scanning.wf.rank_inj
    case active_stack =>
      rw [stack]
      exact wf.active_stack
    case explored =>
      intro x known notActive y step
      by_cases same : x = key
      · exact (scanning.cross_all wf (by simp [same]) step).1
      · exact scanning.wf.explored x known (by simp [same, notActive]) y step
    case component =>
      intro component member
      rw [components] at member
      rcases List.mem_append.mp member with earlier | here
      · exact scanning.wf.component component earlier
      · rw [List.mem_singleton.mp here]
        exact isComponent
    case closed =>
      intro x inside y step
      exact (flatMem y).mpr (closed x ((flatMem x).mp inside) y step)
    case upward =>
      intro x memberX y memberY le
      rw [stack] at memberX memberY
      exact scanning.wf.upward x (scanning.old_stack memberX) y (scanning.old_stack memberY) le
    case anchored =>
      intro y member
      rw [stack] at member
      obtain ⟨x, isActive, le, walk⟩ := scanning.wf.anchored y (scanning.old_stack member)
      rcases List.mem_cons.mp isActive with same | older
      · have lt := scanning.old_rank wf member
        rw [same] at le
        omega
      · exact ⟨x, older, le, walk⟩
  · refine { scanning.grown with stack := stack, later := scanning.grown.later, finished := ?_ }
    intro x member
    exact (flatMem x).mpr (.inr (scanning.grown.finished x member))

end Finish

section Connect
variable {edges : κ → List κ} {defined : κ → Bool} {nodes active : List κ} {key : κ} {before current : Search κ}

/-- The nodes no call has entered yet; this is what the fuel has to cover. -/
def unseen (nodes : List κ) (search : Search κ) : Nat := nodes.countP fun x => (search.indexOf x).isNone

theorem seen_iff_isNone (search : Search κ) (x : κ) : (search.indexOf x).isNone = true ↔ ¬Seen search x := by
  simp [Seen, Option.isNone_iff_eq_none]

theorem countP_lt {items : List κ} {p q : κ → Bool} (weaker : ∀ x ∈ items, p x = true → q x = true)
    {witness : κ} (member : witness ∈ items) (holds : q witness = true) (fails : p witness = false) :
    items.countP p < items.countP q := by
  obtain ⟨front, back, split⟩ := List.append_of_mem member
  subst split
  have front_le : front.countP p ≤ front.countP q :=
    List.countP_mono_left fun x inFront => weaker x (List.mem_append_left _ inFront)
  have back_le : back.countP p ≤ back.countP q :=
    List.countP_mono_left fun x inBack => weaker x (List.mem_append_right _ (List.mem_cons_of_mem _ inBack))
  simp only [List.countP_append, List.countP_cons, holds, fails]
  simp
  omega

theorem unseen_lt (covers : ∀ x, defined x = true → x ∈ nodes) (isDefined : defined key = true)
    (notSeen : ¬Seen before key) (seen : Seen current key) (kept : ∀ x, Seen before x → Seen current x) :
    unseen nodes current < unseen nodes before := by
  apply countP_lt _ (covers key isDefined) ((seen_iff_isNone before key).mpr notSeen)
  · rw [← Bool.not_eq_true, seen_iff_isNone]
    exact not_not_intro seen
  · intro x _ left
    rw [seen_iff_isNone] at left ⊢
    exact fun known => left (kept x known)

theorem scanning_start (wf : Wf edges defined active before) (isDefined : defined key = true)
    (notSeen : ¬Seen before key) (reached : ∀ x ∈ active, Reaches (followed edges defined) x key) :
    Scanning edges defined active key before (before.enter key) [] [] where
  wf := wf.enter isDefined notSeen reached
  grown := grown_enter notSeen
  key_seen := (seen_enter key).mpr (.inl rfl)
  rank_key := rank_enter_self
  low_le := by simp [Search.enter, rank]
  low_attained := ⟨key, by simp [Search.enter], by simp [Search.enter, rank], .refl⟩
  cross := by simp
  scanned := by simp

theorem connect_finished (covers : ∀ x, defined x = true → x ∈ nodes) (fuel : Nat) :
    ∀ (active : List κ) (key : κ) (before : Search κ), Wf edges defined active before → defined key = true →
      ¬Seen before key → (∀ x ∈ active, Reaches (followed edges defined) x key) → unseen nodes before ≤ fuel →
      ∃ added, Finished edges defined active key before (connect edges defined fuel key before) added := by
  induction fuel with
  | zero =>
    intro active key before wf isDefined notSeen _ enough
    have present : 0 < unseen nodes before :=
      List.countP_pos_iff.mpr ⟨key, covers key isDefined, (seen_iff_isNone before key).mpr notSeen⟩
    omega
  | succ fuel ih =>
    intro active key before wf isDefined notSeen reached enough
    have scan : ∀ (reads done : List κ) (current : Search κ) (added : List κ),
        Scanning edges defined active key before current done added → (∀ read ∈ reads, read ∈ edges key) →
        ∃ added', Scanning edges defined active key before
          (reads.foldl (followRead defined (connect edges defined fuel) key) current) (done ++ reads) added' := by
      intro reads
      induction reads with
      | nil =>
        intro done current added scanning _
        exact ⟨added, by simpa using scanning⟩
      | cons read reads scanIh =>
        intro done current added scanning all
        have within : ∀ other ∈ reads, other ∈ edges key := fun other member => all other (List.mem_cons_of_mem _ member)
        have next : ∃ added', Scanning edges defined active key before
            (followRead defined (connect edges defined fuel) key current read) (done ++ [read]) added' := by
          unfold followRead
          by_cases readDefined : defined read = true
          · have edge : read ∈ followed edges defined key := mem_followed.mpr ⟨all read List.mem_cons_self, readDefined⟩
            rw [if_pos readDefined]
            cases index : current.indexOf read with
            | none =>
              have fresh : ¬Seen current read := by simp [Seen, index]
              have fewer := unseen_lt covers isDefined notSeen scanning.key_seen (fun x known => scanning.grown.seen known)
              have open_ : ∀ x ∈ key :: active, Reaches (followed edges defined) x read := by
                intro x member
                rcases List.mem_cons.mp member with same | older
                · exact same ▸ .single edge
                · exact (reached x older).tail edge
              obtain ⟨more, finished⟩ := ih (key :: active) read current scanning.wf readDefined fresh open_ (by omega)
              exact ⟨_, scanning.freshRead notSeen edge fresh finished⟩
            | some position =>
              have known : Seen current read := by simp [Seen, index]
              by_cases on : current.onStack read = true
              · have sameRank : rank current read = position := by simp [rank, index]
                simp only [on, if_true, ← sameRank]
                exact ⟨added, scanning.stackRead notSeen edge ((scanning.wf.onStack_iff read).mp on)⟩
              · simp only [on]
                exact ⟨added, scanning.closedRead known (fun member => on ((scanning.wf.onStack_iff read).mpr member))⟩
          · rw [if_neg readDefined]
            exact ⟨added, scanning.skip (Bool.eq_false_iff.mpr readDefined)⟩
        obtain ⟨added', scanned⟩ := next
        obtain ⟨last, result⟩ := scanIh (done ++ [read]) _ added' scanned within
        exact ⟨last, by simpa using result⟩
    obtain ⟨added, scanning⟩ := scan (edges key) [] (before.enter key) []
      (scanning_start wf isDefined notSeen reached) (fun _ member => member)
    rw [List.nil_append] at scanning
    have indexed := scanning.key_seen
    unfold connect
    simp only
    generalize (edges key).foldl (followRead defined (connect edges defined fuel) key) (before.enter key) = current
      at scanning indexed ⊢
    have rankEq : current.indexOf key = some (rank current key) := by
      obtain ⟨index, found⟩ := Option.ne_none_iff_exists'.mp indexed
      simp [rank, found]
    by_cases own : current.lowLink key = rank current key
    · rw [if_pos (by rw [rankEq, own])]
      exact ⟨[], scanning.finish_closed wf own⟩
    · rw [if_neg (by rw [rankEq]; exact fun same => own (Option.some.inj same).symm)]
      exact ⟨_, scanning.finish_open wf (lt_of_le_of_ne scanning.low_le own)⟩

theorem wf_start : Wf edges defined [] (Search.start : Search κ) := by
  constructor <;> simp [Search.start, Seen, Closed]

theorem connectAll_wf (edges : κ → List κ) (keys : List κ)
    (defined_iff : ∀ x, defined x = true ↔ x ∈ keys) :
    Wf edges defined [] (connectAll edges defined keys) ∧ ∀ x ∈ keys, Seen (connectAll edges defined keys) x := by
  have covers : ∀ x, defined x = true → x ∈ keys := fun x => (defined_iff x).mp
  have walk : ∀ (rest : List κ) (search : Search κ), (∀ x ∈ rest, x ∈ keys) → Wf edges defined [] search →
      Wf edges defined [] (rest.foldl (fun search key =>
        if search.indexOf key = none then connect edges defined keys.length key search else search) search) ∧
      (∀ x, Seen search x → Seen (rest.foldl (fun search key =>
        if search.indexOf key = none then connect edges defined keys.length key search else search) search) x) ∧
      ∀ x ∈ rest, Seen (rest.foldl (fun search key =>
        if search.indexOf key = none then connect edges defined keys.length key search else search) search) x := by
    intro rest
    induction rest with
    | nil => exact fun search _ wf => ⟨wf, fun _ known => known, by simp⟩
    | cons key rest ih =>
      intro search within wf
      have inside : ∀ x ∈ rest, x ∈ keys := fun x member => within x (List.mem_cons_of_mem _ member)
      simp only [List.foldl_cons]
      by_cases fresh : search.indexOf key = none
      · rw [if_pos fresh]
        have bound : unseen keys search ≤ keys.length := List.countP_le_length
        obtain ⟨added, finished⟩ := connect_finished covers keys.length [] key search wf
          ((defined_iff key).mpr (within key List.mem_cons_self)) (not_not_intro fresh) (by simp) bound
        obtain ⟨later, kept, all⟩ := ih _ inside finished.wf
        refine ⟨later, fun x known => kept x (finished.grown.seen known), fun x member => ?_⟩
        rcases List.mem_cons.mp member with same | older
        · exact same ▸ kept key finished.seen
        · exact all x older
      · rw [if_neg fresh]
        obtain ⟨later, kept, all⟩ := ih search inside wf
        refine ⟨later, kept, fun x member => ?_⟩
        rcases List.mem_cons.mp member with same | older
        · exact same ▸ kept key fresh
        · exact all x older
  obtain ⟨wf, -, all⟩ := walk keys .start (fun _ member => member) wf_start
  exact ⟨wf, all⟩

theorem Wf.stack_nil {search : Search κ} (wf : Wf edges defined [] search) : search.stack = [] := by
  rw [List.eq_nil_iff_forall_not_mem]
  intro x member
  obtain ⟨y, isActive, -⟩ := wf.anchored x member
  cases isActive

theorem mem_components_iff (edges : κ → List κ) (keys : List κ)
    (defined_iff : ∀ x, defined x = true ↔ x ∈ keys) (x : κ) :
    x ∈ (connectAll edges defined keys).components.flatten ↔ x ∈ keys := by
  obtain ⟨wf, all⟩ := connectAll_wf edges keys defined_iff
  constructor
  · intro member
    exact (defined_iff x).mp (wf.isDefined x ((wf.seen_iff x).mpr (.inr member)))
  · intro member
    have stack := wf.stack_nil
    rcases (wf.seen_iff x).mp (all x member) with onStack | done
    · rw [stack] at onStack
      cases onStack
    · exact done

end Connect

end OpenShapeForge.Formula.GraphComponents
