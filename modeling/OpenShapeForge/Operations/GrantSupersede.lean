import OpenShapeForge.Operations.GrantUses

/-! A superseding issue leaves one live grant for its subject and recipient, where no other one
is committed between its supersede statement and its end. -/

namespace OpenShapeForge.Operations.GrantSupersede
open Js Library Library.RowLocks CapabilityGrants GrantUses

abbrev Holder (Id Recipient : Type) := Text × Id × Recipient

section Rows
variable {Id Recipient : Type} {before after : Grant Id Recipient} {now later : Time}

def Active (row : Grant Id Recipient) (now : Time) : Prop := capabilityGrantStatus row now = .active

theorem active_iff {row : Grant Id Recipient} : Active row now ↔
    row.revokedAt = none ∧ row.consumedAt = none ∧ usedUp row.maxUses row.uses = false ∧ now < row.expiresAt := by
  unfold Active capabilityGrantStatus
  cases row.revokedAt with
  | some => simp
  | none =>
    cases row.consumedAt with
    | some => simp
    | none =>
      cases usedUp row.maxUses row.uses with
      | true => simp
      | false => simp

theorem active_before (follows : Follows before after) (active : Active after now) : Active before now := by
  obtain ⟨unrevoked, unconsumed, unused, lasting⟩ := active_iff.mp active
  refine active_iff.mpr ⟨follows.revoked unrevoked, follows.consumed unconsumed, ?_, follows.expiresAt ▸ lasting⟩
  rw [follows.maxUses] at unused
  refine Bool.eq_false_iff.mpr fun reached => ?_
  obtain ⟨most, isMost, few⟩ := usedUp_iff.mp reached
  rw [usedUp_iff.mpr ⟨most, isMost, few.trans follows.uses⟩] at unused
  cases unused

theorem active_earlier {row : Grant Id Recipient} (active : Active row later) (passed : now ≤ later) : Active row now := by
  obtain ⟨unrevoked, unconsumed, unused, lasting⟩ := active_iff.mp active
  exact active_iff.mpr ⟨unrevoked, unconsumed, unused, passed.trans_lt lasting⟩

theorem supersedes_active {issue : Issue Id Recipient} {row : Grant Id Recipient} (current : issue.now ≤ now)
    (same : row.holder = issue.holder) (active : Active row now) : issue.Supersedes row := by
  obtain ⟨unrevoked, unconsumed, -, lasting⟩ := active_iff.mp active
  exact ⟨same, unrevoked, unconsumed, current.trans_lt lasting⟩

end Rows

section Issuers
variable {Id Recipient : Type} {committed : Id → Option (Grant Id Recipient)} {own : Id → Option (Option (Grant Id Recipient))}
  {clock : Time} {call : Option (Call Id Recipient)} {looks : List (Holder Id Recipient × Set Id)}

def seen (committed : Id → Option (Grant Id Recipient)) (own : Id → Option (Option (Grant Id Recipient))) (id : Id) : Option (Grant Id Recipient) :=
  (own id).getD (committed id)

def New (committed : Id → Option (Grant Id Recipient)) (own : Id → Option (Option (Grant Id Recipient))) (id : Id) (row : Grant Id Recipient) : Prop :=
  own id = some (some row) ∧ committed id = none

/-- A superseding update has matched the row and not come to it yet. -/
def Pending (call : Option (Call Id Recipient)) (holder : Holder Id Recipient) (id : Id) : Prop :=
  ∃ issue pending, call = some (.issuing issue pending) ∧ issue.holder = holder ∧ id ∈ pending

structure Issuing (committed : Id → Option (Grant Id Recipient)) (own : Id → Option (Option (Grant Id Recipient))) (clock : Time)
    (call : Option (Call Id Recipient)) (looks : List (Holder Id Recipient × Set Id)) : Prop where
  mine : ∀ i j one two, New committed own i one → New committed own j two → one.holder = two.holder →
    Active one clock → Active two clock → i = j
  /-- What it saw of a subject and recipient is no longer active, or is still to be revoked. -/
  looked : ∀ look ∈ looks, ∀ id ∈ look.2, ∀ row, seen committed own id = some row → row.holder = look.1 → Active row clock →
    Pending call look.1 id
  visible : ∀ look ∈ looks, ∀ id ∈ look.2, seen committed own id ≠ none
  news : ∀ id row, New committed own id row → ∃ saw, (row.holder, saw) ∈ looks
  calling : ∀ issue pending, call = some (.issuing issue pending) → issue.now ≤ clock ∧
    ∃ saw, (issue.holder, saw) ∈ looks ∧ ∀ id row, New committed own id row → id ∈ saw

theorem issuing_idle : Issuing committed (fun _ => none) clock none [] where
  mine i j one two isNew := by cases isNew.1
  looked look member := absurd member List.not_mem_nil
  visible look member := absurd member List.not_mem_nil
  news id row isNew := by cases isNew.1
  calling issue pending isCall := by cases isCall

theorem not_pending_none {holder : Holder Id Recipient} {id : Id} : ¬Pending none holder id := by
  rintro ⟨issue, pending, isCall, -⟩
  cases isCall

theorem Issuing.tick (issuing : Issuing committed own clock call looks) {later : Time} (passed : clock ≤ later) :
    Issuing committed own later call looks where
  mine i j one two isNew alsoNew same active alsoActive :=
    issuing.mine i j one two isNew alsoNew same (active_earlier active passed) (active_earlier alsoActive passed)
  looked look member id isSeen row isRow same active := issuing.looked look member id isSeen row isRow same (active_earlier active passed)
  visible := issuing.visible
  news := issuing.news
  calling issue pending isCall := (issuing.calling issue pending isCall).imp_left fun current => current.trans passed

theorem Issuing.enter (issuing : Issuing committed own clock call looks) {next : Option (Call Id Recipient)}
    (idle : ∀ issue pending, call ≠ some (.issuing issue pending)) (begins : ∀ issue pending, next ≠ some (.issuing issue pending)) :
    Issuing committed own clock next looks where
  mine := issuing.mine
  looked look member id isSeen row isRow same active := by
    obtain ⟨issue, pending, isCall, -⟩ := issuing.looked look member id isSeen row isRow same active
    exact absurd isCall (idle issue pending)
  visible := issuing.visible
  news := issuing.news
  calling issue pending isCall := absurd isCall (begins issue pending)

theorem Issuing.look (issuing : Issuing committed own clock none looks) {issue : Issue Id Recipient} {pending : List Id}
    (current : issue.now ≤ clock) (matching : ∀ id row, seen committed own id = some row → issue.Supersedes row → id ∈ pending) :
    Issuing committed own clock (some (.issuing issue pending)) ((issue.holder, { id | (seen committed own id).isSome = true }) :: looks) where
  mine := issuing.mine
  looked look member id isSeen row isRow same active := by
    rcases List.mem_cons.mp member with rfl | earlier
    · exact ⟨issue, pending, rfl, rfl, matching id row isRow (supersedes_active current same active)⟩
    · exact absurd (issuing.looked look earlier id isSeen row isRow same active) not_pending_none
  visible look member id isSeen := by
    rcases List.mem_cons.mp member with rfl | earlier
    · exact Option.isSome_iff_ne_none.mp isSeen
    · exact issuing.visible look earlier id isSeen
  news id row isNew := (issuing.news id row isNew).imp fun _ member => List.mem_cons_of_mem _ member
  calling began left isCall := by
    cases isCall
    refine ⟨current, _, List.mem_cons_self, fun id row isNew => ?_⟩
    change (seen committed own id).isSome = true
    unfold seen
    rw [isNew.1]
    rfl

theorem Issuing.pass {issue : Issue Id Recipient} {id : Id} {pending : List Id}
    (issuing : Issuing committed own clock (some (.issuing issue (id :: pending))) looks)
    (inert : ∀ row, seen committed own id = some row → ¬issue.Supersedes row) :
    Issuing committed own clock (some (.issuing issue pending)) looks where
  mine := issuing.mine
  looked look member at' isSeen row isRow same active := by
    obtain ⟨began, left, isCall, ofHolder, isLeft⟩ := issuing.looked look member at' isSeen row isRow same active
    cases isCall
    rcases List.mem_cons.mp isLeft with rfl | later
    · have current := (issuing.calling issue (at' :: pending) rfl).1
      exact absurd (supersedes_active current (same.trans ofHolder.symm) active) (inert row isRow)
    · exact ⟨issue, pending, rfl, ofHolder, later⟩
  visible := issuing.visible
  news := issuing.news
  calling began left isCall := by
    cases isCall
    exact issuing.calling issue (id :: pending) rfl

section Writes
variable [DecidableEq Id] {id : Id} {before after : Grant Id Recipient}

def wrote (own : Id → Option (Option (Grant Id Recipient))) (id : Id) (row : Grant Id Recipient) : Id → Option (Option (Grant Id Recipient)) :=
  fun at' => if at' = id then some (some row) else own at'

theorem seen_wrote {at' : Id} : seen committed (wrote own id after) at' = if at' = id then some after else seen committed own at' := by
  unfold seen wrote
  split
  · rfl
  · rfl

theorem new_wrote {at' : Id} {row : Grant Id Recipient} (kept : own id ≠ some none) (isBefore : seen committed own id = some before)
    (follows : Follows before after) (isNew : New committed (wrote own id after) at' row) :
    ∃ past, New committed own at' past ∧ Follows past row := by
  obtain ⟨written, absent⟩ := isNew
  unfold wrote at written
  split at written
  next same =>
    cases written
    subst same
    refine ⟨before, ⟨?_, absent⟩, follows⟩
    unfold seen at isBefore
    cases isOwn : own at' with
    | none =>
      rw [isOwn] at isBefore
      exact absurd (absent.symm.trans isBefore) (by simp)
    | some found =>
      rw [isOwn] at isBefore
      exact congrArg some isBefore
  next => exact ⟨row, ⟨written, absent⟩, Follows.refl row⟩

theorem Issuing.rewrite (issuing : Issuing committed own clock call looks) (kept : own id ≠ some none)
    (isBefore : seen committed own id = some before) (follows : Follows before after) :
    Issuing committed (wrote own id after) clock call looks where
  mine i j one two isNew alsoNew same active alsoActive := by
    obtain ⟨past, wasNew, toOne⟩ := new_wrote kept isBefore follows isNew
    obtain ⟨other, alsoWas, toTwo⟩ := new_wrote kept isBefore follows alsoNew
    exact issuing.mine i j past other wasNew alsoWas (toOne.holder.symm.trans (same.trans toTwo.holder)) (active_before toOne active)
      (active_before toTwo alsoActive)
  looked look member at' isSeen row isRow same active := by
    rw [seen_wrote] at isRow
    split at isRow
    next atId =>
      cases isRow
      exact issuing.looked look member at' isSeen before (atId ▸ isBefore) (follows.holder.symm.trans same) (active_before follows active)
    next => exact issuing.looked look member at' isSeen row isRow same active
  visible look member at' isSeen := by
    rw [seen_wrote]
    split
    · exact Option.some_ne_none _
    · exact issuing.visible look member at' isSeen
  news at' row isNew := by
    obtain ⟨past, wasNew, toRow⟩ := new_wrote kept isBefore follows isNew
    rw [toRow.holder]
    exact issuing.news at' past wasNew
  calling issue pending isCall := by
    obtain ⟨current, saw, member, all⟩ := issuing.calling issue pending isCall
    refine ⟨current, saw, member, fun at' row isNew => ?_⟩
    obtain ⟨past, wasNew, -⟩ := new_wrote kept isBefore follows isNew
    exact all at' past wasNew

theorem Issuing.insert {issue : Issue Id Recipient} (issuing : Issuing committed own clock (some (.issuing issue [])) looks)
    (unseen : seen committed own issue.id = none) {row : Grant Id Recipient} (ofHolder : row.holder = issue.holder) :
    Issuing committed (wrote own issue.id row) clock none looks := by
  obtain ⟨-, saw, isLook, all⟩ := issuing.calling issue [] rfl
  have older : ∀ at' found, New committed (wrote own issue.id row) at' found → at' ≠ issue.id → New committed own at' found := by
    intro at' found isNew elsewhere
    refine ⟨?_, isNew.2⟩
    have written := isNew.1
    unfold wrote at written
    rwa [if_neg elsewhere] at written
  have isRow : ∀ found, New committed (wrote own issue.id row) issue.id found → found = row := by
    intro found isNew
    have written := isNew.1
    unfold wrote at written
    rw [if_pos rfl] at written
    cases written
    rfl
  have retired : ∀ at' found, New committed own at' found → found.holder = issue.holder → ¬Active found clock := by
    intro at' found isNew same active
    have isSeen : seen committed own at' = some found := by
      unfold seen
      rw [isNew.1]
      rfl
    obtain ⟨began, left, isCall, -, isLeft⟩ := issuing.looked _ isLook at' (all at' found isNew) found isSeen same active
    cases isCall
    exact absurd isLeft List.not_mem_nil
  constructor
  · intro i j one two isNew alsoNew same active alsoActive
    by_cases first : i = issue.id
    · by_cases second : j = issue.id
      · exact first.trans second.symm
      · subst first
        have isOne := isRow one isNew
        subst isOne
        exact absurd alsoActive (retired j two (older j two alsoNew second) (same.symm.trans ofHolder))
    · by_cases second : j = issue.id
      · subst second
        have isTwo := isRow two alsoNew
        subst isTwo
        exact absurd active (retired i one (older i one isNew first) (same.trans ofHolder))
      · exact issuing.mine i j one two (older i one isNew first) (older j two alsoNew second) same active alsoActive
  · intro look member at' isSeen found isFound same active
    rw [seen_wrote] at isFound
    split at isFound
    next atId => exact absurd (atId ▸ unseen) (issuing.visible look member at' isSeen)
    next =>
      obtain ⟨began, left, isCall, -, isLeft⟩ := issuing.looked look member at' isSeen found isFound same active
      cases isCall
      exact absurd isLeft List.not_mem_nil
  · intro look member at' isSeen
    rw [seen_wrote]
    split
    · exact Option.some_ne_none _
    · exact issuing.visible look member at' isSeen
  · intro at' found isNew
    by_cases atId : at' = issue.id
    · subst atId
      rw [isRow found isNew, ofHolder]
      exact ⟨saw, isLook⟩
    · exact issuing.news at' found (older at' found isNew atId)
  · intro began left isCall
    cases isCall

end Writes

theorem Issuing.beside (issuing : Issuing committed own clock call looks) {after : Id → Option (Grant Id Recipient)}
    (precedes : Store.Precedes Follows committed after) : Issuing after own clock call looks := by
  have earlier : ∀ id row, New after own id row → New committed own id row := by
    intro id row isNew
    refine ⟨isNew.1, ?_⟩
    by_contra present
    obtain ⟨found, isFound⟩ := Option.ne_none_iff_exists'.mp present
    obtain ⟨later, isLater, -⟩ := precedes id found isFound
    exact absurd (isNew.2.symm.trans isLater) (by simp)
  have sees : ∀ id, seen committed own id ≠ none → ∀ row, seen after own id = some row →
      ∃ past, seen committed own id = some past ∧ Follows past row := by
    intro id present row isRow
    unfold seen at present isRow ⊢
    cases isOwn : own id with
    | none =>
      rw [isOwn] at present isRow
      obtain ⟨past, isPast⟩ := Option.ne_none_iff_exists'.mp present
      obtain ⟨found, isFound, follows⟩ := precedes id past isPast
      cases isRow.symm.trans isFound
      exact ⟨past, isPast, follows⟩
    | some found =>
      rw [isOwn] at isRow
      exact ⟨row, isRow, Follows.refl row⟩
  constructor
  · exact fun i j one two isNew alsoNew => issuing.mine i j one two (earlier i one isNew) (earlier j two alsoNew)
  · intro look member id isSeen row isRow same active
    obtain ⟨past, isPast, follows⟩ := sees id (issuing.visible look member id isSeen) row isRow
    exact issuing.looked look member id isSeen past isPast (follows.holder.symm.trans same) (active_before follows active)
  · intro look member id isSeen gone
    have present := issuing.visible look member id isSeen
    unfold seen at present gone
    cases isOwn : own id with
    | none =>
      rw [isOwn] at present gone
      obtain ⟨past, isPast⟩ := Option.ne_none_iff_exists'.mp present
      obtain ⟨found, isFound, -⟩ := precedes id past isPast
      exact absurd (gone.symm.trans isFound) (by simp)
    | some found =>
      rw [isOwn] at present gone
      exact present gone
  · exact fun id row isNew => issuing.news id row (earlier id row isNew)
  · intro issue pending isCall
    obtain ⟨current, saw, member, all⟩ := issuing.calling issue pending isCall
    exact ⟨current, saw, member, fun id row isNew => all id row (earlier id row isNew)⟩

end Issuers

section Names
variable {Id Recipient : Type} {given : Prop} {committed : Id → Option (Grant Id Recipient)}
  {own : Id → Option (Option (Grant Id Recipient))} {call : Option (Call Id Recipient)} {id other : Id} {row before after : Grant Id Recipient}

def Explained (given : Prop) (row : Grant Id Recipient) : Prop := row.revokedReason = some superseded → row.supersededBy = none → given

def NamedIn (rows : Id → Option (Grant Id Recipient)) (call : Option (Call Id Recipient)) (row : Grant Id Recipient) : Prop :=
  ∀ other, row.supersededBy = some other → (∃ by', rows other = some by' ∧ by'.holder = row.holder) ∨
    ∃ issue pending, call = some (.issuing issue pending) ∧ issue.id = other ∧ issue.holder = row.holder

structure Named (given : Prop) (committed : Id → Option (Grant Id Recipient)) (own : Id → Option (Option (Grant Id Recipient)))
    (call : Option (Call Id Recipient)) : Prop where
  rows : ∀ id row, seen committed own id = some row → NamedIn (seen committed own) call row
  explained : ∀ id row, seen committed own id = some row → Explained given row
  reason : ∀ id reason now, call = some (.revoking id reason now) → reason = some superseded → given

theorem NamedIn.precedes {first second : Id → Option (Grant Id Recipient)} (named : NamedIn first call row)
    (precedes : Store.Precedes Follows first second) : NamedIn second call row := by
  intro other names
  refine (named other names).imp_left ?_
  rintro ⟨by', isBy, same⟩
  obtain ⟨found, isFound, follows⟩ := precedes other by' isBy
  exact ⟨found, isFound, follows.holder.trans same⟩

theorem NamedIn.of_same (named : NamedIn committed call before) (supersededBy : after.supersededBy = before.supersededBy)
    (holder : after.holder = before.holder) : NamedIn committed call after := by
  intro other names
  rw [holder]
  exact named other (supersededBy ▸ names)

theorem Named.enter (named : Named given committed own call) {next : Option (Call Id Recipient)}
    (idle : ∀ issue pending, call ≠ some (.issuing issue pending))
    (reason : ∀ id reason now, next = some (.revoking id reason now) → reason = some superseded → given) : Named given committed own next where
  rows id row isRow other names := by
    refine .inl ((named.rows id row isRow other names).resolve_right ?_)
    rintro ⟨issue, pending, isCall, -⟩
    exact idle issue pending isCall
  explained := named.explained
  reason := reason

theorem Named.pass {issue : Issue Id Recipient} {pending : List Id} (named : Named given committed own (some (.issuing issue (id :: pending)))) :
    Named given committed own (some (.issuing issue pending)) where
  rows at' row isRow other names := by
    refine (named.rows at' row isRow other names).imp_right ?_
    rintro ⟨began, left, isCall, isOther, same⟩
    cases isCall
    exact ⟨issue, pending, rfl, isOther, same⟩
  explained := named.explained
  reason _ _ _ isCall := by cases isCall

theorem Named.beside (named : Named given committed own call) {later : Id → Option (Grant Id Recipient)}
    (precedes : Store.Precedes Follows committed later) (sees : Store.Precedes Follows later (seen later own))
    (rows : ∀ id row, later id = some row → NamedIn later none row) (explained : ∀ id row, later id = some row → Explained given row) :
    Named given later own call := by
  have wider : Store.Precedes Follows (seen committed own) (seen later own) := by
    intro id row isRow
    unfold seen at isRow ⊢
    cases isOwn : own id with
    | none =>
      rw [isOwn] at isRow
      exact precedes id row isRow
    | some found =>
      rw [isOwn] at isRow
      exact ⟨row, isRow, Follows.refl row⟩
  constructor
  · intro id row isRow
    cases isOwn : own id with
    | none =>
      unfold seen at isRow
      rw [isOwn] at isRow
      intro other names
      refine .inl (((rows id row isRow).precedes sees other names).resolve_right ?_)
      rintro ⟨issue, pending, isCall, -⟩
      cases isCall
    | some found =>
      have wasRow : seen committed own id = some row := by
        unfold seen at isRow ⊢
        rw [isOwn] at isRow ⊢
        exact isRow
      exact (named.rows id row wasRow).precedes wider
  · intro id row isRow
    unfold seen at isRow
    cases isOwn : own id with
    | none =>
      rw [isOwn] at isRow
      exact explained id row isRow
    | some found =>
      rw [isOwn] at isRow
      refine named.explained id row ?_
      unfold seen
      rw [isOwn]
      exact isRow
  · exact named.reason

variable [DecidableEq Id]

theorem precedes_wrote (isBefore : seen committed own id = some before) (follows : Follows before after) :
    Store.Precedes Follows (seen committed own) (seen committed (wrote own id after)) := by
  intro at' row isRow
  rw [seen_wrote]
  split
  next same =>
    subst same
    cases isBefore.symm.trans isRow
    exact ⟨after, rfl, follows⟩
  next => exact ⟨row, isRow, Follows.refl row⟩

theorem Named.rewrite (named : Named given committed own call) (isBefore : seen committed own id = some before) (follows : Follows before after)
    (isNamed : NamedIn (seen committed own) call after) (explained : Explained given after) :
    Named given committed (wrote own id after) call where
  rows at' row isRow := by
    rw [seen_wrote] at isRow
    split at isRow
    · cases isRow
      exact isNamed.precedes (precedes_wrote isBefore follows)
    · exact (named.rows at' row isRow).precedes (precedes_wrote isBefore follows)
  explained at' row isRow := by
    rw [seen_wrote] at isRow
    split at isRow
    · cases isRow
      exact explained
    · exact named.explained at' row isRow
  reason := named.reason

theorem Named.insert {issue : Issue Id Recipient} (named : Named given committed own (some (.issuing issue [])))
    (unseen : seen committed own issue.id = none) (hashGrantSecret : Text → Text) :
    Named given committed (wrote own issue.id (issue.row hashGrantSecret)) none where
  rows at' row isRow other names := by
    rw [seen_wrote] at isRow
    split at isRow
    · cases isRow
      cases names
    · refine .inl ?_
      rw [seen_wrote]
      rcases named.rows at' row isRow other names with ⟨by', isBy, same⟩ | ⟨began, left, isCall, isOther, same⟩
      · split
        next isNew => exact absurd (unseen.symm.trans (isNew ▸ isBy)) (by simp)
        next => exact ⟨by', isBy, same⟩
      · cases isCall
        rw [if_pos isOther.symm]
        exact ⟨_, rfl, same⟩
  explained at' row isRow := by
    rw [seen_wrote] at isRow
    split at isRow
    · cases isRow
      intro isReason
      cases isReason
    · exact named.explained at' row isRow
  reason _ _ _ isCall := by cases isCall

end Names

section Steps
variable {Tx Id Recipient : Type} [DecidableEq Tx] [DecidableEq Id] {hashGrantSecret : Text → Text} {state next : State Tx Id Recipient}
  {action : Action Tx Id Recipient} {tx : Tx} {id : Id} {row : Grant Id Recipient} {given : Prop}

/-- Every issue supersedes, by a clock that does not run ahead, and none commits while a grant
for its subject and recipient is active that its supersede statement came too early to see. -/
def Unrivalled (state : State Tx Id Recipient) : Action Tx Id Recipient → Prop
  | .issue _ issue => issue.supersede = true ∧ issue.now ≤ state.clock
  | .commit tx => ∀ look ∈ state.looks tx, ∀ id row, state.grants.committed id = some row → row.holder = look.1 →
      Active row state.clock → id ∈ look.2
  | _ => True

def written (state : State Tx Id Recipient) (tx : Tx) : Id → Option (Option (Grant Id Recipient)) := (state.grants.sessions tx).written

structure Single (state : State Tx Id Recipient) : Prop where
  counted : Counted state
  once : ∀ i j one two, state.grants.committed i = some one → state.grants.committed j = some two → one.holder = two.holder →
    Active one state.clock → Active two state.clock → i = j
  issuing : ∀ tx, Issuing state.grants.committed (written state tx) state.clock (state.calls tx) (state.looks tx)

structure Labelled (given : Prop) (state : State Tx Id Recipient) : Prop where
  counted : Counted state
  rows : ∀ id row, state.grants.committed id = some row → NamedIn state.grants.committed none row
  explained : ∀ id row, state.grants.committed id = some row → Explained given row
  named : ∀ tx, Named given state.grants.committed (written state tx) (state.calls tx)

/-- A step of one transaction leaves what the others have written and are in the middle of. -/
structure Apart (tx : Tx) (state next : State Tx Id Recipient) : Prop where
  committed : next.grants.committed = state.grants.committed
  clock : next.clock = state.clock
  written : ∀ other, other ≠ tx → written next other = written state other
  calls : ∀ other, other ≠ tx → next.calls other = state.calls other
  looks : ∀ other, other ≠ tx → next.looks other = state.looks other

omit [DecidableEq Tx] [DecidableEq Id] in
theorem Apart.trans {middle : State Tx Id Recipient} (one : Apart tx state middle) (two : Apart tx middle next) : Apart tx state next where
  committed := two.committed.trans one.committed
  clock := two.clock.trans one.clock
  written other different := (two.written other different).trans (one.written other different)
  calls other different := (two.calls other different).trans (one.calls other different)
  looks other different := (two.looks other different).trans (one.looks other different)

theorem Apart.put (state : State Tx Id Recipient) (tx : Tx) (id : Id) (row : Grant Id Recipient) : Apart tx state (state.put tx id row) :=
  ⟨rfl, rfl, fun _ different => Store.put_written_other different, fun _ _ => rfl, fun _ _ => rfl⟩

theorem written_put (state : State Tx Id Recipient) (tx : Tx) (id : Id) (row : Grant Id Recipient) :
    written (state.put tx id row) tx = wrote (written state tx) id row :=
  funext fun _ => Store.put_written

omit [DecidableEq Id]

theorem Apart.enter (state : State Tx Id Recipient) (tx : Tx) (call : Option (Call Id Recipient)) : Apart tx state (state.enter tx call) :=
  ⟨rfl, rfl, fun _ _ => rfl, fun _ different => Function.update_of_ne different _ _, fun _ _ => rfl⟩

theorem Apart.look (state : State Tx Id Recipient) (tx : Tx) (issue : Issue Id Recipient) : Apart tx state (state.look tx issue) :=
  ⟨rfl, rfl, fun _ _ => rfl, fun _ _ => rfl, fun _ different => Function.update_of_ne different _ _⟩

theorem Apart.count (state : State Tx Id Recipient) (tx : Tx) (id : Id) : Apart tx state (state.count tx id) :=
  ⟨rfl, rfl, fun _ _ => rfl, fun _ _ => rfl, fun _ _ => rfl⟩

variable [DecidableEq Id]

theorem Single.apart (single : Single state) (counted : Counted next) (apart : Apart tx state next)
    (own : Issuing state.grants.committed (written next tx) state.clock (next.calls tx) (next.looks tx)) : Single next where
  counted := counted
  once := by
    rw [apart.committed, apart.clock]
    exact single.once
  issuing other := by
    rw [apart.committed, apart.clock]
    by_cases same : other = tx
    · exact same ▸ own
    · rw [apart.written other same, apart.calls other same, apart.looks other same]
      exact single.issuing other

theorem Labelled.apart (labelled : Labelled given state) (counted : Counted next) (apart : Apart tx state next)
    (own : Named given state.grants.committed (written next tx) (next.calls tx)) : Labelled given next where
  counted := counted
  rows := by
    rw [apart.committed]
    exact labelled.rows
  explained := by
    rw [apart.committed]
    exact labelled.explained
  named other := by
    rw [apart.committed]
    by_cases same : other = tx
    · exact same ▸ own
    · rw [apart.written other same, apart.calls other same]
      exact labelled.named other

theorem Single.rewrite (single : Single state) {before : Grant Id Recipient} (isBefore : state.grants.view tx id = some before)
    (revises : Revises hashGrantSecret action before row) :
    Issuing state.grants.committed (written (state.put tx id row) tx) state.clock (state.calls tx) (state.looks tx) := by
  rw [written_put]
  exact (single.issuing tx).rewrite (single.counted.evolves.kept tx id) isBefore revises.follows

theorem Single.commit (single : Single state) (idle : state.calls tx = none) (unrivalled : Unrivalled state (.commit tx)) :
    Single (state.commit tx) where
  counted := single.counted.commit
  once i j one two isOne isTwo same active alsoActive := by
    have precedes : Store.Precedes Follows state.grants.committed (state.commit tx).grants.committed :=
      single.counted.evolves.commit_precedes Follows.refl
    have issuing := single.issuing tx
    rw [idle] at issuing
    have isNew : ∀ id row, (state.commit tx).grants.committed id = some row → state.grants.committed id = none →
        New state.grants.committed (written state tx) id row := by
      intro id row isRow absent
      refine ⟨?_, absent⟩
      cases isWritten : (state.grants.sessions tx).written id with
      | none => exact absurd (absent.symm.trans ((Store.view_of_unwritten isWritten).symm.trans isRow)) (by simp)
      | some found => exact isWritten.trans (congrArg some ((Store.view_of_written isWritten).symm.trans isRow))
    -- a new grant meets no active one that was committed: its statement has seen that one, and revoked it
    have meets : ∀ id other row rival, (state.commit tx).grants.committed id = some row → (state.commit tx).grants.committed other = some rival →
        row.holder = rival.holder → Active rival state.clock → state.grants.committed id = none → state.grants.committed other = none := by
      intro id other row rival isRow isRival sameHolder activeRival absent
      by_contra present
      obtain ⟨past, isPast⟩ := Option.ne_none_iff_exists'.mp present
      obtain ⟨later, isLater, follows⟩ := precedes other past isPast
      cases isRival.symm.trans isLater
      obtain ⟨saw, member⟩ := issuing.news id row (isNew id row isRow absent)
      have sees := unrivalled _ member other past isPast (follows.holder.symm.trans sameHolder.symm) (active_before follows activeRival)
      exact not_pending_none (issuing.looked _ member other sees rival isRival sameHolder.symm activeRival)
    cases first : state.grants.committed i with
    | none =>
      have second := meets i j one two isOne isTwo same alsoActive first
      exact issuing.mine i j one two (isNew i one isOne first) (isNew j two isTwo second) same active alsoActive
    | some past =>
      cases second : state.grants.committed j with
      | none => exact absurd ((meets j i two one isTwo isOne same.symm active second).symm.trans first) (by simp)
      | some other =>
        obtain ⟨_, isLater, toOne⟩ := precedes i past first
        cases isOne.symm.trans isLater
        obtain ⟨_, alsoLater, toTwo⟩ := precedes j other second
        cases isTwo.symm.trans alsoLater
        exact single.once i j past other first second (toOne.holder.symm.trans (same.trans toTwo.holder)) (active_before toOne active)
          (active_before toTwo alsoActive)
  issuing other := by
    by_cases same : other = tx
    · subst same
      have isWritten : written (state.commit other) other = fun _ => none := by
        change ((state.grants.commit other).sessions other).written = _
        rw [Store.commit_own]
        rfl
      have isLooks : (state.commit other).looks other = [] := Function.update_self _ _ _
      have isCall : (state.commit other).calls other = none := idle
      rw [isWritten, isLooks, isCall]
      exact issuing_idle
    · have isWritten : written (state.commit tx) other = written state other := by
        change ((state.grants.commit tx).sessions other).written = _
        rw [Store.commit_session same]
        rfl
      have isLooks : (state.commit tx).looks other = state.looks other := Function.update_of_ne same _ _
      rw [isWritten, isLooks]
      exact (single.issuing other).beside (single.counted.evolves.commit_precedes Follows.refl)

theorem Single.rollback (single : Single state) : Single (state.rollback tx) where
  counted := single.counted.rollback
  once := single.once
  issuing other := by
    by_cases same : other = tx
    · subst same
      have isWritten : written (state.rollback other) other = fun _ => none := by
        change ((state.grants.rollback other).sessions other).written = _
        rw [Store.rollback_own]
        rfl
      have isLooks : (state.rollback other).looks other = [] := Function.update_self _ _ _
      have isCall : (state.rollback other).calls other = none := Function.update_self _ _ _
      rw [isWritten, isLooks, isCall]
      exact issuing_idle
    · have isWritten : written (state.rollback tx) other = written state other := by
        change ((state.grants.rollback tx).sessions other).written = _
        rw [Store.rollback_session same]
        rfl
      have isLooks : (state.rollback tx).looks other = state.looks other := Function.update_of_ne same _ _
      have isCall : (state.rollback tx).calls other = state.calls other := Function.update_of_ne same _ _
      rw [isWritten, isLooks, isCall]
      exact single.issuing other

theorem Single.step (single : Single state) (unrivalled : Unrivalled state action) (step : Step hashGrantSecret state action next) :
    Single next := by
  have counted := single.counted.step step
  cases step with
  | @resolve tx id secret operation now row _ _ isRow =>
    have revises : Revises hashGrantSecret (.resolve tx id secret operation now) row _ := .resolve
    exact single.apart counted (.put ..) (single.rewrite isRow revises)
  | @consume tx id now row _ _ _ isRow allowed =>
    have revises : Revises hashGrantSecret (.consume tx id now) row _ := .consume allowed
    exact single.apart counted ((Apart.put ..).trans (.count ..)) (single.rewrite isRow revises)
  | @issue tx issue pending idle _ matching =>
    have issuing := single.issuing tx
    rw [idle] at issuing
    refine single.apart counted ((Apart.look ..).trans (.enter ..)) ?_
    have isCall : ((state.look tx issue).enter tx (some (.issuing issue pending))).calls tx = some (.issuing issue pending) :=
      Function.update_self _ _ _
    have isLooks : ((state.look tx issue).enter tx (some (.issuing issue pending))).looks tx =
        (issue.holder, { id | (state.grants.view tx id).isSome = true }) :: state.looks tx := Function.update_self _ _ _
    rw [isCall, isLooks]
    exact issuing.look unrivalled.2 fun id row isRow supersedes => (matching.2 id).mpr ⟨row, isRow, supersedes⟩
  | issueBeside _ beside => exact absurd (unrivalled.1.symm.trans beside) (by decide)
  | @retire tx issue id pending row isCall _ isRow supersedes =>
    have revises : Revises hashGrantSecret (.proceed tx) row _ := .retire supersedes
    have issuing := single.rewrite isRow revises
    rw [isCall] at issuing
    refine single.apart counted ((Apart.put ..).trans (.enter ..)) ?_
    have isLeft : ((state.put tx id (issue.retire row)).enter tx (some (.issuing issue pending))).calls tx = some (.issuing issue pending) :=
      Function.update_self _ _ _
    rw [isLeft]
    refine issuing.pass fun found isFound again => ?_
    rw [written_put, seen_wrote, if_pos rfl] at isFound
    cases isFound
    cases again.2.1
  | @pass tx issue id pending isCall _ inert =>
    have issuing := single.issuing tx
    rw [isCall] at issuing
    refine single.apart counted (.enter ..) ?_
    have isLeft : (state.enter tx (some (.issuing issue pending))).calls tx = some (.issuing issue pending) := Function.update_self _ _ _
    rw [isLeft]
    exact issuing.pass inert
  | @insert tx issue isCall _ unseen =>
    have issuing := single.issuing tx
    rw [isCall] at issuing
    refine single.apart counted ((Apart.put ..).trans (.enter ..)) ?_
    have isLeft : ((state.put tx issue.id (issue.row hashGrantSecret)).enter tx none).calls tx = none := Function.update_self _ _ _
    have isWritten := written_put state tx issue.id (issue.row hashGrantSecret)
    rw [isLeft]
    exact isWritten ▸ issuing.insert unseen rfl
  | @revoke tx id reason now row idle =>
    have isLeft : (state.enter tx (some (.revoking id reason now))).calls tx = some (.revoking id reason now) := Function.update_self _ _ _
    refine single.apart counted (.enter ..) ?_
    rw [isLeft]
    exact (single.issuing tx).enter (fun issue pending isCall => by cases idle.symm.trans isCall) fun issue pending isCall => by cases isCall
  | @revokeRow tx id reason now row isCall _ isRow =>
    have revises : Revises hashGrantSecret (.proceed tx) row (CapabilityGrants.revoke row reason now) := .revoke
    have issuing := single.rewrite isRow revises
    refine single.apart counted ((Apart.put ..).trans (.enter ..)) ?_
    have isLeft : ((state.put tx id (CapabilityGrants.revoke row reason now)).enter tx none).calls tx = none := Function.update_self _ _ _
    rw [isLeft]
    exact issuing.enter (fun issue pending isIssue => by cases isCall.symm.trans isIssue) fun issue pending isIssue => by cases isIssue
  | commit idle => exact single.commit idle unrivalled
  | abort => exact single.rollback
  | tick passed =>
    exact ⟨counted, fun i j one two isOne isTwo same active alsoActive => single.once i j one two isOne isTwo same
      (active_earlier active passed) (active_earlier alsoActive passed), fun tx => (single.issuing tx).tick passed⟩

omit [DecidableEq Tx] in
theorem Labelled.mono {wider : Prop} (labelled : Labelled given state) (implies : given → wider) : Labelled wider state where
  counted := labelled.counted
  rows := labelled.rows
  explained id row isRow isReason unnamed := implies (labelled.explained id row isRow isReason unnamed)
  named tx := ⟨(labelled.named tx).rows, fun id row isRow isReason unnamed => implies ((labelled.named tx).explained id row isRow isReason unnamed),
    fun id reason now isCall isReason => implies ((labelled.named tx).reason id reason now isCall isReason)⟩

theorem Labelled.rewrite (labelled : Labelled given state) {before : Grant Id Recipient} (isBefore : state.grants.view tx id = some before)
    (revises : Revises hashGrantSecret action before row) (named : NamedIn (state.grants.view tx) (state.calls tx) row)
    (explained : Explained given row) : Named given state.grants.committed (written (state.put tx id row) tx) (state.calls tx) := by
  rw [written_put]
  exact (labelled.named tx).rewrite isBefore revises.follows named explained

theorem Labelled.keep (labelled : Labelled given state) {before : Grant Id Recipient} (isBefore : state.grants.view tx id = some before)
    (revises : Revises hashGrantSecret action before row) (supersededBy : row.supersededBy = before.supersededBy)
    (reason : row.revokedReason = before.revokedReason) :
    Named given state.grants.committed (written (state.put tx id row) tx) (state.calls tx) := by
  refine labelled.rewrite isBefore revises ?_ fun isReason unnamed => ?_
  · exact ((labelled.named tx).rows id before isBefore).of_same supersededBy revises.follows.holder
  · exact (labelled.named tx).explained id before isBefore (reason ▸ isReason) (supersededBy ▸ unnamed)

theorem Labelled.commit (labelled : Labelled given state) (idle : state.calls tx = none) : Labelled given (state.commit tx) := by
  have named := labelled.named tx
  rw [idle] at named
  have counted : Counted (state.commit tx) := labelled.counted.commit
  refine ⟨counted, named.rows, named.explained, fun other => ?_⟩
  by_cases same : other = tx
  · subst same
    have isWritten : written (state.commit other) other = fun _ => none := by
      change ((state.grants.commit other).sessions other).written = _
      rw [Store.commit_own]
      rfl
    have isCall : (state.commit other).calls other = none := idle
    rw [isWritten, isCall]
    exact ⟨named.rows, named.explained, fun _ _ _ isCall => by cases isCall⟩
  · have isWritten : written state other = written (state.commit tx) other := by
      change _ = ((state.grants.commit tx).sessions other).written
      rw [Store.commit_session same]
      rfl
    have beside : Named given (state.commit tx).grants.committed (written state other) (state.calls other) := by
      refine (labelled.named other).beside (labelled.counted.evolves.commit_precedes Follows.refl) ?_ named.rows named.explained
      rw [isWritten]
      exact counted.evolves.precedes_view Follows.refl other
    exact isWritten ▸ beside

theorem Labelled.rollback (labelled : Labelled given state) : Labelled given (state.rollback tx) := by
  refine ⟨labelled.counted.rollback, labelled.rows, labelled.explained, fun other => ?_⟩
  by_cases same : other = tx
  · subst same
    have isWritten : written (state.rollback other) other = fun _ => none := by
      change ((state.grants.rollback other).sessions other).written = _
      rw [Store.rollback_own]
      rfl
    have isCall : (state.rollback other).calls other = none := Function.update_self _ _ _
    rw [isWritten, isCall]
    exact ⟨labelled.rows, labelled.explained, fun _ _ _ isCall => by cases isCall⟩
  · have isWritten : written (state.rollback tx) other = written state other := by
      change ((state.grants.rollback tx).sessions other).written = _
      rw [Store.rollback_session same]
      rfl
    have isCall : (state.rollback tx).calls other = state.calls other := Function.update_of_ne same _ _
    rw [isWritten, isCall]
    exact labelled.named other

theorem Labelled.step (labelled : Labelled given state) (reasons : ∀ tx id now, action = .revoke tx id (some superseded) now → given)
    (step : Step hashGrantSecret state action next) : Labelled given next := by
  have counted := labelled.counted.step step
  cases step with
  | @resolve tx id secret operation now row _ _ isRow =>
    have revises : Revises hashGrantSecret (.resolve tx id secret operation now) row _ := .resolve
    obtain ⟨attempts, window, limit, same, -⟩ := resolve_cases hashGrantSecret row secret operation now
    refine labelled.apart counted (.put ..) (labelled.keep isRow revises ?_ ?_)
    · rw [same]
    · rw [same]
  | @consume tx id now row _ _ _ isRow allowed =>
    have revises : Revises hashGrantSecret (.consume tx id now) row _ := .consume allowed
    exact labelled.apart counted ((Apart.put ..).trans (.count ..)) (labelled.keep isRow revises rfl rfl)
  | @issue tx issue pending idle =>
    have isCall : ((state.look tx issue).enter tx (some (.issuing issue pending))).calls tx = some (.issuing issue pending) :=
      Function.update_self _ _ _
    refine labelled.apart counted ((Apart.look ..).trans (.enter ..)) ?_
    rw [isCall]
    exact (labelled.named tx).enter (fun _ _ isIssue => by cases idle.symm.trans isIssue) fun _ _ _ isRevoking => by cases isRevoking
  | @issueBeside tx issue idle =>
    have isCall : (state.enter tx (some (.issuing issue []))).calls tx = some (.issuing issue []) := Function.update_self _ _ _
    refine labelled.apart counted (.enter ..) ?_
    rw [isCall]
    exact (labelled.named tx).enter (fun _ _ isIssue => by cases idle.symm.trans isIssue) fun _ _ _ isRevoking => by cases isRevoking
  | @retire tx issue id pending row isCall _ isRow supersedes =>
    have revises : Revises hashGrantSecret (.proceed tx) row _ := .retire supersedes
    have isNamed : NamedIn (state.grants.view tx) (state.calls tx) (issue.retire row) := fun other names =>
      .inr ⟨issue, id :: pending, isCall, Option.some.inj names, supersedes.1.symm⟩
    have named := labelled.rewrite isRow revises isNamed fun _ unnamed => by cases unnamed
    rw [isCall] at named
    refine labelled.apart counted ((Apart.put ..).trans (.enter ..)) ?_
    have isLeft : ((state.put tx id (issue.retire row)).enter tx (some (.issuing issue pending))).calls tx = some (.issuing issue pending) :=
      Function.update_self _ _ _
    rw [isLeft]
    exact named.pass
  | @pass tx issue id pending isCall =>
    have named := labelled.named tx
    rw [isCall] at named
    refine labelled.apart counted (.enter ..) ?_
    have isLeft : (state.enter tx (some (.issuing issue pending))).calls tx = some (.issuing issue pending) := Function.update_self _ _ _
    rw [isLeft]
    exact named.pass
  | @insert tx issue isCall _ unseen =>
    have named := labelled.named tx
    rw [isCall] at named
    refine labelled.apart counted ((Apart.put ..).trans (.enter ..)) ?_
    have isLeft : ((state.put tx issue.id (issue.row hashGrantSecret)).enter tx none).calls tx = none := Function.update_self _ _ _
    have isWritten := written_put state tx issue.id (issue.row hashGrantSecret)
    rw [isLeft]
    exact isWritten ▸ named.insert unseen hashGrantSecret
  | @revoke tx id reason now row idle =>
    have isLeft : (state.enter tx (some (.revoking id reason now))).calls tx = some (.revoking id reason now) := Function.update_self _ _ _
    refine labelled.apart counted (.enter ..) ?_
    rw [isLeft]
    refine (labelled.named tx).enter (fun _ _ isIssue => by cases idle.symm.trans isIssue) fun _ _ _ isRevoking isReason => ?_
    cases isRevoking
    exact reasons tx id now (by rw [isReason])
  | @revokeRow tx id reason now row isCall _ isRow =>
    have revises : Revises hashGrantSecret (.proceed tx) row (CapabilityGrants.revoke row reason now) := .revoke
    have was := labelled.named tx
    have named : Named given state.grants.committed (written (state.put tx id (CapabilityGrants.revoke row reason now)) tx) (state.calls tx) := by
      refine labelled.rewrite isRow revises ?_ ?_
      · refine (was.rows id row isRow).of_same ?_ revises.follows.holder
        unfold CapabilityGrants.revoke
        split
        · rfl
        · rfl
      · unfold CapabilityGrants.revoke
        split
        · exact fun isReason _ => was.reason id reason now isCall isReason
        · exact was.explained id row isRow
    refine labelled.apart counted ((Apart.put ..).trans (.enter ..)) ?_
    have isLeft : ((state.put tx id (CapabilityGrants.revoke row reason now)).enter tx none).calls tx = none := Function.update_self _ _ _
    rw [isLeft]
    exact named.enter (fun _ _ isIssue => by cases isCall.symm.trans isIssue) fun _ _ _ isRevoking => by cases isRevoking
  | commit idle => exact labelled.commit idle
  | abort => exact labelled.rollback
  | tick => exact ⟨counted, labelled.rows, labelled.explained, labelled.named⟩

end Steps

section Runs
variable {Tx Id Recipient : Type} [DecidableEq Tx] [DecidableEq Id] {hashGrantSecret : Text → Text} {final : State Tx Id Recipient}
  {labels : List (Action Tx Id Recipient)} {clock : Time}

omit [DecidableEq Tx] in
theorem single_empty (clock : Time) : Single (State.empty clock : State Tx Id Recipient) :=
  ⟨counted_empty clock, fun _ _ _ _ isOne => (by cases isOne), fun _ => issuing_idle⟩

omit [DecidableEq Tx] in
theorem labelled_empty (clock : Time) : Labelled False (State.empty clock : State Tx Id Recipient) :=
  ⟨counted_empty clock, fun _ _ isRow => (by cases isRow), fun _ _ isRow => (by cases isRow),
    fun _ => ⟨fun _ _ isRow => (by cases isRow), fun _ _ isRow => (by cases isRow), fun _ _ _ isCall => (by cases isCall)⟩⟩

def GivesReason (labels : List (Action Tx Id Recipient)) : Prop := ∃ tx id now, Action.revoke tx id (some superseded) now ∈ labels

theorem labelled_run (run : Run (Step hashGrantSecret) (State.empty clock) labels final) : Labelled (GivesReason labels) final := by
  refine run.history (fun past state => Labelled (GivesReason past) state) ((labelled_empty clock).mono False.elim) ?_
  intro past state label next _ labelled step
  refine (labelled.mono ?_).step ?_ step
  · exact fun ⟨tx, id, now, member⟩ => ⟨tx, id, now, List.mem_append_left _ member⟩
  · exact fun tx id now same => ⟨tx, id, now, List.mem_append_right _ (same ▸ List.mem_singleton_self _)⟩

/-- Where no issue is committed beside another one of its subject and recipient, one grant is
live, and a grant that was superseded names one that is there. -/
theorem one_live_grant (run : Run (guarded Unrivalled (Step hashGrantSecret)) (State.empty clock) labels final) :
    (∀ i j one two, final.grants.committed i = some one → final.grants.committed j = some two → one.holder = two.holder →
      capabilityGrantStatus one final.clock = .active → capabilityGrantStatus two final.clock = .active → i = j) ∧
    ∀ id row, final.grants.committed id = some row →
      (∀ other, row.supersededBy = some other → ∃ by', final.grants.committed other = some by' ∧ by'.holder = row.holder) ∧
      (row.revokedReason = some superseded → row.supersededBy = none → GivesReason labels) := by
  have single := run.invariant Single (single_empty clock) fun single taken => single.step taken.1 taken.2
  have labelled := labelled_run (run.mono And.right)
  refine ⟨single.once, fun id row isRow => ⟨fun other names => ?_, labelled.explained id row isRow⟩⟩
  refine (labelled.rows id row isRow other names).resolve_right ?_
  rintro ⟨issue, pending, isCall, -⟩
  cases isCall

end Runs

section Instances

def freshLink (fresh : Nat) : Issue Nat Unit := { signingLink with id := fresh, supersede := true }

def issuedBy (state : State Bool Nat Unit) (tx : Bool) (fresh : Nat) : State Bool Nat Unit :=
  (((state.look tx (freshLink fresh)).enter tx (some (.issuing (freshLink fresh) []))).put tx (freshLink fresh).id ((freshLink fresh).row id)).enter tx none

def bothIssued : State Bool Nat Unit := issuedBy (issuedBy (State.empty 0) false 0) true 1

theorem nothing_seen {state : State Bool Nat Unit} {tx : Bool} {fresh : Nat} (nothing : state.grants.view tx = fun _ => none) :
    Matching state tx (freshLink fresh) [] :=
  ⟨List.nodup_nil, fun at' => ⟨fun member => absurd member List.not_mem_nil, fun ⟨row, isRow, _⟩ => by rw [nothing] at isRow; cases isRow⟩⟩

/-- Two issuers for one subject and recipient, neither of whose statements sees the other's grant. -/
theorem two_live_grants : ∃ labels : List (Action Bool Nat Unit), ∃ final, ∃ one two : Grant Nat Unit,
    Run (Step id) (State.empty 0) labels final ∧ (∀ tx issue, Action.issue tx issue ∈ labels → issue.supersede = true) ∧
      final.grants.committed 0 = some one ∧ final.grants.committed 1 = some two ∧ one.holder = two.holder ∧
      capabilityGrantStatus one final.clock = .active ∧ capabilityGrantStatus two final.clock = .active := by
  have first : Run (Step id) (State.empty 0) [.issue false (freshLink 0), .proceed false] (issuedBy (State.empty 0) false 0) :=
    .cons (.issue rfl rfl (nothing_seen rfl)) (.cons (.insert rfl (Store.grants_of_unlocked fun _ _ => rfl) rfl) .start)
  have second : Run (Step id) (issuedBy (State.empty 0) false 0) [.issue true (freshLink 1), .proceed true] bothIssued := by
    refine .cons (.issue rfl rfl (nothing_seen rfl)) (.cons (.insert rfl (Store.grants_of_unlocked fun other different => ?_) rfl) .start)
    cases other with
    | false => rfl
    | true => exact absurd rfl different
  have ends : Run (Step id) bothIssued [.commit false, .commit true] ((bothIssued.commit false).commit true) :=
    .cons (.commit rfl) (.cons (.commit rfl) .start)
  refine ⟨_, _, (freshLink 0).row id, (freshLink 1).row id, first.append (second.append ends), ?_, rfl, rfl, rfl, rfl, rfl⟩
  intro tx issue member
  simp only [List.cons_append, List.nil_append, List.mem_cons, List.not_mem_nil, or_false, Action.issue.injEq, reduceCtorEq, false_or] at member
  rcases member with ⟨-, rfl⟩ | ⟨-, rfl⟩
  · rfl
  · rfl

def firstKept : State Bool Nat Unit := (issuedBy (State.empty 0) false 0).commit false

def retired : State Bool Nat Unit :=
  (((firstKept.look true (freshLink 1)).enter true (some (.issuing (freshLink 1) [0]))).put true 0
    ((freshLink 1).retire ((freshLink 0).row id))).enter true (some (.issuing (freshLink 1) []))

def replaced : State Bool Nat Unit := (retired.put true (freshLink 1).id ((freshLink 1).row id)).enter true none

theorem replaced_run : Run (guarded Unrivalled (Step id)) (State.empty 0) [.issue false (freshLink 0), .proceed false, .commit false,
    .issue true (freshLink 1), .proceed true, .proceed true, .commit true] (replaced.commit true) := by
  have issueFirst : Step id (State.empty 0) (.issue false (freshLink 0))
      (((State.empty 0).look false (freshLink 0)).enter false (some (.issuing (freshLink 0) []))) := .issue rfl rfl (nothing_seen rfl)
  have insertFirst : Step id (((State.empty 0).look false (freshLink 0)).enter false (some (.issuing (freshLink 0) []))) (.proceed false)
      (issuedBy (State.empty 0) false 0) := .insert rfl (Store.grants_of_unlocked fun _ _ => rfl) rfl
  have matching : Matching firstKept true (freshLink 1) [0] := by
    refine ⟨List.nodup_singleton 0, fun at' => ⟨fun member => ?_, fun ⟨row, isRow, _⟩ => ?_⟩⟩
    · cases List.mem_singleton.mp member
      exact ⟨(freshLink 0).row id, rfl, rfl, rfl, rfl, by decide⟩
    · by_contra elsewhere
      rw [List.mem_singleton] at elsewhere
      change (((((State.empty 0).look false (freshLink 0)).grants.lock false 0 .update).write false 0 (some _)).view false at') = some row at isRow
      rw [Store.put_view, if_neg elsewhere] at isRow
      cases isRow
  have revokeFirst : Step id ((firstKept.look true (freshLink 1)).enter true (some (.issuing (freshLink 1) [0]))) (.proceed true) retired :=
    .retire rfl (Store.grants_of_unlocked fun other _ => by cases other <;> rfl) rfl
      ⟨rfl, rfl, rfl, by decide⟩
  have insertSecond : Step id retired (.proceed true) replaced :=
    .insert rfl (Store.grants_of_unlocked fun other _ => by cases other <;> rfl) rfl
  refine .cons ⟨⟨rfl, le_rfl⟩, issueFirst⟩ (.cons ⟨trivial, insertFirst⟩ (.cons ⟨?_, .commit rfl⟩
    (.cons ⟨⟨rfl, le_rfl⟩, .issue rfl rfl matching⟩ (.cons ⟨trivial, revokeFirst⟩ (.cons ⟨trivial, insertSecond⟩ (.cons ⟨?_, .commit rfl⟩ .start))))))
  · intro look _ at' row isRow
    cases isRow
  · intro look isLook at' row isRow _ _
    cases List.mem_singleton.mp isLook
    exact congrArg Option.isSome isRow

theorem one_live_grant_replaced : ∃ by', (replaced.commit true).grants.committed 1 = some by' ∧
    by'.holder = ((freshLink 1).retire ((freshLink 0).row id)).holder :=
  ((one_live_grant replaced_run).2 0 ((freshLink 1).retire ((freshLink 0).row id)) rfl).1 1 rfl

end Instances

end OpenShapeForge.Operations.GrantSupersede
