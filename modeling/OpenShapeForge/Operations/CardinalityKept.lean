import OpenShapeForge.Operations.CollectionMutations

/-! What a mutation leaves of a collection's size, against the cardinality it is checked with. -/

namespace OpenShapeForge.Operations.CollectionMutations
open Library Library.Failing

def Cardinality.Allows (bounds : Cardinality) (count : Nat) : Prop := bounds.min.getD 0 ≤ count ∧ ∀ max, bounds.max = some max → count ≤ max

theorem of_refuseIf {condition : Bool} {refusal : Except Refusal Unit} {done : Unit} (refuses : refusal ≠ .ok ())
    (passed : refuseIf condition refusal = .ok done) : condition = false := by
  cases condition with
  | false => rfl
  | true => exact absurd passed refuses

section Sizes
variable {Id Values Fields : Type}

namespace Collection
variable [DecidableEq Id] (collection : Collection Id Fields)

omit [DecidableEq Id] in
theorem append_size (row : Row Id Fields) (fresh : row.id ∉ collection.ids) :
    (collection.append row fresh).members.length = collection.members.length + 1 :=
  List.length_append

theorem ids_delete (id : Id) : (collection.delete id).ids = collection.ids.erase id := by
  unfold ids delete
  rw [collection.distinct.erase_eq_filter id]
  rw [List.filter_map]
  congr 1
  apply List.filter_congr
  intro row _
  cases same : row.id == id with
  | true => simp [beq_iff_eq.mp same]
  | false => simp [beq_eq_false_iff_ne.mp same]

theorem delete_size {id : Id} (member : id ∈ collection.ids) :
    (collection.delete id).members.length + 1 = collection.members.length := by
  have left : (collection.delete id).ids.length + 1 = collection.ids.length := by
    rw [ids_delete, List.length_erase_of_mem member]
    exact Nat.succ_pred_eq_of_pos (List.length_pos_of_mem member)
  rw [ids, ids, List.length_map, List.length_map] at left
  exact left

end Collection

variable [LinearOrder Id] {environment : Environment Id Values Fields} {relation : Relation} {action : Action}
  {request : Request Id Values} {collection : Collection Id Fields} {rows : List (Row Id Fields)} {ordered : List Id}
  {values : Values} {progress done : Progress Id Fields}

theorem lockMembers_size (whole : singleMember relation action = false)
    (locks : lockMembers environment relation action request collection = .ok rows) : rows.length = collection.members.length := by
  unfold lockMembers at locks
  rw [whole, if_neg Bool.false_ne_true] at locks
  dsimp only at locks
  split at locks
  next same =>
    have lengths := congrArg List.length same
    rw [List.length_map, List.length_map, List.length_insertionSort] at lengths
    rw [← Except.ok.inj locks, ← lengths]
  next => cases locks

omit [LinearOrder Id] in
theorem checkSize_allows (whole : singleMember relation action = false) {checked : Unit}
    (passed : checkSize relation action rows = .ok checked) :
    relation.bounds.Allows (rows.length + if action = .insert then 1 else 0) := by
  have free := of_refuseIf (by rintro ⟨⟩) passed
  rw [whole, Bool.not_false, Bool.true_and, Bool.or_eq_false_iff, decide_eq_false_iff_not, not_lt] at free
  refine ⟨free.1, fun max isMax => ?_⟩
  have notAbove := free.2
  rw [isMax, Option.any_some, decide_eq_false_iff_not, not_lt] at notAbove
  exact notAbove

theorem createChild_size (creates : createChild environment relation rows ordered values collection = .ok done) :
    done.collection.members.length = collection.members.length + 1 := by
  unfold createChild at creates
  obtain ⟨⟨id, written⟩, _, creates⟩ := attempt_bind_ok.mp creates
  dsimp only at creates
  split at creates
  next => cases creates
  next unused =>
    obtain ⟨_, _, creates⟩ := attempt_bind_ok.mp creates
    obtain ⟨_, _, creates⟩ := attempt_bind_ok.mp creates
    cases creates
    exact collection.append_size _ unused

theorem updateChild_size [DecidableEq Fields] {current : Row Id Fields}
    (updates : updateChild environment relation request values current progress = .ok done) :
    done.collection.members.length = progress.collection.members.length := by
  unfold updateChild at updates
  obtain ⟨_, _, updates⟩ := attempt_bind_ok.mp updates
  obtain ⟨prepared, _, updates⟩ := attempt_bind_ok.mp updates
  cases prepared with
  | none =>
    cases updates
    rfl
  | some written =>
    obtain ⟨_, _, updates⟩ := attempt_bind_ok.mp updates
    split at updates
    next =>
      cases updates
      rfl
    next =>
      split at updates
      next =>
        cases updates
        exact List.length_map _
      next =>
        split at updates
        next =>
          cases updates
          rfl
        next => cases updates

theorem removeChild_size {childId : Id} (removes : removeChild environment childId progress = .ok done) :
    done.collection.members.length + 1 = progress.collection.members.length := by
  unfold removeChild at removes
  obtain ⟨_, _, removes⟩ := attempt_bind_ok.mp removes
  obtain ⟨_, _, removes⟩ := attempt_bind_ok.mp removes
  split at removes
  next allowed =>
    cases removes
    exact progress.collection.delete_size allowed.1
  next => cases removes

theorem renumberOne_size {entry : Id × Nat} (renumbers : renumberOne environment rows progress entry = .ok done) :
    done.collection.members.length = progress.collection.members.length := by
  unfold renumberOne at renumbers
  dsimp only at renumbers
  split at renumbers
  next =>
    cases renumbers
    rfl
  next =>
    obtain ⟨_, _, renumbers⟩ := attempt_bind_ok.mp renumbers
    obtain ⟨_, _, renumbers⟩ := attempt_bind_ok.mp renumbers
    split at renumbers
    next =>
      cases renumbers
      exact List.length_map _
    next => cases renumbers

theorem renumber_size (renumbers : renumber environment relation rows progress = .ok done) :
    done.collection.members.length = progress.collection.members.length :=
  foldlM_keeps (fun progress : Progress Id Fields => progress.collection.members.length) (fun _ _ => renumberOne_size) renumbers

theorem finish_size {outcome : Outcome Id} {after : Collection Id Fields}
    (finishes : finish environment relation action progress = .ok (outcome, after)) :
    after.members.length = progress.collection.members.length := by
  unfold finish at finishes
  obtain ⟨_, _, finishes⟩ := attempt_bind_ok.mp finishes
  split at finishes
  next =>
    cases finishes
    rfl
  next =>
    obtain ⟨_, _, finishes⟩ := attempt_bind_ok.mp finishes
    obtain ⟨_, _, finishes⟩ := attempt_bind_ok.mp finishes
    cases finishes
    rfl

def sizeAfter (action : Action) (before : Nat) : Nat :=
  match action with
  | .insert => before + 1
  | .move | .update => before
  | .remove => before - 1

theorem write_size [DecidableEq Fields] (writes : write environment relation action request rows ordered collection = .ok done) :
    done.collection.members.length = sizeAfter action collection.members.length ∧
      (action = .remove → 0 < collection.members.length) := by
  unfold write at writes
  split at writes
  next => exact ⟨createChild_size writes, fun never => by cases never⟩
  next =>
    cases writes
    exact ⟨rfl, fun never => by cases never⟩
  next =>
    split at writes
    next => cases writes
    next =>
      obtain ⟨_, _, writes⟩ := attempt_bind_ok.mp writes
      obtain ⟨_, _, writes⟩ := attempt_bind_ok.mp writes
      exact ⟨updateChild_size writes, fun never => by cases never⟩
  next =>
    split at writes
    next => cases writes
    next =>
      obtain ⟨_, _, writes⟩ := attempt_bind_ok.mp writes
      obtain ⟨_, _, writes⟩ := attempt_bind_ok.mp writes
      have left := removeChild_size writes
      dsimp only at left
      exact ⟨Nat.eq_sub_of_add_eq left, fun _ => left ▸ Nat.succ_pos _⟩
  next => cases writes

theorem execute_size [DecidableEq Fields] {outcome : Outcome Id} {after : Collection Id Fields}
    (whole : singleMember relation action = false)
    (succeeds : execute environment relation action request collection = .ok (outcome, after)) :
    relation.bounds.Allows (collection.members.length + if action = .insert then 1 else 0) ∧
      after.members.length = sizeAfter action collection.members.length ∧
      (action = .remove → 0 < collection.members.length) := by
  unfold execute at succeeds
  obtain ⟨_, _, succeeds⟩ := attempt_bind_ok.mp succeeds
  unfold run at succeeds
  obtain ⟨_, _, succeeds⟩ := attempt_bind_ok.mp succeeds
  obtain ⟨_, _, succeeds⟩ := attempt_bind_ok.mp succeeds
  obtain ⟨_, _, succeeds⟩ := attempt_bind_ok.mp succeeds
  obtain ⟨_, _, succeeds⟩ := attempt_bind_ok.mp succeeds
  obtain ⟨rows, locks, succeeds⟩ := attempt_bind_ok.mp succeeds
  obtain ⟨_, _, succeeds⟩ := attempt_bind_ok.mp succeeds
  obtain ⟨_, _, succeeds⟩ := attempt_bind_ok.mp succeeds
  obtain ⟨_, sized, succeeds⟩ := attempt_bind_ok.mp succeeds
  obtain ⟨_, _, succeeds⟩ := attempt_bind_ok.mp succeeds
  obtain ⟨_, _, succeeds⟩ := attempt_bind_ok.mp succeeds
  obtain ⟨written, writes, succeeds⟩ := attempt_bind_ok.mp succeeds
  obtain ⟨numbered, renumbers, finishes⟩ := attempt_bind_ok.mp succeeds
  have allowed := checkSize_allows whole sized
  rw [lockMembers_size whole locks] at allowed
  have ordersOnly : (placed action request written).collection = written.collection := by
    unfold placed
    split
    next => rfl
    next => rfl
  have size := write_size writes
  refine ⟨allowed, ?_, size.2⟩
  rw [finish_size finishes, renumber_size renumbers, ordersOnly]
  exact size.1

end Sizes

section Runs
variable {Id Values Fields : Type} [LinearOrder Id] [DecidableEq Fields] {relation : Relation}

/-- A mutation somebody asks for, and what its transaction meets. -/
structure Mutation (Id Values Fields : Type) where
  environment : Environment Id Values Fields
  action : Action
  request : Request Id Values

def Succeeds (relation : Relation) (collection : Collection Id Fields) (mutation : Mutation Id Values Fields)
    (after : Collection Id Fields) : Prop :=
  ∃ outcome, execute mutation.environment relation mutation.action mutation.request collection = .ok (outcome, after)

inductive Step (relation : Relation) : Collection Id Fields → Mutation Id Values Fields → Collection Id Fields → Prop
  | done {collection mutation after} : Succeeds relation collection mutation after → Step relation collection mutation after
  | refused {collection mutation} (refusal : Refusal) :
      execute mutation.environment relation mutation.action mutation.request collection = .error refusal →
      Step relation collection mutation collection

def Within (relation : Relation) (collection : Collection Id Fields) : Prop := relation.bounds.Allows collection.members.length

def RemovesFromMinimum (relation : Relation) (collection : Collection Id Fields) (mutation : Mutation Id Values Fields) : Prop :=
  mutation.action = .remove ∧ collection.members.length = relation.bounds.min.getD 0

omit [LinearOrder Id] [DecidableEq Fields] in
theorem whole_of_owned (owned : relation.ownership = .owned) (action : Action) : singleMember relation action = false := by
  rw [singleMember, owned]
  rfl

theorem succeeds_within_iff (owned : relation.ownership = .owned) {collection after : Collection Id Fields}
    {mutation : Mutation Id Values Fields} (succeeds : Succeeds relation collection mutation after) :
    Within relation after ↔ ¬ RemovesFromMinimum relation collection mutation := by
  obtain ⟨outcome, succeeds⟩ := succeeds
  obtain ⟨allowed, size, hasMember⟩ := execute_size (whole_of_owned owned mutation.action) succeeds
  unfold Within RemovesFromMinimum
  rw [size]
  cases isAction : mutation.action with
  | insert =>
    rw [isAction, if_pos rfl] at allowed
    exact ⟨fun _ never => Action.noConfusion never.1, fun _ => allowed⟩
  | move | update =>
    rw [isAction] at allowed
    exact ⟨fun _ never => Action.noConfusion never.1, fun _ => allowed⟩
  | remove =>
    rw [isAction] at allowed
    have some_member := hasMember isAction
    obtain ⟨atLeast, atMost⟩ := allowed
    rw [if_neg (by decide), Nat.add_zero] at atLeast
    constructor
    · intro within lowest
      have kept : relation.bounds.min.getD 0 ≤ collection.members.length - 1 := within.1
      have isMinimum := lowest.2
      omega
    · intro spare
      have notMinimum : collection.members.length ≠ relation.bounds.min.getD 0 := fun same => spare ⟨rfl, same⟩
      refine ⟨?_, fun max isMax => ?_⟩
      · change relation.bounds.min.getD 0 ≤ collection.members.length - 1
        omega
      · exact (Nat.sub_le _ 1).trans (atMost max isMax)

/-- In every run of mutations of an owned collection, those that succeed leave as many members
as its cardinality allows if and only if none of them removes from the minimum; and then a
collection that starts within its cardinality ends within it. -/
theorem runs_within_iff (owned : relation.ownership = .owned) {start final : Collection Id Fields}
    {mutations : List (Mutation Id Values Fields)} (run : Run (Step relation) start mutations final) :
    ((∀ {front mutation back}, mutations = front ++ mutation :: back → ∀ {before after}, Run (Step relation) start front before →
        Succeeds relation before mutation after → Within relation after) ↔
      ∀ {front mutation back}, mutations = front ++ mutation :: back → ∀ {before after}, Run (Step relation) start front before →
        Succeeds relation before mutation after → ¬ RemovesFromMinimum relation before mutation) ∧
    (Within relation start →
      (∀ {front mutation back}, mutations = front ++ mutation :: back → ∀ {before after}, Run (Step relation) start front before →
        Succeeds relation before mutation after → ¬ RemovesFromMinimum relation before mutation) → Within relation final) := by
  refine ⟨⟨?_, ?_⟩, ?_⟩
  · intro within front mutation back isPart before after earlier succeeds
    exact (succeeds_within_iff owned succeeds).mp (within isPart earlier succeeds)
  · intro spare front mutation back isPart before after earlier succeeds
    exact (succeeds_within_iff owned succeeds).mpr (spare isPart earlier succeeds)
  · intro first spare
    revert spare
    apply run.history (fun past state => (∀ {front mutation back}, past = front ++ mutation :: back →
      ∀ {before after}, Run (Step relation) start front before → Succeeds relation before mutation after →
        ¬ RemovesFromMinimum relation before mutation) → Within relation state) (fun _ => first)
    intro past state mutation next earlier held taken spare
    cases taken with
    | done succeeds => exact (succeeds_within_iff owned succeeds).mpr (spare rfl earlier succeeds)
    | refused =>
      refine held fun {front earliest back} isPart => @spare front earliest (back ++ [mutation]) ?_
      rw [isPart, List.append_assoc]
      rfl

/-- A session that may do everything, on a collection of numbered rows without columns of their own. -/
def willing : Environment Nat Unit Unit where
  supported := .ok ()
  contract := fun _ => .ok ()
  sameSession := true
  parentVisible := true
  parentEdit := .ok ()
  parentWritable := true
  lockable := fun _ => true
  allowed := fun _ => .ok ()
  view := fun _ => .ok ()
  edit := fun _ => .ok ()
  createdView := fun _ => .ok ()
  related := fun _ => .ok ()
  create := fun _ => .ok (7, ⟨false, ()⟩)
  lease := fun _ => .ok ()
  prepare := fun _ _ => .ok none
  referencesRemoved := fun _ => .ok ()
  admitted := .ok ()
  effectsAdmitted := .ok ()
  deletable := fun _ => true
  writable := fun _ => true
  localeCompare := compare
  now := 10

def atLeastOne : Relation := ⟨.owned, true, false, false, some ⟨some 1, some 2⟩⟩

def single : Collection Nat Unit := ⟨1, [⟨5, some 0, false, 1, ()⟩], by decide⟩

def insertOne : Mutation Nat Unit Unit := ⟨willing, .insert, ⟨1, none, none, some (), none, none⟩⟩

def removeOnly : Mutation Nat Unit Unit := ⟨willing, .remove, ⟨1, none, none, none, some 5, none⟩⟩

def double : Collection Nat Unit := ⟨10, [⟨5, some 0, false, 1, ()⟩, ⟨7, some 1, false, 10, ()⟩], by decide⟩

theorem inserts_one : Succeeds atLeastOne single insertOne double := ⟨⟨10, 7, [5, 7]⟩, rfl⟩

theorem runs_within_iff_inserted : Within atLeastOne single ∧ Within atLeastOne double := by
  have allowed : Within atLeastOne single := ⟨by decide, fun max isMax => Option.some.inj isMax ▸ by decide⟩
  have taken : Run (Step atLeastOne) single [insertOne] double := .step .start (.done inserts_one)
  refine ⟨allowed, (runs_within_iff rfl taken).2 allowed ?_⟩
  intro front mutation back isPart before after _ _ removes
  have only : mutation = insertOne := List.mem_singleton.mp (isPart ▸ List.mem_append_right front List.mem_cons_self)
  rw [only] at removes
  exact Action.noConfusion removes.1

def emptied : Collection Nat Unit := ⟨10, [], by decide⟩

/-- The only member of a collection of at least one is removed. -/
theorem removes_from_minimum : ¬ ∀ {relation : Relation}, relation.ownership = .owned → ∀ {before after : Collection Nat Unit}
    {mutation : Mutation Nat Unit Unit}, Succeeds relation before mutation after → Within relation after := by
  intro kept
  have removed : Succeeds atLeastOne single removeOnly emptied := ⟨⟨10, 5, []⟩, rfl⟩
  have allowed : Within atLeastOne emptied := kept rfl removed
  exact absurd allowed.1 (by decide)

end Runs

end OpenShapeForge.Operations.CollectionMutations
