import OpenShapeForge.Formula.GraphCorrect

/-! What `affectedBy` and `path` of a graph return: the readers of what changed, in evaluation
order, and a chain of reads wherever there is one. -/

namespace OpenShapeForge.Formula.GraphQueries
open Js Library Digraph Graph GraphComponents GraphCorrect

section Affected
variable {dependents : NodeKey → List NodeKey} {readers : List NodeKey}

structure Spread (dependents : NodeKey → List NodeKey) (queue reached final : List NodeKey) : Prop where
  nodup : final.Nodup
  kept : ∀ key ∈ reached, key ∈ final
  reads : ∀ key ∈ final, key ∈ reached ∨ ∃ start ∈ queue, Relation.TransGen (Edge dependents) start key
  queued : ∀ start ∈ queue, ∀ reader ∈ dependents start, reader ∈ final
  closed : ∀ key ∈ final, key ∈ reached ∨ ∀ reader ∈ dependents key, reader ∈ final

theorem spread_nil {reached : List NodeKey} (nodup : reached.Nodup) : Spread dependents [] reached reached where
  nodup := nodup
  kept _ member := member
  reads _ member := .inl member
  queued _ member := absurd member List.not_mem_nil
  closed _ member := .inl member

theorem spread_cons {key : NodeKey} {queue reached fresh final : List NodeKey}
    (isFresh : ∀ reader, reader ∈ fresh ↔ reader ∈ dependents key ∧ reader ∉ reached)
    (spread : Spread dependents (queue ++ fresh) (reached ++ fresh) final) : Spread dependents (key :: queue) reached final where
  nodup := spread.nodup
  kept other member := spread.kept other (List.mem_append_left _ member)
  reads other member := by
    rcases spread.reads other member with before | ⟨start, waits, walk⟩
    · rcases List.mem_append.mp before with old | new
      · exact .inl old
      · exact .inr ⟨key, List.mem_cons_self, .single ((isFresh other).mp new).1⟩
    · rcases List.mem_append.mp waits with queued | new
      · exact .inr ⟨start, List.mem_cons_of_mem _ queued, walk⟩
      · exact .inr ⟨key, List.mem_cons_self, .head ((isFresh start).mp new).1 walk⟩
  queued start waits reader isReader := by
    rcases List.mem_cons.mp waits with rfl | later
    · by_cases old : reader ∈ reached
      · exact spread.kept reader (List.mem_append_left _ old)
      · exact spread.kept reader (List.mem_append_right _ ((isFresh reader).mpr ⟨isReader, old⟩))
    · exact spread.queued start (List.mem_append_left _ later) reader isReader
  closed other member := by
    rcases spread.closed other member with before | all
    · rcases List.mem_append.mp before with old | new
      · exact .inl old
      · exact .inr (spread.queued other (List.mem_append_right _ new))
    · exact .inr all

theorem left_to_reach {reached fresh : List NodeKey} (once : readers.Nodup) (nodup : fresh.Nodup)
    (within : ∀ key ∈ fresh, key ∈ readers ∧ key ∉ reached) :
    fresh.length + (readers.filter (· ∉ reached ++ fresh)).length ≤ (readers.filter (· ∉ reached)).length := by
  have apart : fresh.Disjoint (readers.filter (· ∉ reached ++ fresh)) := by
    intro key isFresh isLeft
    have notThere := of_decide_eq_true (List.mem_filter.mp isLeft).2
    exact notThere (List.mem_append_right _ isFresh)
  have together : (fresh ++ readers.filter (· ∉ reached ++ fresh)).Nodup := nodup.append (once.filter _) apart
  have subset : fresh ++ readers.filter (· ∉ reached ++ fresh) ⊆ readers.filter (· ∉ reached) := by
    intro key member
    rcases List.mem_append.mp member with isFresh | isLeft
    · exact List.mem_filter.mpr ⟨(within key isFresh).1, decide_eq_true (within key isFresh).2⟩
    · obtain ⟨known, unreached⟩ := List.mem_filter.mp isLeft
      exact List.mem_filter.mpr ⟨known, decide_eq_true fun old => of_decide_eq_true unreached (List.mem_append_left _ old)⟩
  have fewer := (List.subperm_of_subset together subset).length_le
  rwa [List.length_append] at fewer

theorem affectedLoop_spread (once : readers.Nodup) (within : ∀ key, ∀ reader ∈ dependents key, reader ∈ readers) (fuel : Nat) :
    ∀ (queue reached : List NodeKey), reached.Nodup → queue.length + (readers.filter (· ∉ reached)).length ≤ fuel →
      Spread dependents queue reached (affectedLoop dependents fuel queue reached) := by
  induction fuel with
  | zero =>
    intro queue reached nodup enough
    have nothing : queue = [] := List.eq_nil_of_length_eq_zero (by omega)
    subst nothing
    exact spread_nil nodup
  | succ fuel ih =>
    intro queue reached nodup enough
    cases queue with
    | nil => exact spread_nil nodup
    | cons key queue =>
      have isFresh : ∀ reader, reader ∈ (distinct (dependents key)).filter (· ∉ reached) ↔ reader ∈ dependents key ∧ reader ∉ reached := by
        intro reader
        rw [List.mem_filter, mem_distinct, decide_eq_true_eq]
      have freshNodup : ((distinct (dependents key)).filter (· ∉ reached)).Nodup := (distinct_nodup _).filter _
      have fewer := left_to_reach once freshNodup fun other member =>
        ⟨within key other ((isFresh other).mp member).1, ((isFresh other).mp member).2⟩
      refine spread_cons isFresh (ih _ _ ?_ ?_)
      · exact nodup.append freshNodup fun other old new => ((isFresh other).mp new).2 old
      · rw [List.length_append]
        rw [List.length_cons] at enough
        omega

theorem Spread.mem_iff {queue final : List NodeKey} (spread : Spread dependents queue [] final) (key : NodeKey) :
    key ∈ final ↔ ∃ start ∈ queue, Relation.TransGen (Edge dependents) start key := by
  constructor
  · exact fun member => (spread.reads key member).resolve_left List.not_mem_nil
  · rintro ⟨start, waits, walk⟩
    induction walk with
    | single edge => exact spread.queued start waits _ edge
    | tail _ edge ih => exact ((spread.closed _ ih).resolve_left List.not_mem_nil) _ edge

end Affected

def Chain {κ : Type} (succ : κ → List κ) : κ → List κ → κ → Prop
  | node, [], last => node = last
  | node, next :: rest, last => next ∈ succ node ∧ Chain succ next rest last

theorem Chain.map {κ ι : Type} {succ : κ → List κ} {other : ι → List ι} (f : κ → ι)
    (edge : ∀ node, ∀ next ∈ succ node, f next ∈ other (f node)) : ∀ {node last : κ} {rest : List κ},
    Chain succ node rest last → Chain other (f node) (rest.map f) (f last)
  | _, _, [], chain => congrArg f chain
  | _, _, _ :: _, chain => ⟨edge _ _ chain.1, chain.2.map f edge⟩

section Search
variable {edges : NodeKey → List NodeKey} {target : NodeKey}

/-- What the search of `path` has seen and found where it found no chain. -/
structure Missed (edges : NodeKey → List NodeKey) (target : NodeKey) (before after : List NodeKey) : Prop where
  kept : ∀ key ∈ before, key ∈ after
  closed : ∀ key ∈ after, key ∈ before ∨ ∀ read ∈ edges key, read ≠ target ∧ read ∈ after

theorem Missed.trans {first second third : List NodeKey} (one : Missed edges target first second) (two : Missed edges target second third) :
    Missed edges target first third where
  kept key member := two.kept key (one.kept key member)
  closed key member := by
    rcases two.closed key member with before | all
    · exact (one.closed key before).imp_right fun all read isRead => ⟨(all read isRead).1, two.kept read (all read isRead).2⟩
    · exact .inr all

/-- One read of the loop in `walk`. -/
def tryRead (edges : NodeKey → List NodeKey) (target : NodeKey) (fuel : Nat) (trail : List NodeKey)
    (state : Option (List NodeKey) × List NodeKey) (read : NodeKey) : Option (List NodeKey) × List NodeKey :=
  match state with
  | (some found, seen) => (some found, seen)
  | (none, seen) =>
    if read = target then (some (trail ++ [read]), seen)
    else pathWalk edges target fuel read (trail ++ [read]) seen

theorem pathWalk_succ (fuel : Nat) (key : NodeKey) (trail seen : List NodeKey) : pathWalk edges target (fuel + 1) key trail seen =
    if key ∈ seen then (none, seen) else (edges key).foldl (tryRead edges target fuel trail) (none, key :: seen) := by
  unfold pathWalk
  split
  next => rfl
  next =>
    congr 1
    funext state read
    obtain ⟨_ | found, seen⟩ := state <;> rfl

theorem foldl_tryRead_some (fuel : Nat) (trail found seen : List NodeKey) (reads : List NodeKey) :
    reads.foldl (tryRead edges target fuel trail) (some found, seen) = (some found, seen) := by
  induction reads with
  | nil => rfl
  | cons read reads ih => exact ih

def Searched (edges : NodeKey → List NodeKey) (target key : NodeKey) (trail seen : List NodeKey)
    (outcome : Option (List NodeKey) × List NodeKey) : Prop :=
  match outcome.1 with
  | some found => ∃ more, found = trail ++ more ∧ more ≠ [] ∧ Chain edges key more target
  | none => key ∈ outcome.2 ∧ Missed edges target seen outcome.2

def Tried (edges : NodeKey → List NodeKey) (target : NodeKey) (reads trail seen : List NodeKey)
    (outcome : Option (List NodeKey) × List NodeKey) : Prop :=
  match outcome.1 with
  | some found => ∃ read ∈ reads, ∃ more, found = trail ++ read :: more ∧ Chain edges read more target
  | none => (∀ read ∈ reads, read ≠ target ∧ read ∈ outcome.2) ∧ Missed edges target seen outcome.2

def unseen (nodes seen : List NodeKey) : Nat := nodes.countP fun key => decide (key ∉ seen)

theorem unseen_le {nodes before after : List NodeKey} (kept : ∀ key ∈ before, key ∈ after) : unseen nodes after ≤ unseen nodes before := by
  apply List.countP_mono_left
  intro key _ isUnseen
  rw [decide_eq_true_eq] at isUnseen ⊢
  exact fun member => isUnseen (kept key member)

theorem foldl_tried {nodes : List NodeKey} {fuel : Nat} {trail : List NodeKey}
    (each : ∀ read ∈ nodes, ∀ trail seen, unseen nodes seen < fuel →
      Searched edges target read trail seen (pathWalk edges target fuel read trail seen)) :
    ∀ (reads seen : List NodeKey), (∀ read ∈ reads, read ∈ nodes) → unseen nodes seen < fuel →
      Tried edges target reads trail seen (reads.foldl (tryRead edges target fuel trail) (none, seen)) := by
  intro reads
  induction reads with
  | nil =>
    intro seen _ _
    exact ⟨fun read member => absurd member List.not_mem_nil, fun _ member => member, fun _ member => .inl member⟩
  | cons read reads ih =>
    intro seen within enough
    rw [List.foldl_cons]
    by_cases isTarget : read = target
    · have hit : tryRead edges target fuel trail (none, seen) read = (some (trail ++ [read]), seen) := if_pos isTarget
      rw [hit, foldl_tryRead_some]
      exact ⟨read, List.mem_cons_self, [], rfl, isTarget⟩
    · have walked : tryRead edges target fuel trail (none, seen) read = pathWalk edges target fuel read (trail ++ [read]) seen :=
        if_neg isTarget
      rw [walked]
      have searched := each read (within read List.mem_cons_self) (trail ++ [read]) seen enough
      unfold Searched at searched
      rcases outcome : pathWalk edges target fuel read (trail ++ [read]) seen with ⟨found, after⟩
      rw [outcome] at searched
      cases found with
      | some found =>
        rw [foldl_tryRead_some]
        obtain ⟨more, isFound, -, chain⟩ := searched
        refine ⟨read, List.mem_cons_self, more, ?_, chain⟩
        rw [isFound, List.append_assoc]
        rfl
      | none =>
        obtain ⟨landed, missed⟩ := searched
        have rest := ih after (fun other member => within other (List.mem_cons_of_mem _ member))
          ((unseen_le missed.kept).trans_lt enough)
        unfold Tried at rest ⊢
        rcases ending : reads.foldl (tryRead edges target fuel trail) (none, after) with ⟨last, final⟩
        rw [ending] at rest
        cases last with
        | some last =>
          obtain ⟨other, member, more, isFound, chain⟩ := rest
          exact ⟨other, List.mem_cons_of_mem _ member, more, isFound, chain⟩
        | none =>
          obtain ⟨all, missedOn⟩ := rest
          refine ⟨fun other member => ?_, missed.trans missedOn⟩
          rcases List.mem_cons.mp member with rfl | later
          · exact ⟨isTarget, missedOn.kept _ landed⟩
          · exact all other later

theorem pathWalk_searched {nodes : List NodeKey} (closed : ∀ key ∈ nodes, ∀ read ∈ edges key, read ∈ nodes) (fuel : Nat) :
    ∀ key ∈ nodes, ∀ trail seen, unseen nodes seen < fuel →
      Searched edges target key trail seen (pathWalk edges target fuel key trail seen) := by
  induction fuel with
  | zero =>
    intro key _ trail seen enough
    exact absurd enough (Nat.not_lt_zero _)
  | succ fuel ih =>
    intro key inside trail seen enough
    rw [pathWalk_succ]
    by_cases known : key ∈ seen
    · rw [if_pos known]
      exact ⟨known, fun _ member => member, fun _ member => .inl member⟩
    · rw [if_neg known]
      have fewer : unseen nodes (key :: seen) < unseen nodes seen := by
        apply countP_lt _ inside (by simpa using known) (by simp)
        intro other _ isUnseen
        rw [decide_eq_true_eq] at isUnseen ⊢
        exact fun member => isUnseen (List.mem_cons_of_mem _ member)
      have tried : Tried edges target (edges key) trail (key :: seen) _ := foldl_tried ih (edges key) (key :: seen) (closed key inside) (by omega)
      unfold Tried at tried
      unfold Searched
      rcases ending : (edges key).foldl (tryRead edges target fuel trail) (none, key :: seen) with ⟨found, final⟩
      rw [ending] at tried
      cases found with
      | some found =>
        obtain ⟨read, isRead, more, isFound, chain⟩ := tried
        exact ⟨read :: more, isFound, List.cons_ne_nil _ _, isRead, chain⟩
      | none =>
        obtain ⟨all, missed⟩ := tried
        refine ⟨missed.kept key List.mem_cons_self, fun other member => missed.kept other (List.mem_cons_of_mem _ member), fun other member => ?_⟩
        rcases missed.closed other member with before | closedThere
        · rcases List.mem_cons.mp before with rfl | old
          · exact .inr all
          · exact .inl old
        · exact .inr closedThere

theorem Missed.not_reached {key : NodeKey} {after : List NodeKey} (missed : Missed edges target [] after) (inside : key ∈ after) :
    ¬Relation.TransGen (Edge edges) key target := by
  intro walk
  have stays : ∀ {last}, Relation.TransGen (Edge edges) key last → last ≠ target ∧ last ∈ after := by
    intro last walk
    induction walk with
    | single edge => exact ((missed.closed key inside).resolve_left List.not_mem_nil) _ edge
    | tail _ edge ih => exact ((missed.closed _ ih.2).resolve_left List.not_mem_nil) _ edge
  exact (stays walk).1 rfl

end Search

section Tables

theorem mem_addDependents (key : NodeKey) (reads : List NodeKey) (reader read : NodeKey) :
    ∀ (dependents : OrderedMap NodeKey (List NodeKey)), reader ∈ ((addDependents dependents key reads).get? read).getD [] ↔
      reader ∈ (dependents.get? read).getD [] ∨ reader = key ∧ read ∈ reads := by
  unfold addDependents
  induction reads with
  | nil =>
    intro dependents
    simp
  | cons first reads ih =>
    intro dependents
    rw [List.foldl_cons, ih]
    by_cases same : read = first
    · subst same
      rw [OrderedMap.get?_set_self, Option.getD_some, List.mem_append, List.mem_singleton]
      simp only [List.mem_cons, true_or, and_true]
      tauto
    · rw [OrderedMap.get?_set_of_ne _ _ same]
      simp [same]

theorem foldl_record_dependents (reader read : NodeKey) (entries : List (NodeKey × DependencyDefinition)) :
    ∀ (tables : Tables), reader ∈ dependentsOf (entries.foldl record tables) read ↔
      reader ∈ dependentsOf tables read ∨ ∃ entry ∈ entries, reader = entry.1 ∧ read ∈ readsOf entry.2 := by
  induction entries with
  | nil =>
    intro tables
    simp
  | cons entry entries ih =>
    intro tables
    rw [List.foldl_cons, ih]
    have one : reader ∈ dependentsOf (record tables entry) read ↔ _ := mem_addDependents entry.1 (readsOf entry.2) reader read tables.dependents
    rw [one, or_assoc]
    refine or_congr Iff.rfl ?_
    simp [List.mem_cons, or_and_right, exists_or]

theorem addNodes_reads (reads : List DependencyNode) : ∀ {nodes : OrderedMap NodeKey DependencyNode}, Named nodes →
    ∀ read ∈ reads, dependencyNodeKey read ∈ (addNodes nodes reads).keys := by
  induction reads with
  | nil =>
    intro nodes _ read member
    exact absurd member List.not_mem_nil
  | cons first reads ih =>
    intro nodes named read member
    unfold addNodes
    rw [List.foldl_cons]
    have step : Named (if nodes.has (dependencyNodeKey first) = true then nodes else nodes.set (dependencyNodeKey first) first) ∧
        dependencyNodeKey first ∈ (if nodes.has (dependencyNodeKey first) = true then nodes else nodes.set (dependencyNodeKey first) first).keys := by
      split
      next present => exact ⟨named, (nodes.has_iff _).mp present⟩
      next => exact ⟨named.set first, by simp⟩
    rcases List.mem_cons.mp member with rfl | later
    · exact (step.1.addNodes reads).2 _ step.2
    · exact ih step.1 read later

variable (definitions : List DependencyDefinition)

theorem mem_edgesOf (reader read : NodeKey) :
    read ∈ edgesOf (tabulate (define definitions)) reader ↔ nodeOfKey read ∈ lastReads definitions (nodeOfKey reader) := by
  have edges := edgesOf_define definitions (nodeOfKey reader)
  rw [key_nodeOfKey] at edges
  rw [edges, mem_distinct, ← key_nodeOfKey read, List.mem_map_of_injective key_injective, key_nodeOfKey]

theorem lastReads_entry {node read : DependencyNode} (reads : read ∈ lastReads definitions node) :
    ∃ definition, (dependencyNodeKey node, definition) ∈ (define definitions).entries ∧ read ∈ definition.dependsOn := by
  have lookup := get?_define definitions node
  unfold lastReads at reads
  rw [← lookup] at reads
  cases found : (define definitions).get? (dependencyNodeKey node) with
  | none =>
    rw [found] at reads
    exact absurd reads List.not_mem_nil
  | some definition =>
    rw [found] at reads
    exact ⟨definition, OrderedMap.mem_of_get? found, reads⟩

theorem entry_lastReads (node : DependencyNode) {definition : DependencyDefinition}
    (member : (dependencyNodeKey node, definition) ∈ (define definitions).entries) : lastReads definitions node = definition.dependsOn := by
  have found := (define definitions).get?_of_mem member
  unfold lastReads
  rw [← get?_define, found]
  rfl

theorem mem_dependentsOf (reader read : NodeKey) :
    reader ∈ dependentsOf (tabulate (define definitions)) read ↔ nodeOfKey read ∈ lastReads definitions (nodeOfKey reader) := by
  rw [tabulate_eq, foldl_record_dependents]
  constructor
  · rintro (never | ⟨⟨key, definition⟩, member, rfl, reads⟩)
    · exact absurd never List.not_mem_nil
    · rw [entry_lastReads definitions (nodeOfKey reader) member]
      obtain ⟨node, isRead, same⟩ := List.mem_map.mp ((mem_distinct _ _).mp reads)
      rw [← same]
      exact isRead
  · intro reads
    obtain ⟨definition, member, isRead⟩ := lastReads_entry definitions reads
    exact .inr ⟨_, member, rfl, (mem_distinct _ _).mpr (List.mem_map.mpr ⟨nodeOfKey read, isRead, rfl⟩)⟩

theorem dependents_defined (key : NodeKey) : ∀ reader ∈ dependentsOf (tabulate (define definitions)) key, reader ∈ (define definitions).keys := by
  intro reader member
  obtain ⟨definition, isEntry, -⟩ := lastReads_entry definitions ((mem_dependentsOf definitions reader key).mp member)
  exact List.mem_map.mpr ⟨_, isEntry, rfl⟩

theorem reads_have_nodes {reader read : NodeKey} (reads : read ∈ edgesOf (tabulate (define definitions)) reader) :
    read ∈ (tabulate (define definitions)).nodes.keys := by
  obtain ⟨definition, member, isRead⟩ := lastReads_entry definitions ((mem_edgesOf definitions reader read).mp reads)
  obtain ⟨front, back, split⟩ := List.append_of_mem member
  have keyed := define_keyed definitions
  rw [split] at keyed
  rw [tabulate_eq, split, List.foldl_append, List.foldl_cons]
  have early := (foldl_record_nodes front (fun entry inFront => keyed entry (List.mem_append_left _ inFront)) ⟨.empty, .empty, .empty⟩
    (by intro key node found; cases found)).1
  have isKeyed := keyed _ (List.mem_append_right front List.mem_cons_self)
  have named := (record_named early isKeyed).1
  have there : read ∈ (record (front.foldl record ⟨.empty, .empty, .empty⟩) (dependencyNodeKey (nodeOfKey reader), definition)).nodes.keys := by
    have fresh : Named ((front.foldl record ⟨.empty, .empty, .empty⟩).nodes.set (dependencyNodeKey (nodeOfKey reader)) definition.node) := by
      have same : dependencyNodeKey (nodeOfKey reader) = dependencyNodeKey definition.node := isKeyed
      rw [same]
      exact early.set definition.node
    exact addNodes_reads definition.dependsOn fresh (nodeOfKey read) isRead
  have late := foldl_record_nodes back (fun entry inBack => keyed entry (List.mem_append_right _ (List.mem_cons_of_mem _ inBack))) _ named
  exact late.2 read (.inl there)

theorem nodesOf_trail {keys : List NodeKey} (within : ∀ key ∈ keys, key ∈ (tabulate (define definitions)).nodes.keys) :
    nodesOf (tabulate (define definitions)) keys = keys.map nodeOfKey := by
  have named := (foldl_record_nodes (define definitions).entries (define_keyed definitions) ⟨.empty, .empty, .empty⟩
    (by intro key node found; cases found)).1
  unfold nodesOf
  rw [List.filterMap_congr (fun key member => ?_), List.filterMap_eq_map']
  obtain ⟨node, found⟩ := ((tabulate (define definitions)).nodes.mem_keys_iff_get? key).mp (within key member)
  rw [found, named key node found]

end Tables

section Results
variable (definitions : List DependencyDefinition)

theorem idxOf_lt_of_sublist {κ : Type} [DecidableEq κ] {part whole : List κ} (nodup : whole.Nodup) (isPart : part.Sublist whole) {a b : κ}
    (inPart : a ∈ part) (alsoInPart : b ∈ part) (less : whole.idxOf a < whole.idxOf b) : part.idxOf a < part.idxOf b := by
  by_contra notLess
  have sorted : part.Pairwise fun a b => whole.idxOf a ≤ whole.idxOf b := (pairwise_idxOf nodup).sublist isPart
  have placeB := List.idxOf_lt_length_of_mem alsoInPart
  have placeA := List.idxOf_lt_length_of_mem inPart
  rcases Nat.lt_or_eq_of_le (Nat.le_of_not_lt notLess) with before | same
  · have order := List.pairwise_iff_getElem.mp sorted _ _ placeB placeA before
    rw [List.getElem_idxOf, List.getElem_idxOf] at order
    omega
  · rw [(List.idxOf_inj alsoInPart).mp same] at less
    exact absurd less (lt_irrefl _)

theorem readers_walk (start key : NodeKey) :
    Relation.TransGen (Edge (dependentsOf (tabulate (define definitions)))) start key ↔
      Relation.TransGen (Edge (lastReads definitions)) (nodeOfKey key) (nodeOfKey start) := by
  constructor
  · intro walk
    induction walk with
    | single edge => exact .single ((mem_dependentsOf definitions _ _).mp edge)
    | tail _ edge ih => exact .head ((mem_dependentsOf definitions _ _).mp edge) ih
  · intro walk
    have back : ∀ {a b : DependencyNode}, Relation.TransGen (Edge (lastReads definitions)) a b →
        Relation.TransGen (Edge (dependentsOf (tabulate (define definitions)))) (dependencyNodeKey b) (dependencyNodeKey a) := by
      intro a b walk
      induction walk with
      | @single b edge => exact .single ((mem_dependentsOf definitions (dependencyNodeKey a) (dependencyNodeKey b)).mpr edge)
      | @tail b c _ edge ih => exact .head ((mem_dependentsOf definitions (dependencyNodeKey b) (dependencyNodeKey c)).mpr edge) ih
    exact back walk

theorem edges_length : (define definitions).keys.length ≤ (tabulate (define definitions)).edges.keys.length := by
  apply (List.subperm_of_subset (define definitions).keys_nodup _).length_le
  intro key isDefined
  obtain ⟨entry, member, isKey⟩ := List.mem_map.mp isDefined
  have found : ((define definitions).entries.find? (·.1 = key)).isSome = true :=
    List.find?_isSome.mpr ⟨entry, member, decide_eq_true isKey⟩
  obtain ⟨hit, isHit⟩ := Option.isSome_iff_exists.mp found
  rw [OrderedMap.mem_keys_iff_get?, tabulate_eq, foldl_record_edges _ (define definitions).nodup, isHit]
  exact ⟨_, rfl⟩

theorem affectedBy_sublist (changed : List DependencyNode) :
    ((buildDependencyGraph definitions).affectedBy changed).Sublist (buildDependencyGraph definitions).order ∧
      ∀ node, node ∈ (buildDependencyGraph definitions).affectedBy changed ↔ node ∈ (buildDependencyGraph definitions).order ∧
        ∃ start ∈ changed, Relation.TransGen (Edge (lastReads definitions)) node start := by
  let reached := affectedLoop (dependentsOf (tabulate (define definitions))) (changed.length + (tabulate (define definitions)).edges.keys.length + 1)
    (changed.map dependencyNodeKey) []
  have enough : (changed.map dependencyNodeKey).length + ((define definitions).keys.filter (· ∉ ([] : List NodeKey))).length ≤
      changed.length + (tabulate (define definitions)).edges.keys.length + 1 := by
    have fewer := List.length_filter_le (fun key => decide (key ∉ ([] : List NodeKey))) (define definitions).keys
    have bound := edges_length definitions
    rw [List.length_map]
    omega
  have spread : Spread (dependentsOf (tabulate (define definitions))) (changed.map dependencyNodeKey) [] reached :=
    affectedLoop_spread (define definitions).keys_nodup (dependents_defined definitions) _ _ [] List.nodup_nil enough
  obtain ⟨orderNodup, inOrder, -⟩ := ordered_spec definitions
  have within : ∀ key ∈ reached.filter (· ∈ (buildDependencyGraph definitions).ordered), key ∈ (buildDependencyGraph definitions).ordered :=
    fun key member => of_decide_eq_true (List.mem_filter.mp member).2
  have isPart := sortBy_sublist orderNodup (spread.nodup.filter _) within
  have same : (buildDependencyGraph definitions).affectedBy changed =
      (sortBy (buildDependencyGraph definitions).ordered (reached.filter (· ∈ (buildDependencyGraph definitions).ordered))).map nodeOfKey := by
    apply nodesOf_eq
    intro key member
    exact ((allowedKey_iff definitions key).mp ((inOrder key).mp (isPart.subset member))).1
  rw [same, order_eq]
  refine ⟨isPart.map nodeOfKey, fun node => ?_⟩
  have injective : Function.Injective nodeOfKey := Function.LeftInverse.injective key_nodeOfKey
  rw [← nodeOfKey_key node, List.mem_map_of_injective injective, List.mem_map_of_injective injective, mem_sortBy, List.mem_filter,
    decide_eq_true_eq, and_comm, spread.mem_iff]
  refine and_congr Iff.rfl ⟨?_, ?_⟩
  · rintro ⟨start, waits, walk⟩
    obtain ⟨node', isChanged, rfl⟩ := List.mem_map.mp waits
    exact ⟨node', isChanged, (readers_walk definitions _ _).mp walk⟩
  · rintro ⟨start, isChanged, walk⟩
    exact ⟨dependencyNodeKey start, List.mem_map_of_mem isChanged, (readers_walk definitions _ _).mpr walk⟩

theorem trail_named {source target : NodeKey} : ∀ {more : List NodeKey}, more ≠ [] →
    Chain (edgesOf (tabulate (define definitions))) source more target →
    ∀ key ∈ [source] ++ more, key ∈ (tabulate (define definitions)).nodes.keys
  | [], nonempty, _ => absurd rfl nonempty
  | next :: rest, _, chain => by
    intro key member
    rcases List.mem_cons.mp member with rfl | inMore
    · obtain ⟨definition, isEntry, -⟩ := lastReads_entry definitions ((mem_edgesOf definitions key next).mp chain.1)
      have isDefined : key ∈ (define definitions).keys := List.mem_map.mpr ⟨_, isEntry, rfl⟩
      exact ((tabulate (define definitions)).nodes.mem_keys_iff_get? key).mpr ⟨_, get?_nodes definitions isDefined⟩
    · rcases List.mem_cons.mp inMore with rfl | inRest
      · exact reads_have_nodes definitions chain.1
      · cases rest with
        | nil => exact absurd inRest List.not_mem_nil
        | cons first others =>
          exact trail_named (List.cons_ne_nil first others) chain.2 key (List.mem_append_right [next] inRest)

theorem path_searched (source target : DependencyNode) :
    match (buildDependencyGraph definitions).path source target with
    | some chain => ∃ more, chain = source :: more ∧ more ≠ [] ∧ Chain (lastReads definitions) source more target
    | none => ¬Relation.TransGen (Edge (lastReads definitions)) source target := by
  let nodes := dependencyNodeKey source :: (tabulate (define definitions)).nodes.keys
  have closed : ∀ key ∈ nodes, ∀ read ∈ edgesOf (tabulate (define definitions)) key, read ∈ nodes :=
    fun key _ read reads => List.mem_cons_of_mem _ (reads_have_nodes definitions reads)
  have enough : unseen nodes [] < (tabulate (define definitions)).nodes.keys.length + 2 := by
    have bound : unseen nodes [] ≤ nodes.length := List.countP_le_length
    exact bound.trans_lt (Nat.lt_succ_self _)
  have searched : Searched (edgesOf (tabulate (define definitions))) (dependencyNodeKey target) (dependencyNodeKey source)
      [dependencyNodeKey source] [] _ :=
    pathWalk_searched closed _ (dependencyNodeKey source) List.mem_cons_self [dependencyNodeKey source] [] enough
  have isPath : (buildDependencyGraph definitions).path source target =
      (pathWalk (edgesOf (tabulate (define definitions))) (dependencyNodeKey target) ((tabulate (define definitions)).nodes.keys.length + 2)
        (dependencyNodeKey source) [dependencyNodeKey source] []).1.map (nodesOf (tabulate (define definitions))) := rfl
  rw [isPath]
  unfold Searched at searched
  cases outcome : (pathWalk (edgesOf (tabulate (define definitions))) (dependencyNodeKey target)
    ((tabulate (define definitions)).nodes.keys.length + 2) (dependencyNodeKey source) [dependencyNodeKey source] []).1 with
  | none =>
    rw [outcome] at searched
    intro walk
    refine searched.2.not_reached searched.1 (Relation.TransGen.lift dependencyNodeKey (fun reader read reads => ?_) _ _ walk)
    exact (mem_edgesOf definitions (dependencyNodeKey reader) (dependencyNodeKey read)).mpr reads
  | some found =>
    rw [outcome] at searched
    obtain ⟨more, isFound, nonempty, chain⟩ := searched
    have chainNodes : Chain (lastReads definitions) source (more.map nodeOfKey) target :=
      chain.map nodeOfKey fun reader read reads => (mem_edgesOf definitions reader read).mp reads
    have named : ∀ key ∈ found, key ∈ (tabulate (define definitions)).nodes.keys := by
      rw [isFound]
      exact trail_named definitions nonempty chain
    refine ⟨more.map nodeOfKey, ?_, fun nothing => nonempty (List.map_eq_nil_iff.mp nothing), chainNodes⟩
    rw [nodesOf_trail definitions named, isFound]
    rfl

/-- `affectedBy` returns once each, in evaluation order, the defined nodes outside the cycles that read what
changed, directly or indirectly; `path` returns a chain of reads exactly where there is one. -/
theorem queries_exact (definitions : List DependencyDefinition) :
    let graph := buildDependencyGraph definitions
    (∀ changed, (graph.affectedBy changed).Nodup ∧
      (∀ node, node ∈ graph.affectedBy changed ↔ (node ∈ inputNodes definitions ∧ ¬OnCycle (definedReads definitions) node) ∧
        ∃ start ∈ changed, Relation.TransGen (Edge (lastReads definitions)) node start) ∧
      ∀ node ∈ graph.affectedBy changed, ∀ read ∈ graph.affectedBy changed, read ∈ lastReads definitions node →
        (graph.affectedBy changed).idxOf read < (graph.affectedBy changed).idxOf node) ∧
    ∀ source target, match graph.path source target with
      | some chain => ∃ more, chain = source :: more ∧ more ≠ [] ∧ Chain (lastReads definitions) source more target
      | none => ¬Relation.TransGen (Edge (lastReads definitions)) source target := by
  intro graph
  refine ⟨fun changed => ?_, path_searched definitions⟩
  obtain ⟨isPart, members⟩ := affectedBy_sublist definitions changed
  have orderNodup : graph.order.Nodup := (List.nodup_append.mp ((order_cycles_perm definitions).nodup_iff.mpr (inputNodes_nodup definitions))).1
  refine ⟨orderNodup.sublist isPart, fun node => ?_, fun node inNode read inRead reads => ?_⟩
  · rw [members, mem_order]
  · have before := order_reads_first definitions (isPart.subset inNode) (isPart.subset inRead) reads
    exact idxOf_lt_of_sublist orderNodup isPart inRead inNode before

end Results

end OpenShapeForge.Formula.GraphQueries
