import Mathlib.Data.List.Chain
import Mathlib.Logic.Relation
import OpenShapeForge.Library.Precedence

/-! A depth-first search of a multigraph that collects the edges into its own stack: in the
order in which nodes finish, these are exactly the edges that do not lead backwards. -/

namespace OpenShapeForge.Library.DepthFirst
open Relation

variable {V E : Type}

/-- What the search remembers: the nodes it met, those it has not left, and the edges back to these. -/
structure Search (V E : Type) where
  visited : List V
  onStack : List V
  back : List E

section Algorithm
variable [DecidableEq V]

/-- The edges of one node, each to a new node, to one on the stack, or to one that is done. -/
def walk (visit : V → Search V E → Option (Search V E)) : List (E × V) → Search V E → Option (Search V E)
  | [], search => some search
  | (edge, target) :: rest, search =>
    if target ∉ search.visited then (visit target search).bind (walk visit rest)
    else if target ∈ search.onStack then walk visit rest { search with back := search.back ++ [edge] }
    else walk visit rest search

def enter (search : Search V E) (node : V) : Search V E := ⟨node :: search.visited, node :: search.onStack, search.back⟩

/-- A node and what is new below it, at a bounded depth. -/
def dfs (out : V → List (E × V)) : Nat → V → Search V E → Option (Search V E)
  | 0, _, _ => none
  | depth + 1, node, search =>
    (walk (dfs out depth) (out node) (enter search node)).map fun left => { left with onStack := left.onStack.erase node }

/-- The search from every node it has not met yet. -/
def searchAll (out : V → List (E × V)) (depth : Nat) : List V → Search V E → Option (Search V E)
  | [], search => some search
  | node :: rest, search =>
    if node ∉ search.visited then (dfs out depth node search).bind (searchAll out depth rest) else searchAll out depth rest search

end Algorithm

section Traces
variable {out : V → List (E × V)} {search left : Search V E} {done : List V} {node : V}

/-- The nodes on the stack, the last entered at the end, and then those that are done, the last
one first: the order in which they finish, backwards. Leaving a node does not change it. -/
def Search.line (search : Search V E) (done : List V) : List V := search.onStack.reverse ++ done

def Onward (out : V → List (E × V)) (line : List V) (first second : V) : Prop :=
  ∃ edge, (edge, second) ∈ out first ∧ Before line first second

structure Trace (out : V → List (E × V)) (search : Search V E) (done : List V) : Prop where
  nodup : (search.line done).Nodup
  visited : ∀ node, node ∈ search.visited ↔ node ∈ search.onStack ∨ node ∈ done
  settled : ∀ node ∈ done, ∀ edge target, (edge, target) ∈ out node → Before (search.line done) node target ∨ edge ∈ search.back
  returned : ∀ edge ∈ search.back, ∃ source target, (edge, target) ∈ out source ∧
    (source = target ∨ Before (search.line done) target source) ∧ ReflTransGen (Onward out (search.line done)) target source
  chain : search.onStack.IsChain fun upper lower => ∃ edge, (edge, upper) ∈ out lower

theorem Onward.mono {line longer : List V} {first second : V} (within : line.Sublist longer) (onward : Onward out line first second) :
    Onward out longer first second := by
  obtain ⟨edge, isEdge, before⟩ := onward
  exact ⟨edge, isEdge, before.mono within⟩

theorem line_enter (search : Search V E) (done : List V) (node : V) :
    (enter search node).line done = search.onStack.reverse ++ node :: done := by
  unfold Search.line enter
  rw [List.reverse_cons, List.append_assoc]
  rfl

theorem line_within_enter (search : Search V E) (done : List V) (node : V) :
    (search.line done).Sublist ((enter search node).line done) := by
  rw [line_enter]
  exact (List.Sublist.refl _).append (List.sublist_cons_self node done)

theorem Trace.enter (trace : Trace out search done) (fresh : node ∉ search.visited)
    (reached : ∀ top ∈ search.onStack.head?, ∃ edge, (edge, node) ∈ out top) : Trace out (enter search node) done := by
  have within := line_within_enter search done node
  refine ⟨?_, ?_, ?_, ?_, ?_⟩
  · rw [line_enter, List.nodup_middle, List.nodup_cons]
    refine ⟨fun member => fresh ?_, trace.nodup⟩
    rw [List.mem_append, List.mem_reverse] at member
    exact (trace.visited node).mpr member
  · intro other
    unfold DepthFirst.enter
    rw [List.mem_cons, List.mem_cons, trace.visited other, or_assoc]
  · intro other isDone edge target isEdge
    exact (trace.settled other isDone edge target isEdge).imp_left fun before => before.mono within
  · intro edge isBack
    obtain ⟨source, target, isEdge, upward, path⟩ := trace.returned edge isBack
    exact ⟨source, target, isEdge, upward.imp_right fun before => before.mono within, ReflTransGen.mono (fun _ _ => Onward.mono within) _ _ path⟩
  · exact List.isChain_cons.mpr ⟨reached, trace.chain⟩

theorem Trace.leave [DecidableEq V] {stack : List V} (trace : Trace out search done) (isTop : search.onStack = node :: stack)
    (handled : ∀ edge target, (edge, target) ∈ out node → target ∈ done ∨ edge ∈ search.back) :
    Trace out { search with onStack := search.onStack.erase node } (node :: done) := by
  have top : search.onStack.erase node = stack := by
    rw [isTop, List.erase_cons_head]
  have line : Search.line { search with onStack := search.onStack.erase node } (node :: done) = search.line done := by
    unfold Search.line
    dsimp only
    rw [top, isTop, List.reverse_cons, List.append_assoc]
    rfl
  refine ⟨?_, ?_, ?_, ?_, ?_⟩
  · rw [line]
    exact trace.nodup
  · intro other
    rw [trace.visited other, isTop, List.erase_cons_head, List.mem_cons, List.mem_cons]
    tauto
  · intro other isDone edge target isEdge
    rw [line]
    rcases List.mem_cons.mp isDone with rfl | earlier
    · refine (handled edge target isEdge).imp_left fun member => ?_
      unfold Search.line
      rw [isTop]
      exact before_append (List.mem_reverse.mpr List.mem_cons_self) member
    · exact trace.settled other earlier edge target isEdge
  · intro edge isBack
    rw [line]
    exact trace.returned edge isBack
  · have chain := trace.chain
    rw [isTop] at chain
    change (search.onStack.erase node).IsChain _
    rw [top]
    exact chain.tail

theorem climbs : ∀ {stack : List V} {node : V} (done : List V),
    (node :: stack).IsChain (fun upper lower => ∃ edge, (edge, upper) ∈ out lower) → ∀ target ∈ node :: stack,
      (node = target ∨ Before ((node :: stack).reverse ++ done) target node) ∧
        ReflTransGen (Onward out ((node :: stack).reverse ++ done)) target node
  | [], node, done, _, target, member => by
    rw [List.mem_singleton.mp member]
    exact ⟨.inl rfl, .refl⟩
  | lower :: stack, node, done, chain, target, member => by
    rcases List.mem_cons.mp member with rfl | below
    · exact ⟨.inl rfl, .refl⟩
    · obtain ⟨⟨edge, isEdge⟩, rest⟩ := List.isChain_cons_cons.mp chain
      have line : (node :: lower :: stack).reverse ++ done = (lower :: stack).reverse ++ node :: done := by
        rw [List.reverse_cons, List.append_assoc]
        rfl
      rw [line]
      have path := (climbs (node :: done) rest target below).2
      refine ⟨.inr (before_append (List.mem_reverse.mpr below) List.mem_cons_self), path.tail ⟨edge, isEdge, ?_⟩⟩
      exact before_append (List.mem_reverse.mpr List.mem_cons_self) List.mem_cons_self

theorem Trace.take {stack : List V} (trace : Trace out search done) (isTop : search.onStack = node :: stack) {edge : E} {target : V}
    (isEdge : (edge, target) ∈ out node) (member : target ∈ search.onStack) :
    Trace out { search with back := search.back ++ [edge] } done := by
  refine ⟨trace.nodup, trace.visited, ?_, ?_, trace.chain⟩
  · intro other isDone taken reached isTaken
    exact (trace.settled other isDone taken reached isTaken).imp_right (List.mem_append_left _)
  · intro returned isReturned
    rcases List.mem_append.mp isReturned with earlier | here
    · exact trace.returned returned earlier
    · rw [List.mem_singleton.mp here]
      have chain := trace.chain
      rw [isTop] at chain member
      have line : Search.line { search with back := search.back ++ [edge] } done = (node :: stack).reverse ++ done := by
        unfold Search.line
        rw [isTop]
      rw [line]
      obtain ⟨upward, path⟩ := climbs done chain target member
      exact ⟨node, target, isEdge, upward, path⟩

structure Leaves (out : V → List (E × V)) (search left : Search V E) (done after : List V) : Prop where
  trace : Trace out left after
  stack : left.onStack = search.onStack
  kept : done ⊆ after
  back : search.back ⊆ left.back

theorem Leaves.trans {middle : Search V E} {between after : List V} (one : Leaves out search middle done between)
    (two : Leaves out middle left between after) : Leaves out search left done after :=
  ⟨two.trace, two.stack.trans one.stack, fun _ member => two.kept (one.kept member), fun _ member => two.back (one.back member)⟩

variable [DecidableEq V]

/-- A visit of a node that is met for the first time, along an edge of the top. -/
def Visits (out : V → List (E × V)) (visit : V → Search V E → Option (Search V E)) : Prop :=
  ∀ node search left done, Trace out search done → node ∉ search.visited →
    (∀ top ∈ search.onStack.head?, ∃ edge, (edge, node) ∈ out top) → visit node search = some left →
    ∃ after, Leaves out search left done after ∧ node ∈ after

theorem walk_leaves {visit : V → Search V E → Option (Search V E)} (visits : Visits out visit) {stack : List V} :
    ∀ {edges : List (E × V)} {search left : Search V E} {done : List V}, Trace out search done → search.onStack = node :: stack →
      edges ⊆ out node → walk visit edges search = some left →
      ∃ after, Leaves out search left done after ∧ ∀ edge target, (edge, target) ∈ edges → target ∈ after ∨ edge ∈ left.back
  | [], search, left, done, trace, _, _, walks => by
    cases walks
    exact ⟨done, ⟨trace, rfl, fun _ => id, fun _ => id⟩, fun edge target member => absurd member List.not_mem_nil⟩
  | (edge, target) :: rest, search, left, done, trace, isTop, within, walks => by
    have isEdge : (edge, target) ∈ out node := within List.mem_cons_self
    have restWithin : rest ⊆ out node := fun _ member => within (List.mem_cons_of_mem _ member)
    have onward : ∀ {middle : Search V E} {between : List V}, Leaves out search middle done between →
        target ∈ between ∨ edge ∈ middle.back → walk visit rest middle = some left →
        ∃ after, Leaves out search left done after ∧ ∀ one other, (one, other) ∈ (edge, target) :: rest → other ∈ after ∨ one ∈ left.back := by
      intro middle between leaves handled later
      obtain ⟨after, leavesRest, handledRest⟩ := walk_leaves visits leaves.trace (leaves.stack.trans isTop) restWithin later
      refine ⟨after, leaves.trans leavesRest, fun one other member => ?_⟩
      rcases List.mem_cons.mp member with same | later
      · cases same
        exact handled.imp (fun member => leavesRest.kept member) fun member => leavesRest.back member
      · exact handledRest one other later
    have unmoved : Leaves out search search done done := ⟨trace, rfl, fun _ => id, fun _ => id⟩
    unfold walk at walks
    split at walks
    next fresh =>
      obtain ⟨middle, visited, later⟩ := Option.bind_eq_some_iff.mp walks
      have reached : ∀ top ∈ search.onStack.head?, ∃ edge, (edge, target) ∈ out top := by
        intro top isHead
        rw [isTop] at isHead
        exact Option.some.inj isHead ▸ ⟨edge, isEdge⟩
      obtain ⟨between, leaves, isDone⟩ := visits target search middle done trace fresh reached visited
      exact onward leaves (.inl isDone) later
    next known =>
      split at walks
      next onStack =>
        have taken := trace.take isTop isEdge onStack
        exact onward ⟨taken, rfl, fun _ => id, fun _ => List.mem_append_left _⟩ (.inr (List.mem_append_right _ List.mem_cons_self)) walks
      next offStack =>
        have isDone := ((trace.visited target).mp (not_not.mp known)).resolve_left offStack
        exact onward unmoved (.inl isDone) walks

theorem dfs_visits : ∀ depth : Nat, Visits out (dfs out depth)
  | 0 => fun _ _ _ _ _ _ _ visited => by cases visited
  | depth + 1 => fun node search left done trace fresh reached visited => by
    obtain ⟨walked, walks, isLeft⟩ := Option.map_eq_some_iff.mp visited
    obtain ⟨after, leaves, handled⟩ := walk_leaves (dfs_visits depth) (trace.enter fresh reached) rfl (fun _ => id) walks
    refine ⟨node :: after, ⟨?_, ?_, ?_, ?_⟩, List.mem_cons_self⟩
    · rw [← isLeft]
      exact leaves.trace.leave leaves.stack handled
    · rw [← isLeft]
      change walked.onStack.erase node = search.onStack
      rw [leaves.stack]
      change (node :: search.onStack).erase node = search.onStack
      rw [List.erase_cons_head]
    · exact fun _ member => List.mem_cons_of_mem _ (leaves.kept member)
    · rw [← isLeft]
      exact leaves.back

theorem searchAll_leaves {depth : Nat} : ∀ {nodes : List V} {search left : Search V E} {done : List V}, Trace out search done →
    search.onStack = [] → searchAll out depth nodes search = some left →
    ∃ after, Leaves out search left done after ∧ ∀ node ∈ nodes, node ∈ after
  | [], search, left, done, trace, _, searches => by
    cases searches
    exact ⟨done, ⟨trace, rfl, fun _ => id, fun _ => id⟩, fun node member => absurd member List.not_mem_nil⟩
  | node :: rest, search, left, done, trace, noStack, searches => by
    have onward : ∀ {middle : Search V E} {between : List V}, Leaves out search middle done between → node ∈ between →
        searchAll out depth rest middle = some left → ∃ after, Leaves out search left done after ∧ ∀ other ∈ node :: rest, other ∈ after := by
      intro middle between leaves isDone later
      obtain ⟨after, leavesRest, doneRest⟩ := searchAll_leaves leaves.trace (leaves.stack.trans noStack) later
      refine ⟨after, leaves.trans leavesRest, List.forall_mem_cons.mpr ⟨leavesRest.kept isDone, doneRest⟩⟩
    unfold searchAll at searches
    split at searches
    next fresh =>
      obtain ⟨middle, visited, later⟩ := Option.bind_eq_some_iff.mp searches
      have reached : ∀ top ∈ search.onStack.head?, ∃ edge, (edge, node) ∈ out top := by
        rw [noStack]
        exact fun top never => by cases never
      obtain ⟨between, leaves, isDone⟩ := dfs_visits depth node search middle done trace fresh reached visited
      exact onward leaves isDone later
    next known =>
      have isDone : node ∈ done := by
        have met := (trace.visited node).mp (not_not.mp known)
        rw [noStack] at met
        exact met.resolve_left List.not_mem_nil
      exact onward ⟨trace, rfl, fun _ => id, fun _ => id⟩ isDone searches

section Totality
variable {nodes : List V}

def unmet (nodes : List V) (search : Search V E) : Nat := (nodes.filter fun node => node ∉ search.visited).length

theorem unmet_le {nodes : List V} (more : search.visited ⊆ left.visited) : unmet nodes left ≤ unmet nodes search := by
  refine (List.monotone_filter_right nodes fun node notMet => ?_).length_le
  exact decide_eq_true fun met => of_decide_eq_true notMet (more met)

theorem unmet_enter (member : node ∈ nodes) (fresh : node ∉ search.visited) : unmet nodes (enter search node) < unmet nodes search := by
  have fewer : (nodes.filter fun other => other ∉ (enter search node).visited).Sublist (nodes.filter fun other => other ∉ search.visited) := by
    refine List.monotone_filter_right nodes fun other notMet => ?_
    exact decide_eq_true fun met => of_decide_eq_true notMet (List.mem_cons_of_mem _ met)
  refine Nat.lt_of_le_of_ne fewer.length_le fun same => ?_
  have inBoth : node ∈ nodes.filter fun other => other ∉ (enter search node).visited := by
    rw [fewer.eq_of_length same]
    exact List.mem_filter.mpr ⟨member, decide_eq_true fresh⟩
  exact of_decide_eq_true (List.mem_filter.mp inBoth).2 List.mem_cons_self

def Ends (nodes : List V) (depth : Nat) (visit : V → Search V E → Option (Search V E)) : Prop :=
  ∀ node search, node ∈ nodes → node ∉ search.visited → unmet nodes search ≤ depth →
    ∃ left, visit node search = some left ∧ search.visited ⊆ left.visited

theorem walk_ends {depth : Nat} {visit : V → Search V E → Option (Search V E)} (ends : Ends nodes depth visit) :
    ∀ {edges : List (E × V)} {search : Search V E}, (∀ edge ∈ edges, edge.2 ∈ nodes) → unmet nodes search ≤ depth →
      ∃ left, walk visit edges search = some left ∧ search.visited ⊆ left.visited
  | [], search, _, _ => ⟨search, rfl, fun _ => id⟩
  | (edge, target) :: rest, search, within, bound => by
    have restWithin : ∀ edge ∈ rest, edge.2 ∈ nodes := fun other member => within other (List.mem_cons_of_mem _ member)
    unfold walk
    split
    next fresh =>
      obtain ⟨middle, visited, more⟩ := ends target search (within _ List.mem_cons_self) fresh bound
      obtain ⟨left, walks, still⟩ := walk_ends ends restWithin ((unmet_le more).trans bound)
      exact ⟨left, Option.bind_eq_some_iff.mpr ⟨middle, visited, walks⟩, fun _ member => still (more member)⟩
    next =>
      split
      next =>
        have taken : unmet nodes { search with back := search.back ++ [edge] } ≤ depth := bound
        exact walk_ends ends restWithin taken
      next => exact walk_ends ends restWithin bound

theorem dfs_ends (closed : ∀ node, ∀ edge ∈ out node, edge.2 ∈ nodes) : ∀ depth : Nat, Ends nodes depth (dfs out depth)
  | 0 => fun node search member fresh bound => absurd (unmet_enter member fresh) (Nat.not_lt.mpr (bound.trans (Nat.zero_le _)))
  | depth + 1 => fun node search member fresh bound => by
    have fewer := unmet_enter member fresh
    obtain ⟨walked, walks, more⟩ := walk_ends (dfs_ends closed depth) (closed node) (Nat.le_of_lt_succ (fewer.trans_le bound))
    refine ⟨_, Option.map_eq_some_iff.mpr ⟨walked, walks, rfl⟩, fun other met => more (List.mem_cons_of_mem _ met)⟩

theorem searchAll_ends {depth : Nat} (closed : ∀ node, ∀ edge ∈ out node, edge.2 ∈ nodes) :
    ∀ {starts : List V} {search : Search V E}, starts ⊆ nodes → unmet nodes search ≤ depth → ∃ left, searchAll out depth starts search = some left
  | [], search, _, _ => ⟨search, rfl⟩
  | node :: rest, search, within, bound => by
    have restWithin : rest ⊆ nodes := fun _ member => within (List.mem_cons_of_mem _ member)
    unfold searchAll
    split
    next fresh =>
      obtain ⟨middle, visited, more⟩ := dfs_ends closed depth node search (within List.mem_cons_self) fresh bound
      obtain ⟨left, searches⟩ := searchAll_ends closed restWithin ((unmet_le more).trans bound)
      exact ⟨left, Option.bind_eq_some_iff.mpr ⟨middle, visited, searches⟩⟩
    next => exact searchAll_ends closed restWithin bound

end Totality

def start : Search V E := ⟨[], [], []⟩

omit [DecidableEq V] in
theorem trace_start : Trace out start [] where
  nodup := List.nodup_nil
  visited node := by simp [start]
  settled node never := absurd never List.not_mem_nil
  returned edge never := absurd never List.not_mem_nil
  chain := List.isChain_nil

theorem searchAll_order {depth : Nat} {nodes : List V} (searches : searchAll out depth nodes start = some left) :
    ∃ order : List V, order.Nodup ∧ (∀ node ∈ nodes, node ∈ order) ∧
      (∀ node ∈ order, ∀ edge target, (edge, target) ∈ out node → Before order node target ∨ edge ∈ left.back) ∧
      ∀ edge ∈ left.back, ∃ source target, (edge, target) ∈ out source ∧ (source = target ∨ Before order target source) ∧
        ReflTransGen (Onward out order) target source := by
  obtain ⟨order, leaves, all⟩ := searchAll_leaves trace_start rfl searches
  have line : left.line order = order := by
    unfold Search.line
    rw [leaves.stack]
    rfl
  have trace := leaves.trace
  refine ⟨order, line ▸ trace.nodup, all, ?_, ?_⟩
  · intro node member edge target isEdge
    exact line ▸ trace.settled node member edge target isEdge
  · intro edge isBack
    exact line ▸ trace.returned edge isBack

end Traces

end OpenShapeForge.Library.DepthFirst
