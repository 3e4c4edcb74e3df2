import Mathlib.Data.Set.Basic
import Mathlib.Data.List.Basic
import Mathlib.Logic.Function.Iterate
import Mathlib.Order.Bounds.Basic

/-! Marks that spread against a relation, group by group and round after round: what has
them after a number of rounds, and when nothing is left to mark. -/

namespace OpenShapeForge.Library.Propagation

section First
variable {Item : Type} {holds : Item → Prop} {items : List Item} {item : Item}

def FirstOf (holds : Item → Prop) (items : List Item) (item : Item) : Prop :=
  ∃ front back, items = front ++ item :: back ∧ holds item ∧ ∀ other ∈ front, ¬holds other

theorem FirstOf.mem (first : FirstOf holds items item) : item ∈ items := by
  obtain ⟨front, back, rfl, -, -⟩ := first
  exact List.mem_append_right front List.mem_cons_self

theorem FirstOf.holds_item (first : FirstOf holds items item) : holds item := by
  obtain ⟨-, -, -, isHeld, -⟩ := first
  exact isHeld

theorem FirstOf.unique : ∀ {items : List Item} {one two : Item}, FirstOf holds items one → FirstOf holds items two → one = two
  | [], one, _, first, _ => absurd first.mem List.not_mem_nil
  | head :: rest, one, two, first, second => by
    by_cases isHead : holds head
    · have isFirst : ∀ {item}, FirstOf holds (head :: rest) item → item = head := by
        rintro item ⟨front, back, same, isHeld, none⟩
        cases front with
        | nil => exact (List.cons.inj same).1.symm
        | cons other front => exact absurd ((List.cons.inj same).1 ▸ isHead) (none other List.mem_cons_self)
      exact (isFirst first).trans (isFirst second).symm
    · have inRest : ∀ {item}, FirstOf holds (head :: rest) item → FirstOf holds rest item := by
        rintro item ⟨front, back, same, isHeld, none⟩
        cases front with
        | nil => exact absurd ((List.cons.inj same).1 ▸ isHeld) isHead
        | cons other front =>
          exact ⟨front, back, (List.cons.inj same).2, isHeld, fun each member => none each (List.mem_cons_of_mem _ member)⟩
      exact FirstOf.unique (inRest first) (inRest second)

theorem FirstOf.congr {other : Item → Prop} (same : ∀ item, holds item ↔ other item) : FirstOf holds items item ↔ FirstOf other items item := by
  have isSame : holds = other := funext fun item => propext (same item)
  rw [isSame]

end First

/-- Nodes in groups that take turns. A node is marked for a reason of its own, or for what it reads. -/
structure Spread (Node Group : Type) where
  group : Node → Group
  order : List Group
  once : order.Nodup
  root : Node → Prop
  reads : Node → Node → Prop
  given : Set Node

namespace Spread
variable {Node Group : Type} (spread : Spread Node Group)

def turn (marked : Set Node) (group : Group) : Set Node :=
  {node | node ∈ marked ∨ spread.group node = group ∧ (spread.root node ∨ ∃ read, spread.reads node read ∧ read ∈ marked)}

def round (marked : Set Node) : Set Node := spread.order.foldl spread.turn marked

def Before (first second : Group) : Prop := ∃ front back, spread.order = front ++ second :: back ∧ first ∈ front

/-- A chain of reads marks a node in a round, counted from nought. -/
inductive Falls : Nat → Node → Prop
  | root {node} : spread.group node ∈ spread.order → spread.root node → Falls 0 node
  | given {node read} : spread.group node ∈ spread.order → spread.reads node read → read ∈ spread.given → Falls 0 node
  | earlier {count node read} : Falls count read → spread.reads node read →
      spread.Before (spread.group read) (spread.group node) → Falls count node
  | later {count node read} : Falls count read → spread.reads node read → spread.group node ∈ spread.order → Falls (count + 1) node

def MarkedBefore (count : Nat) (node read : Node) : Prop :=
  read ∈ spread.given ∨ ∃ fallen, spread.Falls fallen read ∧ (fallen < count ∨ fallen = count ∧ spread.Before (spread.group read) (spread.group node))

def Closed (marked : Set Node) : Prop :=
  ∀ node, spread.group node ∈ spread.order → (spread.root node ∨ ∃ read, spread.reads node read ∧ read ∈ marked) → node ∈ marked

variable {spread}

theorem before_mem {first second : Group} (before : spread.Before first second) : second ∈ spread.order := by
  obtain ⟨front, back, isOrder, -⟩ := before
  rw [isOrder]
  exact List.mem_append_right front List.mem_cons_self

theorem before_iff {front back : List Group} {first second : Group} (isOrder : spread.order = front ++ second :: back) :
    spread.Before first second ↔ first ∈ front := by
  constructor
  · rintro ⟨other, rest, isOther, member⟩
    have once : (front ++ second :: back).Nodup := isOrder ▸ spread.once
    obtain ⟨-, tail, apart⟩ := List.nodup_append.mp once
    have absent : second ∉ front := fun inside => apart second inside second List.mem_cons_self rfl
    have absentBack : second ∉ back := (List.nodup_cons.mp tail).1
    have same : front = other := ((List.append_cons_inj_of_notMem absent absentBack).mp (isOrder.symm.trans isOther)).1
    exact same ▸ member
  · exact fun member => ⟨front, back, isOrder, member⟩

/-- What is marked before the first rounds, and before the turns of the groups that follow in this one. -/
def reached (spread : Spread Node Group) (count : Nat) (front : List Group) : Set Node :=
  {node | node ∈ spread.given ∨ ∃ fallen, spread.Falls fallen node ∧ (fallen < count ∨ fallen = count ∧ spread.group node ∈ front)}

theorem group_of_falls {count : Nat} {node : Node} (falls : spread.Falls count node) : spread.group node ∈ spread.order := by
  cases falls with
  | root inside => exact inside
  | given inside => exact inside
  | earlier _ _ before => exact before_mem before
  | later _ _ inside => exact inside

theorem mem_reached_iff {count : Nat} {front back : List Group} {node read : Node} (isOrder : spread.order = front ++ spread.group node :: back) :
    read ∈ reached spread count front ↔ spread.MarkedBefore count node read := by
  unfold MarkedBefore
  rw [before_iff isOrder]
  exact Iff.rfl

theorem turn_reached {count : Nat} {front back : List Group} {group : Group} (isOrder : spread.order = front ++ group :: back) :
    spread.turn (reached spread count front) group = reached spread count (front ++ [group]) := by
  have inOrder : group ∈ spread.order := isOrder ▸ List.mem_append_right front List.mem_cons_self
  ext node
  constructor
  · rintro (marked | ⟨ofGroup, falls⟩)
    · rcases marked with given | ⟨fallen, falls, earlier | ⟨now, inFront⟩⟩
      · exact .inl given
      · exact .inr ⟨fallen, falls, .inl earlier⟩
      · exact .inr ⟨fallen, falls, .inr ⟨now, List.mem_append_left _ inFront⟩⟩
    · have inside : spread.group node ∈ spread.order := ofGroup ▸ inOrder
      have inTurn : spread.group node ∈ front ++ [group] := List.mem_append_right _ (List.mem_singleton.mpr ofGroup)
      have within : ∀ fallen ≤ count, spread.Falls fallen node → node ∈ reached spread count (front ++ [group]) := by
        intro fallen bound falls
        rcases Nat.lt_or_eq_of_le bound with earlier | now
        · exact .inr ⟨fallen, falls, .inl earlier⟩
        · exact .inr ⟨fallen, falls, .inr ⟨now, inTurn⟩⟩
      rcases falls with isRoot | ⟨read, reads, given | ⟨fallen, falls, earlier | ⟨now, inFront⟩⟩⟩
      · exact within 0 (Nat.zero_le _) (.root inside isRoot)
      · exact within 0 (Nat.zero_le _) (.given inside reads given)
      · exact within (fallen + 1) earlier (.later falls reads inside)
      · exact within fallen now.le (.earlier falls reads (ofGroup ▸ (before_iff isOrder).mpr inFront))
  · rintro (given | ⟨fallen, falls, bound⟩)
    · exact .inl (.inl given)
    by_cases ofGroup : spread.group node = group
    · refine .inr ⟨ofGroup, ?_⟩
      have bounded : fallen ≤ count := bound.elim le_of_lt fun now => now.1.le
      cases falls with
      | root _ isRoot => exact .inl isRoot
      | given _ reads given => exact .inr ⟨_, reads, .inl given⟩
      | earlier falls reads before =>
        have inFront := (before_iff isOrder).mp (ofGroup ▸ before)
        rcases Nat.lt_or_eq_of_le bounded with earlier | now
        · exact .inr ⟨_, reads, .inr ⟨_, falls, .inl earlier⟩⟩
        · exact .inr ⟨_, reads, .inr ⟨_, falls, .inr ⟨now, inFront⟩⟩⟩
      | later falls reads => exact .inr ⟨_, reads, .inr ⟨_, falls, .inl bounded⟩⟩
    · refine .inl (.inr ⟨fallen, falls, bound.imp_right fun now => ⟨now.1, ?_⟩⟩)
      exact (List.mem_append.mp now.2).resolve_right fun last => ofGroup (List.mem_singleton.mp last)

theorem least_of_turn {count : Nat} {front back : List Group} {node : Node} (isOrder : spread.order = front ++ spread.group node :: back)
    (unmarked : node ∉ reached spread count front) (marked : node ∈ spread.turn (reached spread count front) (spread.group node)) :
    IsLeast {fallen | spread.Falls fallen node} count := by
  have bound : count ∈ lowerBounds {fallen | spread.Falls fallen node} := by
    intro early falls
    by_contra earlier
    exact unmarked (.inr ⟨early, falls, .inl (Nat.lt_of_not_le earlier)⟩)
  rw [turn_reached isOrder] at marked
  rcases marked with given | ⟨fallen, falls, earlier | ⟨now, -⟩⟩
  · exact absurd (.inl given) unmarked
  · exact absurd (bound falls) (Nat.not_le_of_lt earlier)
  · exact ⟨now ▸ falls, bound⟩

theorem fold_reached {count : Nat} : ∀ {back front : List Group}, spread.order = front ++ back →
    back.foldl spread.turn (reached spread count front) = reached spread count spread.order
  | [], front, isOrder => by rw [isOrder, List.append_nil, List.foldl_nil]
  | group :: back, front, isOrder => by
    have rest : spread.order = (front ++ [group]) ++ back := by rw [isOrder, List.append_assoc]; rfl
    rw [List.foldl_cons, turn_reached isOrder, fold_reached rest]

theorem reached_order {count : Nat} : reached spread count spread.order = reached spread (count + 1) [] := by
  ext node
  constructor
  · rintro (given | ⟨fallen, falls, bound⟩)
    · exact .inl given
    · exact .inr ⟨fallen, falls, .inl (Nat.lt_succ_of_le (bound.elim le_of_lt fun now => now.1.le))⟩
  · rintro (given | ⟨fallen, falls, earlier | ⟨-, nowhere⟩⟩)
    · exact .inl given
    · have inside := group_of_falls falls
      exact .inr ⟨fallen, falls, (Nat.lt_or_eq_of_le (Nat.le_of_lt_succ earlier)).imp_right fun now => ⟨now, inside⟩⟩
    · cases nowhere

theorem rounds_reached (spread : Spread Node Group) (count : Nat) : spread.round^[count] spread.given = reached spread count [] := by
  induction count with
  | zero =>
    ext node
    constructor
    · exact Or.inl
    · rintro (given | ⟨fallen, -, early | ⟨-, nowhere⟩⟩)
      · exact given
      · cases early
      · cases nowhere
  | succ count ih =>
    rw [Function.iterate_succ_apply', ih, ← reached_order]
    exact fold_reached rfl

theorem mem_rounds {count : Nat} {node : Node} :
    node ∈ spread.round^[count] spread.given ↔ node ∈ spread.given ∨ ∃ fallen < count, spread.Falls fallen node := by
  rw [rounds_reached]
  constructor
  · rintro (given | ⟨fallen, falls, early | ⟨-, nowhere⟩⟩)
    · exact .inl given
    · exact .inr ⟨fallen, early, falls⟩
    · cases nowhere
  · rintro (given | ⟨fallen, early, falls⟩)
    · exact .inl given
    · exact .inr ⟨fallen, falls, .inl early⟩

theorem closed_iff {count : Nat} : spread.Closed (spread.round^[count] spread.given) ↔
    ∀ fallen node, spread.Falls fallen node → node ∈ spread.given ∨ ∃ early < count, spread.Falls early node := by
  constructor
  · intro closed fallen node falls
    refine mem_rounds.mp ?_
    induction falls with
    | root inside isRoot => exact closed _ inside (.inl isRoot)
    | given inside reads given => exact closed _ inside (.inr ⟨_, reads, mem_rounds.mpr (.inl given)⟩)
    | earlier _ reads before ih => exact closed _ (before_mem before) (.inr ⟨_, reads, ih⟩)
    | later _ reads inside ih => exact closed _ inside (.inr ⟨_, reads, ih⟩)
  · intro early node inside falls
    refine mem_rounds.mpr ?_
    rcases falls with isRoot | ⟨read, reads, marked⟩
    · exact early 0 node (.root inside isRoot)
    · rcases mem_rounds.mp marked with given | ⟨fallen, -, falls⟩
      · exact early 0 node (.given inside reads given)
      · exact early (fallen + 1) node (.later falls reads inside)

end Spread

end OpenShapeForge.Library.Propagation
