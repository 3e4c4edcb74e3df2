import Mathlib.Data.List.Nodup
import Mathlib.Logic.Relation

/-! Which of two items of a list stands before the other. -/

namespace OpenShapeForge.Library

variable {V : Type} {order : List V} {first second third : V}

def Before (order : List V) (first second : V) : Prop := [first, second].Sublist order

theorem Before.mono {longer : List V} (before : Before order first second) (within : order.Sublist longer) : Before longer first second :=
  List.Sublist.trans before within

theorem before_append {front back : List V} (inFront : first ∈ front) (inBack : second ∈ back) : Before (front ++ back) first second :=
  (List.singleton_sublist.mpr inFront).append (List.singleton_sublist.mpr inBack)

theorem before_cons {rest : List V} (member : second ∈ rest) : Before (first :: rest) first second :=
  List.Sublist.cons_cons first (List.singleton_sublist.mpr member)

theorem before_cons_iff {node : V} {rest : List V} (nodup : (node :: rest).Nodup) :
    Before (node :: rest) first second ↔ first = node ∧ second ∈ rest ∨ Before rest first second := by
  unfold Before
  constructor
  · intro before
    cases before with
    | cons _ later => exact .inr later
    | cons_cons _ here => exact .inl ⟨rfl, List.singleton_sublist.mp here⟩
  · rintro (⟨rfl, member⟩ | later)
    · exact before_cons member
    · exact later.cons _

theorem Before.mem (before : Before order first second) : first ∈ order ∧ second ∈ order :=
  ⟨List.Sublist.subset before List.mem_cons_self, List.Sublist.subset before (List.mem_cons_of_mem _ List.mem_cons_self)⟩

theorem Before.irrefl (nodup : order.Nodup) : ¬ Before order first first := by
  intro before
  have twice : [first, first].Nodup := nodup.sublist before
  exact (List.nodup_cons.mp twice).1 List.mem_cons_self

theorem Before.trans (nodup : order.Nodup) (one : Before order first second) (two : Before order second third) :
    Before order first third := by
  induction order with
  | nil => cases one
  | cons node rest ih =>
    have apart := List.nodup_cons.mp nodup
    rcases (before_cons_iff nodup).mp two with ⟨rfl, member⟩ | later
    · rcases (before_cons_iff nodup).mp one with ⟨rfl, never⟩ | never
      · exact absurd never apart.1
      · exact absurd never.mem.2 apart.1
    · rcases (before_cons_iff nodup).mp one with ⟨rfl, _⟩ | earlier
      · exact before_cons later.mem.2
      · exact (before_cons_iff nodup).mpr (.inr (ih apart.2 earlier later))

theorem Before.asymm (nodup : order.Nodup) (one : Before order first second) : ¬ Before order second first :=
  fun two => Before.irrefl nodup (one.trans nodup two)

theorem before_total (inOne : first ∈ order) (inTwo : second ∈ order) (different : first ≠ second) : Before order first second ∨ Before order second first := by
  induction order with
  | nil => exact absurd inOne List.not_mem_nil
  | cons head rest ih =>
    rcases List.mem_cons.mp inOne with rfl | one
    · exact .inl (before_cons ((List.mem_cons.mp inTwo).resolve_left fun same => different same.symm))
    · rcases List.mem_cons.mp inTwo with rfl | two
      · exact .inr (before_cons one)
      · exact (ih one two).imp (fun before => before.cons _) fun before => before.cons _

theorem before_split (front back : List V) (inFront : first ∈ front) : Before (front ++ second :: back) first second :=
  before_append inFront List.mem_cons_self

theorem Before.in_front {front back : List V} (before : Before (front ++ second :: back) first second) (nodup : (front ++ second :: back).Nodup) :
    first ∈ front := by
  rcases List.mem_append.mp before.mem.1 with member | member
  · exact member
  · rcases List.mem_cons.mp member with rfl | later
    · exact absurd before (Before.irrefl nodup)
    · have after : Before (front ++ second :: back) second first := (before_cons later).mono (List.sublist_append_right _ _)
      exact absurd after (before.asymm nodup)

theorem Before.of_path (nodup : order.Nodup) {relation : V → V → Prop} (each : ∀ {one two}, relation one two → Before order one two)
    (path : Relation.TransGen relation first second) : Before order first second := by
  induction path with
  | single step => exact each step
  | tail _ step ih => exact ih.trans nodup (each step)

theorem splits_ordered {front front' back back' : List V} {item item' : V} (split : front ++ item :: back = front' ++ item' :: back') :
    front = front' ∧ item = item' ∧ back = back' ∨ (∃ between, front' = front ++ item :: between ∧ back = between ++ item' :: back') ∨
      ∃ between, front = front' ++ item' :: between ∧ back' = between ++ item :: back := by
  rcases List.append_eq_append_iff.mp split with ⟨rest, isFront, isBack⟩ | ⟨rest, isFront, isBack⟩
  · cases rest with
    | nil =>
      obtain ⟨isItem, isRest⟩ := List.cons.inj isBack
      exact .inl ⟨(isFront.trans (List.append_nil _)).symm, isItem, isRest⟩
    | cons head rest =>
      obtain ⟨isItem, isRest⟩ := List.cons.inj isBack
      exact .inr (.inl ⟨rest, isItem ▸ isFront, isRest⟩)
  · cases rest with
    | nil =>
      obtain ⟨isItem, isRest⟩ := List.cons.inj isBack
      exact .inl ⟨isFront.trans (List.append_nil _), isItem.symm, isRest.symm⟩
    | cons head rest =>
      obtain ⟨isItem, isRest⟩ := List.cons.inj isBack
      exact .inr (.inr ⟨rest, isItem ▸ isFront, isRest⟩)

end OpenShapeForge.Library
