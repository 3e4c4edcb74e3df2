import Mathlib.Data.List.Perm.Basic
import Mathlib.Data.List.Flatten
import OpenShapeForge.Library.OrderedMap
import OpenShapeForge.Library.Precedence

/-! The items of a list taken group by group, each group in the order of the list. -/

namespace OpenShapeForge.Library

variable {α κ : Type} [DecidableEq κ]

def grouped (keys : List κ) (key : α → κ) (items : List α) : List α :=
  keys.flatMap fun group => items.filter fun item => key item = group

theorem grouped_cons (group : κ) (keys : List κ) (key : α → κ) (items : List α) :
    grouped (group :: keys) key items = (items.filter fun item => key item = group) ++ grouped keys key items :=
  List.flatMap_cons

theorem grouped_without {keys : List κ} {group : κ} (absent : group ∉ keys) (key : α → κ) (items : List α) :
    grouped keys key (items.filter fun item => key item ≠ group) = grouped keys key items := by
  unfold grouped
  refine List.flatMap_congr fun other member => ?_
  rw [List.filter_filter]
  refine List.filter_congr fun item _ => ?_
  by_cases same : key item = other
  · have different : key item ≠ group := fun isGroup => absent (isGroup ▸ same ▸ member)
    simp [same, same ▸ different]
  · simp [same]

theorem grouped_perm (key : α → κ) : ∀ {keys : List κ} {items : List α}, keys.Nodup → (∀ item ∈ items, key item ∈ keys) →
    (grouped keys key items).Perm items
  | [], items, _, covered => by
    rw [List.eq_nil_iff_forall_not_mem.mpr fun item member => absurd (covered item member) List.not_mem_nil]
    exact .nil
  | group :: keys, items, nodup, covered => by
    have apart := List.nodup_cons.mp nodup
    have rest : (grouped keys key (items.filter fun item => key item ≠ group)).Perm (items.filter fun item => key item ≠ group) := by
      refine grouped_perm key apart.2 fun item member => ?_
      obtain ⟨inItems, different⟩ := List.mem_filter.mp member
      exact (List.mem_cons.mp (covered item inItems)).resolve_left (of_decide_eq_true different)
    rw [grouped_cons, ← grouped_without apart.1]
    refine (rest.append_left _).trans ?_
    have both := List.filter_append_perm (fun item => decide (key item = group)) items
    simpa using both

theorem mem_grouped {keys : List κ} {key : α → κ} {items : List α} {item : α} :
    item ∈ grouped keys key items ↔ item ∈ items ∧ key item ∈ keys := by
  unfold grouped
  simp only [List.mem_flatMap, List.mem_filter, decide_eq_true_eq]
  constructor
  · rintro ⟨group, listed, member, rfl⟩
    exact ⟨member, listed⟩
  · rintro ⟨member, listed⟩
    exact ⟨_, listed, member, rfl⟩

theorem grouped_group {keys : List κ} {group : κ} (key : α → κ) (items : List α) (nodup : keys.Nodup) (listed : group ∈ keys) :
    ((grouped keys key items).filter fun item => key item = group) = items.filter fun item => key item = group := by
  induction keys with
  | nil => exact absurd listed List.not_mem_nil
  | cons head keys ih =>
    have apart := List.nodup_cons.mp nodup
    rw [grouped_cons, List.filter_append]
    by_cases isHead : head = group
    · subst isHead
      have others : ((grouped keys key items).filter fun item => key item = head) = [] :=
        List.filter_eq_nil_iff.mpr fun item member same => apart.1 (of_decide_eq_true same ▸ (mem_grouped.mp member).2)
      rw [others, List.append_nil, List.filter_filter]
      exact List.filter_congr fun item _ => Bool.and_self _
    · have none : ((items.filter fun item => key item = head).filter fun item => key item = group) = [] :=
        List.filter_eq_nil_iff.mpr fun item member same =>
          isHead ((of_decide_eq_true (List.mem_filter.mp member).2).symm.trans (of_decide_eq_true same))
      rw [none, List.nil_append]
      exact ih apart.2 ((List.mem_cons.mp listed).resolve_left fun same => isHead same.symm)

section Order
variable {keys : List κ} {key : α → κ} {items : List α} {one two : α}

theorem grouped_stable (before : Before items one two) (same : key one = key two) (listed : key one ∈ keys) :
    Before (grouped keys key items) one two := by
  have inGroup : Before (items.filter fun item => key item = key one) one two := by
    have both : [one, two].filter (fun item => decide (key item = key one)) = [one, two] := List.filter_eq_self.mpr (by simp [same])
    have kept := List.Sublist.filter (fun item => decide (key item = key one)) before
    rw [both] at kept
    exact kept
  refine inGroup.mono ?_
  unfold grouped
  rw [List.flatMap_def]
  exact List.sublist_flatten_of_mem (List.mem_map_of_mem listed)

theorem grouped_apart (inOne : one ∈ items) (inTwo : two ∈ items) (before : Before keys (key one) (key two)) :
    Before (grouped keys key items) one two := by
  have groups : Before (grouped [key one, key two] key items) one two := by
    unfold grouped
    rw [List.flatMap_cons, List.flatMap_cons, List.flatMap_nil, List.append_nil]
    exact before_append (List.mem_filter.mpr ⟨inOne, decide_eq_true rfl⟩) (List.mem_filter.mpr ⟨inTwo, decide_eq_true rfl⟩)
  exact groups.mono (List.Sublist.flatMap before _)

end Order

def collect (key : α → κ) (items : List α) (map : OrderedMap κ (List α)) : OrderedMap κ (List α) :=
  items.foldl (fun map item => map.set (key item) ((map.get? (key item)).getD [] ++ [item])) map

theorem collect_get? (key : α → κ) : ∀ (items : List α) (map : OrderedMap κ (List α)) (group : κ),
    ((collect key items map).get? group).getD [] = (map.get? group).getD [] ++ items.filter fun item => key item = group
  | [], map, group => (List.append_nil _).symm
  | item :: rest, map, group => by
    unfold collect
    rw [List.foldl_cons]
    refine (collect_get? key rest _ group).trans ?_
    by_cases same : key item = group
    · rw [same, OrderedMap.get?_set_self, Option.getD_some, List.filter_cons_of_pos (by simpa using same), List.append_assoc, List.singleton_append]
    · rw [OrderedMap.get?_set_of_ne _ _ (Ne.symm same), List.filter_cons_of_neg (by simpa using same)]

theorem mem_collect_keys (key : α → κ) : ∀ (items : List α) (map : OrderedMap κ (List α)) (group : κ),
    group ∈ (collect key items map).keys ↔ group ∈ map.keys ∨ group ∈ items.map key
  | [], map, group => by
    rw [List.map_nil]
    exact (or_iff_left List.not_mem_nil).symm
  | item :: rest, map, group => by
    unfold collect
    rw [List.foldl_cons]
    refine (mem_collect_keys key rest _ group).trans ?_
    rw [OrderedMap.mem_keys_set, List.map_cons, List.mem_cons]
    tauto

theorem named_once {ν : Type} {name? : α → Option ν} {items : List α} (nodup : (items.filterMap name?).Nodup) {one two : α} (inOne : one ∈ items)
    (inTwo : two ∈ items) {name : ν} (isOne : name? one = some name) (isTwo : name? two = some name) : one = two := by
  induction items with
  | nil => exact absurd inOne List.not_mem_nil
  | cons head rest ih =>
    have named : ∀ item ∈ rest, name? item = some name → name ∈ rest.filterMap name? := fun item member is => List.mem_filterMap.mpr ⟨item, member, is⟩
    rcases List.mem_cons.mp inOne with rfl | laterOne
    · rcases List.mem_cons.mp inTwo with rfl | laterTwo
      · rfl
      · rw [List.filterMap_cons_some isOne] at nodup
        exact absurd (named two laterTwo isTwo) (List.nodup_cons.mp nodup).1
    · rcases List.mem_cons.mp inTwo with rfl | laterTwo
      · rw [List.filterMap_cons_some isTwo] at nodup
        exact absurd (named one laterOne isOne) (List.nodup_cons.mp nodup).1
      · exact ih (nodup.sublist ((List.sublist_cons_self head rest).filterMap name?)) laterOne laterTwo

end OpenShapeForge.Library
