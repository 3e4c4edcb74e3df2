import Mathlib.Data.List.Dedup
import Mathlib.Data.List.Perm.Subperm

/-! Maps and sets that remember the order in which their keys were inserted, as
the `Map` and `Set` of ECMAScript do: writing an existing key keeps its place,
deleting and writing it again moves it to the end. -/

namespace OpenShapeForge.Library

variable {κ α : Type*} [DecidableEq κ]

/-- Entries in insertion order; no key occurs twice. -/
structure OrderedMap (κ α : Type*) where
  entries : List (κ × α)
  nodup : (entries.map Prod.fst).Nodup

namespace OrderedMap

def empty : OrderedMap κ α := ⟨[], by simp⟩

def keys (map : OrderedMap κ α) : List κ := map.entries.map Prod.fst

def get? (map : OrderedMap κ α) (key : κ) : Option α := (map.entries.find? (·.1 = key)).map Prod.snd

def has (map : OrderedMap κ α) (key : κ) : Bool := decide (key ∈ map.keys)

def delete (map : OrderedMap κ α) (key : κ) : OrderedMap κ α where
  entries := map.entries.filter (·.1 ≠ key)
  nodup := map.nodup.sublist (List.filter_sublist.map _)

theorem map_fst_update (entries : List (κ × α)) (key : κ) (value : α) :
    (entries.map fun entry => if entry.1 = key then (key, value) else entry).map Prod.fst =
      entries.map Prod.fst := by
  rw [List.map_map]
  apply List.map_congr_left
  intro entry _
  by_cases same : entry.1 = key <;> simp [same]

def set (map : OrderedMap κ α) (key : κ) (value : α) : OrderedMap κ α :=
  if present : key ∈ map.keys then
    ⟨map.entries.map fun entry => if entry.1 = key then (key, value) else entry, by
      rw [map_fst_update]
      exact map.nodup⟩
  else
    ⟨map.entries ++ [(key, value)], by
      rw [List.map_append, List.map_singleton]
      exact List.Nodup.append map.nodup (List.nodup_singleton _) (by simpa [keys] using present)⟩

omit [DecidableEq κ] in
theorem keys_nodup (map : OrderedMap κ α) : map.keys.Nodup := map.nodup

@[simp] theorem has_iff (map : OrderedMap κ α) (key : κ) : map.has key = true ↔ key ∈ map.keys := by
  simp [has]

@[simp] theorem keys_delete (map : OrderedMap κ α) (key : κ) :
    (map.delete key).keys = map.keys.filter (· ≠ key) := by
  simp only [keys, delete, List.filter_map]
  rfl

theorem keys_set (map : OrderedMap κ α) (key : κ) (value : α) :
    (map.set key value).keys = if key ∈ map.keys then map.keys else map.keys ++ [key] := by
  unfold set
  split
  · exact map_fst_update _ _ _
  · simp [keys]

@[simp] theorem mem_keys_set (map : OrderedMap κ α) (key other : κ) (value : α) :
    other ∈ (map.set key value).keys ↔ other = key ∨ other ∈ map.keys := by
  rw [keys_set]
  split
  · constructor
    · exact .inr
    · rintro (rfl | present) <;> assumption
  · simp [or_comm]

theorem find?_update_self (entries : List (κ × α)) (key : κ) (value : α) (present : key ∈ entries.map Prod.fst) :
    (entries.map fun entry => if entry.1 = key then (key, value) else entry).find? (·.1 = key) =
      some (key, value) := by
  induction entries with
  | nil => simp at present
  | cons entry rest ih =>
    by_cases same : entry.1 = key
    · simp [same]
    · have later : key ∈ rest.map Prod.fst := by
        rcases List.mem_cons.mp present with here | later
        · exact absurd here.symm same
        · exact later
      rw [List.map_cons, if_neg same, List.find?_cons_of_neg (by simpa using same)]
      exact ih later

theorem find?_update_of_ne (entries : List (κ × α)) {key other : κ} (value : α) (different : other ≠ key) :
    (entries.map fun entry => if entry.1 = key then (key, value) else entry).find? (·.1 = other) =
      entries.find? (·.1 = other) := by
  induction entries with
  | nil => rfl
  | cons entry rest ih =>
    by_cases same : entry.1 = key
    · have left : key ≠ other := different.symm
      simp [same, left, ih]
    · simp only [List.map_cons, if_neg same, List.find?_cons, ih]

@[simp] theorem get?_set_self (map : OrderedMap κ α) (key : κ) (value : α) :
    (map.set key value).get? key = some value := by
  unfold set get?
  split
  next present => simp only [find?_update_self _ _ _ present, Option.map_some]
  next absent =>
    have missing : map.entries.find? (·.1 = key) = none := by
      rw [List.find?_eq_none]
      intro entry member same
      exact absent (List.mem_map.mpr ⟨entry, member, of_decide_eq_true same⟩)
    simp [List.find?_append, missing]

theorem get?_set_of_ne (map : OrderedMap κ α) {key other : κ} (value : α) (different : other ≠ key) :
    (map.set key value).get? other = map.get? other := by
  unfold set get?
  split
  · simp only [find?_update_of_ne _ _ different]
  · simp [List.find?_append, different.symm]

theorem get?_delete_of_ne (map : OrderedMap κ α) {key other : κ} (different : other ≠ key) :
    (map.delete key).get? other = map.get? other := by
  unfold get? delete
  rw [List.find?_filter]
  congr 2
  funext entry
  by_cases same : entry.1 = other
  · simp [same, different]
  · simp [same]

theorem get?_delete_self (map : OrderedMap κ α) (key : κ) : (map.delete key).get? key = none := by
  unfold get? delete
  rw [List.find?_eq_none.mpr, Option.map_none]
  intro entry member
  have different := (List.mem_filter.mp member).2
  simpa using different

theorem mem_keys_iff_get? (map : OrderedMap κ α) (key : κ) : key ∈ map.keys ↔ ∃ value, map.get? key = some value := by
  constructor
  · intro present
    obtain ⟨entry, member, same⟩ := List.mem_map.mp present
    have found : (map.entries.find? (·.1 = key)).isSome := by
      rw [List.find?_isSome]
      exact ⟨entry, member, by simp [same]⟩
    obtain ⟨hit, eq⟩ := Option.isSome_iff_exists.mp found
    exact ⟨hit.2, by simp [get?, eq]⟩
  · rintro ⟨value, found⟩
    obtain ⟨entry, hit, -⟩ := Option.map_eq_some_iff.mp found
    exact List.mem_map.mpr ⟨entry, List.mem_of_find?_eq_some hit, by simpa using List.find?_some hit⟩

theorem get?_of_mem (map : OrderedMap κ α) {key : κ} {value : α} (member : (key, value) ∈ map.entries) :
    map.get? key = some value := by
  have unique := map.nodup
  revert unique member
  unfold get?
  induction map.entries with
  | nil => simp
  | cons entry rest ih =>
    intro member unique
    rw [List.map_cons, List.nodup_cons] at unique
    rcases List.mem_cons.mp member with rfl | later
    · simp
    · have different : entry.1 ≠ key := by
        rintro rfl
        exact unique.1 (List.mem_map.mpr ⟨_, later, rfl⟩)
      rw [List.find?_cons_of_neg (by simpa using different)]
      exact ih later unique.2

theorem mem_of_get? {map : OrderedMap κ α} {key : κ} {value : α} (found : map.get? key = some value) : (key, value) ∈ map.entries := by
  obtain ⟨entry, hit, rfl⟩ := Option.map_eq_some_iff.mp found
  have same : entry.1 = key := by simpa using List.find?_some hit
  exact same ▸ List.mem_of_find?_eq_some hit

/-- The entries that are kept. -/
def filter (keeps : κ → α → Bool) (map : OrderedMap κ α) : OrderedMap κ α where
  entries := map.entries.filter fun entry => keeps entry.1 entry.2
  nodup := map.nodup.sublist (List.filter_sublist.map _)

theorem get?_filter (keeps : κ → α → Bool) (map : OrderedMap κ α) (key : κ) :
    (map.filter keeps).get? key = (map.get? key).filter (keeps key) := by
  apply Option.ext
  intro value
  constructor
  · intro found
    obtain ⟨member, kept⟩ := List.mem_filter.mp (mem_of_get? found)
    exact Option.filter_eq_some_iff.mpr ⟨get?_of_mem map member, kept⟩
  · intro found
    obtain ⟨present, kept⟩ := Option.filter_eq_some_iff.mp found
    exact get?_of_mem _ (List.mem_filter.mpr ⟨mem_of_get? present, kept⟩)

def mapValues {β : Type*} (f : α → β) (map : OrderedMap κ α) : OrderedMap κ β where
  entries := map.entries.map fun entry => (entry.1, f entry.2)
  nodup := by
    rw [List.map_map]
    exact map.nodup

theorem get?_mapValues {β : Type*} (f : α → β) (map : OrderedMap κ α) (key : κ) : (map.mapValues f).get? key = (map.get? key).map f := by
  unfold get? mapValues
  rw [List.find?_map, Option.map_map, Option.map_map]
  rfl

/-- A list of entries written one after the other: of a key that is repeated, the last value counts. -/
def ofList (entries : List (κ × α)) : OrderedMap κ α := entries.foldl (fun map entry => map.set entry.1 entry.2) empty

theorem foldl_set_entries (entries : List (κ × α)) : ∀ map : OrderedMap κ α, ((map.entries ++ entries).map Prod.fst).Nodup →
    (entries.foldl (fun map entry => map.set entry.1 entry.2) map).entries = map.entries ++ entries := by
  induction entries with
  | nil =>
    intro map _
    exact (List.append_nil _).symm
  | cons entry rest ih =>
    intro map nodup
    have absent : entry.1 ∉ map.keys := by
      intro present
      rw [List.map_append, List.map_cons, List.nodup_append] at nodup
      exact nodup.2.2 entry.1 present entry.1 List.mem_cons_self rfl
    have appended : (map.set entry.1 entry.2).entries = map.entries ++ [entry] := by
      unfold set
      rw [dif_neg absent]
    have again := ih (map.set entry.1 entry.2)
    rw [appended, List.append_assoc] at again
    exact again nodup

omit [DecidableEq κ] in
theorem ext_entries {one two : OrderedMap κ α} (same : one.entries = two.entries) : one = two := by
  cases one
  cases two
  cases same
  rfl

theorem same_reads_iff {one two : OrderedMap κ α} :
    (one.keys.length = two.keys.length ∧ ∀ entry ∈ one.entries, two.get? entry.1 = some entry.2) ↔ ∀ key, one.get? key = two.get? key := by
  constructor
  · rintro ⟨size, holds⟩ key
    have found : ∀ value, one.get? key = some value → two.get? key = some value := fun value isValue => holds _ (mem_of_get? isValue)
    cases reads : one.get? key with
    | some value => exact (found value reads).symm
    | none =>
      by_contra present
      obtain ⟨value, isValue⟩ := Option.ne_none_iff_exists'.mp (Ne.symm present)
      have within : one.keys.Subperm two.keys := one.keys_nodup.subperm fun other member => by
        obtain ⟨entry, isEntry, same⟩ := List.mem_map.mp member
        exact (two.mem_keys_iff_get? other).mpr ⟨entry.2, same ▸ holds entry isEntry⟩
      have inTwo : key ∈ two.keys := (two.mem_keys_iff_get? key).mpr ⟨value, isValue⟩
      obtain ⟨other, isOther⟩ := (one.mem_keys_iff_get? key).mp ((within.perm_of_length_le (Nat.le_of_eq size.symm)).mem_iff.mpr inTwo)
      exact absurd (reads.symm.trans isOther) (by simp)
  · intro same
    have members : ∀ key, key ∈ one.keys ↔ key ∈ two.keys := fun key => by
      rw [mem_keys_iff_get?, mem_keys_iff_get?, same key]
    refine ⟨((List.perm_ext_iff_of_nodup one.keys_nodup two.keys_nodup).mpr members).length_eq, fun entry member => ?_⟩
    exact (same entry.1).symm.trans (get?_of_mem one member)

theorem set_of_get? {map : OrderedMap κ α} {key : κ} {value : α} (found : map.get? key = some value) : map.set key value = map := by
  have present : key ∈ map.keys := (map.mem_keys_iff_get? key).mpr ⟨value, found⟩
  unfold set
  rw [dif_pos present]
  apply ext_entries
  refine (List.map_congr_left fun entry member => ?_).trans (List.map_id _)
  change (if entry.1 = key then (key, value) else entry) = entry
  split
  next same =>
    have isValue : map.get? key = some entry.2 := get?_of_mem map (same ▸ member)
    rw [← same, ← Option.some.inj (isValue.symm.trans found)]
  next => rfl

theorem delete_of_absent {map : OrderedMap κ α} {key : κ} (absent : key ∉ map.keys) : map.delete key = map := by
  apply ext_entries
  refine List.filter_eq_self.mpr fun entry member => decide_eq_true fun same => absent ?_
  exact same ▸ List.mem_map_of_mem member

theorem ofList_entries (map : OrderedMap κ α) : ofList map.entries = map :=
  ext_entries (foldl_set_entries map.entries empty map.nodup)

end OrderedMap

/-- The members of a list in order of first appearance: `[...new Set(items)]`. -/
def distinct : List κ → List κ
  | [] => []
  | item :: rest => item :: (distinct rest).filter (· ≠ item)

@[simp] theorem mem_distinct (items : List κ) (item : κ) : item ∈ distinct items ↔ item ∈ items := by
  induction items with
  | nil => rfl
  | cons first rest ih =>
    by_cases same : item = first <;> simp [distinct, ih, same]

theorem distinct_nodup (items : List κ) : (distinct items).Nodup := by
  induction items with
  | nil => exact List.nodup_nil
  | cons first rest ih => exact List.nodup_cons.mpr ⟨by simp, ih.filter _⟩

end OpenShapeForge.Library
