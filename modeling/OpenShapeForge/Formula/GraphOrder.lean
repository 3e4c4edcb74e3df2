import OpenShapeForge.Formula.GraphComponents

/-! The post-order walk over the nodes outside the cycles: every node lands after
the nodes it reads. -/

namespace OpenShapeForge.Formula.GraphOrder
open Digraph Graph GraphComponents
set_option linter.unusedSectionVars false

variable {κ : Type*} [DecidableEq κ] {edges : κ → List κ} {allowed : κ → Bool}

def ReadsFirst (succ : κ → List κ) (ordered : List κ) : Prop :=
  ∀ front key back, ordered = front ++ key :: back → ∀ read ∈ succ key, read ∈ front

/-- The walk while the calls in `active` are open. -/
structure Walking (edges : κ → List κ) (allowed : κ → Bool) (active : List κ) (walk : Visit κ) : Prop where
  visited_iff : ∀ x, x ∈ walk.visited ↔ x ∈ walk.ordered ∨ x ∈ active
  apart : ∀ x ∈ active, x ∉ walk.ordered
  nodup : walk.ordered.Nodup
  isAllowed : ∀ x ∈ walk.visited, allowed x = true
  readsFirst : ReadsFirst (followed edges allowed) walk.ordered

theorem ReadsFirst.append {succ : κ → List κ} {ordered : List κ} {key : κ} (first : ReadsFirst succ ordered)
    (reads : ∀ read ∈ succ key, read ∈ ordered) : ReadsFirst succ (ordered ++ [key]) := by
  intro front other back split read step
  rcases List.append_eq_append_iff.mp split with ⟨more, shorter, rest⟩ | ⟨more, longer, rest⟩
  · cases more with
    | nil =>
      simp only [List.nil_append, List.cons.injEq] at rest
      rw [shorter, List.append_nil]
      exact reads read (rest.1 ▸ step)
    | cons head tail =>
      have absurdTail := congrArg List.length rest
      simp at absurdTail
  · cases more with
    | nil =>
      simp only [List.nil_append, List.cons.injEq] at rest
      rw [longer, List.append_nil] at reads
      exact reads read (rest.1 ▸ step)
    | cons head tail =>
      simp only [List.cons_append, List.cons.injEq] at rest
      exact first front other tail (by rw [longer, rest.1]) read step

def unvisited (nodes : List κ) (walk : Visit κ) : Nat := nodes.countP fun x => decide (x ∉ walk.visited)

/-- A call for `key` leaves it ordered and keeps what was ordered before it. -/
structure Visited (edges : κ → List κ) (allowed : κ → Bool) (active : List κ) (key : κ) (before after : Visit κ) :
    Prop where
  walking : Walking edges allowed active after
  kept : ∀ x ∈ before.visited, x ∈ after.visited
  ordered : ∀ x ∈ before.ordered, x ∈ after.ordered
  landed : key ∈ after.ordered

theorem Walking.enter {active : List κ} {key : κ} {walk : Visit κ} (walking : Walking edges allowed active walk)
    (isAllowed : allowed key = true) (fresh : key ∉ walk.visited) :
    Walking edges allowed (key :: active) { walk with visited := key :: walk.visited } where
  visited_iff := by
    intro x
    rw [List.mem_cons, List.mem_cons, walking.visited_iff]
    tauto
  apart := by
    intro x member
    rcases List.mem_cons.mp member with same | older
    · intro ordered
      exact fresh ((walking.visited_iff key).mpr (.inl (same ▸ ordered)))
    · exact walking.apart x older
  nodup := walking.nodup
  isAllowed := by
    intro x member
    rcases List.mem_cons.mp member with same | older
    · exact same ▸ isAllowed
    · exact walking.isAllowed x older
  readsFirst := walking.readsFirst

theorem Walking.leave {active : List κ} {key : κ} {walk : Visit κ}
    (walking : Walking edges allowed (key :: active) walk) (notActive : key ∉ active)
    (reads : ∀ read ∈ followed edges allowed key, read ∈ walk.ordered) :
    Walking edges allowed active { walk with ordered := walk.ordered ++ [key] } where
  visited_iff := by
    intro x
    rw [walking.visited_iff, List.mem_append, List.mem_cons, List.mem_singleton]
    tauto
  apart := by
    intro x member ordered
    rcases List.mem_append.mp ordered with earlier | here
    · exact walking.apart x (List.mem_cons_of_mem _ member) earlier
    · exact notActive (List.mem_singleton.mp here ▸ member)
  nodup := by
    apply List.Nodup.append walking.nodup (List.nodup_singleton _)
    intro x ordered here
    exact walking.apart key List.mem_cons_self (List.mem_singleton.mp here ▸ ordered)
  isAllowed := walking.isAllowed
  readsFirst := walking.readsFirst.append reads

theorem visit_visited {nodes : List κ} (covers : ∀ x, allowed x = true → x ∈ nodes)
    (acyclic : ∀ x, allowed x = true → ¬OnCycle (followed edges allowed) x) (fuel : Nat) :
    ∀ (active : List κ) (key : κ) (before : Visit κ), Walking edges allowed active before → allowed key = true →
      (∀ x ∈ active, Relation.TransGen (Edge (followed edges allowed)) x key) → unvisited nodes before < fuel →
      Visited edges allowed active key before (visit edges allowed fuel key before) := by
  induction fuel with
  | zero =>
    intro active key before _ _ _ enough
    omega
  | succ fuel ih =>
    intro active key before walking isAllowed reached enough
    have notActive : key ∉ active := fun member => acyclic key isAllowed (reached key member)
    unfold visit
    by_cases known : key ∈ before.visited
    · rw [if_pos known]
      have landed := ((walking.visited_iff key).mp known).resolve_right notActive
      exact ⟨walking, fun _ member => member, fun _ member => member, landed⟩
    · rw [if_neg known]
      have scan : ∀ (reads : List κ) (current : Visit κ), (∀ read ∈ reads, read ∈ edges key) →
          Walking edges allowed (key :: active) current → unvisited nodes current < fuel →
          let after := reads.foldl (fun walk read => if allowed read then visit edges allowed fuel read walk else walk) current
          Walking edges allowed (key :: active) after ∧ (∀ x ∈ current.visited, x ∈ after.visited) ∧
            (∀ x ∈ current.ordered, x ∈ after.ordered) ∧ ∀ read ∈ reads, allowed read = true → read ∈ after.ordered := by
        intro reads
        induction reads with
        | nil =>
          intro current _ still _
          exact ⟨still, fun _ member => member, fun _ member => member, by simp⟩
        | cons read reads scanIh =>
          intro current all still bound
          have within : ∀ other ∈ reads, other ∈ edges key := fun other member => all other (List.mem_cons_of_mem _ member)
          simp only [List.foldl_cons]
          by_cases readAllowed : allowed read = true
          · rw [if_pos readAllowed]
            have edge : read ∈ followed edges allowed key := mem_followed.mpr ⟨all read List.mem_cons_self, readAllowed⟩
            have open_ : ∀ x ∈ key :: active, Relation.TransGen (Edge (followed edges allowed)) x read := by
              intro x member
              rcases List.mem_cons.mp member with same | older
              · exact same ▸ .single edge
              · exact (reached x older).tail edge
            have one := ih (key :: active) read current still readAllowed open_ bound
            have fewer : unvisited nodes (visit edges allowed fuel read current) ≤ unvisited nodes current := by
              apply List.countP_mono_left
              intro x _ left
              rw [decide_eq_true_eq] at left ⊢
              exact fun member => left (one.kept x member)
            obtain ⟨later, kept, ordered, rest⟩ := scanIh _ within one.walking (fewer.trans_lt bound)
            refine ⟨later, fun x member => kept x (one.kept x member), fun x member => ordered x (one.ordered x member), ?_⟩
            intro other member otherAllowed
            rcases List.mem_cons.mp member with same | older
            · exact same ▸ ordered read one.landed
            · exact rest other older otherAllowed
          · rw [if_neg readAllowed]
            obtain ⟨later, kept, ordered, rest⟩ := scanIh current within still bound
            refine ⟨later, kept, ordered, ?_⟩
            intro other member otherAllowed
            rcases List.mem_cons.mp member with same | older
            · exact absurd (same ▸ otherAllowed) readAllowed
            · exact rest other older otherAllowed
      have fewer : unvisited nodes { before with visited := key :: before.visited } < unvisited nodes before := by
        apply countP_lt _ (covers key isAllowed) (by simpa using known) (by simp)
        intro x _ left
        rw [decide_eq_true_eq] at left ⊢
        exact fun member => left (List.mem_cons_of_mem _ member)
      obtain ⟨later, kept, ordered, rest⟩ := scan (edges key) { before with visited := key :: before.visited }
        (fun _ member => member) (walking.enter isAllowed known) (by omega)
      refine ⟨later.leave notActive ?_, fun x member => kept x (List.mem_cons_of_mem _ member),
        fun x member => List.mem_append_left _ (ordered x member), by simp⟩
      intro read step
      exact rest read (mem_followed.mp step).1 (mem_followed.mp step).2

/-- Over an acyclic part of the graph the walk lists exactly the allowed keys, once
each, every one behind what it reads. -/
theorem visitAll_spec (keys : List κ) (covers : ∀ x, allowed x = true → x ∈ keys)
    (acyclic : ∀ x, allowed x = true → ¬OnCycle (followed edges allowed) x) :
    (visitAll edges allowed keys).Nodup ∧ (∀ x, x ∈ visitAll edges allowed keys ↔ allowed x = true) ∧
      ReadsFirst (followed edges allowed) (visitAll edges allowed keys) := by
  have walk : ∀ (rest : List κ) (current : Visit κ), Walking edges allowed [] current →
      let after := rest.foldl (fun walk key =>
        if allowed key then visit edges allowed (keys.length + 1) key walk else walk) current
      Walking edges allowed [] after ∧ (∀ x ∈ current.ordered, x ∈ after.ordered) ∧
        ∀ key ∈ rest, allowed key = true → key ∈ after.ordered := by
    intro rest
    induction rest with
    | nil =>
      intro current walking
      exact ⟨walking, fun _ member => member, by simp⟩
    | cons key rest ih =>
      intro current walking
      simp only [List.foldl_cons]
      by_cases keyAllowed : allowed key = true
      · rw [if_pos keyAllowed]
        have bound : unvisited keys current ≤ keys.length := List.countP_le_length
        have one := visit_visited covers acyclic (keys.length + 1) [] key current walking keyAllowed (by simp) (by omega)
        obtain ⟨later, ordered, all⟩ := ih _ one.walking
        refine ⟨later, fun x member => ordered x (one.ordered x member), ?_⟩
        intro other member otherAllowed
        rcases List.mem_cons.mp member with same | older
        · exact same ▸ ordered key one.landed
        · exact all other older otherAllowed
      · rw [if_neg keyAllowed]
        obtain ⟨later, ordered, all⟩ := ih current walking
        refine ⟨later, ordered, ?_⟩
        intro other member otherAllowed
        rcases List.mem_cons.mp member with same | older
        · exact absurd (same ▸ otherAllowed) keyAllowed
        · exact all other older otherAllowed
  have start : Walking edges allowed [] (⟨[], []⟩ : Visit κ) := by
    constructor <;> simp [ReadsFirst]
  obtain ⟨later, -, all⟩ := walk keys ⟨[], []⟩ start
  refine ⟨later.nodup, fun x => ⟨fun member => ?_, fun isAllowed => all x (covers x isAllowed) isAllowed⟩, later.readsFirst⟩
  exact later.isAllowed x ((later.visited_iff x).mpr (.inl member))

end OpenShapeForge.Formula.GraphOrder
