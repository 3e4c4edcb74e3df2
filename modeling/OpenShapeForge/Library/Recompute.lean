import Mathlib.Data.List.Nodup

/-! Values that are computed from others, one after the other: after a change it is enough to compute those
again that the change affects. A state is looked at name by name. -/

namespace OpenShapeForge.Library.Recompute

variable {V σ O : Type}

def Watched (order : List V) (Reads : V → V → Prop) (name : V) : Prop := name ∈ order ∨ ∃ node ∈ order, Reads node name

structure Computes (order : List V) (Reads : V → V → Prop) (view : σ → V → O) (step : V → σ → σ) : Prop where
  beside : ∀ node ∈ order, ∀ name, Watched order Reads name → name ≠ node → ∀ state, view (step node state) name = view state name
  alike : ∀ node ∈ order, ∀ state other, (∀ read, Reads node read → view state read = view other read) →
    view (step node state) node = view (step node other) node

def Settled (order : List V) (view : σ → V → O) (step : V → σ → σ) (state : σ) : Prop := ∀ node ∈ order, view (step node state) node = view state node

def run (step : V → σ → σ) (nodes : List V) (state : σ) : σ := nodes.foldl (fun state node => step node state) state

variable {order : List V} {Reads : V → V → Prop} {view : σ → V → O} {step : V → σ → σ}

theorem Computes.run_beside (computes : Computes order Reads view step) {name : V} (watched : Watched order Reads name) :
    ∀ {nodes : List V}, nodes ⊆ order → name ∉ nodes → ∀ state, view (run step nodes state) name = view state name
  | [], _, _, _ => rfl
  | node :: rest, within, apart, state => by
    obtain ⟨inOrder, restWithin⟩ := List.cons_subset.mp within
    have later := computes.run_beside watched restWithin (List.not_mem_of_not_mem_cons apart) (step node state)
    exact later.trans (computes.beside node inOrder name watched (List.ne_of_not_mem_cons apart) state)

theorem Computes.run_settles (computes : Computes order Reads view step) (once : order.Nodup)
    (reads : order.Pairwise fun first second => ¬Reads first second) (alone : ∀ node ∈ order, ¬Reads node node) (state : σ) :
    Settled order view step (run step order state) := by
  suffices goes : ∀ (nodes : List V) (state : σ), nodes ⊆ order → nodes.Nodup → nodes.Pairwise (fun first second => ¬Reads first second) →
      ∀ node ∈ nodes, view (step node (run step nodes state)) node = view (run step nodes state) node from
    goes order state (List.Subset.refl _) once reads
  intro nodes
  induction nodes with
  | nil => exact fun _ _ _ _ _ member => absurd member List.not_mem_nil
  | cons first rest ih =>
    intro state within once reads node member
    obtain ⟨inOrder, restWithin⟩ := List.cons_subset.mp within
    obtain ⟨fresh, restOnce⟩ := List.nodup_cons.mp once
    obtain ⟨unread, restReads⟩ := List.pairwise_cons.mp reads
    rcases List.mem_cons.mp member with rfl | later
    · -- what the first one reads is neither itself nor computed after it
      have again := computes.alike node inOrder (run step rest (step node state)) state fun read isRead => by
        have watched : Watched order Reads read := .inr ⟨node, inOrder, isRead⟩
        have different : read ≠ node := fun isSelf => alone node inOrder (isSelf ▸ isRead)
        have notLater : read ∉ rest := fun later => unread read later isRead
        exact (computes.run_beside watched restWithin notLater _).trans (computes.beside node inOrder read watched different state)
      exact again.trans (computes.run_beside (.inl inOrder) restWithin fresh _).symm
    · exact ih (step first state) restWithin restOnce restReads node later

/-- Of names that were settled, it is enough to compute those again that are stale, where all that reads
something stale is stale as well. -/
theorem Computes.run_stale (computes : Computes order Reads view step) {stale : V → Bool} {before changed : σ}
    (settled : Settled order view step before) (kept : ∀ name, Watched order Reads name → stale name = false → view changed name = view before name)
    (follows : ∀ node ∈ order, ∀ read, Reads node read → stale read = true → stale node = true) :
    ∀ name, Watched order Reads name → view (run step (order.filter stale) changed) name = view (run step order changed) name := by
  suffices goes : ∀ (nodes : List V) (part whole : σ), nodes ⊆ order → (∀ name, Watched order Reads name → view part name = view whole name) →
      (∀ name, Watched order Reads name → stale name = false → view part name = view before name) →
      ∀ name, Watched order Reads name → view (run step (nodes.filter stale) part) name = view (run step nodes whole) name from
    goes order changed changed (List.Subset.refl _) (fun _ _ => rfl) kept
  intro nodes
  induction nodes with
  | nil => exact fun _ _ _ agree _ => agree
  | cons node rest ih =>
    intro part whole within agree unchanged
    obtain ⟨inOrder, restWithin⟩ := List.cons_subset.mp within
    have readsAgree : ∀ read, Reads node read → view part read = view whole read := fun read isRead => agree read (.inr ⟨node, inOrder, isRead⟩)
    cases isStale : stale node with
    | true =>
      rw [List.filter_cons_of_pos isStale]
      refine ih (step node part) (step node whole) restWithin (fun name watched => ?_) fun name watched fresh => ?_
      · by_cases isNode : name = node
        · rw [isNode]
          exact computes.alike node inOrder part whole readsAgree
        · rw [computes.beside node inOrder name watched isNode, computes.beside node inOrder name watched isNode, agree name watched]
      · have isNode : name ≠ node := fun isNode => by simp [isNode, isStale] at fresh
        rw [computes.beside node inOrder name watched isNode, unchanged name watched fresh]
    | false =>
      rw [List.filter_cons_of_neg (by simp [isStale])]
      refine ih part (step node whole) restWithin (fun name watched => ?_) unchanged
      by_cases isNode : name = node
      · -- what it reads is as it was when it was settled
        have fresh : ∀ read, Reads node read → stale read = false := by
          intro read isRead
          by_contra notFresh
          rw [follows node inOrder read isRead (eq_true_of_ne_false notFresh)] at isStale
          cases isStale
        rw [isNode] at watched ⊢
        calc view part node = view before node := unchanged node watched isStale
          _ = view (step node before) node := (settled node inOrder).symm
          _ = view (step node whole) node := computes.alike node inOrder before whole fun read isRead => by
            rw [← readsAgree read isRead, unchanged read (.inr ⟨node, inOrder, isRead⟩) (fresh read isRead)]
      · rw [computes.beside node inOrder name watched isNode, agree name watched]

end OpenShapeForge.Library.Recompute
