import Mathlib.Control.Lawful
import Mathlib.Data.List.Perm.Subperm

/-! Computations that act on a state and may fail: what an outcome says of their
parts, which invariants they keep, and when two of them agree. -/

namespace OpenShapeForge.Library.Failing

variable {σ τ ε α β : Type}

section Attempts

theorem attempt_bind_ok {first : Except ε α} {next : α → Except ε β} {result : β} :
    (first >>= next) = .ok result ↔ ∃ value, first = .ok value ∧ next value = .ok result := by
  cases first with
  | error reason => exact ⟨(nomatch ·), fun ⟨_, ok, _⟩ => nomatch ok⟩
  | ok value => exact ⟨fun ok => ⟨value, rfl, ok⟩, fun ⟨_, same, ok⟩ => by cases same; exact ok⟩

theorem attempt_map_ok {attempt : Except ε α} {f : α → β} {result : β} :
    attempt.map f = .ok result ↔ ∃ value, attempt = .ok value ∧ f value = result := by
  cases attempt with
  | error reason => exact ⟨(nomatch ·), fun ⟨_, ok, _⟩ => nomatch ok⟩
  | ok value => exact ⟨fun ok => ⟨value, rfl, Except.ok.inj ok⟩, fun ⟨_, same, ok⟩ => by cases same; exact congrArg _ ok⟩

theorem exists_of_isOk {attempt : Except ε α} (isOk : attempt.isOk = true) : ∃ value, attempt = .ok value := by
  cases attempt with
  | error reason => exact nomatch isOk
  | ok value => exact ⟨value, rfl⟩

theorem mem_attempts {step : α → Except ε β} : ∀ {items : List α} {results : List β}, items.mapM step = .ok results →
    ∀ result ∈ results, ∃ item ∈ items, step item = .ok result
  | [], results, ok, result, member => by
    rw [List.mapM_nil] at ok
    obtain rfl := Except.ok.inj ok
    exact absurd member List.not_mem_nil
  | item :: rest, results, ok, result, member => by
    rw [List.mapM_cons, attempt_bind_ok] at ok
    obtain ⟨value, here, ok⟩ := ok
    rw [attempt_bind_ok] at ok
    obtain ⟨values, later, same⟩ := ok
    obtain rfl := Except.ok.inj same
    rcases List.mem_cons.mp member with rfl | inRest
    · exact ⟨item, List.mem_cons_self, here⟩
    · obtain ⟨other, among, gave⟩ := mem_attempts later result inRest
      exact ⟨other, List.mem_cons_of_mem _ among, gave⟩

theorem forall₂_attempts {step : α → Except ε β} : ∀ {items : List α} {results : List β}, items.mapM step = .ok results →
    List.Forall₂ (fun item result => step item = .ok result) items results
  | [], results, ok => by
    rw [List.mapM_nil] at ok
    obtain rfl := Except.ok.inj ok
    exact .nil
  | item :: rest, results, ok => by
    rw [List.mapM_cons, attempt_bind_ok] at ok
    obtain ⟨value, here, ok⟩ := ok
    rw [attempt_bind_ok] at ok
    obtain ⟨values, later, same⟩ := ok
    obtain rfl := Except.ok.inj same
    exact .cons here (forall₂_attempts later)

theorem forM_ok {check : α → Except ε Unit} : ∀ {items : List α}, items.forM check = .ok () → ∀ item ∈ items, check item = .ok ()
  | [], _, _, member => absurd member List.not_mem_nil
  | first :: rest, ok, item, member => by
    change (check first >>= fun _ => rest.forM check) = .ok () at ok
    obtain ⟨⟨⟩, here, later⟩ := attempt_bind_ok.mp ok
    rcases List.mem_cons.mp member with same | inRest
    · rw [same]
      exact here
    · exact forM_ok later item inRest

theorem foldlM_keeps {step : σ → α → Except ε σ} (view : σ → β) : ∀ {items : List α} {start final : σ},
    (∀ item ∈ items, ∀ {before after}, step before item = .ok after → view after = view before) →
    items.foldlM step start = .ok final → view final = view start
  | [], start, final, _, ok => congrArg view (Except.ok.inj ok).symm
  | item :: rest, start, final, keeps, ok => by
    rw [List.foldlM_cons, attempt_bind_ok] at ok
    obtain ⟨middle, here, later⟩ := ok
    have afterHere := keeps item List.mem_cons_self here
    have afterRest := foldlM_keeps view (fun other member => keeps other (List.mem_cons_of_mem _ member)) later
    exact afterRest.trans afterHere

theorem foldlM_focus {κ : Type} {step : σ → α → Except ε σ} (view : σ → β) {key : α → κ} {item : α} :
    ∀ {items : List α} {start final : σ}, item ∈ items → (items.map key).Nodup →
      (∀ other ∈ items, key other ≠ key item → ∀ {before after}, step before other = .ok after → view after = view before) →
      items.foldlM step start = .ok final →
      ∃ before after, view before = view start ∧ step before item = .ok after ∧ view final = view after
  | [], _, _, member, _, _, _ => absurd member List.not_mem_nil
  | first :: rest, start, final, member, nodup, keeps, ok => by
    rw [List.foldlM_cons, attempt_bind_ok] at ok
    obtain ⟨middle, here, later⟩ := ok
    have apart := List.nodup_cons.mp nodup
    rcases List.mem_cons.mp member with same | inRest
    · subst same
      have afterRest : view final = view middle := by
        apply foldlM_keeps view _ later
        intro other inRest before after taken
        have different : key other ≠ key item := fun same => apart.1 (same ▸ List.mem_map_of_mem inRest)
        exact keeps other (List.mem_cons_of_mem _ inRest) different taken
      exact ⟨start, middle, rfl, here, afterRest⟩
    · have different : key first ≠ key item := fun same => apart.1 (same ▸ List.mem_map_of_mem inRest)
      have afterHere := keeps first List.mem_cons_self different here
      obtain ⟨before, after, same, taken, ends⟩ := foldlM_focus view inRest apart.2
        (fun other among => keeps other (List.mem_cons_of_mem _ among)) later
      exact ⟨before, after, same.trans afterHere, taken, ends⟩

end Attempts

end OpenShapeForge.Library.Failing
