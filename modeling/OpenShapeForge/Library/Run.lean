import Mathlib.Data.List.Induction

/-! Runs of a system that takes one labelled step after another, and the rules by
which what each step keeps holds all along them. -/

namespace OpenShapeForge.Library

inductive Run {State Label : Type} (step : State → Label → State → Prop) (start : State) : List Label → State → Prop
  | start : Run step start [] start
  | step {past state label next} :
      Run step start past state → step state label next → Run step start (past ++ [label]) next

def guarded {State Label : Type} (guard : State → Label → Prop) (step : State → Label → State → Prop) : State → Label → State → Prop :=
  fun state label next => guard state label ∧ step state label next

namespace Run
variable {State Label : Type} {step : State → Label → State → Prop} {start final : State} {labels : List Label}

theorem invariant (holds : State → Prop) (first : holds start)
    (kept : ∀ {state label next}, holds state → step state label next → holds next) (run : Run step start labels final) :
    holds final := by
  induction run with
  | start => exact first
  | step _ taken ih => exact kept ih taken

theorem history (holds : List Label → State → Prop) (first : holds [] start)
    (kept : ∀ {past state label next}, Run step start past state → holds past state → step state label next →
      holds (past ++ [label]) next) (run : Run step start labels final) : holds labels final := by
  induction run with
  | start => exact first
  | step before taken ih => exact kept before ih taken

/-- Runs of steps are runs of any that allow more. -/
theorem mono {wider : State → Label → State → Prop} (allows : ∀ {state label next}, step state label next → wider state label next)
    (run : Run step start labels final) : Run wider start labels final := by
  induction run with
  | start => exact .start
  | step _ taken ih => exact .step ih (allows taken)

theorem refine {wider : State → Label → State → Prop}
    (allows : ∀ {past state label next}, Run step start past state → step state label next → wider state label next)
    (run : Run step start labels final) : Run wider start labels final := by
  induction run with
  | start => exact .start
  | step before taken ih => exact .step ih (allows before taken)

/-- What maps each step to a step maps a run to a run. -/
theorem map {Other : Type} {wider : Other → Label → Other → Prop} (f : State → Other)
    (each : ∀ {state label next}, step state label next → wider (f state) label (f next)) (run : Run step start labels final) :
    Run wider (f start) labels (f final) := by
  induction run with
  | start => exact .start
  | step _ taken ih => exact .step ih (each taken)

theorem append {middle : State} {later : List Label} (run : Run step start labels middle) (rest : Run step middle later final) :
    Run step start (labels ++ later) final := by
  induction rest with
  | start =>
    rw [List.append_nil]
    exact run
  | step _ taken ih =>
    rw [← List.append_assoc]
    exact .step ih taken

theorem cons {label : Label} {next : State} (taken : step start label next) (rest : Run step next labels final) :
    Run step start (label :: labels) final :=
  (Run.step Run.start taken).append rest

/-- A run passes through a state between any two parts of its labels. -/
theorem split {whole : List Label} (run : Run step start whole final) : ∀ (front back : List Label), whole = front ++ back →
    ∃ middle, Run step start front middle ∧ Run step middle back final := by
  induction run with
  | start =>
    intro front back same
    rcases List.append_eq_nil_iff.mp same.symm with ⟨rfl, rfl⟩
    exact ⟨start, .start, .start⟩
  | @step past state label next before taken ih =>
    intro front back same
    rcases List.eq_nil_or_concat back with rfl | ⟨init, last, rfl⟩
    · rw [List.append_nil] at same
      exact ⟨next, same ▸ .step before taken, .start⟩
    · rw [List.concat_eq_append, ← List.append_assoc] at same
      rcases List.append_inj' same rfl with ⟨inFront, isLast⟩
      rcases ih front init inFront with ⟨middle, first, rest⟩
      refine ⟨middle, first, ?_⟩
      rw [List.concat_eq_append, ← (List.cons.inj isLast).1]
      exact .step rest taken

theorem last_step {past : List Label} {label : Label} (run : Run step start (past ++ [label]) final) :
    ∃ state, Run step start past state ∧ step state label final := by
  generalize same : past ++ [label] = labels at run
  cases run with
  | start => exact absurd same (by simp)
  | @step before state last _ earlier taken =>
    rcases List.append_inj' same rfl with ⟨rfl, isLast⟩
    rw [(List.cons.inj isLast).1]
    exact ⟨state, earlier, taken⟩

theorem of_nil (run : Run step start [] final) : final = start := by
  generalize nothing : ([] : List Label) = labels at run
  cases run with
  | start => rfl
  | step => exact absurd nothing (by simp)

theorem of_single {label : Label} (run : Run step start [label] final) : step start label final := by
  have whole : Run step start ([] ++ [label]) final := run
  obtain ⟨state, before, taken⟩ := whole.last_step
  exact before.of_nil ▸ taken

theorem step_at {front back : List Label} {label : Label} (run : Run step start (front ++ label :: back) final) :
    ∃ state next, Run step start front state ∧ step state label next ∧ Run step next back final := by
  rcases run.split (front ++ [label]) back (by rw [List.append_assoc]; rfl) with ⟨next, before, after⟩
  rcases before.last_step with ⟨state, earlier, taken⟩
  exact ⟨state, next, earlier, taken, after⟩

end Run

section Marks
variable {Label Mark : Type} {mark : Label → Option Mark}

theorem mem_marks {labels : List Label} {label : Label} {found : Mark} (member : label ∈ labels)
    (marked : mark label = some found) : found ∈ labels.filterMap mark :=
  List.mem_filterMap.mpr ⟨label, member, marked⟩

theorem mark_once {found : Mark} : ∀ {front other : List Label} {label second : Label} {back rest : List Label},
    ((front ++ label :: back).filterMap mark).Nodup → front ++ label :: back = other ++ second :: rest →
    mark label = some found → mark second = some found → front = other ∧ label = second ∧ back = rest
  | [], [], label, second, back, rest, _, same, _, _ => by
    rcases List.cons.inj same with ⟨rfl, rfl⟩
    exact ⟨rfl, rfl, rfl⟩
  | [], first :: other, label, second, back, rest, once, same, marked, alsoMarked => by
    rcases List.cons.inj same with ⟨rfl, rfl⟩
    rw [List.nil_append, List.filterMap_cons_some marked] at once
    exact absurd (mem_marks (List.mem_append_right other List.mem_cons_self) alsoMarked) (List.nodup_cons.mp once).1
  | first :: front, [], label, second, back, rest, once, same, marked, alsoMarked => by
    rcases List.cons.inj same with ⟨rfl, rfl⟩
    rw [List.cons_append, List.filterMap_cons_some alsoMarked] at once
    exact absurd (mem_marks (List.mem_append_right front List.mem_cons_self) marked) (List.nodup_cons.mp once).1
  | first :: front, again :: other, label, second, back, rest, once, same, marked, alsoMarked => by
    rcases List.cons.inj same with ⟨rfl, sameRest⟩
    have onceRest : ((front ++ label :: back).filterMap mark).Nodup :=
      once.sublist ((List.sublist_cons_self first _).filterMap mark)
    rcases mark_once onceRest sameRest marked alsoMarked with ⟨rfl, isLabel, isBack⟩
    exact ⟨rfl, isLabel, isBack⟩

end Marks

end OpenShapeForge.Library
