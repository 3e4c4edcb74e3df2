import OpenShapeForge.Operations.BlueprintGraph

/-! A copy of a published graph is made of exactly the graphs that can be copied, whole and in order. -/

namespace OpenShapeForge.Operations.BlueprintGraph
open Js Library Relation

def BlueprintGraphRecord.name (record : BlueprintGraphRecord) : Text × Text := (record.entity, record.sourceId)

def BlueprintReference.name (reference : BlueprintReference) : Text × Text := (reference.entity, reference.sourceId)

def RefersTo (record : BlueprintGraphRecord) (reference : BlueprintReference) : Prop := some reference ∈ record.references.entries.map Prod.snd

def Needs (records : List BlueprintGraphRecord) (one two : Text × Text) : Prop :=
  ∃ record ∈ records, record.name = one ∧ ∃ reference, RefersTo record reference ∧ reference.name = two ∧ two ∈ records.map BlueprintGraphRecord.name

structure Acceptable (bound : BlueprintReference → Option Text) (records : List BlueprintGraphRecord) : Prop where
  size : records ≠ [] ∧ records.length ≤ 1000
  named : ∀ record ∈ records, record.entity ≠ [] ∧ record.sourceId ≠ []
  distinct : (records.map BlueprintGraphRecord.name).Nodup
  apart : ∀ record ∈ records, ∀ field ∈ record.references.keys, field ∉ record.values.keys
  acyclic : ∀ name, ¬ TransGen (Needs records) name name
  isBound : ∀ record ∈ records, ∀ reference, RefersTo record reference → reference.name ∉ records.map BlueprintGraphRecord.name →
    ∃ text, bound reference = some text ∧ trim text ≠ []

section Registration
variable {records : List BlueprintGraphRecord} {all result : OrderedMap Text BlueprintGraphRecord}

theorem key_name (record : BlueprintGraphRecord) (reference : BlueprintReference) : record.key = reference.key ↔ record.name = reference.name := by
  constructor
  · intro same
    obtain ⟨sameEntity, sameId⟩ := identity_inj same
    exact Prod.ext sameEntity sameId
  · intro same
    obtain ⟨sameEntity, sameId⟩ := Prod.mk.inj same
    exact congrArg₂ identity sameEntity sameId

theorem keys_nodup_iff : (records.map BlueprintGraphRecord.key).Nodup ↔ (records.map BlueprintGraphRecord.name).Nodup := by
  have same : records.map BlueprintGraphRecord.key = (records.map BlueprintGraphRecord.name).map fun name => identity name.1 name.2 := by
    rw [List.map_map]
    rfl
  rw [same]
  exact List.nodup_map_iff fun one two same => Prod.ext (identity_inj same).1 (identity_inj same).2

theorem register_ok {record : BlueprintGraphRecord} : register all record = .ok result ↔ (record.entity ≠ [] ∧ record.sourceId ≠ []) ∧
    record.key ∉ all.keys ∧ (∀ field ∈ record.references.keys, field ∉ record.values.keys) ∧ all.set record.key record = result := by
  unfold register
  split
  next missing => exact iff_of_false (by rintro ⟨⟩) fun named => missing.elim named.1.1 named.1.2
  next named =>
    split
    next twice => exact iff_of_false (by rintro ⟨⟩) fun fresh => fresh.2.1 ((all.has_iff _).mp twice)
    next fresh =>
      rw [not_or] at named
      rw [OrderedMap.has_iff] at fresh
      split
      next both =>
        obtain ⟨field, member, isValue⟩ := List.any_eq_true.mp both
        exact iff_of_false (by rintro ⟨⟩) fun apart => apart.2.2.1 field member ((record.values.has_iff _).mp isValue)
      next apart =>
        have each : ∀ field ∈ record.references.keys, field ∉ record.values.keys := fun field member isValue =>
          apart (List.any_eq_true.mpr ⟨field, member, (record.values.has_iff _).mpr isValue⟩)
        exact ⟨fun same => ⟨named, fresh, each, Except.ok.inj same⟩, fun all => congrArg _ all.2.2.2⟩

theorem set_fresh {key : Text} (fresh : key ∉ all.keys) (record : BlueprintGraphRecord) : (all.set key record).entries = all.entries ++ [(key, record)] := by
  unfold OrderedMap.set
  rw [dif_neg fresh]

theorem registers : ∀ {records : List BlueprintGraphRecord} {all result : OrderedMap Text BlueprintGraphRecord},
    records.foldlM register all = .ok result ↔ (∀ record ∈ records, record.entity ≠ [] ∧ record.sourceId ≠ []) ∧
      (all.keys ++ records.map BlueprintGraphRecord.key).Nodup ∧ (∀ record ∈ records, ∀ field ∈ record.references.keys, field ∉ record.values.keys) ∧
      all.entries ++ records.map (fun record => (record.key, record)) = result.entries
  | [], all, result => by
    simp only [List.foldlM_nil, List.map_nil, List.append_nil]
    constructor
    · intro same
      cases same
      exact ⟨by simp, all.keys_nodup, by simp, rfl⟩
    · rintro ⟨-, -, -, same⟩
      exact congrArg _ (OrderedMap.ext_entries same)
  | record :: rest, all, result => by
    rw [List.foldlM_cons, Failing.attempt_bind_ok]
    simp only [List.forall_mem_cons, List.map_cons]
    constructor
    · rintro ⟨middle, isMiddle, later⟩
      obtain ⟨named, fresh, apart, rfl⟩ := register_ok.mp isMiddle
      obtain ⟨restNamed, nodup, restApart, entries⟩ := registers.mp later
      rw [set_fresh fresh, List.append_assoc, List.singleton_append] at entries
      rw [OrderedMap.keys, set_fresh fresh, List.map_append, List.append_assoc] at nodup
      exact ⟨⟨named, restNamed⟩, nodup, ⟨apart, restApart⟩, entries⟩
    · rintro ⟨⟨named, restNamed⟩, nodup, ⟨apart, restApart⟩, entries⟩
      have fresh : record.key ∉ all.keys := fun member => List.disjoint_of_nodup_append nodup member List.mem_cons_self
      refine ⟨all.set record.key record, register_ok.mpr ⟨named, fresh, apart, rfl⟩, registers.mpr ⟨restNamed, ?_, restApart, ?_⟩⟩
      · rw [OrderedMap.keys, set_fresh fresh, List.map_append, List.append_assoc]
        exact nodup
      · rw [set_fresh fresh, List.append_assoc, List.singleton_append]
        exact entries

end Registration

section Planning
variable {all : OrderedMap Text BlueprintGraphRecord} {bindings : BlueprintBindings}

def within (all : OrderedMap Text BlueprintGraphRecord) (references : List (Option BlueprintReference)) : List Text :=
  ((references.filterMap id).filter fun reference => all.has reference.key).map BlueprintReference.key

def needs (all : OrderedMap Text BlueprintGraphRecord) (entry : Text × BlueprintGraphRecord) : List Text :=
  within all (entry.2.references.entries.map Prod.snd)

def AllBound (all : OrderedMap Text BlueprintGraphRecord) (bindings : BlueprintBindings) (references : List (Option BlueprintReference)) : Prop :=
  ∀ reference, some reference ∈ references → reference.key ∉ all.keys → isBound (binding bindings reference) = true

theorem within_some (reference : BlueprintReference) (rest : List (Option BlueprintReference)) :
    within all (some reference :: rest) = if all.has reference.key then reference.key :: within all rest else within all rest := by
  have whole : (some reference :: rest).filterMap id = reference :: rest.filterMap id := rfl
  unfold within
  rw [whole, List.filter_cons]
  split <;> rfl

theorem readyOf_bound (done : List Text) : ∀ {references : List (Option BlueprintReference)} (ready : Bool), AllBound all bindings references →
    readyOf all bindings done references ready = .ok (ready && (within all references).all fun need => need ∈ done)
  | [], ready, _ => by
    rw [readyOf]
    exact congrArg _ (Bool.and_true ready).symm
  | none :: rest, ready, bound => by
    rw [readyOf, readyOf_bound done ready fun reference member => bound reference (List.mem_cons_of_mem _ member)]
    rfl
  | some reference :: rest, ready, bound => by
    have later := fun ready => readyOf_bound done ready fun other member => bound other (List.mem_cons_of_mem _ member)
    rw [readyOf, within_some]
    split
    next => rw [later, List.all_cons, Bool.and_assoc, List.contains_eq_mem]
    next outside => rw [if_pos (bound reference List.mem_cons_self fun inside => outside ((all.has_iff _).mpr inside)), later]

theorem readyOf_unbound {done : List Text} : ∀ {references : List (Option BlueprintReference)} (ready : Bool), ¬ AllBound all bindings references →
    readyOf all bindings done references ready = .error .unbound
  | [], _, unbound => absurd (fun reference never => absurd never List.not_mem_nil) unbound
  | none :: rest, ready, unbound => by
    rw [readyOf]
    refine readyOf_unbound ready fun bound => unbound fun reference member => bound reference ?_
    exact (List.mem_cons.mp member).resolve_left (Option.some_ne_none reference)
  | some reference :: rest, ready, unbound => by
    have later : (all.has reference.key = true ∨ isBound (binding bindings reference) = true) → ¬ AllBound all bindings rest := by
      intro own bound
      refine unbound fun other member outside => ?_
      rcases List.mem_cons.mp member with same | inRest
      · rw [Option.some.inj same] at outside ⊢
        exact own.resolve_left fun inside => outside ((all.has_iff _).mp inside)
      · exact bound other inRest outside
    rw [readyOf]
    split
    next inside => exact readyOf_unbound _ (later (.inl inside))
    next =>
      split
      next isBound => exact readyOf_unbound _ (later (.inr isBound))
      next => rfl

theorem sweep_bound : ∀ {remaining : List (Text × BlueprintGraphRecord)} (pass : BlueprintPass),
    (∀ entry ∈ remaining, AllBound all bindings (entry.2.references.entries.map Prod.snd)) →
    remaining.foldlM (visit all bindings) pass = .ok
      { ordered := pass.ordered ++ (Sweeps.sweep Prod.fst (needs all) remaining pass.done).1.map Prod.snd
        done := pass.done ++ (Sweeps.sweep Prod.fst (needs all) remaining pass.done).1.map Prod.fst
        remaining := pass.remaining ++ (Sweeps.sweep Prod.fst (needs all) remaining pass.done).2
        progressed := pass.progressed || !(Sweeps.sweep Prod.fst (needs all) remaining pass.done).1.isEmpty }
  | [], pass, _ => by simp [Sweeps.sweep, pure, Except.pure]
  | entry :: rest, pass, bound => by
    obtain ⟨own, restBound⟩ := List.forall_mem_cons.mp bound
    have isReady : readyOf all bindings pass.done (entry.2.references.entries.map Prod.snd) true = .ok (Sweeps.ready (needs all) pass.done entry) := by
      rw [readyOf_bound _ true own, Bool.true_and, Sweeps.ready, needs]
      simp only [List.all_eq, decide_eq_true_eq]
    rw [List.foldlM_cons, visit, isReady, Sweeps.sweep]
    cases Sweeps.ready (needs all) pass.done entry with
    | true =>
      refine (sweep_bound { pass with ordered := pass.ordered ++ [entry.2], done := pass.done ++ [entry.1], progressed := true } restBound).trans ?_
      simp
    | false =>
      refine (sweep_bound { pass with remaining := pass.remaining ++ [entry] } restBound).trans ?_
      simp

theorem sweep_unbound : ∀ {remaining : List (Text × BlueprintGraphRecord)} (pass : BlueprintPass),
    ¬ (∀ entry ∈ remaining, AllBound all bindings (entry.2.references.entries.map Prod.snd)) →
    remaining.foldlM (visit all bindings) pass = .error .unbound
  | [], _, unbound => absurd (fun entry never => absurd never List.not_mem_nil) unbound
  | entry :: rest, pass, unbound => by
    rw [List.foldlM_cons, visit]
    by_cases own : AllBound all bindings (entry.2.references.entries.map Prod.snd)
    · have later : ¬ (∀ entry ∈ rest, AllBound all bindings (entry.2.references.entries.map Prod.snd)) :=
        fun restBound => unbound (List.forall_mem_cons.mpr ⟨own, restBound⟩)
      rw [readyOf_bound _ true own]
      change (if _ then _ else _) >>= _ = _
      split
      next => exact sweep_unbound _ later
      next => exact sweep_unbound _ later
    · rw [readyOf_unbound true own]
      rfl

theorem sweeps_bound : ∀ (steps : Nat) {remaining : List (Text × BlueprintGraphRecord)} (ordered : List BlueprintGraphRecord) (done : List Text),
    (∀ entry ∈ remaining, AllBound all bindings (entry.2.references.entries.map Prod.snd)) →
    sweeps all bindings steps remaining ordered done = (Sweeps.order Prod.fst (needs all) steps remaining done).map fun
      | some taken => .ok (ordered ++ taken.map Prod.snd)
      | none => .error .circular
  | _, [], ordered, _, _ => by simp [sweeps, Sweeps.order]
  | 0, _ :: _, _, _, _ => rfl
  | steps + 1, entry :: rest, ordered, done, bound => by
    have within : (Sweeps.sweep Prod.fst (needs all) (entry :: rest) done).2 ⊆ entry :: rest := fun other member =>
      (Sweeps.sweep_perm _ _ (entry :: rest) done).subset (List.mem_append_right _ member)
    have later := sweeps_bound steps (ordered ++ (Sweeps.sweep Prod.fst (needs all) (entry :: rest) done).1.map Prod.snd)
      (done ++ (Sweeps.sweep Prod.fst (needs all) (entry :: rest) done).1.map Prod.fst) fun other member => bound other (within member)
    rw [sweeps, sweep_bound _ bound, Sweeps.order]
    simp only [List.nil_append, Bool.false_or]
    cases (Sweeps.sweep Prod.fst (needs all) (entry :: rest) done).1.isEmpty with
    | true => rfl
    | false =>
      simp only [Bool.not_false, if_true, Bool.false_eq_true, if_false]
      rw [later, Option.map_map]
      congr 1
      funext result
      cases result <;> simp

end Planning

section Plans
variable {records ordered : List BlueprintGraphRecord} {bindings : BlueprintBindings} {all : OrderedMap Text BlueprintGraphRecord}

def Ordered (records ordered : List BlueprintGraphRecord) : Prop :=
  ordered.Perm records ∧ ∀ past record future, ordered = past ++ record :: future → ∀ reference, RefersTo record reference →
    reference.name ∈ records.map BlueprintGraphRecord.name → ∃ earlier ∈ past, earlier.name = reference.name

theorem isBound_iff {bound : Option Text} : isBound bound = true ↔ ∃ text, bound = some text ∧ trim text ≠ [] := by
  unfold isBound
  rw [Option.any_eq_true]
  exact exists_congr fun text => and_congr_right fun _ => decide_eq_true_iff

theorem mem_within {references : List (Option BlueprintReference)} {need : Text} :
    need ∈ within all references ↔ ∃ reference, some reference ∈ references ∧ reference.key ∈ all.keys ∧ reference.key = need := by
  unfold within
  simp only [List.mem_map, List.mem_filter, List.mem_filterMap, OrderedMap.has_iff]
  constructor
  · rintro ⟨reference, ⟨⟨_, member, rfl⟩, inside⟩, rfl⟩
    exact ⟨reference, member, inside, rfl⟩
  · rintro ⟨reference, member, inside, rfl⟩
    exact ⟨reference, ⟨⟨some reference, member, rfl⟩, inside⟩, rfl⟩

structure Registered (records : List BlueprintGraphRecord) (all : OrderedMap Text BlueprintGraphRecord) : Prop where
  entries : all.entries = records.map fun record => (record.key, record)

namespace Registered

theorem keys (registered : Registered records all) : all.keys = records.map BlueprintGraphRecord.key := by
  rw [OrderedMap.keys, registered.entries, List.map_map]
  rfl

theorem entry (registered : Registered records all) {entry : Text × BlueprintGraphRecord} (member : entry ∈ all.entries) :
    entry.1 = entry.2.key ∧ entry.2 ∈ records := by
  rw [registered.entries] at member
  obtain ⟨record, isRecord, rfl⟩ := List.mem_map.mp member
  exact ⟨rfl, isRecord⟩

theorem inside_iff (registered : Registered records all) {reference : BlueprintReference} :
    reference.key ∈ all.keys ↔ reference.name ∈ records.map BlueprintGraphRecord.name := by
  rw [registered.keys, List.mem_map, List.mem_map]
  exact exists_congr fun record => and_congr_right fun _ => key_name record reference

theorem allBound_iff (registered : Registered records all) : (∀ entry ∈ all.entries, AllBound all bindings (entry.2.references.entries.map Prod.snd)) ↔
    ∀ record ∈ records, ∀ reference, RefersTo record reference → reference.name ∉ records.map BlueprintGraphRecord.name →
      ∃ text, binding bindings reference = some text ∧ trim text ≠ [] := by
  rw [registered.entries, List.forall_mem_map]
  refine forall_congr' fun record => forall_congr' fun _ => forall_congr' fun reference => ?_
  rw [registered.inside_iff, isBound_iff]
  rfl

theorem ordered_of (registered : Registered records all) {taken : List (Text × BlueprintGraphRecord)} (perm : taken.Perm all.entries)
    (inTurn : Sweeps.InTurn Prod.fst (needs all) [] taken) : Ordered records (taken.map Prod.snd) := by
  constructor
  · have whole : all.entries.map Prod.snd = records := by
      rw [registered.entries, List.map_map]
      exact List.map_id records
    exact whole ▸ perm.map Prod.snd
  · intro past record future split reference refers inside
    obtain ⟨past', rest, rfl, rfl, isRest⟩ := List.map_eq_append_iff.mp split
    obtain ⟨entry, future', rfl, rfl, rfl⟩ := List.map_eq_cons_iff.mp isRest
    have isNeed : reference.key ∈ needs all entry := mem_within.mpr ⟨reference, refers, registered.inside_iff.mpr inside, rfl⟩
    have isDone := inTurn.needs_before isNeed
    rw [List.nil_append] at isDone
    obtain ⟨earlier, isEarlier, same⟩ := List.mem_map.mp isDone
    have isEntry := registered.entry (perm.subset (List.mem_append_left _ isEarlier))
    exact ⟨earlier.2, List.mem_map_of_mem isEarlier, (key_name _ _).mp (isEntry.1.symm.trans same)⟩

theorem stuck_cycle (registered : Registered records all) {steps : Nat} (stuck : Sweeps.order Prod.fst (needs all) steps all.entries [] = some none) :
    ∃ name, TransGen (Needs records) name name := by
  obtain ⟨taken, left, some_left, perm, needing⟩ := Sweeps.order_stuck stuck
  have some_name : (left.map fun entry => entry.2.name) ≠ [] := fun none => some_left (List.map_eq_nil_iff.mp none)
  refine Sweeps.exists_cycle some_name ?_
  intro point isPoint
  obtain ⟨entry, isEntry, rfl⟩ := List.mem_map.mp isPoint
  obtain ⟨need, isNeed, missing⟩ := needing entry isEntry
  obtain ⟨reference, refers, inside, rfl⟩ := mem_within.mp isNeed
  rw [List.nil_append] at missing
  have own := registered.entry (perm.subset (List.mem_append_right _ isEntry))
  have listed : reference.key ∈ (taken ++ left).map Prod.fst := (perm.map Prod.fst).mem_iff.mpr inside
  rw [List.map_append] at listed
  obtain ⟨next, isNext, same⟩ := List.mem_map.mp ((List.mem_append.mp listed).resolve_left missing)
  have nextOwn := registered.entry (perm.subset (List.mem_append_right _ isNext))
  refine ⟨next.2.name, List.mem_map_of_mem isNext, entry.2, own.2, rfl, reference, refers, ?_, List.mem_map_of_mem nextOwn.2⟩
  exact ((key_name _ _).mp (nextOwn.1.symm.trans same)).symm

end Registered

theorem Ordered.acyclic (isOrdered : Ordered records ordered) (distinct : (records.map BlueprintGraphRecord.name).Nodup) (name : Text × Text) :
    ¬ TransGen (Needs records) name name := by
  intro cycle
  have nodup : (ordered.map BlueprintGraphRecord.name).Nodup := (isOrdered.1.map _).nodup_iff.mpr distinct
  refine Before.irrefl nodup (Before.of_path nodup ?_ (transGen_swap.mpr cycle))
  rintro two one ⟨record, isRecord, rfl, reference, refers, rfl, inside⟩
  obtain ⟨past, future, split⟩ := List.append_of_mem (isOrdered.1.mem_iff.mpr isRecord)
  obtain ⟨earlier, isEarlier, same⟩ := isOrdered.2 past record future split reference refers inside
  rw [split, List.map_append, List.map_cons, ← same]
  exact before_split _ _ (List.mem_map_of_mem isEarlier)

theorem plan_registered (size : records ≠ [] ∧ records.length ≤ 1000) (registersAll : records.foldlM register .empty = .ok all) :
    planBlueprintGraph records bindings = sweeps all bindings all.entries.length all.entries [] [] := by
  unfold planBlueprintGraph
  rw [if_neg fun wrong => wrong.elim size.1 fun many => Nat.not_lt.mpr size.2 many, registersAll]

theorem registered_of (registersAll : records.foldlM register .empty = .ok all) : Registered records all :=
  ⟨(registers.mp registersAll).2.2.2.symm⟩

theorem plan_accepts (acceptable : Acceptable (binding bindings) records) :
    ∃ ordered, planBlueprintGraph records bindings = some (.ok ordered) ∧ Ordered records ordered := by
  have nodup : (records.map BlueprintGraphRecord.key).Nodup := keys_nodup_iff.mpr acceptable.distinct
  let all : OrderedMap Text BlueprintGraphRecord := ⟨records.map fun record => (record.key, record), by
    rw [List.map_map]
    exact nodup⟩
  have registersAll : records.foldlM register .empty = .ok all := registers.mpr ⟨acceptable.named, nodup, acceptable.apart, rfl⟩
  have registered := registered_of registersAll
  have bound := registered.allBound_iff.mpr acceptable.isBound
  obtain ⟨result, ends⟩ := Sweeps.order_ends Prod.fst (needs all) _ all.entries [] le_rfl
  rw [plan_registered acceptable.size registersAll, sweeps_bound _ [] [] bound, ends]
  cases result with
  | none => exact absurd (registered.stuck_cycle ends) (not_exists.mpr acceptable.acyclic)
  | some taken =>
    obtain ⟨perm, inTurn⟩ := Sweeps.order_inTurn ends
    exact ⟨_, rfl, registered.ordered_of perm inTurn⟩

theorem plan_refuses (unacceptable : ¬ Acceptable (binding bindings) records) :
    ∃ failure, planBlueprintGraph records bindings = some (.error failure) := by
  by_cases size : records ≠ [] ∧ records.length ≤ 1000
  · cases registersAll : records.foldlM register .empty with
    | error failure =>
      refine ⟨failure, ?_⟩
      unfold planBlueprintGraph
      rw [if_neg fun wrong => wrong.elim size.1 fun many => Nat.not_lt.mpr size.2 many, registersAll]
    | ok all =>
      have registered := registered_of registersAll
      obtain ⟨named, nodup, apart, -⟩ := registers.mp registersAll
      have distinct : (records.map BlueprintGraphRecord.name).Nodup := keys_nodup_iff.mp nodup
      rw [plan_registered size registersAll]
      by_cases bound : ∀ entry ∈ all.entries, AllBound all bindings (entry.2.references.entries.map Prod.snd)
      · obtain ⟨result, ends⟩ := Sweeps.order_ends Prod.fst (needs all) _ all.entries [] le_rfl
        rw [sweeps_bound _ [] [] bound, ends]
        cases result with
        | none => exact ⟨.circular, rfl⟩
        | some taken =>
          obtain ⟨perm, inTurn⟩ := Sweeps.order_inTurn ends
          exact absurd ⟨size, named, distinct, apart, (registered.ordered_of perm inTurn).acyclic distinct, registered.allBound_iff.mp bound⟩ unacceptable
      · refine ⟨.unbound, ?_⟩
        cases isAll : all.entries with
        | nil => exact absurd (isAll ▸ fun entry never => absurd never List.not_mem_nil) bound
        | cons entry rest =>
          rw [isAll] at bound
          rw [List.length_cons, sweeps, sweep_unbound _ bound]
  · refine ⟨.size, ?_⟩
    unfold planBlueprintGraph
    rw [if_pos]
    by_contra fits
    rw [not_or, Nat.not_lt] at fits
    exact size fits

end Plans

section Creation
variable {bindings : BlueprintBindings} {create : List BlueprintCall → Text}

theorem get?_assign (values : OrderedMap Text Json) (name : Text) (value : Json) (field : Text) : (assign values name value).get? field =
    if name = field ∧ (name = js "__proto__" → name ∈ values.keys) then some value else values.get? field := by
  unfold assign
  have isLost : (name = js "__proto__" && !values.has name) = true ↔ name = js "__proto__" ∧ name ∉ values.keys := by
    rw [Bool.and_eq_true, decide_eq_true_eq, Bool.not_eq_true', ← Bool.not_eq_true, OrderedMap.has_iff]
  by_cases lost : name = js "__proto__" ∧ name ∉ values.keys
  · rw [if_pos (isLost.mpr lost), if_neg fun kept => lost.2 (kept.2 lost.1)]
  · rw [if_neg fun is => lost (isLost.mp is)]
    have stays : name = js "__proto__" → name ∈ values.keys := fun isProto => by_contra fun absent => lost ⟨isProto, absent⟩
    by_cases same : name = field
    · rw [if_pos ⟨same, stays⟩, same, OrderedMap.get?_set_self]
    · rw [if_neg fun kept => same kept.1, OrderedMap.get?_set_of_ne _ _ fun isName => same isName.symm]

theorem proto_assign (values : OrderedMap Text Json) (name : Text) (value : Json) :
    js "__proto__" ∈ (assign values name value).keys ↔ js "__proto__" ∈ values.keys := by
  rw [OrderedMap.mem_keys_iff_get?, OrderedMap.mem_keys_iff_get?, get?_assign]
  split
  next kept =>
    have member := OrderedMap.mem_keys_iff_get? values (js "__proto__") |>.mp (kept.1 ▸ kept.2 kept.1)
    exact iff_of_true ⟨value, rfl⟩ member
  next => rfl

/-- What a created record reads, field by field: the reference fields are written, but for the one that objects reserve. -/
theorem get?_assigned (written : Option BlueprintReference → Json) (field : Text) : ∀ {entries : List (Text × Option BlueprintReference)}
    {values : OrderedMap Text Json}, (entries.map Prod.fst).Nodup → (entries.foldl (fun values entry => assign values entry.1 (written entry.2)) values).get? field =
      if field = js "__proto__" ∧ field ∉ values.keys then none
      else match (entries.find? fun entry => entry.1 = field).map Prod.snd with
        | none => values.get? field
        | some reference => some (written reference)
  | [], values, _ => by
    simp only [List.foldl_nil, List.find?_nil, Option.map_none]
    split
    next reserved =>
      by_contra stored
      exact reserved.2 ((OrderedMap.mem_keys_iff_get? _ _).mpr (Option.ne_none_iff_exists'.mp stored))
    next => rfl
  | (name, reference) :: rest, values, nodup => by
    obtain ⟨fresh, restNodup⟩ := List.nodup_cons.mp nodup
    rw [List.foldl_cons, get?_assigned written field restNodup]
    have absent : name = field → rest.find? (fun entry => entry.1 = field) = none := fun same =>
      List.find?_eq_none.mpr fun entry member isName => fresh (List.mem_map.mpr ⟨entry, member, (of_decide_eq_true isName).trans same.symm⟩)
    have own : name = field → ((name, reference) :: rest).find? (fun entry => entry.1 = field) = some (name, reference) :=
      fun same => List.find?_cons_of_pos (by simpa using same)
    have others : name ≠ field → ((name, reference) :: rest).find? (fun entry => entry.1 = field) = rest.find? fun entry => entry.1 = field :=
      fun different => List.find?_cons_of_neg (by simpa using different)
    by_cases isProto : field = js "__proto__"
    · have still : field ∈ (assign values name (written reference)).keys ↔ field ∈ values.keys := isProto ▸ proto_assign values name (written reference)
      by_cases stored : field ∈ values.keys
      · rw [if_neg fun reserved => reserved.2 (still.mpr stored), if_neg fun reserved => reserved.2 stored]
        by_cases same : name = field
        · rw [absent same, own same, Option.map_none, Option.map_some, get?_assign, if_pos ⟨same, fun _ => same ▸ stored⟩]
        · rw [others same, get?_assign, if_neg fun kept => same kept.1]
      · rw [if_pos ⟨isProto, fun is => stored (still.mp is)⟩, if_pos ⟨isProto, stored⟩]
    · rw [if_neg fun reserved => isProto reserved.1, if_neg fun reserved => isProto reserved.1]
      by_cases same : name = field
      · rw [absent same, own same, Option.map_none, Option.map_some, get?_assign, if_pos ⟨same, fun isName => absurd (same ▸ isName) isProto⟩]
      · rw [others same, get?_assign, if_neg fun kept => same kept.1]

variable (bindings) in
theorem createAll_makes (answers : ∀ calls, create calls ≠ []) : ∀ {list : List BlueprintGraphRecord} (copied : OrderedMap Text Text)
    (calls : List BlueprintCall), (list.map BlueprintGraphRecord.key).Nodup → ∃ made final,
      createAll create bindings list copied calls = (calls ++ made, .ok final) ∧ made.length = list.length ∧
      (∀ key, key ∉ list.map BlueprintGraphRecord.key → final.get? key = copied.get? key) ∧
      ∀ past record future, list = past ++ record :: future → ∃ known,
        made[past.length]? = some (record.entity, createdValues known bindings record) ∧
        final.get? record.key = some (create (calls ++ made.take (past.length + 1))) ∧
        ∀ key, known.get? key = if key ∈ (record :: future).map BlueprintGraphRecord.key then copied.get? key else final.get? key
  | [], copied, calls, _ => ⟨[], copied, by rw [List.append_nil]; rfl, rfl, fun _ _ => rfl, fun past record future split => absurd split (by simp)⟩
  | record :: rest, copied, calls, nodup => by
    obtain ⟨fresh, restNodup⟩ := List.nodup_cons.mp nodup
    obtain ⟨made, final, creates, length, unmoved, each⟩ := createAll_makes answers
      (copied.set record.key (create (calls ++ [(record.entity, createdValues copied bindings record)])))
      (calls ++ [(record.entity, createdValues copied bindings record)]) restNodup
    refine ⟨(record.entity, createdValues copied bindings record) :: made, final, ?_, congrArg Nat.succ length, ?_, ?_⟩
    · unfold createAll
      rw [if_neg (answers _), creates, List.append_assoc, List.singleton_append]
    · intro key outside
      rw [List.map_cons, List.mem_cons, not_or] at outside
      rw [unmoved key outside.2, OrderedMap.get?_set_of_ne _ _ outside.1]
    · intro past other future split
      cases past with
      | nil =>
        obtain ⟨rfl, rfl⟩ := List.cons.inj split
        refine ⟨copied, rfl, ?_, fun key => ?_⟩
        · rw [unmoved _ fresh, OrderedMap.get?_set_self]
          rfl
        · split
          next => rfl
          next outside =>
            rw [List.map_cons, List.mem_cons, not_or] at outside
            rw [unmoved key outside.2, OrderedMap.get?_set_of_ne _ _ outside.1]
      | cons head past =>
        obtain ⟨rfl, rfl⟩ := List.cons.inj split
        obtain ⟨known, isMade, isNew, reads⟩ := each past other future rfl
        refine ⟨known, isMade, ?_, fun key => ?_⟩
        · rw [isNew, List.append_assoc]
          rfl
        · rw [reads key]
          split
          next inside =>
            have different : key ≠ record.key := fun same => fresh (same ▸ List.mem_map.mpr (by
              obtain ⟨one, isOne, isKey⟩ := List.mem_map.mp inside
              exact ⟨one, List.mem_append_right _ isOne, isKey⟩))
            rw [OrderedMap.get?_set_of_ne _ _ different]
          next => rfl

end Creation

/-- A field of the copy: a value as it is, a reference to the new record or to what is bound. -/
def copiedField (records : List BlueprintGraphRecord) (bindings : BlueprintBindings) (copied : OrderedMap Text Text) (record : BlueprintGraphRecord)
    (field : Text) : Option Json :=
  match record.references.get? field with
  | none => record.values.get? field
  | some none => some .null
  | some (some reference) =>
    (if reference.name ∈ records.map BlueprintGraphRecord.name then copied.get? reference.key else ownBinding bindings reference).map .text

/-- The calls create each record once, after those it refers to and with the same fields, and the answers are the new ids. -/
def Faithful (create : List BlueprintCall → Text) (bindings : BlueprintBindings) (records : List BlueprintGraphRecord) (calls : List BlueprintCall)
    (copied : OrderedMap Text Text) : Prop :=
  ∃ ordered, Ordered records ordered ∧ calls.length = ordered.length ∧ ∀ past record future, ordered = past ++ record :: future →
    ∃ values, calls[past.length]? = some (record.entity, values) ∧ copied.get? record.key = some (create (calls.take (past.length + 1))) ∧
      ∀ field, values.get? field = copiedField records bindings copied record field

def CopiesExactly (create : List BlueprintCall → Text) (bindings : BlueprintBindings) (records : List BlueprintGraphRecord) : Prop :=
  (Acceptable (ownBinding bindings) records → ∃ calls copied, copyBlueprintGraph records bindings create = some (calls, .ok copied) ∧
    Faithful create bindings records calls copied ∧ ∀ one ∈ records, ∀ two ∈ records, copied.get? one.key = copied.get? two.key → one.name = two.name) ∧
  (¬ Acceptable (ownBinding bindings) records → ∃ failure, copyBlueprintGraph records bindings create = some ([], .error failure))

section Exact
variable {bindings : BlueprintBindings} {create : List BlueprintCall → Text} {records : List BlueprintGraphRecord}

theorem binding_own {reference : BlueprintReference} {text : Text} (own : ownBinding bindings reference = some text) :
    binding bindings reference = some text := by
  obtain ⟨inner, isInner, found⟩ := Option.bind_eq_some_iff.mp own
  unfold binding
  rw [isInner]
  exact found

theorem Acceptable.read (acceptable : Acceptable (ownBinding bindings) records) : Acceptable (binding bindings) records :=
  { acceptable with
    isBound := fun record member reference refers outside => by
      obtain ⟨text, own, ink⟩ := acceptable.isBound record member reference refers outside
      exact ⟨text, binding_own own, ink⟩ }

theorem copy_accepted (answers : ∀ calls, create calls ≠ []) (acceptable : Acceptable (binding bindings) records) :
    ∃ ordered calls copied, copyBlueprintGraph records bindings create = some (calls, .ok copied) ∧ Ordered records ordered ∧
      calls.length = ordered.length ∧ ∀ past record future, ordered = past ++ record :: future → ∃ known,
        calls[past.length]? = some (record.entity, createdValues known bindings record) ∧
        copied.get? record.key = some (create (calls.take (past.length + 1))) ∧
        ∀ reference, RefersTo record reference → known.get? reference.key = if reference.name ∈ records.map BlueprintGraphRecord.name
          then copied.get? reference.key else none := by
  obtain ⟨ordered, plans, isOrdered⟩ := plan_accepts acceptable
  have nodup : (ordered.map BlueprintGraphRecord.key).Nodup := (isOrdered.1.map _).nodup_iff.mpr (keys_nodup_iff.mpr acceptable.distinct)
  obtain ⟨made, final, creates, length, unmoved, each⟩ := createAll_makes bindings answers .empty [] nodup
  refine ⟨ordered, made, final, ?_, isOrdered, length, fun past record future split => ?_⟩
  · unfold copyBlueprintGraph
    rw [plans, Option.map_some]
    exact congrArg some creates
  · obtain ⟨known, isMade, isNew, reads⟩ := each past record future split
    rw [List.nil_append] at isNew
    refine ⟨known, isMade, isNew, fun reference refers => ?_⟩
    rw [reads]
    by_cases inside : reference.name ∈ records.map BlueprintGraphRecord.name
    · obtain ⟨earlier, isEarlier, same⟩ := isOrdered.2 past record future split reference refers inside
      have isKey : earlier.key = reference.key := (key_name _ _).mpr same
      have later : reference.key ∉ (record :: future).map BlueprintGraphRecord.key := by
        rw [split, List.map_append] at nodup
        exact fun member => List.disjoint_of_nodup_append nodup (isKey ▸ List.mem_map_of_mem isEarlier) member
      rw [if_neg later, if_pos inside]
    · have outside : ∀ part : List BlueprintGraphRecord, part ⊆ ordered → reference.key ∉ part.map BlueprintGraphRecord.key := by
        intro part within member
        obtain ⟨other, isOther, same⟩ := List.mem_map.mp member
        exact inside ((key_name _ _).mp same ▸ List.mem_map_of_mem (isOrdered.1.mem_iff.mp (within isOther)))
      rw [if_neg (outside _ (split ▸ List.subset_append_right _ _)), if_neg inside, unmoved _ (outside _ (List.Subset.refl _))]
      rfl

theorem get?_created {copied known : OrderedMap Text Text} {record : BlueprintGraphRecord} (member : record ∈ records)
    (acceptable : Acceptable (ownBinding bindings) records)
    (reads : ∀ reference, RefersTo record reference → known.get? reference.key = if reference.name ∈ records.map BlueprintGraphRecord.name
      then copied.get? reference.key else none)
    (made : ∀ reference, RefersTo record reference → reference.name ∈ records.map BlueprintGraphRecord.name → ∃ id, copied.get? reference.key = some id)
    (field : Text) : (createdValues known bindings record).get? field =
      if field = js "__proto__" ∧ field ∉ record.values.keys then none else copiedField records bindings copied record field := by
  unfold createdValues copiedField
  rw [get?_assigned (referenceValue known bindings) field record.references.nodup]
  refine if_congr Iff.rfl rfl ?_
  change (match record.references.get? field with | none => _ | some reference => _) = _
  cases found : record.references.get? field with
  | none => rfl
  | some written =>
    cases written with
    | none => rfl
    | some reference =>
      have refers : RefersTo record reference := List.mem_map_of_mem (OrderedMap.mem_of_get? found)
      have read := reads reference refers
      dsimp only [referenceValue]
      rw [read]
      by_cases inside : reference.name ∈ records.map BlueprintGraphRecord.name
      · obtain ⟨id, isId⟩ := made reference refers inside
        rw [if_pos inside, if_pos inside, isId]
        rfl
      · obtain ⟨text, own, -⟩ := acceptable.isBound record member reference refers inside
        rw [if_neg inside, if_neg inside, own, binding_own own]
        rfl

theorem same_call (fresh : ∀ calls more, more ≠ [] → create (calls ++ more) ≠ create calls) {calls : List BlueprintCall} {first second : Nat}
    (inFirst : first < calls.length) (inSecond : second < calls.length) (same : create (calls.take (first + 1)) = create (calls.take (second + 1))) :
    first = second := by
  have earlier : ∀ {one two : Nat}, one < two → two < calls.length → create (calls.take (one + 1)) ≠ create (calls.take (two + 1)) := by
    intro one two less bound isSame
    have start : (calls.take (two + 1)).take (one + 1) = calls.take (one + 1) := by
      rw [List.take_take, Nat.min_eq_left (by omega)]
    have whole : calls.take (one + 1) ++ (calls.take (two + 1)).drop (one + 1) = calls.take (two + 1) :=
      start ▸ List.take_append_drop (one + 1) (calls.take (two + 1))
    refine fresh (calls.take (one + 1)) ((calls.take (two + 1)).drop (one + 1)) ?_ (whole.symm ▸ isSame.symm)
    refine List.ne_nil_of_length_pos ?_
    rw [List.length_drop, List.length_take]
    omega
  rcases Nat.lt_trichotomy first second with less | equal | more
  · exact absurd same (earlier less inSecond)
  · exact equal
  · exact absurd same.symm (earlier more inFirst)

/-- The copy is exact where the records that are accepted need no inherited binding and name no reference `__proto__`. -/
theorem copy_exact_iff (answers : ∀ calls, create calls ≠ []) (fresh : ∀ calls more, more ≠ [] → create (calls ++ more) ≠ create calls)
    (bindings : BlueprintBindings) (records : List BlueprintGraphRecord) :
    CopiesExactly create bindings records ↔ (Acceptable (binding bindings) records →
      Acceptable (ownBinding bindings) records ∧ ∀ record ∈ records, js "__proto__" ∉ record.references.keys) := by
  constructor
  · rintro ⟨copies, refuses⟩ read
    obtain ⟨ordered, calls, copied, isCopy, isOrdered, length, each⟩ := copy_accepted answers read
    have acceptable : Acceptable (ownBinding bindings) records := by
      by_contra unacceptable
      obtain ⟨failure, failed⟩ := refuses unacceptable
      cases isCopy.symm.trans failed
    refine ⟨acceptable, fun record member isProto => ?_⟩
    obtain ⟨calls', copied', isCopy', ⟨ordered', isOrdered', length', each'⟩, -⟩ := copies acceptable
    obtain ⟨rfl, isCopied⟩ := Prod.mk.inj (Option.some.inj (isCopy.symm.trans isCopy'))
    obtain rfl := Except.ok.inj isCopied
    obtain ⟨past, future, split⟩ := List.append_of_mem (isOrdered.1.mem_iff.mpr member)
    obtain ⟨past', future', split'⟩ := List.append_of_mem (isOrdered'.1.mem_iff.mpr member)
    obtain ⟨known, isCall, isNew, reads⟩ := each past record future split
    obtain ⟨values, isCall', isNew', fields⟩ := each' past' record future' split'
    have within : past.length < calls.length := (List.getElem?_eq_some_iff.mp isCall).1
    have within' : past'.length < calls.length := (List.getElem?_eq_some_iff.mp isCall').1
    have same : past.length = past'.length := same_call fresh within within' (Option.some.inj (isNew.symm.trans isNew'))
    rw [same, isCall'] at isCall
    obtain rfl := (Prod.mk.inj (Option.some.inj isCall)).2
    have absent : js "__proto__" ∉ record.values.keys := acceptable.apart record member _ isProto
    have lost : (createdValues known bindings record).get? (js "__proto__") = none := by
      unfold createdValues
      rw [get?_assigned _ _ record.references.nodup, if_pos ⟨rfl, absent⟩]
    obtain ⟨written, found⟩ := (OrderedMap.mem_keys_iff_get? _ _).mp isProto
    have expected := (fields (js "__proto__")).symm.trans lost
    unfold copiedField at expected
    rw [found] at expected
    cases written with
    | none => cases expected
    | some reference =>
      have refers : RefersTo record reference := List.mem_map_of_mem (OrderedMap.mem_of_get? found)
      rw [Option.map_eq_none_iff] at expected
      split at expected
      next inside =>
        obtain ⟨other, isOther, isName⟩ := List.mem_map.mp inside
        obtain ⟨before, after, isSplit⟩ := List.append_of_mem (isOrdered.1.mem_iff.mpr isOther)
        obtain ⟨_, _, isId, _⟩ := each before other after isSplit
        rw [(key_name other reference).mpr isName, expected] at isId
        cases isId
      next outside =>
        obtain ⟨text, own, -⟩ := acceptable.isBound record member reference refers outside
        cases expected.symm.trans own
  · intro safe
    constructor
    · intro acceptable
      obtain ⟨-, noProto⟩ := safe acceptable.read
      obtain ⟨ordered, calls, copied, isCopy, isOrdered, length, each⟩ := copy_accepted answers acceptable.read
      have isMade : ∀ record ∈ records, ∃ id, copied.get? record.key = some id := by
        intro record member
        obtain ⟨past, future, split⟩ := List.append_of_mem (isOrdered.1.mem_iff.mpr member)
        obtain ⟨_, _, isNew, _⟩ := each past record future split
        exact ⟨_, isNew⟩
      refine ⟨calls, copied, isCopy, ⟨ordered, isOrdered, length, fun past record future split => ?_⟩, ?_⟩
      · obtain ⟨known, isCall, isNew, reads⟩ := each past record future split
        have member : record ∈ records := isOrdered.1.mem_iff.mp (split ▸ List.mem_append_right _ List.mem_cons_self)
        refine ⟨_, isCall, isNew, fun field => ?_⟩
        rw [get?_created member acceptable reads ?_ field]
        · split
          next reserved =>
            have absent : record.references.get? field = none := by
              by_contra stored
              exact noProto record member (reserved.1 ▸ (OrderedMap.mem_keys_iff_get? _ _).mpr (Option.ne_none_iff_exists'.mp stored))
            unfold copiedField
            rw [absent]
            by_contra stored
            exact reserved.2 ((OrderedMap.mem_keys_iff_get? _ _).mpr (Option.ne_none_iff_exists'.mp fun none => stored none.symm))
          next => rfl
        · intro reference _ inside
          obtain ⟨other, isOther, isName⟩ := List.mem_map.mp inside
          rw [← (key_name other reference).mpr isName]
          exact isMade other isOther
      · intro one isOne two isTwo same
        obtain ⟨past, future, split⟩ := List.append_of_mem (isOrdered.1.mem_iff.mpr isOne)
        obtain ⟨past', future', split'⟩ := List.append_of_mem (isOrdered.1.mem_iff.mpr isTwo)
        obtain ⟨_, isCall, isNew, -⟩ := each past one future split
        obtain ⟨_, isCall', isNew', -⟩ := each past' two future' split'
        rw [isNew, isNew'] at same
        have place : past.length = past'.length :=
          same_call fresh (List.getElem?_eq_some_iff.mp isCall).1 (List.getElem?_eq_some_iff.mp isCall').1 (Option.some.inj same)
        have heads := (List.append_inj (split.symm.trans split') place).2
        rw [(List.cons.inj heads).1]
    · intro unacceptable
      obtain ⟨failure, refuses⟩ := plan_refuses fun read => unacceptable (safe read).1
      refine ⟨failure, ?_⟩
      unfold copyBlueprintGraph
      rw [refuses]
      rfl

end Exact

def counted (calls : List BlueprintCall) : Text := js "new-" ++ List.replicate calls.length (unit '1')

theorem counted_answers (calls : List BlueprintCall) : counted calls ≠ [] := List.append_ne_nil_of_left_ne_nil (by decide) _

theorem counted_fresh (calls more : List BlueprintCall) (some_more : more ≠ []) : counted (calls ++ more) ≠ counted calls := by
  intro same
  have lengths := congrArg List.length (List.append_cancel_left same)
  rw [List.length_replicate, List.length_replicate, List.length_append] at lengths
  exact some_more (List.eq_nil_of_length_eq_zero (Nat.add_eq_left.mp lengths))

/-- A record that refers to the id `name` of an entity `constructor`. -/
def inheriting : BlueprintGraphRecord :=
  ⟨js "Item", js "i", .empty, ⟨[(js "owner", some ⟨js "constructor", js "name"⟩)], by decide⟩⟩

theorem copy_exact_iff_inheriting : CopiesExactly counted .empty [inheriting] ↔ (Acceptable (binding .empty) [inheriting] →
    Acceptable (ownBinding .empty) [inheriting] ∧ ∀ record ∈ [inheriting], js "__proto__" ∉ record.references.keys) :=
  copy_exact_iff counted_answers counted_fresh .empty [inheriting]

/-- The name of an inherited function passes for its binding, and the record is created with it. -/
theorem inherited_binding_copied : ∃ (create : List BlueprintCall → Text) (bindings : BlueprintBindings) (records : List BlueprintGraphRecord),
    (∀ calls, create calls ≠ []) ∧ (∀ calls more, more ≠ [] → create (calls ++ more) ≠ create calls) ∧ ¬ CopiesExactly create bindings records := by
  refine ⟨counted, .empty, [inheriting], counted_answers, counted_fresh, fun exact' => ?_⟩
  have unacceptable : ¬ Acceptable (ownBinding .empty) [inheriting] := by
    intro acceptable
    obtain ⟨_, own, -⟩ := acceptable.isBound inheriting List.mem_cons_self ⟨js "constructor", js "name"⟩ List.mem_cons_self (by decide)
    cases own
  obtain ⟨failure, failed⟩ := exact'.2 unacceptable
  have created : ((copyBlueprintGraph [inheriting] .empty counted).map fun copy => copy.1.length) = some 1 := by decide +kernel
  rw [failed] at created
  cases created

end OpenShapeForge.Operations.BlueprintGraph
