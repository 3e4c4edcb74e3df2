import OpenShapeForge.Formula.GraphQueries
import OpenShapeForge.Formula.Check
import OpenShapeForge.Js.Whole

/-! A formula is refused as circular exactly where its own field would come to read itself, directly or
through the formulas of the same record. -/

namespace OpenShapeForge.Formula.CycleExact
open Js Library Digraph Types SyntaxTree Functions Check Graph GraphCorrect GraphQueries

section Reads
variable {env : FormulaEnvironment} {fieldId : Text} {references : List Reference}

/-- `reader` reads `read` within the record; what `fieldId` reads is what the formula being checked reads. -/
def SelfReads (env : FormulaEnvironment) (fieldId : Text) (references : List Reference) (reader read : Text) : Prop :=
  if reader = fieldId then ∃ reference ∈ references, reference.field.scope = .self ∧ reference.field.id = read
  else ∃ field ∈ env, field.scope = .self ∧ field.id = reader ∧ ⟨read, .self⟩ ∈ field.dependencies

def SelfIdsDistinct (env : FormulaEnvironment) : Prop := ((env.filter fun field => field.scope = .self).map (·.id)).Nodup

theorem SelfIdsDistinct.eq (distinctIds : SelfIdsDistinct env) {one other : FormulaField} (oneIn : one ∈ env) (otherIn : other ∈ env)
    (oneSelf : one.scope = .self) (otherSelf : other.scope = .self) (same : one.id = other.id) : one = other :=
  List.inj_on_of_nodup_map distinctIds (List.mem_filter.mpr ⟨oneIn, by simpa using oneSelf⟩)
    (List.mem_filter.mpr ⟨otherIn, by simpa using otherSelf⟩) same

def selfReferences (references : List Reference) : List Reference := references.filter fun reference => reference.field.scope = .self

theorem ownNode_injective : Function.Injective ownNode := fun _ _ same => congrArg DependencyNode.field same

def storedDefinition (field : FormulaField) : DependencyDefinition :=
  ⟨ownNode field.id, (field.dependencies.filter fun ref => ref.scope = .self).map fun ref => ownNode ref.id⟩

theorem reads_stored {field : FormulaField} {read : DependencyNode} :
    read ∈ (storedDefinition field).dependsOn ↔ ∃ id, read = ownNode id ∧ ⟨id, .self⟩ ∈ field.dependencies := by
  constructor
  · intro member
    obtain ⟨⟨id, scope⟩, inSelf, rfl⟩ := List.mem_map.mp member
    obtain ⟨stored, isSelf⟩ := List.mem_filter.mp inSelf
    cases of_decide_eq_true isSelf
    exact ⟨id, rfl, stored⟩
  · rintro ⟨id, rfl, stored⟩
    exact List.mem_map.mpr ⟨⟨id, .self⟩, List.mem_filter.mpr ⟨stored, by simp⟩, rfl⟩

def storedFields (env : FormulaEnvironment) (fieldId : Text) : List FormulaField :=
  env.filter fun field => field.scope = .self && field.id ≠ fieldId && field.dependencies ≠ []

theorem mem_storedFields {field : FormulaField} :
    field ∈ storedFields env fieldId ↔ field ∈ env ∧ field.scope = .self ∧ field.id ≠ fieldId ∧ field.dependencies ≠ [] := by
  simp [storedFields, and_assoc]

theorem lastReads_own : lastReads (cycleDefinitions env fieldId (selfReferences references)) (ownNode fieldId) =
    (selfReferences references).map fun reference => ownNode reference.field.id := by
  unfold lastReads cycleDefinitions
  rw [List.reverse_append, List.reverse_singleton, List.singleton_append, List.find?_cons_of_pos (by simp)]
  rfl

theorem lastReads_other {node : DependencyNode} (other : node ≠ ownNode fieldId) :
    lastReads (cycleDefinitions env fieldId (selfReferences references)) node =
      ((((storedFields env fieldId).map storedDefinition).reverse.find? (·.node = node)).map (·.dependsOn)).getD [] := by
  unfold lastReads cycleDefinitions
  rw [List.reverse_append, List.reverse_singleton, List.singleton_append, List.find?_cons_of_neg (by simpa using other.symm)]
  rfl

theorem found_stored {fields : List FormulaField} {node : DependencyNode} {definition : DependencyDefinition}
    (found : ((fields.map storedDefinition).reverse.find? fun definition => definition.node = node) = some definition) :
    ∃ field ∈ fields, definition = storedDefinition field ∧ ownNode field.id = node := by
  have isNode := List.find?_some found
  obtain ⟨field, isStored, rfl⟩ := List.mem_map.mp (List.mem_reverse.mp (List.mem_of_find?_eq_some found))
  exact ⟨field, isStored, rfl, of_decide_eq_true isNode⟩

theorem edge_iff (distinctIds : SelfIdsDistinct env) (reader read : DependencyNode) :
    Edge (lastReads (cycleDefinitions env fieldId (selfReferences references))) reader read ↔
      ∃ a b, reader = ownNode a ∧ read = ownNode b ∧ SelfReads env fieldId references a b := by
  unfold Edge SelfReads
  by_cases own : reader = ownNode fieldId
  · subst own
    rw [lastReads_own]
    constructor
    · intro member
      obtain ⟨reference, inSelf, rfl⟩ := List.mem_map.mp member
      obtain ⟨isRead, isSelf⟩ := List.mem_filter.mp inSelf
      refine ⟨fieldId, reference.field.id, rfl, rfl, ?_⟩
      rw [if_pos rfl]
      exact ⟨reference, isRead, of_decide_eq_true isSelf, rfl⟩
    · rintro ⟨a, b, same, rfl, reads⟩
      rw [if_pos (ownNode_injective same).symm] at reads
      obtain ⟨reference, isRead, isSelf, rfl⟩ := reads
      exact List.mem_map.mpr ⟨reference, List.mem_filter.mpr ⟨isRead, decide_eq_true isSelf⟩, rfl⟩
  · rw [lastReads_other own]
    constructor
    · intro member
      cases found : ((storedFields env fieldId).map storedDefinition).reverse.find? (·.node = reader) with
      | none =>
        rw [found] at member
        exact absurd member List.not_mem_nil
      | some definition =>
        rw [found] at member
        obtain ⟨field, isStored, rfl, isReader⟩ := found_stored found
        obtain ⟨inEnv, isSelf, notOwn, -⟩ := mem_storedFields.mp isStored
        obtain ⟨id, isId, stored⟩ := reads_stored.mp member
        refine ⟨field.id, id, isReader.symm, isId, ?_⟩
        rw [if_neg notOwn]
        exact ⟨field, inEnv, isSelf, rfl, stored⟩
    · rintro ⟨a, b, rfl, rfl, reads⟩
      have notOwn : a ≠ fieldId := fun same => own (congrArg ownNode same)
      rw [if_neg notOwn] at reads
      obtain ⟨field, inEnv, isSelf, rfl, stored⟩ := reads
      have isStored : field ∈ storedFields env fieldId := mem_storedFields.mpr ⟨inEnv, isSelf, notOwn, List.ne_nil_of_mem stored⟩
      have there : (((storedFields env fieldId).map storedDefinition).reverse.find? (·.node = ownNode field.id)).isSome = true :=
        List.find?_isSome.mpr ⟨storedDefinition field, List.mem_reverse.mpr (List.mem_map_of_mem isStored), decide_eq_true rfl⟩
      obtain ⟨definition, found⟩ := Option.isSome_iff_exists.mp there
      obtain ⟨other, alsoStored, rfl, sameNode⟩ := found_stored found
      obtain ⟨otherIn, otherSelf, -, -⟩ := mem_storedFields.mp alsoStored
      have same : other = field := distinctIds.eq otherIn inEnv otherSelf isSelf (ownNode_injective sameNode)
      rw [found, same]
      exact reads_stored.mpr ⟨b, rfl, stored⟩

theorem walk_iff (distinctIds : SelfIdsDistinct env) (first last : Text) :
    Relation.TransGen (Edge (lastReads (cycleDefinitions env fieldId (selfReferences references)))) (ownNode first) (ownNode last) ↔
      Relation.TransGen (SelfReads env fieldId references) first last := by
  constructor
  · refine Relation.TransGen.lift DependencyNode.field (fun reader read edge => ?_) (ownNode first) (ownNode last)
    obtain ⟨a, b, rfl, rfl, reads⟩ := (edge_iff distinctIds _ _).mp edge
    exact reads
  · exact Relation.TransGen.lift ownNode (fun reader read reads => (edge_iff distinctIds _ _).mpr ⟨reader, read, rfl, rfl, reads⟩) first last

theorem walk_of_chain {κ : Type} {succ : κ → List κ} : ∀ {more : List κ} {start last : κ}, more ≠ [] → Chain succ start more last →
    Relation.TransGen (Edge succ) start last
  | [], _, _, nonempty, _ => absurd rfl nonempty
  | [_], _, _, _, ⟨edge, ends⟩ => ends ▸ .single edge
  | _ :: next :: rest, _, _, _, ⟨edge, chain⟩ => .head edge (walk_of_chain (List.cons_ne_nil next rest) chain)

/-- The search finds a chain from the field's own reads back to it exactly where the field reaches itself. -/
theorem cycleChain_isSome (distinctIds : SelfIdsDistinct env) :
    (cycleChain env fieldId references).isSome = true ↔ Relation.TransGen (SelfReads env fieldId references) fieldId fieldId := by
  have closes : ∀ id, ((buildDependencyGraph (cycleDefinitions env fieldId (selfReferences references))).path (ownNode id) (ownNode fieldId)).isSome = true ↔
      Relation.TransGen (SelfReads env fieldId references) id fieldId := by
    intro id
    rw [← walk_iff distinctIds]
    have searched := path_searched (cycleDefinitions env fieldId (selfReferences references)) (ownNode id) (ownNode fieldId)
    cases found : (buildDependencyGraph (cycleDefinitions env fieldId (selfReferences references))).path (ownNode id) (ownNode fieldId) with
    | none =>
      rw [found] at searched
      exact ⟨fun never => absurd never (by simp), fun walk => absurd walk searched⟩
    | some chain =>
      rw [found] at searched
      obtain ⟨more, -, nonempty, isChain⟩ := searched
      exact ⟨fun _ => walk_of_chain nonempty isChain, fun _ => rfl⟩
  unfold cycleChain
  rw [List.findSome?_isSome_iff, Relation.TransGen.head'_iff]
  constructor
  · rintro ⟨reference, inSelf, found⟩
    obtain ⟨isRead, isSelf⟩ := List.mem_filter.mp inSelf
    have reads : SelfReads env fieldId references fieldId reference.field.id := by
      unfold SelfReads
      rw [if_pos rfl]
      exact ⟨reference, isRead, of_decide_eq_true isSelf, rfl⟩
    refine ⟨reference.field.id, reads, ?_⟩
    split at found
    next itself =>
      rw [itself]
    next =>
      rw [Option.isSome_map] at found
      exact ((closes reference.field.id).mp found).to_reflTransGen
  · rintro ⟨id, reads, back⟩
    unfold SelfReads at reads
    rw [if_pos rfl] at reads
    obtain ⟨reference, isRead, isSelf, rfl⟩ := reads
    refine ⟨reference, List.mem_filter.mpr ⟨isRead, decide_eq_true isSelf⟩, ?_⟩
    split
    next => rfl
    next other =>
      rw [Option.isSome_map]
      exact (closes reference.field.id).mpr ((Relation.reflTransGen_iff_eq_or_transGen.mp back).resolve_left fun same => other same.symm)

end Reads

section Reported
variable {N : Type} [JsNumber N] [Unicode]

theorem errors_checkFormula (node : SyntaxNode N) (env : FormulaEnvironment) {options : CheckOptions} {fieldId : Text}
    (defines : options.fieldId = some fieldId) : ∃ undetermined : List FormulaDiagnostic,
      (checkFormula node env options).errors = sortDiagnostics ((check env node).errors ++ cycleErrors env fieldId (check env node).references ++
        depthErrors env (options.formulaDepth.getD defaultFormulaDepth) (check env node).references ++ undetermined) ∧
      ∀ diagnostic ∈ undetermined, diagnostic.code = .undeterminedType := by
  unfold checkFormula
  rw [defines]
  dsimp only
  split
  next none_reported _ => exact ⟨_, congrArg sortDiagnostics none_reported.symm, fun diagnostic member => by
    rw [(List.append_eq_nil_iff.mp none_reported).2] at member
    exact absurd member List.not_mem_nil⟩
  next =>
    refine ⟨_, rfl, fun diagnostic member => ?_⟩
    split at member
    next => rw [List.mem_singleton.mp member]
    next => exact absurd member List.not_mem_nil

omit [Unicode] in
theorem depth_not_cycle {env : FormulaEnvironment} {limit : Nat} {references : List Reference} :
    ∀ diagnostic ∈ depthErrors env limit references, diagnostic.code ≠ .cycle := by
  intro diagnostic member
  unfold depthErrors at member
  split at member
  next =>
    split at member
    next =>
      rw [List.mem_singleton.mp member]
      exact fun same => by cases same
    next => exact absurd member List.not_mem_nil
  next => exact absurd member List.not_mem_nil

theorem cycle_mem_iff {node : SyntaxNode N} {env : FormulaEnvironment} {options : CheckOptions} {fieldId : Text}
    (defines : options.fieldId = some fieldId) (binds : (check env node).errors = []) :
    (∃ diagnostic ∈ (checkFormula node env options).errors, diagnostic.code = .cycle) ↔
      cycleErrors env fieldId (check env node).references ≠ [] := by
  obtain ⟨undetermined, errors, onlyUndetermined⟩ := errors_checkFormula node env defines
  rw [errors, binds, List.nil_append]
  constructor
  · rintro ⟨diagnostic, member, isCycle⟩ none_closes
    rw [none_closes, List.nil_append] at member
    rcases List.mem_append.mp ((List.mem_insertionSort _).mp member) with depth | untyped
    · exact depth_not_cycle diagnostic depth isCycle
    · rw [onlyUndetermined diagnostic untyped] at isCycle
      cases isCycle
  · intro closes
    obtain ⟨diagnostic, member⟩ := List.exists_mem_of_ne_nil _ closes
    refine ⟨diagnostic, (List.mem_insertionSort _).mpr ?_, ?_⟩
    · exact List.mem_append_left _ (List.mem_append_left _ member)
    · unfold cycleErrors at member
      split at member
      next => exact absurd member List.not_mem_nil
      next => rw [List.mem_singleton.mp member]

omit [Unicode] in
theorem cycleErrors_ne_nil {env : FormulaEnvironment} {fieldId : Text} {references : List Reference} :
    cycleErrors env fieldId references ≠ [] ↔ (cycleChain env fieldId references).isSome = true := by
  unfold cycleErrors
  cases cycleChain env fieldId references with
  | none => simp
  | some found => simp

/-- A cycle is reported exactly where one would close. -/
theorem cycle_reported_iff (env : FormulaEnvironment) (distinctIds : SelfIdsDistinct env) (node : SyntaxNode N) (fieldId : Text)
    (options : CheckOptions) (defines : options.fieldId = some fieldId) (binds : (check env node).errors = []) :
    (∃ diagnostic ∈ (checkFormula node env options).errors, diagnostic.code = .cycle) ↔
      Relation.TransGen (SelfReads env fieldId (check env node).references) fieldId fieldId := by
  rw [cycle_mem_iff defines binds, cycleErrors_ne_nil, cycleChain_isSome distinctIds]

end Reported

section Circular

def formulaField (id : Text) (dependencies : List FormulaFieldRef) : FormulaField where
  id := id
  label := id
  key := id
  type := .formula .number
  scope := .self
  classified := false
  outOfScope := none
  kind := .formula
  depth := none
  dependencies := dependencies

def totals : FormulaEnvironment := [formulaField (js "net") [], formulaField (js "total") [⟨js "net", .self⟩]]

def readsTotal : SyntaxNode Whole := .field (js "total") false none ⟨0, 5⟩

theorem cycle_reported_totals : ∃ diagnostic ∈ (@checkFormula Whole _ asciiTables readsTotal totals ⟨some (js "net"), none⟩).errors, diagnostic.code = .cycle := by
  have binds : (@check Whole _ asciiTables totals readsTotal).errors = [] := by decide +kernel
  have distinctIds : SelfIdsDistinct totals := by
    unfold SelfIdsDistinct
    decide
  have netReadsTotal : SelfReads totals (js "net") (@check Whole _ asciiTables totals readsTotal).references (js "net") (js "total") := by
    unfold SelfReads
    decide +kernel
  have totalReadsNet : SelfReads totals (js "net") (@check Whole _ asciiTables totals readsTotal).references (js "total") (js "net") := by
    unfold SelfReads
    decide +kernel
  exact (@cycle_reported_iff Whole _ asciiTables totals distinctIds readsTotal (js "net") ⟨some (js "net"), none⟩ rfl binds).mpr
    (.tail (.single netReadsTotal) totalReadsNet)

end Circular

end OpenShapeForge.Formula.CycleExact
