import OpenShapeForge.Formula.Evaluate
import OpenShapeForge.Js.Dates
import OpenShapeForge.Js.Math

/-! What an evaluation reads: a formula's value goes by the fields that it depends on, by the record's id and time of
creation, and by nothing else of its record. -/

namespace OpenShapeForge.Formula.ReadsOnly
open Js Types Evaluator Evaluate

theorem pathOf_ref (path : Text) : pathOf (refOfPath path).id (refOfPath path).scope = path := by
  unfold refOfPath
  cases found : path.idxOf? (unit '.') with
  | none => rfl
  | some dot =>
    obtain ⟨inside, isDot, -⟩ := List.findIdx?_eq_some_iff_getElem.mp found
    have split : path.take dot ++ path[dot] :: path.drop (dot + 1) = path := by
      rw [← List.drop_eq_getElem_cons inside, List.take_append_drop]
    rw [eq_of_beq isDot] at split
    exact (List.append_assoc _ _ _).trans split

variable {N : Type} [JsNumber N] (realm : Realm N) {record other : Members N} {types : FieldTypes}

section Reads
variable [JsMath N] [JsDates N]

/-- The same id and the same time of creation. -/
def SameRecord (record other : Members N) : Prop := ∀ name, evalFunction realm name record = evalFunction realm name other

def ReadAlike (types : FieldTypes) (record other : Members N) (paths : List Text) : Prop :=
  ∀ path ∈ paths, readField realm path record types = readField realm path other types

variable {realm}

theorem ReadAlike.of_subset {paths more : List Text} (alike : ReadAlike realm types record other more) (within : paths ⊆ more) :
    ReadAlike realm types record other paths := fun path member => alike path (within member)

variable [Unicode]

mutual
theorem run_alike (same : SameRecord realm record other) : ∀ (ast : Ast N), ReadAlike realm types record other ast.paths →
    run realm record types ast = run realm other types ast
  | .undefined, _ | .literal _, _ => by simp only [run]
  | .path name, alike => by
    simp only [run]
    exact alike name List.mem_cons_self
  | .conditional condition thenBranch elseBranch, alike => by
    have test := run_alike same condition (alike.of_subset (by simp [Ast.paths]))
    have first := run_alike same thenBranch (alike.of_subset (by simp [Ast.paths]))
    have second := run_alike same elseBranch (alike.of_subset (by simp [Ast.paths]))
    simp only [run, test, first, second]
  | .switch subject cases default, alike => by
    have chosen := run_alike same subject (alike.of_subset (by simp [Ast.paths]))
    have others := run_alike same default (alike.of_subset (by simp [Ast.paths]))
    have each := fun value => runCases_alike same value cases (alike.of_subset (by simp [Ast.paths]))
    simp only [run, chosen, others, each]
  | .group mode conditions, alike => by
    simp only [run]
    exact runGroup_alike same mode conditions alike
  | .formula op operands, alike => by
    have first := runFirst_alike same operands alike
    have all := runAll_alike same operands alike
    simp only [run, first, all]
  | .rule operator left right, alike => by
    have one := run_alike same left (alike.of_subset (by simp [Ast.paths]))
    have two := run_alike same right (alike.of_subset (by simp [Ast.paths]))
    simp only [run, one, two]
  | .date op left right unit, alike => by
    have one := run_alike same left (alike.of_subset (by simp [Ast.paths]))
    have two := run_alike same right (alike.of_subset (by simp [Ast.paths]))
    simp only [run, one, two]
  | .function name, _ => by simp only [run, same name]

theorem runFirst_alike (same : SameRecord realm record other) : ∀ (nodes : List (Ast N)), ReadAlike realm types record other (Ast.pathsOfAll nodes) →
    runFirst realm record types nodes = runFirst realm other types nodes
  | [], _ => by simp only [runFirst]
  | node :: _, alike => by
    simp only [runFirst]
    exact run_alike same node (alike.of_subset (by simp [Ast.pathsOfAll]))

theorem runAll_alike (same : SameRecord realm record other) : ∀ (nodes : List (Ast N)), ReadAlike realm types record other (Ast.pathsOfAll nodes) →
    runAll realm record types nodes = runAll realm other types nodes
  | [], _ => by simp only [runAll]
  | node :: rest, alike => by
    have one := run_alike same node (alike.of_subset (by simp [Ast.pathsOfAll]))
    have others := runAll_alike same rest (alike.of_subset (by simp [Ast.pathsOfAll]))
    simp only [runAll, one, others]

theorem runCases_alike (same : SameRecord realm record other) (subject : Value N) : ∀ (cases : List (Ast N × Ast N)),
    ReadAlike realm types record other (Ast.pathsOfCases cases) → runCases realm record types subject cases = runCases realm other types subject cases
  | [], _ => by simp only [runCases]
  | (pattern, result) :: rest, alike => by
    have one := run_alike same pattern (alike.of_subset (by simp [Ast.pathsOfCases]))
    have two := run_alike same result (alike.of_subset (by simp [Ast.pathsOfCases]))
    have others := runCases_alike same subject rest (alike.of_subset (by simp [Ast.pathsOfCases]))
    simp only [runCases, one, two, others]

theorem runGroup_alike (same : SameRecord realm record other) (mode : GroupMode) : ∀ (nodes : List (Ast N)),
    ReadAlike realm types record other (Ast.pathsOfAll nodes) → runGroup realm record types mode nodes = runGroup realm other types mode nodes
  | [], _ => by simp only [runGroup]
  | node :: rest, alike => by
    have one := run_alike same node (alike.of_subset (by simp [Ast.pathsOfAll]))
    have others := runGroup_alike same mode rest (alike.of_subset (by simp [Ast.pathsOfAll]))
    simp only [runGroup, one, others]
end

theorem evaluate_alike {ast : Ast N} {options : EvaluateOptions} (same : SameRecord realm record other)
    (alike : ReadAlike realm (fieldTypes (options.env.getD [])) record other ast.paths) : evaluate realm ast record options = evaluate realm ast other options := by
  unfold evaluate
  rw [run_alike same ast alike]

theorem evaluate_reads_dependencies {ast : Ast N} {options : EvaluateOptions} (same : SameRecord realm record other)
    (fields : ∀ ref ∈ dependencies ast, evalPath realm (pathOf ref.id ref.scope) record = evalPath realm (pathOf ref.id ref.scope) other) :
    evaluate realm ast record options = evaluate realm ast other options := by
  refine evaluate_alike same fun path member => ?_
  have isRef : refOfPath path ∈ dependencies ast := List.mem_map_of_mem ((Library.mem_distinct _ _).mpr member)
  have read := fields _ isRef
  rw [pathOf_ref] at read
  unfold readField
  rw [read]

end Reads

section Prices
attribute [local instance] asciiTables

def bareRealm : Realm Whole := ⟨.finite 0, fun _ _ => .undefined, fun _ _ => false⟩

def priceTwice : Ast Whole := .formula .add [.path (js "price"), .path (js "price")]

def order (note : Text) : Members Whole := [(js "price", .number (.finite 2)), (js "note", .text note)]

theorem evaluate_reads_dependencies_price :
    evaluate bareRealm priceTwice (order (js "old")) ⟨none, none⟩ = evaluate bareRealm priceTwice (order (js "new")) ⟨none, none⟩ := by
  refine evaluate_reads_dependencies (fun name => by cases name <;> rfl) fun ref isRef => ?_
  obtain rfl : ref = refOfPath (js "price") := List.mem_singleton.mp isRef
  rfl

end Prices

end OpenShapeForge.Formula.ReadsOnly
