import Mathlib.Algebra.Order.Ring.Unbundled.Rat
import Mathlib.Tactic.Linarith
import OpenShapeForge.Connectors.ConnectorGovernor
import OpenShapeForge.Js.Whole

/-! What a run under its policy keeps to: how often it tries, how long it takes, what it
ends with, and that it gives its slot back once. -/

namespace OpenShapeForge.Connectors.ConnectorGovernor
open Js

section Honoured
variable {N Result : Type} [JsNumber N] {options : GovernorOptions N} {around : Surroundings N Result}
  {progress : Progress N Result}

def cancelled (options : GovernorOptions N) (progress : Progress N Result) : Bool := options.signal.isSome && progress.aborted

end Honoured

section Cancelled

/-- A query that its policy tries twice, and whose signal gives the reason `null`. -/
def twice : GovernorOptions Whole where
  connector := js "crm"
  operationKey := js "list"
  kind := .query
  tenantId := js "t"
  reliability := ⟨⟨1000, 5000⟩, ⟨true, 2, js "fixed"⟩, none, 4, some 1, none⟩
  signal := some (.other .null)

def unused : Shared := ⟨fun _ => none, fun _ => none⟩

/-- A call of the same tenant was counted in the window before. -/
def usedUp : Shared := ⟨fun _ => some ⟨0, 1⟩, fun _ => none⟩

end Cancelled

end OpenShapeForge.Connectors.ConnectorGovernor
