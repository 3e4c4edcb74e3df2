import OpenShapeForge.Js.JsonText
import OpenShapeForge.Library.OrderedMap
import OpenShapeForge.Library.Failing
import OpenShapeForge.Library.Sweeps

/-! Copying a published graph of records into a tenant
(apps/api/src/operations/entity/blueprint-graph.ts). -/

namespace OpenShapeForge.Operations.BlueprintGraph
open Js Library

structure BlueprintReference where
  entity : Text
  sourceId : Text
  deriving DecidableEq

structure BlueprintGraphRecord where
  entity : Text
  sourceId : Text
  values : OrderedMap Text Json
  references : OrderedMap Text (Option BlueprintReference)

abbrev BlueprintBindings := OrderedMap Text (OrderedMap Text Text)

inductive BlueprintFailure
  | size | identityMissing | duplicate | scalarToo | unbound | circular | noIdentity
  deriving DecidableEq

def BlueprintFailure.message : BlueprintFailure → Text
  | size => js "Blueprint graph must contain between 1 and 1000 records."
  | identityMissing => js "Blueprint graph identity is missing."
  | duplicate => js "Blueprint graph contains duplicate source identities."
  | scalarToo => js "Blueprint reference must not also be a scalar value."
  | unbound => js "Blueprint external reference requires a destination binding."
  | circular => js "Blueprint graph contains circular required references."
  | noIdentity => js "Blueprint create returned no destination identity."

/-- `JSON.stringify([entity,id])` -/
def identity (entity id : Text) : Text := unit '[' :: (quoteJson entity ++ unit ',' :: (quoteJson id ++ [unit ']']))

def BlueprintGraphRecord.key (record : BlueprintGraphRecord) : Text := identity record.entity record.sourceId

def BlueprintReference.key (reference : BlueprintReference) : Text := identity reference.entity reference.sourceId

/-- The functions that every object has, with the `name` of each. -/
def functionNames : List (Text × Text) :=
  [(js "constructor", js "Object"), (js "__defineGetter__", js "__defineGetter__"), (js "__defineSetter__", js "__defineSetter__"),
    (js "hasOwnProperty", js "hasOwnProperty"), (js "__lookupGetter__", js "__lookupGetter__"), (js "__lookupSetter__", js "__lookupSetter__"),
    (js "isPrototypeOf", js "isPrototypeOf"), (js "propertyIsEnumerable", js "propertyIsEnumerable"), (js "toString", js "toString"),
    (js "valueOf", js "valueOf"), (js "toLocaleString", js "toLocaleString")]

def ownBinding (bindings : BlueprintBindings) (reference : BlueprintReference) : Option Text :=
  (bindings.get? reference.entity).bind fun own => own.get? reference.sourceId

/-- `bindings[entity]?.[sourceId]` where it is a text: of what objects inherit, only the names of functions are. -/
def binding (bindings : BlueprintBindings) (reference : BlueprintReference) : Option Text :=
  match bindings.get? reference.entity with
  | some own => own.get? reference.sourceId
  | none => if reference.sourceId = js "name" then (functionNames.find? fun entry => entry.1 = reference.entity).map Prod.snd else none

def isBound (bound : Option Text) : Bool := bound.any fun text => trim text ≠ []

/-- The checks of one record, which joins those before it. -/
def register (all : OrderedMap Text BlueprintGraphRecord) (record : BlueprintGraphRecord) :
    Except BlueprintFailure (OrderedMap Text BlueprintGraphRecord) :=
  if record.entity = [] ∨ record.sourceId = [] then .error .identityMissing
  else if all.has record.key then .error .duplicate
  else if record.references.keys.any record.values.has then .error .scalarToo
  else .ok (all.set record.key record)

section Planning
variable (all : OrderedMap Text BlueprintGraphRecord) (bindings : BlueprintBindings)

def readyOf (done : List Text) : List (Option BlueprintReference) → Bool → Except BlueprintFailure Bool
  | [], ready => .ok ready
  | none :: rest, ready => readyOf done rest ready
  | some reference :: rest, ready =>
    if all.has reference.key then readyOf done rest (ready && done.contains reference.key)
    else if isBound (binding bindings reference) then readyOf done rest ready
    else .error .unbound

structure BlueprintPass where
  ordered : List BlueprintGraphRecord
  done : List Text
  remaining : List (Text × BlueprintGraphRecord)
  progressed : Bool

def visit (pass : BlueprintPass) (entry : Text × BlueprintGraphRecord) : Except BlueprintFailure BlueprintPass := do
  let ready ← readyOf all bindings pass.done (entry.2.references.entries.map Prod.snd) true
  if ready then .ok { pass with ordered := pass.ordered ++ [entry.2], done := pass.done ++ [entry.1], progressed := true }
  else .ok { pass with remaining := pass.remaining ++ [entry] }

/-- The sweeps over the remaining records; none where they take more than so many steps. -/
def sweeps : Nat → List (Text × BlueprintGraphRecord) → List BlueprintGraphRecord → List Text →
    Option (Except BlueprintFailure (List BlueprintGraphRecord))
  | _, [], ordered, _ => some (.ok ordered)
  | 0, _ :: _, _, _ => none
  | steps + 1, entry :: rest, ordered, done =>
    match (entry :: rest).foldlM (visit all bindings) ⟨ordered, done, [], false⟩ with
    | .error failure => some (.error failure)
    | .ok pass => if pass.progressed then sweeps steps pass.remaining pass.ordered pass.done else some (.error .circular)

end Planning

def planBlueprintGraph (records : List BlueprintGraphRecord) (bindings : BlueprintBindings) :
    Option (Except BlueprintFailure (List BlueprintGraphRecord)) :=
  if records = [] ∨ 1000 < records.length then some (.error .size)
  else match records.foldlM register .empty with
    | .error failure => some (.error failure)
    | .ok all => sweeps all bindings all.entries.length all.entries [] []

/-- `values[field] = value`: the setter of the prototype takes no own value of that name. -/
def assign (values : OrderedMap Text Json) (field : Text) (value : Json) : OrderedMap Text Json :=
  if field = js "__proto__" && !values.has field then values else values.set field value

def referenceValue (copied : OrderedMap Text Text) (bindings : BlueprintBindings) : Option BlueprintReference → Json
  | none => .null
  | some reference => .text ((copied.get? reference.key).getD ((binding bindings reference).getD []))

def createdValues (copied : OrderedMap Text Text) (bindings : BlueprintBindings) (record : BlueprintGraphRecord) : OrderedMap Text Json :=
  record.references.entries.foldl (fun values entry => assign values entry.1 (referenceValue copied bindings entry.2)) record.values

abbrev BlueprintCall := Text × OrderedMap Text Json

/-- The calls of `create`, which answers each with an id that may depend on all the calls so far. -/
def createAll (create : List BlueprintCall → Text) (bindings : BlueprintBindings) :
    List BlueprintGraphRecord → OrderedMap Text Text → List BlueprintCall → List BlueprintCall × Except BlueprintFailure (OrderedMap Text Text)
  | [], copied, calls => (calls, .ok copied)
  | record :: rest, copied, calls =>
    let made := calls ++ [(record.entity, createdValues copied bindings record)]
    if create made = [] then (made, .error .noIdentity)
    else createAll create bindings rest (copied.set record.key (create made)) made

def copyBlueprintGraph (records : List BlueprintGraphRecord) (bindings : BlueprintBindings) (create : List BlueprintCall → Text) :
    Option (List BlueprintCall × Except BlueprintFailure (OrderedMap Text Text)) :=
  (planBlueprintGraph records bindings).map fun
    | .error failure => ([], .error failure)
    | .ok ordered => createAll create bindings ordered .empty []

theorem identity_inj {entity id entity' id' : Text} (same : identity entity id = identity entity' id') : entity = entity' ∧ id = id' := by
  obtain ⟨sameEntity, sameRest⟩ := JsonText.quoteJson_append_inj (List.cons.inj same).2
  exact ⟨sameEntity, (JsonText.quoteJson_append_inj (List.cons.inj sameRest).2).1⟩

end OpenShapeForge.Operations.BlueprintGraph
