import OpenShapeForge.Js.Json
import OpenShapeForge.Operations.FieldValues

/-! The typed-variable contract (packages/operations/src/field-variables.ts): whether a
variable may fill a field. -/

namespace OpenShapeForge.Operations.FieldVariables
open Js FieldValues

inductive FieldVariableMode where
  | none
  | whole
  | template
  | both
deriving DecidableEq

inductive VariableUsage where
  | whole
  | template
deriving DecidableEq

structure VariableValueShape (N : Type) where
  osfType : Text
  baseType : BaseType
  cardinality : Multiplicity
  nullable : Bool := false
  enum : Option (List (Value N)) := none
  target : Option Text := none
  unit : Option Text := none
  currency : Option Text := none
  children : Option (List (Text × VariableValueShape N)) := none

structure VariableSlot (N : Type) extends VariableValueShape N where
  path : Text
  mode : FieldVariableMode

inductive VariableRefusalCode where
  | variableSyntax
  | variablesNotPermitted
  | unknownVariable
  | incompatibleType
  | incompatibleCardinality
  | incompatibleReference
  | incompatibleDomain
  | unformattableValue
  | missingValue
  | sourceContractViolated
deriving DecidableEq

inductive VariableFailure where
  | refusal (code : VariableRefusalCode) (message : Text)
  | error (message : Text)
deriving DecidableEq

def refuse {α : Type} (code : VariableRefusalCode) (message : Text) : Except VariableFailure α := .error (.refusal code message)

variable {N : Type} [JsNumber N]

def permitsVariableUsage (mode : FieldVariableMode) : VariableUsage → Bool
  | .whole => decide (mode = .both) || decide (mode = .whole)
  | .template => decide (mode = .both) || decide (mode = .template)

def formattable (baseType : BaseType) : Bool := decide (baseType ≠ .object)

def unrefined (slot : VariableSlot N) : Bool := isBaseType slot.osfType && slot.enum.isNone && slot.target.isNone

def sameValueZero : Value N → Value N → Bool
  | .null, .null => true
  | .boolean a, .boolean b => a = b
  | .number a, .number b => JsNumber.equal a b || (JsNumber.isNaN a && JsNumber.isNaN b)
  | .text a, .text b => a = b
  | _, _ => false

def domainAdmits (slot : VariableSlot N) (value : Value N) : Bool :=
  let domain := slot.enum.getD []
  if slot.baseType = .integer ∨ slot.baseType = .number then domain.any fun allowed => exactNumericEquals allowed value
  else domain.any fun allowed => sameValueZero allowed value

def assertVariableUsagePermitted (slot : VariableSlot N) (usage : VariableUsage) : Except VariableFailure Unit :=
  if permitsVariableUsage slot.mode usage then .ok ()
  else refuse .variablesNotPermitted (slot.path ++ match usage with
    | .whole => js " does not accept a variable as its value."
    | .template => js " does not accept variables in its text.")

def childKeys (children : Option (List (Text × VariableValueShape N))) : List Text := sortTexts ((children.getD []).map Prod.fst)

/-- Whether a variable may fill a field, down to so many levels below its top. -/
def compatibilityAtDepth : (levels : Nat) → VariableSlot N → VariableValueShape N → VariableUsage → Except VariableFailure Unit
  | 0, _, _, _ => refuse .incompatibleType (js "The variable value shape exceeds the supported nesting depth.")
  | levels + 1, slot, offer, usage => do
    assertVariableUsagePermitted slot usage
    match usage with
    | .template =>
      if slot.baseType ≠ .string ∨ slot.cardinality ≠ .single then
        refuse .incompatibleType (slot.path ++ js " is not a single text value, so it holds no template.")
      else if offer.cardinality ≠ .single then
        refuse .incompatibleCardinality (js "A collection cannot be written into the text of " ++ slot.path ++ js ".")
      else match offer.target with
        | some target =>
          refuse .incompatibleReference (js "A " ++ target ++ js " reference cannot be written into the text of " ++ slot.path ++ js ".")
        | none =>
          if formattable offer.baseType then .ok ()
          else refuse .unformattableValue (js "A " ++ offer.osfType ++ js " value cannot be written as text.")
    | .whole =>
      if offer.cardinality ≠ slot.cardinality then
        refuse .incompatibleCardinality (slot.path ++ js " takes a " ++ slot.cardinality.name ++ js " value, the variable is a " ++
          offer.cardinality.name ++ js " value.")
      else if offer.target ≠ slot.target then
        refuse .incompatibleReference (match slot.target, offer.target with
          | none, offered => slot.path ++ js " is not a reference, the variable references " ++ offered.getD (js "undefined") ++ js "."
          | some target, none => slot.path ++ js " references " ++ target ++ js ", the variable references nothing."
          | some target, some offered =>
            slot.path ++ js " references " ++ target ++ js ", the variable references " ++ offered ++ js ".")
      else if offer.osfType ≠ slot.osfType ∧ ¬(unrefined slot ∧ offer.baseType = slot.baseType) then
        refuse .incompatibleType (slot.path ++ js " takes a " ++ slot.osfType ++ js " value, the variable is a " ++
          offer.osfType ++ js " value.")
      else if offer.unit ≠ slot.unit ∨ offer.currency ≠ slot.currency then
        refuse .incompatibleType (slot.path ++ js " and the variable declare different unit or currency contexts.")
      else if childKeys slot.children ≠ childKeys offer.children then
        refuse .incompatibleType (slot.path ++ js " and the variable declare different object shapes.")
      else do
        for key in childKeys slot.children do
          match (slot.children.getD []).find? fun child => child.1 = key,
              (offer.children.getD []).find? fun child => child.1 = key with
          | some (_, required), some (_, offered) =>
            compatibilityAtDepth levels { required with path := slot.path ++ js "." ++ key, mode := .whole } offered .whole
          | _, _ => .ok ()
        match slot.enum with
        | some _ =>
          if (offer.enum.map fun domain => domain.all (domainAdmits slot)) = some true then .ok ()
          else refuse .incompatibleDomain (slot.path ++ js " admits only its own allowed values, which the variable does not declare.")
        | none => .ok ()

/-- The deepest level compared is the thirty-second below the top. -/
def assertVariableCompatible (slot : VariableSlot N) (offer : VariableValueShape N) (usage : VariableUsage) :
    Except VariableFailure Unit := compatibilityAtDepth 33 slot offer usage

end OpenShapeForge.Operations.FieldVariables
