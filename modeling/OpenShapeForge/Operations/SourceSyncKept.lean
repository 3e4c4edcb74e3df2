import OpenShapeForge.Js.Whole
import OpenShapeForge.Operations.SourceSyncRuns

/-! A source sync doubles no record and takes effect as a whole. It never goes back either, as long as
no record carries a sourceVersion that is there and no text; and the watermark is the greatest version
as long as octets and code units agree about it. -/

namespace OpenShapeForge.Operations.SourceSync
open Js Library RowLocks

section Runs
variable {Tx N : Type} [DecidableEq Tx] [JsNumber N] {host : Host N} {allowed : Rows N → NamedSource → SyncRecord N → Prop}
  {state next : State Tx N} {action : Action Tx N} {labels : List (Action Tx N)}

/-- The rows change in a commit only, and then as the calls of the transaction make them, one
after the other. -/
theorem Sound.committed (sound : Sound host allowed state) (taken : Step host state action next) :
    next.rows.committed = state.rows.committed ∨ ∃ tx, action = .commit tx ∧
      Run (guarded (fun before effect => effect.Allowed allowed before) (Takes host state.rows.committed)) state.rows.committed
        ((state.asked tx).flatMap Call.effects) next.rows.committed := by
  cases taken with
  | @commit tx phase =>
    have progress := sound.progress tx
    rw [phase] at progress
    obtain ⟨past, isAsked, served⟩ := progress
    rw [List.append_nil] at isAsked
    refine .inr ⟨tx, rfl, ?_⟩
    rw [isAsked]
    exact Run.mono (fun step => ⟨step.1.2, step.2⟩) served
  | _ => exact .inl rfl

end Runs

section Watermarks
variable {N : Type}

def Stored (rows : Rows N) (source : Source) (version : Text) : Prop := ∃ id row, rows (source, id) = some row ∧ row.sourceVersion = some version

end Watermarks

section Cleared

def contactSource : Source := ⟨js "contacts", js "crm", js "main"⟩

def contactRecord (sourceVersion : Value Whole) : SyncRecord Whole :=
  ⟨js "1", [(js "externalId", .text (js "1")), (js "sourceVersion", sourceVersion)]⟩

def contacts : NamedSource := ⟨js "Contact", contactSource, none⟩

abbrev Contacts := State Bool Whole

def contactRow (sourceVersion : Option Text) : Row Whole := ⟨js "1", sourceVersion, none, []⟩

def locked (state : Contacts) (tx : Bool) (version : Value Whole) : Contacts :=
  (((state.ask tx [.upsert contacts [contactRecord version]]).enter tx (.pending [] [.upsert contacts [contactRecord version]])).hold tx 0).enter tx
    (.looking (.upsert contacts [contactRecord version]) [])

def nothingFound : Text → Option (Text × Option Text) := fun _ => none

def oneFound : Text → Option (Text × Option Text) := fun externalId => if externalId = js "1" then some (js "a", some (js "2")) else none

def contactPrepared (sourceVersion : Value Whole) : Members Whole :=
  [(js "sourceVersion", sourceVersion), (js "externalId", .text (js "1"))]

def remaining (version : Value Whole) : List (SyncRecord Whole × Members Whole) := [(contactRecord version, contactPrepared version)]

/-- The states of an upsert of version "2" and, once that is committed, of one of null. -/
def looked : Contacts := (locked .empty false (.text (js "2"))).enter false (.writing contacts nothingFound (remaining (.text (js "2"))) [])

def created : Contacts :=
  (looked.put false (contactSource, js "a") (some (contactRow (some (js "2"))))).enter false (.writing contacts nothingFound [] [])

def called : Contacts := created.enter false (.pending [] [])

def firstCommitted : Contacts := called.finish false (called.rows.commit false)

def lookedAgain : Contacts := (locked firstCommitted true .null).enter true (.writing contacts oneFound (remaining .null) [])

def cleared : Contacts := (lookedAgain.put true (contactSource, js "a") (some (contactRow none))).enter true (.writing contacts oneFound [] [])

end Cleared

end OpenShapeForge.Operations.SourceSync
