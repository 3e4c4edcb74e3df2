import OpenShapeForge.Js.Value
import OpenShapeForge.Library.Parties
import Mathlib.Data.Rat.Init
import Mathlib.Logic.Function.Basic

/-! The refresh of stored OAuth tokens (apps/api/src/connectors/token-lifecycle.ts):
calls of ensureOAuthTokenSet on one stored row, each from one await to the next. -/

namespace OpenShapeForge.Connectors.TokenLifecycle
open Js Library

structure OAuthTokenSet where
  accessToken : Text
  refreshToken : Option Text
  /-- In seconds, as stored; the sums of the source are taken as exact. -/
  expiresAt : ℚ
  grantedScopes : Option (List Text)
deriving DecidableEq

inductive FailureCode where
  | reauthorizationRequired
  | oauthFailed
deriving DecidableEq

/-- What a call throws: the reason of its signal, an OAuthTokenLifecycleError, or what
an adapter threw. -/
inductive Failure where
  | aborted
  | lifecycle (code : FailureCode) (message : Text)
  | other
deriving DecidableEq

def reauthorization (message : Text) : Failure := .lifecycle .reauthorizationRequired message

/-- What a call is given besides the store and the endpoint. -/
structure Input where
  refreshLeewaySeconds : Option ℚ
  refreshUnsupported : Bool
  /-- The clock of a test, in milliseconds. -/
  now : Option ℚ

/-- What the provider answers; `body` is what JSON.parse makes of its bounded bytes. -/
structure Response (N : Type) where
  status : Nat
  body : Option (Value N)

def oauthTokenNeedsRefresh (expiresAt : ℚ) (refreshLeewaySeconds : Option ℚ) (now : ℚ) : Bool :=
  expiresAt ≤ (now / 1000).floor + refreshLeewaySeconds.getD 60

section Answer
variable {N : Type} [JsNumber N]

def maxSafeInteger : Nat := 9007199254740991

def safeSeconds (seconds : N) : Option Nat := (JsNumber.toNat? seconds).filter (· ≤ maxSafeInteger)

def oauthExpiresIn : Option (Value N) → Option Nat
  | some (.text value) => if value ≠ [] ∧ value.all isDigit then safeSeconds (JsNumber.ofText value : N) else none
  | some (.number value) => safeSeconds value
  | _ => none

def oauthScopeList : Option (Value N) → Option (List Text)
  | some (.text value) =>
    match (value.splitOn (unit ' ')).filter (· ≠ []) with
    | [] => none
    | scopes => some scopes
  | _ => none

/-- A property that is a string with something in it. -/
def nonEmptyText : Option (Value N) → Option Text
  | some (.text (c :: rest)) => some (c :: rest)
  | _ => none

def readOAuthTokenResponse (body : Option (Value N)) : Except Failure (Value N) :=
  match body with
  | some (.object members) => .ok (.object members)
  | _ => .error (.lifecycle .oauthFailed (js "The provider token endpoint returned an invalid response."))

/-- Whether the provider took the refresh, from the status of its answer alone. -/
def refusal (status : Nat) : Option Failure :=
  if 200 ≤ status ∧ status ≤ 299 then none
  else if status = 400 ∨ status = 401 then
    some (reauthorization (js "The provider refused token refresh; authorization is required again."))
  else some (.lifecycle .oauthFailed (js "The provider token endpoint could not refresh the connection."))

def refreshedTokenSet (refreshToken : Text) (now : ℚ) (body : Option (Value N)) : Except Failure OAuthTokenSet := do
  let payload ← readOAuthTokenResponse body
  match nonEmptyText (payload.own? (js "access_token")) with
  | none => .error (.lifecycle .oauthFailed (js "The provider token endpoint returned no access token."))
  | some accessToken => .ok {
      accessToken
      refreshToken := some ((nonEmptyText (payload.own? (js "refresh_token"))).getD refreshToken)
      expiresAt := (now / 1000).floor + ((oauthExpiresIn (payload.own? (js "expires_in"))).getD 3600 : Nat)
      grantedScopes := oauthScopeList (payload.own? (js "scope")) }

def Response.issued (response : Response N) (refreshToken : Text) (now : ℚ) : Option OAuthTokenSet :=
  match refusal response.status with
  | some _ => none
  | none => (refreshedTokenSet refreshToken now response.body).toOption

end Answer

structure StoreCodec (Stored : Type) where
  encode : OAuthTokenSet → Stored
  decode : Stored → Except Failure OAuthTokenSet

/-- What the provider sees: a refresh token presented to it, and the one it issued for it. -/
inductive Exchange where
  | presented (refreshToken : Text)
  | answered (refreshToken issued : Text)
deriving DecidableEq

inductive Audit where
  | refreshed
  | reauthorization
deriving DecidableEq

/-- The row and its lock, the provider's log and the journal, each with the newest first. -/
structure Shared (Stored : Type) where
  rows : List Stored
  lock : Option Nat
  exchanges : List Exchange
  journal : List Audit

/-- Which await a call is at. -/
inductive Phase (Stored N : Type) where
  | idle
  | locking
  | reading
  | decoding (stored : Stored)
  | fetching (refreshToken : Text) (now : ℚ)
  /-- The provider has answered, and the answer is on its way. -/
  | responding (refreshToken : Text) (now : ℚ) (response : Response N)
  | receiving (refreshToken : Text) (now : ℚ) (body : Option (Value N))
  | refreshing (refreshToken : Text) (tokens : OAuthTokenSet)
  | persisting (refreshToken : Text) (tokens : OAuthTokenSet)
  | auditing (tokens : OAuthTokenSet)
  | returned (tokens : OAuthTokenSet)
  | failed (failure : Failure)

structure Call (Stored N : Type) where
  phase : Phase Stored N
  cancelled : Bool

/-- What happens to a call: its signal, or the await it is at. -/
inductive Event (N : Type) where
  | cancel
  | start
  /-- The lock is given to it, or waiting for it ends with its signal. -/
  | lock
  | giveUp
  | read
  | decode (clock : ℚ)
  /-- The provider answers, or the request never reaches it. -/
  | answer (response : Response N)
  | unanswered
  | response
  /-- The body, which a cancelled call may lose. -/
  | body (lost : Bool)
  | refreshed
  | persisted
  | audited

section Perform
variable {Stored N : Type} [JsNumber N] (codec : StoreCodec Stored) (input : Nat → Input)

/-- The call throws inside its transaction: what it wrote is rolled back and the lock
freed, and recovery is journalled after that. -/
def Shared.abandon (shared : Shared Stored) (failure : Failure) : Shared Stored :=
  { shared with
    lock := none
    journal := match failure with
      | .lifecycle .reauthorizationRequired _ => .reauthorization :: shared.journal
      | _ => shared.journal }

def fail (shared : Shared Stored) (call : Call Stored N) (failure : Failure) : Option (Shared Stored × Call Stored N) :=
  some (shared.abandon failure, { call with phase := .failed failure })

/-- `throwIfAborted`, and what is done otherwise. -/
def unlessAborted (shared : Shared Stored) (call : Call Stored N) (otherwise : Option (Shared Stored × Call Stored N)) :
    Option (Shared Stored × Call Stored N) :=
  if call.cancelled then fail shared call .aborted else otherwise

def useTokens (input : Input) (clock : ℚ) (shared : Shared Stored) (call : Call Stored N) (tokens : OAuthTokenSet) :
    Option (Shared Stored × Call Stored N) :=
  let now := input.now.getD clock
  if !oauthTokenNeedsRefresh tokens.expiresAt input.refreshLeewaySeconds now then
    some ({ shared with lock := none }, { call with phase := .returned tokens })
  else
    match tokens.refreshToken with
    | none | some [] => fail shared call
        (reauthorization (js "Stored OAuth tokens have no refresh token; authorization is required again."))
    | some refreshToken =>
      if input.refreshUnsupported then fail shared call
        (reauthorization (js "The authorization server offers no refresh grant; authorization is required again."))
      else unlessAborted shared call (some (
        { shared with exchanges := .presented refreshToken :: shared.exchanges },
        { call with phase := .fetching refreshToken now }))

def decodeFailure : Failure → Failure
  | .lifecycle code message => .lifecycle code message
  | _ => reauthorization (js "Stored OAuth tokens are unreadable; authorization is required again.")

def perform (party : Nat) (shared : Shared Stored) (call : Call Stored N) : Event N → Option (Shared Stored × Call Stored N)
  | .cancel => some (shared, { call with cancelled := true })
  | .start =>
    match call.phase with
    | .idle => some (shared, { call with phase := if call.cancelled then .failed .aborted else .locking })
    | _ => none
  | .lock =>
    match call.phase, shared.lock with
    | .locking, none =>
      unlessAborted shared call (some ({ shared with lock := some party }, { call with phase := .reading }))
    | _, _ => none
  | .giveUp =>
    match call.phase with
    | .locking => if call.cancelled then some (shared, { call with phase := .failed .aborted }) else none
    | _ => none
  | .read =>
    match call.phase with
    | .reading => unlessAborted shared call
        (match shared.rows.head? with
        | none => fail shared call (reauthorization (js "Stored OAuth tokens are missing; authorization is required again."))
        | some stored => some (shared, { call with phase := .decoding stored }))
    | _ => none
  | .decode clock =>
    match call.phase with
    | .decoding stored =>
      match codec.decode stored with
      | .error failure => fail shared call (decodeFailure failure)
      | .ok tokens => useTokens (input party) clock shared call tokens
    | _ => none
  | .answer response =>
    match call.phase with
    | .fetching refreshToken now =>
      some ({ shared with
        exchanges := match response.issued refreshToken now with
          | some tokens => .answered refreshToken (tokens.refreshToken.getD refreshToken) :: shared.exchanges
          | none => shared.exchanges }, { call with phase := .responding refreshToken now response })
    | _ => none
  | .unanswered =>
    match call.phase with
    | .fetching _ _ => fail shared call (if call.cancelled then .aborted else .other)
    | _ => none
  | .response =>
    match call.phase with
    | .responding refreshToken now response => unlessAborted shared call
        (match refusal response.status with
        | some failure => fail shared call failure
        | none => some (shared, { call with phase := .receiving refreshToken now response.body }))
    | _ => none
  | .body lost =>
    match call.phase with
    | .receiving refreshToken now body =>
      match refreshedTokenSet refreshToken now (if lost && call.cancelled then none else body) with
      | .error failure => fail shared call failure
      | .ok tokens => some (shared, { call with phase := .refreshing refreshToken tokens })
    | _ => none
  | .refreshed =>
    match call.phase with
    | .refreshing refreshToken tokens =>
      unlessAborted shared call (some (shared, { call with phase := .persisting refreshToken tokens }))
    | _ => none
  | .persisted =>
    match call.phase with
    | .persisting _ tokens => unlessAborted shared call (some (shared, { call with phase := .auditing tokens }))
    | _ => none
  | .audited =>
    match call.phase with
    | .auditing tokens =>
      -- The transaction commits with what it persisted and journalled.
      some ({ shared with
        rows := codec.encode tokens :: shared.rows
        lock := none
        journal := .refreshed :: shared.journal }, { call with phase := .returned tokens })
    | _ => none

end Perform

def initial {Stored N : Type} (row : Option Stored) : Parties.State Nat (Shared Stored) (Call Stored N) :=
  ⟨⟨row.toList, none, [], []⟩, fun _ => ⟨.idle, false⟩⟩

end OpenShapeForge.Connectors.TokenLifecycle
